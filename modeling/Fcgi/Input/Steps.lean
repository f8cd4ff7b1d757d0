import Mathlib.Logic.Relation
import Fcgi.Input.Replies

/-!
# Input — what the reader can do to its state

`OpenReader role b`: the members of an open input buffer are in order.  This is
`is_invariant_ok()` less its two clauses that can fail: the bound on the unread content and
gptr() ≤ egptr() (`OpenReader.invariantOk`).

`ReaderStep conn c c'` lists every way in which `underflow()`, and the calls that lead to it,
change the state.  A configuration also says where the reader is (`Mode`).

A theorem about all that the reader may do is then an invariant of this relation: it is shown of
one step, by cases, and holds of all that can be reached (`Reached.invariant`).  That the programs
take no other steps is shown once (`Input/Traversal`), for all of them.
-/

namespace Fcgi
open Lib
open ServerStreambuf (eback_eq gptr_eq egptr_eq gbump_getArea_eq)

/-! ### Open input buffers -/

/-- The streams a connection of the role reads: `reader_ok` of `is_invariant_ok()`. -/
def ReaderOk (role : Role) (t : StreamType) : Prop :=
  t = .params ∨ role = ⟨0⟩ ∨ (role = .responder ∧ t = .«in») ∨
    (role = .filter ∧ (t = .«in» ∨ t = .data))

/-- An open input buffer, its members in order. -/
structure OpenReader (role : Role) (b : ServerStreambuf) : Prop where
  reader : b.isReader = true
  readerOk : ReaderOk role b.type_
  getArea : ∃ beg cur lim, b.getArea = some ⟨beg, cur, lim⟩ ∧ beg ≤ cur ∧ beg ≤ lim ∧
    cur ≤ b.bufferEnd_ ∧ lim ≤ b.bufferEnd_
  putArea : b.putArea = none
  end_le : b.bufferEnd_ ≤ b.bufferSize_
  size_ge : 2048 ≤ b.bufferSize_
  size_le : b.bufferSize_ ≤ 65528
  size_mod : b.bufferSize_ % 8 = 0
  capacity : b.bufferSize_ ≤ b.capacity
  content : b.unreadContentLength_ ≤ 65535
  padding : b.unreadPaddingLength_ ≤ 255

namespace OpenReader

variable {role : Role} {b : ServerStreambuf}

theorem getArea_ne (h : OpenReader role b) : b.getArea ≠ none := by
  obtain ⟨beg, cur, lim, e, -⟩ := h.getArea
  rw [e]; exact Option.some_ne_none _

theorem not_isClosed (h : OpenReader role b) : b.isClosed = false := by
  obtain ⟨beg, cur, lim, e, -⟩ := h.getArea
  rw [ServerStreambuf.isClosed, h.reader, e]; rfl

theorem getArea_eq (h : OpenReader role b) : b.getArea = some ⟨b.eback, b.gptr, b.egptr⟩ := by
  obtain ⟨beg, cur, lim, e, -⟩ := h.getArea
  rw [eback_eq e, gptr_eq e, egptr_eq e, e]

theorem eback_le (h : OpenReader role b) : b.eback ≤ b.gptr := by
  obtain ⟨beg, cur, lim, e, h₁, -⟩ := h.getArea
  rw [eback_eq e, gptr_eq e]; exact h₁

theorem eback_le' (h : OpenReader role b) : b.eback ≤ b.egptr := by
  obtain ⟨beg, cur, lim, e, -, h₂, -⟩ := h.getArea
  rw [eback_eq e, egptr_eq e]; exact h₂

/-- gptr() is among the bytes received. -/
theorem gptr_le (h : OpenReader role b) : b.gptr ≤ b.bufferEnd_ := by
  obtain ⟨beg, cur, lim, e, -, -, h₃, -⟩ := h.getArea
  rw [gptr_eq e]; exact h₃

theorem egptr_le (h : OpenReader role b) : b.egptr ≤ b.bufferEnd_ := by
  obtain ⟨beg, cur, lim, e, -, -, -, h₄⟩ := h.getArea
  rw [egptr_eq e]; exact h₄

/-- What of `is_invariant_ok()` is left to prove at an assertion. -/
theorem invariantOk (h : OpenReader role b) (hc : b.unreadContentLength_ ≤ b.bufferSize_)
    (hg : b.gptr ≤ b.egptr) : b.InvariantOk role := by
  have hr := h.reader
  have := h.size_ge
  have := h.padding
  simp only [ServerStreambuf.InvariantOk, hr, h.putArea, h.not_isClosed, Header.maxContentLength,
    Header.maxPaddingLength]
  exact ⟨fun _ => h.end_le, ⟨h.size_ge, h.size_le, h.size_mod⟩, ⟨hc, h.content⟩,
    ⟨by omega, h.padding⟩, fun _ => h.readerOk, .inr (.inl ⟨trivial, h.getArea_ne, trivial⟩),
    .inl trivial, .inr (.inr ⟨h.eback_le, hg, h.egptr_le⟩)⟩

/-- The invariant puts the pointers in order. -/
theorem gptr_le_egptr (h : OpenReader role b) (hi : b.InvariantOk role) : b.gptr ≤ b.egptr := by
  obtain ⟨-, -, -, -, -, -, -, hr | hc | hg⟩ := hi
  · exact absurd h.reader hr
  · exact absurd hc (Bool.eq_false_iff.mp h.not_isClosed)
  · exact hg.2.1

/-- An assertion on an open reader fails for one of two reasons. -/
theorem of_not_invariantOk (h : OpenReader role b) (hi : ¬ b.InvariantOk role) :
    b.bufferSize_ < b.unreadContentLength_ ∨ b.egptr < b.gptr := by
  by_contra hn
  rw [not_or, Nat.not_lt, Nat.not_lt] at hn
  exact hi (h.invariantOk hn.1 hn.2)

/-- The buffer with another get area and other counters is still in order. -/
theorem of_eq {b' : ServerStreambuf} (h : OpenReader role b) (ht : b'.type_ = b.type_)
    (hput : b'.putArea = b.putArea) (hsize : b'.bufferSize_ = b.bufferSize_)
    (hcap : b'.capacity = b.capacity)
    (hget : ∃ beg cur lim, b'.getArea = some ⟨beg, cur, lim⟩ ∧ beg ≤ cur ∧ beg ≤ lim ∧
      cur ≤ b'.bufferEnd_ ∧ lim ≤ b'.bufferEnd_)
    (hend : b'.bufferEnd_ ≤ b.bufferSize_) (hc : b'.unreadContentLength_ ≤ 65535)
    (hp : b'.unreadPaddingLength_ ≤ 255) : OpenReader role b' where
  reader := by rw [ServerStreambuf.isReader, ht]; exact h.reader
  readerOk := ht ▸ h.readerOk
  getArea := hget
  putArea := hput ▸ h.putArea
  end_le := hsize ▸ hend
  size_ge := hsize ▸ h.size_ge
  size_le := hsize ▸ h.size_le
  size_mod := hsize ▸ h.size_mod
  capacity := by rw [hsize, hcap]; exact h.capacity
  content := hc
  padding := hp

end OpenReader

/-- The received bytes that have not been processed. -/
def ServerStreambuf.avail (b : ServerStreambuf) : Nat := b.bufferEnd_ - b.gptr

/-- The buffer after the lengths of the header `h` have been stored. -/
def ServerStreambuf.dispatched (b : ServerStreambuf) (h : Header) : ServerStreambuf :=
  ((b.setg b.gptr b.gptr b.gptr).setUnreadContentLength h.contentLength).setUnreadPaddingLength
    h.paddingLength

/-! ### Setting the members of a reader -/

namespace OpenReader

variable {role : Role} {b : ServerStreambuf}

theorem setg (h : OpenReader role b) {beg cur lim : Nat} (h₁ : beg ≤ cur) (h₂ : beg ≤ lim)
    (h₃ : cur ≤ b.bufferEnd_) (h₄ : lim ≤ b.bufferEnd_) : OpenReader role (b.setg beg cur lim) :=
  h.of_eq rfl rfl rfl rfl ⟨_, _, _, rfl, h₁, h₂, h₃, h₄⟩ h.end_le h.content h.padding

theorem setg_gptr (h : OpenReader role b) : OpenReader role (b.setg b.gptr b.gptr b.gptr) :=
  h.setg (Nat.le_refl _) (Nat.le_refl _) h.gptr_le h.gptr_le

/-- gptr() moves on, over bytes received. -/
theorem gbump (h : OpenReader role b) {n : Nat} (hn : n ≤ b.avail) :
    OpenReader role (b.gbump n) := by
  have hle := h.gptr_le
  have hend : b.gptr + n ≤ b.bufferEnd_ := by
    rw [ServerStreambuf.avail] at hn
    omega
  exact h.of_eq rfl rfl rfl rfl ⟨_, _, _, gbump_getArea_eq h.getArea_eq _,
    Nat.le_add_right_of_le h.eback_le, h.eback_le', hend, h.egptr_le⟩ h.end_le h.content h.padding

theorem setUnreadContentLength (h : OpenReader role b) {u : Nat} (hu : u ≤ 65535) :
    OpenReader role (b.setUnreadContentLength u) :=
  h.of_eq rfl rfl rfl rfl h.getArea h.end_le hu h.padding

theorem setUnreadPaddingLength (h : OpenReader role b) {p : Nat} (hp : p ≤ 255) :
    OpenReader role (b.setUnreadPaddingLength p) :=
  h.of_eq rfl rfl rfl rfl h.getArea h.end_le h.content hp

theorem setContentMustBeDiscarded (h : OpenReader role b) (value : Bool) :
    OpenReader role (b.setContentMustBeDiscarded value) :=
  h.of_eq rfl rfl rfl rfl h.getArea h.end_le h.content h.padding

theorem setEndOfStream (h : OpenReader role b) (value : Bool) :
    OpenReader role (b.setEndOfStream value) :=
  h.of_eq rfl rfl rfl rfl h.getArea h.end_le h.content h.padding

theorem dispatched (h : OpenReader role b) (header : Header) :
    OpenReader role (b.dispatched header) :=
  (h.setg_gptr.setUnreadContentLength (Header.contentLength_le _)).setUnreadPaddingLength
    (Header.paddingLength_le _)

theorem reset (h : OpenReader role b) {t : StreamType} (hr : (b.reset t).isReader = true)
    (ht : ReaderOk role t) : OpenReader role (b.reset t) :=
  { h with reader := hr, readerOk := ht, content := Nat.zero_le _, padding := Nat.zero_le _ }

end OpenReader

/-- What a call of `underflow()` does before its loop. -/
theorem OpenReader.underflow_eq {conn : ConnectionInfo} {s : State}
    (h : OpenReader conn.role s.buf) (n : Nat) :
    underflow conn n s =
      if s.buf.isEndOfStream_ then (.ok none, s) else underflowLoop conn n [] s.entered := by
  rw [underflow, enterUnderflow, Prog.bind_ok (Prog.get_run _), Prog.bind_ok (Prog.assert_true
    ⟨h.reader, Bool.eq_false_iff.mp h.not_isClosed⟩ _)]
  split <;> rfl

/-! ### The steps -/

/-- The header of a get-values record. -/
def Header.IsGetValues (h : Header) : Prop := h.isManagementRecord ∧ h.recordType = .getValues

/-- The content of the record is passed over: a new request, or a record of another request. -/
def Header.IsRejected (conn : ConnectionInfo) (h : Header) : Prop :=
  h.recordType = .beginRequest ∨ ¬ h.isManagementRecord ∧ h.requestId ≠ conn.requestId

/-- The header belongs to the stream `t` of the connection's request. -/
def Header.IsOwn (conn : ConnectionInfo) (t : StreamType) (h : Header) : Prop :=
  h.requestId = conn.requestId ∧ h.recordType = t.recordType

/-- The header is of the connection's request, but neither of the stream `t` nor a new request. -/
def Header.IsViolation (conn : ConnectionInfo) (t : StreamType) (h : Header) : Prop :=
  h.requestId = conn.requestId ∧ h.recordType ≠ t.recordType ∧ h.recordType ≠ .beginRequest

/-- Where a reader is: between two calls of `underflow()`, in its loop with the local `header`,
which has been processed before if it is `stale`, or processing a header. -/
inductive Mode where
  | idle
  | loop (header : List UInt8) (stale : Bool)
  | process (header : List UInt8)

/-- The reader, and where it is. -/
structure Config where
  mode : Mode
  state : State

/-- One change of the state of a reader. -/
inductive ReaderStep (conn : ConnectionInfo) : Config → Config → Prop
  /-- `underflow()` begins. -/
  | enter {b : ServerStreambuf} {w : World} (hopen : b.isEndOfStream_ = false)
      (hpast : b.egptr ≤ b.gptr) :
      ReaderStep conn ⟨.idle, b, w⟩ ⟨.loop [] false, b, w.addEntry ⟨b, w.io⟩⟩
  /-- Bytes arrive. -/
  | recv {h : List UInt8} {st : Bool} {b : ServerStreambuf} {w : World} {bytes : List UInt8}
      {io : Io} (hend : b.gptr = b.bufferEnd_)
      (hread : Io.read b.bufferSize_ w.io = (.ok bytes, io)) (hne : 0 < bytes.length) :
      ReaderStep conn ⟨.loop h st, b, w⟩ ⟨.loop h st, ((b.setBuffer (b.buffer_.store 0
        bytes)).setBufferEnd bytes.length).setg 0 0 bytes.length, w.setIo io⟩
  /-- The peer has closed, or the transport fails: `underflow()` throws, and forgets the part of a
  header it has read. -/
  | recvNone {h : List UInt8} {st : Bool} {b : ServerStreambuf} {w : World}
      {r : Except (Fault Exception) (List UInt8)} {io : Io} (hend : b.gptr = b.bufferEnd_)
      (hread : Io.read b.bufferSize_ w.io = (r, io)) (hr : ∀ bytes, r = .ok bytes → bytes = []) :
      ReaderStep conn ⟨.loop h st, b, w⟩ ⟨.idle, b, w.setIo io⟩
  /-- Content is handed out. -/
  | deliver {h : List UInt8} {st : Bool} {b : ServerStreambuf} {w : World}
      (hh : h = [] ∨ h.length = 8) (hu : 0 < b.unreadContentLength_)
      (hd : b.isContentMustBeDiscarded_ = false) (hcur : b.gptr < b.bufferEnd_) {n : Nat}
      (hn : n = min b.unreadContentLength_ b.avail) {b' : ServerStreambuf}
      (hb' : b' = (b.setUnreadContentLength (b.unreadContentLength_ - n)).setg b.gptr b.gptr
        (b.gptr + n)) :
      ReaderStep conn ⟨.loop h st, b, w⟩ ⟨.idle, b', w.addDelivery ⟨b', w.io⟩⟩
  /-- Content is passed over. -/
  | discard {h : List UInt8} {st : Bool} {b : ServerStreambuf} {w : World}
      (hu : 0 < b.unreadContentLength_) (hd : b.isContentMustBeDiscarded_ = true)
      (hcur : b.gptr < b.bufferEnd_) {n : Nat} (hn : n = min b.unreadContentLength_ b.avail) :
      ReaderStep conn ⟨.loop h st, b, w⟩ ⟨.loop h st,
        (b.setUnreadContentLength (b.unreadContentLength_ - n)).gbump n, w⟩
  | discarded {h : List UInt8} {st : Bool} {b : ServerStreambuf} {w : World}
      (hu : b.unreadContentLength_ = 0) (hd : b.isContentMustBeDiscarded_ = true) :
      ReaderStep conn ⟨.loop h st, b, w⟩ ⟨.loop h st, b.setContentMustBeDiscarded false, w⟩
  /-- Padding is passed over. -/
  | skip {h : List UInt8} {st : Bool} {b : ServerStreambuf} {w : World}
      (hu : b.unreadContentLength_ = 0) (hp : 0 < b.unreadPaddingLength_) {n : Nat}
      (hn : n = min b.unreadPaddingLength_ b.avail) :
      ReaderStep conn ⟨.loop h st, b, w⟩ ⟨.loop h st,
        (b.setUnreadPaddingLength (b.unreadPaddingLength_ - n)).gbump n, w⟩
  /-- A part of the header is read, or the rest of it. -/
  | accumulate {h : List UInt8} {b : ServerStreambuf} {w : World}
      (hh : h.length < 8) (hu : b.unreadContentLength_ = 0) (hp : b.unreadPaddingLength_ = 0)
      {n : Nat} (hn : n = min (8 - h.length) b.avail) :
      ReaderStep conn ⟨.loop h false, b, w⟩
        ⟨.loop (h ++ b.buffer_.load b.gptr n) false, b.gbump n, w⟩
  /-- A header is found invalid: `underflow()` throws. -/
  | invalid {h : List UInt8} {st : Bool} {b : ServerStreambuf} {w : World} (hh : h.length = 8)
      (hu : b.unreadContentLength_ = 0) (hp : b.unreadPaddingLength_ = 0)
      (hv : (Header.ofBytes h).protocolVersion ≠ 1) :
      ReaderStep conn ⟨.loop h st, b, w⟩ ⟨.idle, b.setg b.gptr b.gptr b.gptr,
        w.addDispatch ⟨Header.ofBytes h, st, b, w.io⟩⟩
  /-- The processing of a valid header begins. -/
  | dispatch {h : List UInt8} {st : Bool} {b : ServerStreambuf} {w : World} (hh : h.length = 8)
      (hu : b.unreadContentLength_ = 0) (hp : b.unreadPaddingLength_ = 0)
      (hv : (Header.ofBytes h).protocolVersion = 1) :
      ReaderStep conn ⟨.loop h st, b, w⟩ ⟨.process h, b.dispatched (Header.ofBytes h),
        w.addDispatch ⟨Header.ofBytes h, st, b, w.io⟩⟩
  /-- It is answered, and all of the answer is sent. -/
  | reply {h : List UInt8} {b : ServerStreambuf} {w : World} {r : Record}
      (hr : Reply conn b.type_ (Header.ofBytes h) r)
      (hd : ¬ (Header.ofBytes h).isManagementRecord → w.history.Met b.type_ (Header.ofBytes h)) :
      ReaderStep conn ⟨.process h, b, w⟩ ⟨.process h, b, w.setIo { w.io with
        sends := w.io.sends.tail, written := w.io.written ++ r.bytes }⟩
  /-- The answer cannot be sent: `underflow()` throws. -/
  | replyError {h : List UInt8} {b : ServerStreambuf} {w : World} (hs : .error ∈ w.io.sends) :
      ReaderStep conn ⟨.process h, b, w⟩ ⟨.idle, b, w.setIo { w.io with
        sends := w.io.sends.tail }⟩
  /-- The content of the record is to be handed out. -/
  | consume {h : List UInt8} {s : State}
      (ho : (Header.ofBytes h).IsOwn conn s.buf.type_) :
      ReaderStep conn ⟨.process h, s⟩ ⟨.loop h true, s⟩
  /-- The management record has been processed. -/
  | manage {h : List UInt8} {s : State} (hm : (Header.ofBytes h).isManagementRecord)
      (hb : (Header.ofBytes h).recordType ≠ .beginRequest) :
      ReaderStep conn ⟨.process h, s⟩ ⟨.loop h true, s⟩
  /-- The content of the record is to be passed over. -/
  | reject {h : List UInt8} {b : ServerStreambuf} {w : World}
      (hf : (Header.ofBytes h).IsRejected conn) :
      ReaderStep conn ⟨.process h, b, w⟩ ⟨.loop h true, b.setContentMustBeDiscarded true, w⟩
  /-- The record ends the stream. -/
  | endOfStream {h : List UInt8} {b : ServerStreambuf} {w : World}
      (ho : (Header.ofBytes h).IsOwn conn b.type_) (hu : b.unreadContentLength_ = 0)
      (hc : (Header.ofBytes h).contentLength = 0) :
      ReaderStep conn ⟨.process h, b, w⟩ ⟨.process h,
        (b.setg b.gptr b.gptr b.gptr).setEndOfStream true, w⟩
  /-- A filter goes on to its data. -/
  | switch {h : List UInt8} {b : ServerStreambuf} {w : World} (hrole : conn.role = .filter)
      (ht : b.type_ = .«in») (he : b.isEndOfStream_ = true) :
      ReaderStep conn ⟨.process h, b, w⟩ ⟨.process h, b.reset .data, w⟩
  /-- `underflow()` ends at the end of the stream, or throws because of a violation, or calls
  itself to read the variables of a get-values record. -/
  | leave {h : List UInt8} {s : State}
      (hl : (s.buf.unreadContentLength_ = 0 ∧ (Header.ofBytes h).requestId = conn.requestId ∧
          (Header.ofBytes h).recordType ≠ .beginRequest) ∨ (Header.ofBytes h).IsGetValues ∨
        (Header.ofBytes h).IsViolation conn s.buf.type_) :
      ReaderStep conn ⟨.process h, s⟩ ⟨.idle, s⟩
  /-- The variables have been read. -/
  | resume {h : List UInt8} {b : ServerStreambuf} {w : World}
      (hg : (Header.ofBytes h).IsGetValues) (names : List (List UInt8)) :
      ReaderStep conn ⟨.idle, b, w⟩ ⟨.process h, b, w.addAnswer ⟨names, b, w.io⟩⟩
  /-- A character is taken out of the get area. -/
  | take {b : ServerStreambuf} {w : World} (hlt : b.gptr < b.egptr) :
      ReaderStep conn ⟨.idle, b, w⟩ ⟨.idle, b.gbump 1, w⟩
  /-- A character is put back into it. -/
  | unget {b : ServerStreambuf} {w : World} (hlt : b.eback < b.gptr) :
      ReaderStep conn ⟨.idle, b, w⟩
        ⟨.idle, b.setg b.eback (b.gptr - 1) b.egptr, w.addUnget b⟩

/-! ### The members stay in order -/

namespace ReaderStep

variable {conn : ConnectionInfo} {c c' : Config}

/-- A step leaves the buffer open and in order. -/
theorem openReader (hs : ReaderStep conn c c') (ho : OpenReader conn.role c.state.buf) :
    OpenReader conn.role c'.state.buf := by
  obtain ⟨m, b, w⟩ := c
  obtain ⟨m', b', w'⟩ := c'
  dsimp only at ho ⊢
  have hle := ho.gptr_le
  have hcontent := ho.content
  have hpadding := ho.padding
  cases hs with
  | enter => exact ho
  -- A read starts the buffer anew: the get area is what it has brought.
  | recv hend hread hne =>
      have hlen := Io.length_read hread
      exact ho.of_eq rfl rfl rfl rfl ⟨0, 0, _, rfl, Nat.le_refl _, Nat.zero_le _, Nat.zero_le _,
        Nat.le_refl _⟩ hlen ho.content ho.padding
  | recvNone => exact ho
  -- The get area is what is at hand of the content.
  | @deliver h st b w hh hu hd hcur n hn b' hb' =>
      subst hb'
      refine (ho.setUnreadContentLength (Nat.le_trans (Nat.sub_le _ n) hcontent)).setg
        (Nat.le_refl _) (Nat.le_add_right _ _) hle ?_
      simp only [ServerStreambuf.setUnreadContentLength_bufferEnd_]
      simp only [ServerStreambuf.avail] at hn
      omega
  | discard hu hd hcur hn =>
      exact (ho.setUnreadContentLength (Nat.le_trans (Nat.sub_le _ _) hcontent)).gbump
        (hn ▸ Nat.min_le_right _ _)
  | discarded hu hd => exact ho.setContentMustBeDiscarded _
  | skip hu hp hn =>
      exact (ho.setUnreadPaddingLength (Nat.le_trans (Nat.sub_le _ _) hpadding)).gbump
        (hn ▸ Nat.min_le_right _ _)
  | accumulate hh hu hp hn => exact ho.gbump (hn ▸ Nat.min_le_right _ _)
  | invalid => exact ho.setg_gptr
  | dispatch => exact ho.dispatched _
  | reply => exact ho
  | replyError => exact ho
  | consume => exact ho
  | manage => exact ho
  | reject => exact ho.setContentMustBeDiscarded _
  | endOfStream => exact ho.setg_gptr.setEndOfStream _
  | switch hrole ht he => exact ho.reset rfl (.inr (.inr (.inr ⟨hrole, .inr rfl⟩)))
  | leave => exact ho
  | resume => exact ho
  | take hlt =>
      refine ho.gbump ?_
      have := ho.egptr_le
      rw [ServerStreambuf.avail]
      omega
  -- gptr() stays at or behind eback().
  | unget hlt =>
      have hbeg := ho.eback_le'
      exact ho.setg (by omega) hbeg (by omega) ho.egptr_le

/-- Where every write sends all its bytes, this stays so. -/
theorem sends_subset (h : ReaderStep conn c c') :
    c'.state.world.io.sends ⊆ c.state.world.io.sends := by
  cases h with
  | recv _ hread _ => exact fun _ h => (Io.read_sends hread).1 ▸ h
  | recvNone _ hread _ => exact fun _ h => (Io.read_sends hread).1 ▸ h
  | reply _ _ => exact fun _ => List.mem_of_mem_tail
  | replyError _ => exact fun _ => List.mem_of_mem_tail
  | _ => exact fun _ => id

/-- Writes that all succeed go on doing so. -/
theorem sends (h : ReaderStep conn c c') (hc : c.state.world.io.sends = []) :
    c'.state.world.io.sends = [] := by
  cases h with
  | recv _ hread _ => exact (Io.read_sends hread).1.trans hc
  | recvNone _ hread _ => exact (Io.read_sends hread).1.trans hc
  | reply _ _ => exact (congrArg List.tail hc).trans rfl
  | replyError _ => exact (congrArg List.tail hc).trans rfl
  | _ => exact hc

end ReaderStep

/-- `s` can be reached from `c`, in the mode `m`. -/
structure Reached (conn : ConnectionInfo) (c : Config) (m : Mode) (s : State) : Prop where
  steps : Relation.ReflTransGen (ReaderStep conn) c ⟨m, s⟩
  openReader : OpenReader conn.role s.buf

namespace Reached

variable {conn : ConnectionInfo} {c : Config} {m m' : Mode} {s s' : State}

theorem step (hr : Reached conn c m s) (hs : ReaderStep conn ⟨m, s⟩ ⟨m', s'⟩) :
    Reached conn c m' s' :=
  ⟨hr.steps.tail hs, hs.openReader hr.openReader⟩

/-- What every step preserves holds of all that can be reached. -/
theorem invariant {I : Config → Prop} (hr : Reached conn c m s)
    (step : ∀ {c c'}, ReaderStep conn c c' → I c → I c') (h₀ : I c) : I ⟨m, s⟩ := by
  obtain ⟨hsteps, -⟩ := hr
  generalize (⟨m, s⟩ : Config) = d at hsteps
  induction hsteps with
  | refl => exact h₀
  | tail _ hs ih => exact step hs ih

theorem sends_subset (hr : Reached conn c m s) :
    s.world.io.sends ⊆ c.state.world.io.sends :=
  hr.invariant (I := fun d => d.state.world.io.sends ⊆ c.state.world.io.sends)
    (fun hs h _ hx => h (hs.sends_subset hx)) fun _ => id

theorem sends (hr : Reached conn c m s) (hc : c.state.world.io.sends = []) :
    s.world.io.sends = [] :=
  hr.invariant (I := fun c => c.state.world.io.sends = []) (fun hs h => hs.sends h) hc

end Reached

end Fcgi

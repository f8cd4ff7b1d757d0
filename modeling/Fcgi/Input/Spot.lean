import Fcgi.Lib.Fuel
import Fcgi.Input.Traversal

/-!
# Input — the rounds of `underflow()` over any transport

Up to the first read that brings nothing, the cuts between two reads do not matter: a reader is at
a place in the string of all bytes that can be reached, `State.reach`.

* `Spot conn t size u p dis o bs s`: inside `underflow()`, with `u` bytes of content and `p` of
  padding left of the record it is in, and `bs` ahead; the content is passed over if `dis`.
* `Pause conn t size u p o area bs s`: between two calls, with the characters `area` at hand.

**`Spot.header_ahead`**: whatever the cuts, the rounds of `underflow()` before the next header, or
before the same header once more, lead to its processing; **`Spot.exhausted`**: or the bytes run out
before, and it throws.

Each step of a round takes a spot to a spot, some bytes further on.  What a round does as a whole
depends on how many bytes are at hand: it stops in the content, or in the padding or the header, or
it gets to the end of the header (`Spot.round`, with a lemma for each of the first two and for a
round without content).  A round that stops before the header has come nearer to it (`Nearer`), so
the rounds are an induction on the bytes ahead.
-/

namespace Fcgi
open Lib
open ServerStreambuf (gptr_eq egptr_eq gbump_getArea_eq)

namespace ServerStreambuf

/-- The bytes received from the offset `pos` of the buffer on. -/
def received (b : ServerStreambuf) (pos : Nat) : List UInt8 :=
  b.buffer_.load pos (b.bufferEnd_ - pos)

variable {b : ServerStreambuf} {pos k : Nat} {xs : List UInt8}

/-- The bytes at hand are the first ones. -/
theorem take_received (h : k ≤ b.bufferEnd_ - pos) :
    (b.received pos ++ xs).take k = b.buffer_.load pos k := by
  rw [received, List.take_append_of_le_length (by rwa [Mem.length_load]), Mem.take_load _ h]

/-- Some of the bytes at hand are passed over. -/
theorem drop_received (h : k ≤ b.bufferEnd_ - pos) :
    (b.received pos ++ xs).drop k = b.received (pos + k) ++ xs := by
  rw [received, List.drop_append_of_le_length (by rwa [Mem.length_load]), Mem.drop_load _ h,
    received, Nat.sub_sub]

/-- The first of the bytes at hand. -/
theorem head_received (h : pos < b.bufferEnd_) :
    (b.received pos ++ xs).head? = some (b.buffer_ pos) := by
  rw [received, show b.bufferEnd_ - pos = b.bufferEnd_ - pos - 1 + 1 by omega, Mem.load_succ]
  rfl

/-- All the bytes at hand are there. -/
theorem length_received : b.bufferEnd_ - pos ≤ (b.received pos ++ xs).length := by
  rw [received, List.length_append, Mem.length_load]
  exact Nat.le_add_right _ _

/-- At the end of the bytes received there are none. -/
theorem received_end (h : b.bufferEnd_ ≤ pos) : b.received pos ++ xs = xs := by
  rw [received, Nat.sub_eq_zero_of_le h, Mem.load_zero, List.nil_append]

theorem end_of_received_nil (hle : pos ≤ b.bufferEnd_) (h : b.received pos = []) :
    pos = b.bufferEnd_ := by
  have := congrArg List.length h
  rw [received, Mem.length_load, List.length_nil] at this
  omega

theorem received_recv (b : ServerStreambuf) (bytes : List UInt8) :
    ServerStreambuf.received (((b.setBuffer (b.buffer_.store 0 bytes)).setBufferEnd
      bytes.length).setg 0 0 bytes.length) 0 = bytes := by
  change (b.buffer_.store 0 bytes).load 0 bytes.length = bytes
  rw [Mem.load_store]

end ServerStreambuf

/-- The bytes from the offset `pos` of the buffer on: those received, then those that come before
a read that brings nothing. -/
def State.reach (s : State) (pos : Nat) : List UInt8 := s.buf.received pos ++ s.world.io.reach

/-- What reading on leaves alone: whether the stream has ended, what the next writes will do, what
has been sent, and how many get-values records have been read. -/
structure Outer where
  ended : Bool
  sends : List Send
  written : List UInt8
  answers : Nat

/-- What can be seen from outside. -/
def State.outer (s : State) : Outer where
  ended := s.buf.isEndOfStream_
  sends := s.world.io.sends
  written := s.world.io.written
  answers := s.world.history.answers.length

/-- A read cannot be seen from outside. -/
theorem State.outer_recv {b b' : ServerStreambuf} {w : World} {io : Io} {len : Nat}
    {r : Except (Fault Exception) (List UInt8)} (hread : Io.read len w.io = (r, io))
    (hb : b'.isEndOfStream_ = b.isEndOfStream_) :
    State.outer ⟨b', w.setIo io⟩ = State.outer ⟨b, w⟩ := by
  obtain ⟨hs, hw⟩ := Io.read_sends hread
  simp only [State.outer, World.setIo_io, World.setIo_history, hb, hs, hw]

/-- A reader of the stream `t` in good order, with `u` bytes of content and `p` bytes of padding
of its record still to come. -/
structure Footing (conn : ConnectionInfo) (t : StreamType) (size u p : Nat) (dis : Bool)
    (o : Outer) (s : State) : Prop where
  outer : s.outer = o
  openReader : OpenReader conn.role s.buf
  type : s.buf.type_ = t
  bufferSize : s.buf.bufferSize_ = size
  discard : s.buf.isContentMustBeDiscarded_ = dis
  content : s.buf.unreadContentLength_ = u
  padding : s.buf.unreadPaddingLength_ = p

/-- Inside `underflow()`. -/
structure Spot (conn : ConnectionInfo) (t : StreamType) (size u p : Nat) (dis : Bool)
    (o : Outer) (bs : List UInt8) (s : State) : Prop extends Footing conn t size u p dis o s where
  bytes : s.reach s.buf.gptr = bs

/-- Between two calls. -/
structure Pause (conn : ConnectionInfo) (t : StreamType) (size u p : Nat) (o : Outer)
    (area bs : List UInt8) (s : State) : Prop extends Footing conn t size u p false o s where
  ordered : s.buf.gptr ≤ s.buf.egptr
  area : s.buf.buffer_.load s.buf.gptr (s.buf.egptr - s.buf.gptr) = area
  bytes : s.reach s.buf.egptr = bs

section

variable {conn : ConnectionInfo} {t : StreamType} {size u p : Nat} {dis : Bool} {o : Outer}
  {bs : List UInt8} {s : State}

/-- The invariant holds where the content fits into the buffer. -/
theorem Footing.invariantOk (h : Footing conn t size u p dis o s)
    (hg : s.buf.gptr ≤ s.buf.egptr) : s.buf.InvariantOk conn.role ↔ u ≤ size := by
  rw [← h.content, ← h.bufferSize]
  exact ⟨fun hi => hi.2.2.1.1, fun hu => h.openReader.invariantOk hu hg⟩

/-- A header has been processed: what it announces is ahead. -/
theorem Spot.dispatched (h : Spot conn t size 0 0 dis o bs s) (header : Header)
    (d : Dispatch) :
    Spot conn t size header.contentLength header.paddingLength dis o bs
      ⟨s.buf.dispatched header, s.world.addDispatch d⟩ :=
  ⟨⟨h.outer, h.openReader.dispatched _, h.type, h.bufferSize, h.discard, rfl, rfl⟩, h.bytes⟩

/-! ### A round, part by part -/

/-- With bytes ahead, some are at hand after reading. -/
theorem Spot.readRecords (h : Spot conn t size u p dis o bs s) (hbs : bs ≠ []) :
    ∃ s', Fcgi.readRecords s = (.ok (), s') ∧ Spot conn t size u p dis o bs s' ∧
      s'.buf.gptr < s'.buf.bufferEnd_ ∧ (s.world.io.Clean → s'.world.io.Clean) := by
  obtain ⟨b, w⟩ := s
  have ho := h.openReader
  have hle := ho.gptr_le
  have hb : b.received b.gptr ++ w.io.reach = bs := h.bytes
  dsimp only at ho hle
  rw [Fcgi.readRecords, Prog.bind_ok (Prog.get_run _)]
  dsimp only
  by_cases hend : b.gptr = b.bufferEnd_
  · have hsize := ho.size_ge
    rw [ServerStreambuf.received_end (Nat.le_of_eq hend.symm)] at hb
    rcases w.io.read_reach (show 0 < b.bufferSize_ by omega) with
      ⟨ds, io, hread, hne, hreach⟩ | ⟨hnil, -⟩
    · have hpos := List.length_pos_iff.mpr hne
      have hlen := Io.length_read hread
      have hcap := ho.capacity
      rw [if_pos hend, Prog.bind_ok (onIo_run hread), if_pos hpos,
        Prog.bind_ok (storeBuf_run (by omega)), modifyBuf_run]
      refine ⟨_, rfl, ⟨⟨(State.outer_recv hread rfl).trans h.outer,
        (@ReaderStep.recv conn [] false _ w _ _ hend hread hpos).openReader ho, h.type,
        h.bufferSize, h.discard, h.content, h.padding⟩, ?_⟩, hpos,
        fun hc => (hc.of_read (by omega) hread).1⟩
      rw [← hb, hreach]
      exact congrArg (· ++ io.reach) (ServerStreambuf.received_recv b ds)
    · exact absurd (hb.symm.trans hnil) hbs
  · rw [if_neg hend, Prog.pure_run]
    exact ⟨_, rfl, h, Nat.lt_of_le_of_ne hle hend, id⟩

/-- With nothing ahead it throws. -/
theorem Spot.readRecords_nil (h : Spot conn t size u p dis o [] s) :
    ∃ e s', Fcgi.readRecords s = (.error (.exc e), s') ∧ s'.outer = o := by
  obtain ⟨b, w⟩ := s
  have ho := h.openReader
  have hle := ho.gptr_le
  have hb : b.received b.gptr ++ w.io.reach = [] := h.bytes
  dsimp only at ho hle
  obtain ⟨hrec, hreach⟩ := List.append_eq_nil_iff.mp hb
  have hend := ServerStreambuf.end_of_received_nil hle hrec
  have hsize := ho.size_ge
  rw [Fcgi.readRecords, Prog.bind_ok (Prog.get_run _)]
  dsimp only
  rw [if_pos hend]
  rcases w.io.read_reach (show 0 < b.bufferSize_ by omega) with
    ⟨ds, io, -, hne, hreach'⟩ | ⟨-, r, io, hread, hr⟩
  · exact absurd (List.append_eq_nil_iff.mp (hreach'.symm.trans hreach)).1 hne
  · have hs : State.outer ⟨b, w.setIo io⟩ = o := (State.outer_recv hread rfl).trans h.outer
    rcases hr with rfl | ⟨e, rfl⟩
    · rw [Prog.bind_ok (onIo_run hread), if_neg (show ¬ ([] : List UInt8).length > 0 by decide),
        Prog.throw_run]
      exact ⟨_, _, rfl, hs⟩
    · rw [Prog.bind_error (onIo_run hread)]
      exact ⟨_, _, rfl, hs⟩

/-- Where the client has closed, this changes nothing. -/
theorem Spot.readRecords_closed (h : Spot conn t size u p dis o [] s) (hc : s.world.io.Clean) :
    Fcgi.readRecords s = (.error (.exc (.fcgi "FastCGI protocol violation")), s) := by
  obtain ⟨b, w⟩ := s
  have hb : b.received b.gptr ++ w.io.reach = [] := h.bytes
  obtain ⟨hrec, hreach⟩ := List.append_eq_nil_iff.mp hb
  have hread := Io.read_closed hc hreach b.bufferSize_
  rw [Fcgi.readRecords, Prog.bind_ok (Prog.get_run _)]
  dsimp only
  rw [if_pos (ServerStreambuf.end_of_received_nil h.openReader.gptr_le hrec),
    Prog.bind_ok (onIo_run hread), if_neg (show ¬ ([] : List UInt8).length > 0 by decide),
    Prog.throw_run]
  rfl

/-- The first byte of the content, and as much of it as has arrived.  An assertion fails if more
than the size of the buffer is still to come. -/
theorem Spot.setUpContent (h : Spot conn t size u p false o bs s) (hu : 0 < u)
    (hcur : s.buf.gptr < s.buf.bufferEnd_) :
    ∃ c k s', Fcgi.setUpContent conn s = (if u - k ≤ size then .ok (some (.done (some c)))
        else .error .abort, s') ∧
      bs.head? = some c ∧ 0 < k ∧ k ≤ u ∧ k ≤ bs.length ∧ k ≤ size ∧
      Pause conn t size (u - k) p o (bs.take k) (bs.drop k) s' ∧
      s'.world.io = s.world.io := by
  obtain ⟨b, w⟩ := s
  have hle := h.openReader.gptr_le
  have hb : b.received b.gptr ++ w.io.reach = bs := h.bytes
  have hlen : b.bufferEnd_ - b.gptr ≤ bs.length := hb ▸ ServerStreambuf.length_received
  dsimp only at hcur hle
  have hc : b.unreadContentLength_ = u := h.content
  set n := min b.unreadContentLength_ (b.bufferEnd_ - b.gptr) with hn
  -- The get area is set over the content in the buffer, and the run stops there.
  obtain ⟨b₁, hb₁⟩ : ∃ b₁, b₁ = (b.setUnreadContentLength (b.unreadContentLength_ - n)).setg
    b.gptr b.gptr (b.gptr + n) := ⟨_, rfl⟩
  have hstep : OpenReader conn.role b₁ := (@ReaderStep.deliver conn [] false _ w
    (.inl rfl) (hc ▸ hu) h.discard hcur _ hn _ hb₁).openReader h.openReader
  have harea : b₁.getArea = some ⟨b.gptr, b.gptr, b.gptr + n⟩ := hb₁ ▸ rfl
  have hs : Pause conn t size (u - n) p o (bs.take n) (bs.drop n)
      ⟨b₁, w.addDelivery ⟨b₁, w.io⟩⟩ := by
    refine ⟨⟨hb₁ ▸ h.outer, hstep, hb₁ ▸ h.type, hb₁ ▸ h.bufferSize,
      hb₁ ▸ h.discard, ?_, hb₁ ▸ h.padding⟩, ?_, ?_, ?_⟩
    · subst hb₁
      exact hc ▸ rfl
    · rw [gptr_eq harea, egptr_eq harea]
      exact Nat.le_add_right _ _
    · rw [gptr_eq harea, egptr_eq harea, Nat.add_sub_cancel_left, ← hb,
        ServerStreambuf.take_received (Nat.min_le_right _ _), hb₁]
      rfl
    · rw [egptr_eq harea, ← hb, ServerStreambuf.drop_received (Nat.min_le_right _ _), hb₁]
      rfl
  rw [setUpContent_deliver (hc ▸ hu) h.discard hn hb₁]
  have hsize : n ≤ size := by
    have hend : b.bufferEnd_ ≤ size := h.bufferSize ▸ h.openReader.end_le
    omega
  refine ⟨b.buffer_ b.gptr, n, _, ?_, hb ▸ ServerStreambuf.head_received hcur, by omega, by omega,
    by omega, hsize, hs, rfl⟩
  by_cases hfit : u - n ≤ size
  · rw [if_pos hfit, Prog.bind_ok (assertInvariantOk_run ((hs.invariantOk hs.ordered).mpr hfit)),
      Prog.pure_run]
  · rw [if_neg hfit, Prog.bind_error
      (assertInvariantOk_abort (mt (hs.invariantOk hs.ordered).mp hfit))]

/-- Content that is passed over. -/
theorem Spot.discardContent (h : Spot conn t size u p true o bs s) (hu : 0 < u) {k : Nat}
    (hk : k = min u (s.buf.bufferEnd_ - s.buf.gptr))
    (hcur : s.buf.gptr < s.buf.bufferEnd_) :
    ∃ s', Fcgi.setUpContent conn s = (.ok (if k < u then some (.again ()) else none), s') ∧
      Spot conn t size (u - k) p (decide (k < u)) o (bs.drop k) s' ∧
      s'.buf.gptr = s.buf.gptr + k ∧ s'.buf.bufferEnd_ = s.buf.bufferEnd_ ∧
      s'.world.io = s.world.io := by
  obtain ⟨b, w⟩ := s
  have hc : b.unreadContentLength_ = u := h.content
  have hd : b.isContentMustBeDiscarded_ = true := h.discard
  dsimp only at hk hcur ⊢
  have hstep := (@ReaderStep.discard conn [] false b w (hc ▸ hu) hd hcur _ rfl).openReader
    h.openReader
  have hkk : min b.unreadContentLength_ (b.bufferEnd_ - b.gptr) = k := by rw [hc, hk]
  -- Only the position and the unread length move.
  obtain ⟨b₁, hb₁⟩ : ∃ b₁, b₁ = (b.setUnreadContentLength (b.unreadContentLength_ - k)).gbump k :=
    ⟨_, rfl⟩
  rw [show min b.unreadContentLength_ b.avail = k from hkk, ← hb₁] at hstep
  have hcur₁ : b₁.gptr = b.gptr + k := by
    subst hb₁
    exact gptr_eq (gbump_getArea_eq (b := ServerStreambuf.setUnreadContentLength _ _)
      h.openReader.getArea_eq _)
  have hu₁ : b₁.unreadContentLength_ = u - k := by subst hb₁; exact congrArg (· - k) hc
  have hs₁ : Spot conn t size (u - k) p true o (bs.drop k) ⟨b₁, w⟩ := by
    refine ⟨⟨hb₁ ▸ h.outer, hstep, hb₁ ▸ h.type, hb₁ ▸ h.bufferSize,
      hb₁ ▸ hd, hu₁, hb₁ ▸ h.padding⟩, ?_⟩
    rw [hcur₁, ← h.bytes]
    refine Eq.trans ?_ (ServerStreambuf.drop_received (hk ▸ Nat.min_le_right _ _)).symm
    subst hb₁
    rfl
  have hend₁ : b₁.bufferEnd_ = b.bufferEnd_ := by subst hb₁; rfl
  rw [setUpContent_discard (hc ▸ hu) hd hkk.symm hb₁, hu₁]
  by_cases hlt : k < u
  · rw [if_pos (by omega), if_pos hlt, decide_eq_true hlt]
    exact ⟨_, rfl, hs₁, hcur₁, hend₁, rfl⟩
  · rw [if_neg (by omega), if_neg hlt, decide_eq_false hlt]
    have ho₁ := hs₁.openReader
    exact ⟨_, rfl, ⟨⟨hs₁.outer, ho₁.setContentMustBeDiscarded _, hs₁.type, hs₁.bufferSize, rfl,
      hs₁.content, hs₁.padding⟩, hs₁.bytes⟩, hcur₁, hend₁, rfl⟩

/-- The padding at hand is skipped. -/
theorem Spot.skipPadding (h : Spot conn t size 0 p dis o bs s) {k : Nat}
    (hk : k = min p (s.buf.bufferEnd_ - s.buf.gptr)) :
    ∃ s', Fcgi.skipPadding s = (.ok (decide (0 < p - k)), s') ∧
      Spot conn t size 0 (p - k) dis o (bs.drop k) s' ∧ s'.buf.gptr = s.buf.gptr + k ∧
      s'.buf.bufferEnd_ = s.buf.bufferEnd_ ∧ s'.world.io = s.world.io := by
  obtain ⟨b, w⟩ := s
  have hp : b.unreadPaddingLength_ = p := h.padding
  dsimp only at hk ⊢
  by_cases h0 : 0 < p
  · have hu : b.unreadContentLength_ = 0 := h.content
    have hstep := (@ReaderStep.skip conn [] false _ w hu
      (by omega) _ rfl).openReader h.openReader
    set b₁ := (b.setUnreadPaddingLength (b.unreadPaddingLength_ -
      min b.unreadPaddingLength_ b.avail)).gbump (min b.unreadPaddingLength_ b.avail) with hb₁
    have hkk : min b.unreadPaddingLength_ b.avail = k := by rw [hp, hk]; rfl
    have hpad : b₁.unreadPaddingLength_ = p - k := by rw [← hkk, ← hp]; rfl
    have hcur : b₁.gptr = b.gptr + k := by
      rw [← hkk]
      exact gptr_eq (gbump_getArea_eq (b := ServerStreambuf.setUnreadPaddingLength _ _)
        h.openReader.getArea_eq _)
    refine ⟨⟨b₁, w⟩, by rw [skipPadding_run (hp ▸ h0) rfl hb₁, hpad], ⟨⟨h.outer, hstep, h.type,
      h.bufferSize, h.discard, hu, hpad⟩, ?_⟩, hcur, rfl, rfl⟩
    rw [hcur, ← h.bytes]
    exact (ServerStreambuf.drop_received (hk ▸ Nat.min_le_right _ _)).symm
  · obtain rfl : p = 0 := by omega
    obtain rfl : k = 0 := by omega
    exact ⟨_, skipPadding_none hp, h, rfl, rfl, rfl⟩

/-- A part of the header, or nothing if all of it is there. -/
theorem Spot.accumulateHeader (h : Spot conn t size 0 0 dis o bs s) (header : List UInt8)
    {k : Nat} (hk : k = min (8 - header.length) (s.buf.bufferEnd_ - s.buf.gptr)) :
    ∃ s', Fcgi.accumulateHeader header s = (.ok (header ++ bs.take k), s') ∧
      Spot conn t size 0 0 dis o (bs.drop k) s' ∧ s'.world.io = s.world.io := by
  obtain ⟨b, w⟩ := s
  dsimp only at hk
  have hb : b.received b.gptr ++ w.io.reach = bs := h.bytes
  rw [accumulateHeader_run hk]
  have htake : bs.take k = b.buffer_.load b.gptr k :=
    hb ▸ ServerStreambuf.take_received (hk ▸ Nat.min_le_right _ _)
  by_cases hlt : header.length < 8
  · have hstep := (ReaderStep.accumulate (w := w) hlt h.content h.padding
      rfl).openReader h.openReader
    have hkk : min (8 - header.length) b.avail = k := hk.symm
    rw [hkk] at hstep
    have hcur : (b.gbump k).gptr = b.gptr + k :=
      gptr_eq (gbump_getArea_eq h.openReader.getArea_eq _)
    refine ⟨⟨b.gbump k, w⟩, by rw [htake], ⟨⟨h.outer, hstep, h.type, h.bufferSize,
      h.discard, h.content, h.padding⟩, ?_⟩, rfl⟩
    rw [hcur, ← hb]
    exact (ServerStreambuf.drop_received (hk ▸ Nat.min_le_right _ _)).symm
  · obtain rfl : k = 0 := by omega
    rw [ServerStreambuf.gbump_zero, ← htake]
    exact ⟨_, rfl, h, rfl⟩

/-! ### Rounds -/

/-- What is left to be read before the header `header` is there: the rest of the record, and then
what of the header is missing. -/
def toRead (u p : Nat) (header : List UInt8) : Nat := u + p + (8 - header.length)

/-- The header with what is missing of it. -/
def completed (u p : Nat) (header bs : List UInt8) : List UInt8 :=
  header ++ (bs.drop (u + p)).take (8 - header.length)

/-- Whether content is still passed over `k` bytes further on. -/
def stillPassed (dis : Bool) (u k : Nat) : Bool := if u = 0 then dis else decide (k < u)

/-- Some of the content is still to come. -/
theorem stillPassed_eq_true {k : Nat} (h : 0 < u - k) : stillPassed dis u k = true := by
  rw [stillPassed, if_neg (by omega), decide_eq_true (by omega)]

theorem stillPassed_add (k k' : Nat) :
    stillPassed (stillPassed dis u k) (u - k) k' = stillPassed dis u (k + k') := by
  simp only [stillPassed]
  by_cases hu : u = 0
  · rw [if_pos hu, if_pos hu, if_pos (by omega)]
  · rw [if_neg hu, if_neg hu]
    by_cases hk : k < u
    · rw [if_neg (by omega)]
      exact decide_eq_decide.mpr (by omega)
    · rw [if_pos (by omega), decide_eq_false hk, decide_eq_false (by omega)]

theorem stillPassed_of_le {k : Nat} (h : u ≤ k) :
    stillPassed dis u k = (dis && decide (u = 0)) := by
  rw [stillPassed]
  by_cases hu : u = 0
  · rw [if_pos hu, decide_eq_true hu, Bool.and_true]
  · rw [if_neg hu, decide_eq_false hu, Bool.and_false, decide_eq_false (by omega)]

/-- The reader `k` bytes further on. -/
structure Further (conn : ConnectionInfo) (t : StreamType) (size u p : Nat) (dis : Bool)
    (o : Outer) (bs : List UInt8) (s : State) (k : Nat) (s' : State) : Prop where
  spot : Spot conn t size (u - k) (p - (k - u)) (stillPassed dis u k) o (bs.drop k) s'
  clean : s.world.io.Clean → s'.world.io.Clean

theorem Further.trans {k k' : Nat} {s' s'' : State}
    (h : Further conn t size u p dis o bs s k s')
    (h' : Further conn t size (u - k) (p - (k - u)) (stillPassed dis u k) o (bs.drop k) s' k' s'') :
    Further conn t size u p dis o bs s (k + k') s'' := by
  refine ⟨?_, fun hc => h'.clean (h.clean hc)⟩
  have := h'.spot
  rwa [stillPassed_add, List.drop_drop, Nat.sub_sub u, Nat.sub_sub p,
    show k - u + (k' - (u - k)) = k + k' - u by omega] at this

/-- A round after which the loop goes on: it has come nearer to the header. -/
structure Nearer (conn : ConnectionInfo) (t : StreamType) (size u p : Nat) (dis : Bool)
    (o : Outer) (header bs : List UInt8) (s : State) (k : Nat) (header' : List UInt8)
    (s' : State) : Prop extends Further conn t size u p dis o bs s k s' where
  pos : 0 < k
  le : k ≤ bs.length
  toRead : toRead (u - k) (p - (k - u)) header' + k = toRead u p header
  more : 0 < Fcgi.toRead (u - k) (p - (k - u)) header'
  length : header'.length ≤ 8
  stale : header'.length = 8 ↔ header.length = 8
  completed : completed (u - k) (p - (k - u)) header' (bs.drop k) = completed u p header bs

/-- The part of a round after the content. -/
def afterContent (conn : ConnectionInfo) (fuel : Nat) (call : M (Option UInt8))
    (header : List UInt8) : M (Flow (List UInt8) (Option UInt8)) := do
  let s ← Prog.get
  Prog.assert (s.buf.unreadContentLength_ = 0)
  if ← skipPadding then pure (.again header)
  else do
    let s ← Prog.get
    Prog.assert (s.buf.unreadPaddingLength_ = 0)
    let header' ← accumulateHeader header
    if header'.length < Header.size then pure (.again header')
    else do
      Prog.assert (header'.length = Header.size)
      noteDispatch (header.length = Header.size) (Header.ofBytes header')
      processAccumulated conn fuel call header'

/-- The processing of a header, which has been processed before if it is `stale`. -/
def processing (conn : ConnectionInfo) (stale : Bool) (header : List UInt8) (fuel : Nat)
    (call : M (Option UInt8)) : M (Flow (List UInt8) (Option UInt8)) := do
  noteDispatch stale (Header.ofBytes header)
  processAccumulated conn fuel call header

/-- The part of a round after the padding. -/
def afterPadding (conn : ConnectionInfo) (fuel : Nat) (call : M (Option UInt8))
    (header : List UInt8) : M (Flow (List UInt8) (Option UInt8)) := do
  let s ← Prog.get
  Prog.assert (s.buf.unreadPaddingLength_ = 0)
  let header' ← accumulateHeader header
  if header'.length < Header.size then pure (.again header')
  else do
    Prog.assert (header'.length = Header.size)
    processing conn (header.length = Header.size) header' fuel call

/-- The part of a round after the padding: all that is at hand goes to the header, or the header is
there. -/
theorem Spot.afterPadding {header : List UInt8} (h : Spot conn t size 0 0 dis o bs s)
    (hh : header.length ≤ 8) {a : Nat} (ha : a = s.buf.bufferEnd_ - s.buf.gptr) :
    (header.length + a < 8 ∧ ∃ s',
      (∀ n call, Fcgi.afterPadding conn n call header s =
        (.ok (.again (header ++ bs.take a)), s')) ∧
      Spot conn t size 0 0 dis o (bs.drop a) s' ∧ s'.world.io = s.world.io) ∨
    (8 ≤ header.length + a ∧ ∃ s',
      Spot conn t size 0 0 dis o (bs.drop (8 - header.length)) s' ∧ s'.world.io = s.world.io ∧
      ∀ n call, Fcgi.afterPadding conn n call header s =
        processing conn (header.length = 8) (header ++ bs.take (8 - header.length)) n call s') := by
  have hlen : a ≤ bs.length := by
    rw [ha, ← h.bytes]
    exact ServerStreambuf.length_received
  obtain ⟨s', hacc, h', hio⟩ := h.accumulateHeader header rfl
  rw [← ha] at hacc h'
  have hround : ∀ n call, Fcgi.afterPadding conn n call header s = (do
      if (header ++ bs.take (min (8 - header.length) a)).length < Header.size then
        pure (.again (header ++ bs.take (min (8 - header.length) a)))
      else do
        Prog.assert ((header ++ bs.take (min (8 - header.length) a)).length = Header.size)
        processing conn (header.length = 8) (header ++ bs.take (min (8 - header.length) a)) n call
      : M _) s' := fun n call => by
    rw [Fcgi.afterPadding, Prog.bind_ok (Prog.get_run _),
      Prog.bind_ok (Prog.assert_true h.padding _), Prog.bind_ok hacc]
    rfl
  -- The header is still in parts, or it is whole.
  by_cases hpart : header.length + a < 8
  · rw [show min (8 - header.length) a = a by omega] at hround h'
    have hlt : (header ++ bs.take a).length < Header.size := by
      rw [List.length_append, List.length_take, Header.size]
      omega
    exact .inl ⟨hpart, s', fun n call => by rw [hround, if_pos hlt, Prog.pure_run], h', hio⟩
  · rw [show min (8 - header.length) a = 8 - header.length by omega] at hround h'
    have hfull : (header ++ bs.take (8 - header.length)).length = Header.size := by
      rw [List.length_append, List.length_take, Header.size]
      omega
    refine .inr ⟨by omega, s', h', hio, fun n call => ?_⟩
    rw [hround, if_neg (by rw [hfull]; exact Nat.lt_irrefl _),
      Prog.bind_ok (Prog.assert_true hfull _)]

/-- The part of a round after the content: all that is at hand is used up, or the header is
there. -/
theorem Spot.afterContent {header : List UInt8} (h : Spot conn t size 0 p dis o bs s)
    (hh : header.length ≤ 8) {a : Nat} (ha : a = s.buf.bufferEnd_ - s.buf.gptr) :
    (∃ header' s',
      (∀ n call, Fcgi.afterContent conn n call header s = (.ok (.again header'), s')) ∧
      Spot conn t size 0 (p - a) dis o (bs.drop a) s' ∧ s'.world.io = s.world.io ∧
      toRead 0 (p - a) header' + a = toRead 0 p header ∧ 0 < toRead 0 (p - a) header' ∧
      header'.length ≤ 8 ∧
      (header'.length = 8 ↔ header.length = 8) ∧
      completed 0 (p - a) header' (bs.drop a) = completed 0 p header bs) ∨
    (toRead 0 p header ≤ a ∧ ∃ s',
      Spot conn t size 0 0 dis o (bs.drop (toRead 0 p header)) s' ∧ s'.world.io = s.world.io ∧
      ∀ n call, Fcgi.afterContent conn n call header s =
        processing conn (header.length = 8) (completed 0 p header bs) n call s') := by
  have hlen : a ≤ bs.length := by
    rw [ha, ← h.bytes]
    exact ServerStreambuf.length_received
  -- Padding first: what is at hand of it is passed over.
  obtain ⟨s₁, hskip, h₁, hcur, hend, hio⟩ := h.skipPadding rfl
  rw [← ha] at hskip h₁ hcur
  have hround : ∀ n call, Fcgi.afterContent conn n call header s = (do
      if decide (0 < p - min p a) then pure (.again header)
      else Fcgi.afterPadding conn n call header : M _) s₁ := fun n call => by
    rw [Fcgi.afterContent, Prog.bind_ok (Prog.get_run _),
      Prog.bind_ok (Prog.assert_true h.content _), Prog.bind_ok hskip]
    rfl
  by_cases hmore : 0 < p - min p a
  · -- Some of the padding is still to come.
    refine .inl ⟨header, s₁, fun n call => ?_, ?_, hio, ?_, ?_, hh, Iff.rfl, ?_⟩
    · rw [hround, decide_eq_true hmore, if_pos rfl, Prog.pure_run]
    · rw [show min p a = a by omega] at h₁
      exact h₁
    · rw [toRead, toRead]
      omega
    · rw [toRead]
      omega
    · rw [completed, completed, List.drop_drop, show a + (0 + (p - a)) = 0 + p by omega]
  · rw [show p - min p a = 0 by omega, show min p a = p by omega] at h₁
    rw [show min p a = p by omega] at hcur
    -- All of the padding is behind, so the round goes on with the header.
    have hround' : ∀ n call, Fcgi.afterContent conn n call header s =
        Fcgi.afterPadding conn n call header s₁ := fun n call => by
      rw [hround, decide_eq_false hmore, if_neg Bool.false_ne_true]
    have hrest : a - p = s₁.buf.bufferEnd_ - s₁.buf.gptr := by
      rw [hcur, hend, ha]
      omega
    rcases h₁.afterPadding hh hrest with ⟨hpart, s₂, hrun, h₂, hio₂⟩ | ⟨hfull, s₂, h₂, hio₂, hrun⟩
    · -- A part of the header is missing.
      have htake : ((bs.drop p).take (a - p)).length = a - p := by
        rw [List.length_take, List.length_drop]
        omega
      have hheader : (header ++ (bs.drop p).take (a - p)).length = header.length + (a - p) := by
        rw [List.length_append, htake]
      rw [List.drop_drop, show p + (a - p) = a by omega] at h₂
      rw [show p - a = 0 by omega]
      refine .inl ⟨_, s₂, fun n call => (hround' n call).trans (hrun n call), h₂, hio₂.trans hio,
        ?_, ?_, by omega, by omega, ?_⟩
      · rw [toRead, toRead, hheader]
        omega
      · rw [toRead, hheader]
        omega
      · rw [completed, completed, List.drop_drop, hheader, List.append_assoc,
          show a + (0 + 0) = p + (a - p) by omega, Nat.zero_add, ← List.drop_drop,
          ← List.take_add,
          show a - p + (8 - (header.length + (a - p))) = 8 - header.length by omega]
    · have hto : toRead 0 p header = p + (8 - header.length) := by rw [toRead, Nat.zero_add]
      rw [List.drop_drop, ← hto] at h₂
      refine .inr ⟨by omega, s₂, h₂, hio₂.trans hio, fun n call => ?_⟩
      rw [hround', hrun, completed, Nat.zero_add]

/-- A round after its records have been read. -/
theorem underflowRound_read (conn : ConnectionInfo) (n : Nat) (call : M (Option UInt8))
    (header : List UInt8) {s₁ : State} (hread : readRecords s = (.ok (), s₁))
    (hcur : s₁.buf.gptr < s₁.buf.bufferEnd_) :
    underflowRound conn n call header s = (do
      match ← Fcgi.setUpContent conn with
      | some (.done c) => pure (.done c)
      | some (.again _) => pure (.again header)
      | none => Fcgi.afterContent conn n call header : M _) s₁ := by
  rw [underflowRound, Prog.bind_ok hread, Prog.bind_ok (Prog.get_run _),
    Prog.bind_ok (Prog.assert_true (Nat.sub_pos_of_lt hcur) _)]
  rfl

/-- What a round before a header does: it comes nearer to the header, or processes it. -/
def RoundEnds (conn : ConnectionInfo) (t : StreamType) (size u p : Nat) (dis : Bool) (o : Outer)
    (header bs : List UInt8) (s : State) : Prop :=
  (∃ k header' s', Nearer conn t size u p dis o header bs s k header' s' ∧
    ∀ n call, underflowRound conn n call header s = (.ok (.again header'), s')) ∨
  (toRead u p header ≤ bs.length ∧ ∃ s',
    Further conn t size u p dis o bs s (toRead u p header) s' ∧
    ∀ n call, underflowRound conn n call header s =
      processing conn (header.length = 8) (completed u p header bs) n call s')

section

variable {header : List UInt8} {s₁ : State} (hread : Fcgi.readRecords s = (.ok (), s₁))
  (hcur : s₁.buf.gptr < s₁.buf.bufferEnd_) (hclean : s.world.io.Clean → s₁.world.io.Clean)
  (hh : header.length ≤ 8)

include hread hcur hclean hh

/-- Content is passed over, and some of it is still to come. -/
theorem Spot.round_discarding (h : Spot conn t size u p true o bs s₁)
    (hlt : s₁.buf.bufferEnd_ - s₁.buf.gptr < u) :
    RoundEnds conn t size u p true o header bs s := by
  obtain ⟨a, ha⟩ : ∃ a, a = s₁.buf.bufferEnd_ - s₁.buf.gptr := ⟨_, rfl⟩
  rw [← ha] at hlt
  have hlen : a ≤ bs.length := by
    rw [ha, ← h.bytes]
    exact ServerStreambuf.length_received
  have hp : p - (a - u) = p := by omega
  obtain ⟨s₂, hset, h₂, -, -, hio₂⟩ := h.discardContent (by omega) rfl hcur
  rw [← ha, if_pos (by omega)] at hset
  rw [← ha, decide_eq_true (show min u a < u by omega), show min u a = a by omega] at h₂
  refine .inl ⟨a, header, s₂, ⟨⟨?_, fun hc => hio₂ ▸ hclean hc⟩, by omega, hlen, ?_, ?_, hh,
    Iff.rfl, ?_⟩, fun n call => ?_⟩
  · rw [stillPassed_eq_true (by omega), hp]
    exact h₂
  · rw [toRead, toRead]
    omega
  · rw [toRead]
    omega
  · rw [completed, completed, List.drop_drop, hp, show a + (u - a + p) = u + p by omega]
  · rw [underflowRound_read conn n call header hread hcur, Prog.bind_ok hset]
    rfl

/-- Content is passed over, and all that is left of it is at hand. -/
theorem Spot.round_discarded (h : Spot conn t size u p true o bs s₁) (hu : 0 < u)
    (hle : u ≤ s₁.buf.bufferEnd_ - s₁.buf.gptr) :
    RoundEnds conn t size u p true o header bs s := by
  obtain ⟨a, ha⟩ : ∃ a, a = s₁.buf.bufferEnd_ - s₁.buf.gptr := ⟨_, rfl⟩
  -- `a` bytes are in the buffer, and all content left lies in them.
  rw [← ha] at hle
  have hlen : a ≤ bs.length := by
    rw [ha, ← h.bytes]
    exact ServerStreambuf.length_received
  have hpassed : ∀ {k}, u ≤ k → stillPassed true u k = false := fun hk => by
    rw [stillPassed, if_neg (by omega), decide_eq_false (by omega)]
  obtain ⟨s₂, hset, h₂, hcur₂, hend₂, hio₂⟩ := h.discardContent hu rfl hcur
  rw [← ha, if_neg (by omega)] at hset
  rw [← ha, decide_eq_false (show ¬ min u a < u by omega), show min u a = u by omega,
    Nat.sub_self] at h₂
  rw [← ha, show min u a = u by omega] at hcur₂
  have hround : ∀ n call, underflowRound conn n call header s =
      Fcgi.afterContent conn n call header s₂ := fun n call => by
    rw [underflowRound_read conn n call header hread hcur, Prog.bind_ok hset]
  have hc : completed 0 p header (bs.drop u) = completed u p header bs := by
    rw [completed, completed, List.drop_drop, Nat.zero_add]
  -- What stands behind the content is padding, the next header, or both.
  rcases h₂.afterContent hh (show a - u = _ by rw [hcur₂, hend₂]; omega) with
    ⟨header', s', hrun, h', hio', hto, hmore, hh', hst, hc'⟩ | ⟨hle, s', h', hio', hrun⟩
  · rw [List.drop_drop, show u + (a - u) = a by omega] at h' hc'
    have hu0 : u - a = 0 := by omega
    refine .inl ⟨a, header', s', ⟨⟨?_, fun hc => hio' ▸ hio₂ ▸ hclean hc⟩, by omega, hlen, ?_, ?_,
      hh', hst, ?_⟩, fun n call => (hround n call).trans (hrun n call)⟩
    · rw [hpassed hle, hu0]
      exact h'
    · rw [hu0]
      rw [toRead] at hto ⊢
      rw [toRead] at hto ⊢
      omega
    · rw [hu0]
      exact hmore
    · rw [hu0]
      exact hc'.trans hc
  · have hto : toRead u p header = u + toRead 0 p header := by
      rw [toRead, toRead]
      omega
    rw [List.drop_drop, ← hto] at h'
    refine .inr ⟨by omega, s', ⟨?_, fun hc => hio' ▸ hio₂ ▸ hclean hc⟩,
      fun n call => (hround n call).trans (hc ▸ hrun n call)⟩
    rw [hpassed (by omega), show u - toRead u p header = 0 by omega,
      show p - (toRead u p header - u) = 0 by rw [hto, toRead]; omega]
    exact h'

/-- No content is left. -/
theorem Spot.round_content_read (h : Spot conn t size 0 p dis o bs s₁) :
    RoundEnds conn t size 0 p dis o header bs s := by
  obtain ⟨a, ha⟩ : ∃ a, a = s₁.buf.bufferEnd_ - s₁.buf.gptr := ⟨_, rfl⟩
  have hlen : a ≤ bs.length := by
    rw [ha, ← h.bytes]
    exact ServerStreambuf.length_received
  have hround : ∀ n call, underflowRound conn n call header s =
      Fcgi.afterContent conn n call header s₁ := fun n call => by
    rw [underflowRound_read conn n call header hread hcur,
      Prog.bind_ok (setUpContent_none h.content)]
  have hfurther : ∀ {k s'}, Spot conn t size 0 (p - k) dis o (bs.drop k) s' →
      s'.world.io = s₁.world.io → Further conn t size 0 p dis o bs s k s' := fun hs' hio' =>
    ⟨by rw [Nat.zero_sub]; exact hs', fun hc => hio' ▸ hclean hc⟩
  rcases h.afterContent hh ha with ⟨header', s', hrun, h', hio', hto, hmore, hh', hst, hc'⟩ |
    ⟨hle, s', h', hio', hrun⟩
  · refine .inl ⟨a, header', s', ⟨hfurther h' hio', by omega, hlen, ?_, ?_, hh', hst, ?_⟩,
      fun n call => (hround n call).trans (hrun n call)⟩
    · rw [Nat.zero_sub]
      exact hto
    · rw [Nat.zero_sub]
      exact hmore
    · rw [Nat.zero_sub]
      exact hc'
  · refine .inr ⟨Nat.le_trans hle hlen, s', hfurther ?_ hio',
      fun n call => (hround n call).trans (hrun n call)⟩
    rw [show p - toRead 0 p header = 0 by rw [toRead]; omega]
    exact h'

end

/-- **A round before a header**, with content left only if it is passed over. -/
theorem Spot.round {header : List UInt8} (h : Spot conn t size u p dis o bs s)
    (hh : header.length ≤ 8) (hdis : 0 < u → dis = true) (hne : bs ≠ []) :
    RoundEnds conn t size u p dis o header bs s := by
  obtain ⟨s₁, hread, h₁, hcur, hclean⟩ := h.readRecords hne
  rcases Nat.eq_zero_or_pos u with rfl | hu
  · exact h₁.round_content_read hread hcur hclean hh
  · obtain rfl := hdis hu
    rcases Nat.lt_or_ge (s₁.buf.bufferEnd_ - s₁.buf.gptr) u with hlt | hle
    · exact h₁.round_discarding hread hcur hclean hh hlt
    · exact h₁.round_discarded hread hcur hclean hh hu hle

/-- What `underflow()` does with a header, and then. -/
def processed (conn : ConnectionInfo) (stale : Bool) (header : List UInt8) (fuel : Nat) :
    M (Option UInt8) :=
  processing conn stale header fuel (underflow conn fuel) >>= Prog.goOn (underflowLoop conn fuel)

/-- **The rounds before a header**: the next one, or the same once more.  They take fuel. -/
theorem Spot.header_ahead {header : List UInt8} (h : Spot conn t size u p dis o bs s)
    (hh : header.length ≤ 8) (hdis : 0 < u → dis = true) (hne : bs ≠ [])
    (hto : toRead u p header ≤ bs.length) :
    ∃ s', Spot conn t size 0 0 (dis && decide (u = 0)) o (bs.drop (toRead u p header)) s' ∧
      (s.world.io.Clean → s'.world.io.Clean) ∧
      Prog.Leads (fun n => underflowLoop conn (n + 1) header) s
        (processed conn (header.length = 8) (completed u p header bs)) s' := by
  suffices ∃ s', Further conn t size u p dis o bs s (toRead u p header) s' ∧
      Prog.Leads (fun n => underflowLoop conn (n + 1) header) s
        (processed conn (header.length = 8) (completed u p header bs)) s' by
    obtain ⟨s', h', hleads⟩ := this
    have hspot := h'.spot
    rw [stillPassed_of_le (by rw [toRead]; omega), show u - toRead u p header = 0 by
      rw [toRead]; omega, show p - (toRead u p header - u) = 0 by rw [toRead]; omega] at hspot
    exact ⟨s', hspot, h'.clean, hleads⟩
  induction hm : bs.length using Nat.strongRecOn generalizing u p dis header bs s with
  | _ m ih =>
      rcases h.round hh hdis hne with ⟨k, header', s', hn, hround⟩ | ⟨-, s', h', hround⟩
      · have hlen : (bs.drop k).length = bs.length - k := List.length_drop
        have hpos := hn.pos
        have hle := hn.le
        have hto' := hn.toRead
        have hmore := hn.more
        obtain ⟨s'', h'', hleads⟩ := ih (bs.drop k).length (by omega) hn.spot hn.length
          stillPassed_eq_true (List.ne_nil_of_length_pos (by omega)) (by omega) rfl
        have hk := hn.toFurther.trans h''
        rw [Nat.add_comm, hto'] at hk
        rw [hn.completed, decide_eq_decide.mpr hn.stale] at hleads
        exact ⟨s'', hk, (Prog.recLoop_again_succ fun n => hround n _).trans
          (hleads.of_succ fun _ => rfl)⟩
      · exact ⟨s', h', Prog.recLoop_leads_succ fun n => hround n _⟩

/-- **Too few bytes** before a header: all of them are read. -/
theorem Spot.drained {header : List UInt8} (h : Spot conn t size u p dis o bs s)
    (hh : header.length ≤ 8) (hdis : 0 < u → dis = true)
    (hto : bs.length < toRead u p header ∨ bs = []) :
    ∃ header' s', Further conn t size u p dis o bs s bs.length s' ∧
      Prog.Leads (fun n => underflowLoop conn n header) s
        (fun n => underflowLoop conn n header') s' := by
  induction hm : bs.length using Nat.strongRecOn generalizing u p dis header bs s with
  | _ m ih =>
      by_cases hne : bs = []
      · subst hne
        obtain rfl : 0 = m := hm
        refine ⟨header, s, ⟨?_, id⟩, .of_eq fun _ => rfl⟩
        have hpassed : stillPassed dis u 0 = dis := by
          rw [stillPassed]
          split
          · rfl
          · rw [decide_eq_true (by omega), hdis (by omega)]
        rw [hpassed, Nat.sub_zero, Nat.zero_sub, Nat.sub_zero, List.drop_zero]
        exact h
      · rcases h.round hh hdis hne with ⟨k, header', s', hn, hround⟩ | ⟨hle, -⟩
        · have hlen : (bs.drop k).length = bs.length - k := List.length_drop
          have hpos := hn.pos
          have hle := hn.le
          have hto' := hn.toRead
          have hlt := hto.resolve_right hne
          obtain ⟨header'', s'', h'', hleads⟩ := ih (bs.drop k).length (by omega) hn.spot hn.length
            stillPassed_eq_true (.inl (by omega)) rfl
          have hk := hn.toFurther.trans h''
          rw [show k + (bs.drop k).length = m by omega] at hk
          exact ⟨header'', s'', hk, (Prog.recLoop_again fun n => hround n _).trans hleads⟩
        · exact absurd hle (Nat.not_le_of_lt (hto.resolve_right hne))

/-- Then `underflow()` throws, and has sent nothing. -/
theorem Spot.exhausted {header : List UInt8} (h : Spot conn t size u p dis o bs s)
    (hh : header.length ≤ 8) (hdis : 0 < u → dis = true)
    (hto : bs.length < toRead u p header ∨ bs = []) :
    ∃ e s', Prog.Runs (fun n => underflowLoop conn n header) s (.error (.exc e)) s' ∧
      s'.outer = o := by
  obtain ⟨header', s', h', hleads⟩ := h.drained hh hdis hto
  have hspot := h'.spot
  rw [List.drop_length] at hspot
  obtain ⟨e, s'', hread, hs''⟩ := hspot.readRecords_nil
  exact ⟨e, s'', hleads.runs (Prog.recLoop_error fun n => Prog.bind_error hread), hs''⟩

end

end Fcgi

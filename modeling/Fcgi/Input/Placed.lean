import Fcgi.Input.Pause
import Fcgi.Input.Stable

/-!
# Input — a reader among the bytes

A reader of the parameters is at a place in the string of bytes that the client sends.  How much of
the content ahead is at hand depends on the pieces in which they come.

* `Placed conn size n p dis bs s`: with `n` bytes of content and `p` of padding of a record to come,
  at hand or not, and `bs` ahead.
* `Rested size s`: between two calls.

**`Placed.next`**: the next character is the first byte ahead, at hand or not.
`History.CutSensitive` says where the pieces do matter.

A `Placed` does not tell the characters at hand from those to come, which is what makes two readers
of the same bytes comparable.  It is a `Spot` when no character is at hand and a `Pause` when some
are, and what those know of the reader is used through `Placed.spot` and `Placed.pause`.
-/

namespace Fcgi
open Lib

/-! ### Where the cuts matter -/

/-- The content has been read, and the get position is not at the end of the get area: characters
are left that came with others; or nothing came after the content but a part of a header. -/
def Answer.CutSensitive (a : Answer) : Prop :=
  a.buf.unreadContentLength_ = 0 ∧ a.buf.gptr ≠ a.buf.egptr

instance (a : Answer) : Decidable a.CutSensitive := by unfold Answer.CutSensitive; infer_instance

/-- The bytes ahead of the reader. -/
def Dispatch.ahead (d : Dispatch) : List UInt8 := d.buf.received d.buf.gptr ++ d.io.reach

/-- There is room for the content after as much of it has been taken as arrives at once, and not if
only a byte of it arrives. -/
def Dispatch.CutSensitive (size : Nat) (d : Dispatch) : Prop :=
  d.header.IsGetValues ∧ d.buf.isContentMustBeDiscarded_ = false ∧
    d.buf.isEndOfStream_ = false ∧ size + 1 < d.header.contentLength ∧
    d.header.contentLength ≤ size + min size d.ahead.length

instance (size : Nat) (d : Dispatch) : Decidable (d.CutSensitive size) := by
  unfold Dispatch.CutSensitive Header.IsGetValues; infer_instance

/-- A get-values record has been read where the cuts matter. -/
def History.CutSensitive (size : Nat) (h : History) : Prop :=
  (∃ a ∈ h.answers, a.CutSensitive) ∨ ∃ d ∈ h.dispatches, d.CutSensitive size

instance (size : Nat) (h : History) : Decidable (h.CutSensitive size) := by
  unfold History.CutSensitive; infer_instance

/-- The run has come to where the cuts matter. -/
abbrev Cut (size : Nat) (s : State) : Prop := s.world.history.CutSensitive size

theorem cut_stable (size : Nat) : Stable (Cut size) where
  buf _ _ _ h := h
  io _ _ _ h := h
  entry _ _ _ h := h
  dispatch _ _ _ h := h.imp_right fun ⟨d, hd, hc⟩ => ⟨d, List.mem_append_left _ hd, hc⟩
  answer _ _ _ h := h.imp_left fun ⟨a, ha, hc⟩ => ⟨a, List.mem_append_left _ ha, hc⟩
  delivery _ _ _ h := h

/-! ### One reader -/

/-- The place of the reader, wherever the next bytes are. -/
structure Placed (conn : ConnectionInfo) (size n p : Nat) (dis : Bool) (bs : List UInt8)
    (s : State) : Prop where
  openReader : OpenReader conn.role s.buf
  type : s.buf.type_ = .params
  bufferSize : s.buf.bufferSize_ = size
  discard : s.buf.isContentMustBeDiscarded_ = dis
  content : s.buf.egptr - s.buf.gptr + s.buf.unreadContentLength_ = n
  padding : s.buf.unreadPaddingLength_ = p
  bytes : s.reach s.buf.gptr = bs
  clean : s.world.io.Clean

/-- Of `u` bytes of content, any first part may be taken, or none. -/
def Fits (size u : Nat) (bs : List UInt8) : Prop :=
  u ≤ size + 1 ∨ size + min size bs.length < u

/-- Between two calls.  Characters are at hand only as long as `underflow()` would go on from
them. -/
structure Rested (size : Nat) (s : State) : Prop where
  ordered : s.buf.gptr ≤ s.buf.egptr
  fits : s.buf.isContentMustBeDiscarded_ = false → s.buf.isEndOfStream_ = false →
    s.buf.unreadContentLength_ ≤ size ∨
      s.buf.gptr = s.buf.egptr ∧ Fits size s.buf.unreadContentLength_ (s.reach s.buf.gptr)
  empty : s.buf.isContentMustBeDiscarded_ = true ∨ s.buf.isEndOfStream_ = true →
    s.buf.gptr = s.buf.egptr

section

variable {conn : ConnectionInfo} {size n u p : Nat} {dis : Bool} {o : Outer}
  {bs area : List UInt8} {s : State}

/-- With no character at hand. -/
theorem Placed.content_eq (h : Placed conn size n p dis bs s)
    (heq : s.buf.gptr = s.buf.egptr) : s.buf.unreadContentLength_ = n := by
  have := h.content
  rwa [heq, Nat.sub_self, Nat.zero_add] at this

/-- The invariant holds where the content fits into the buffer. -/
theorem Placed.invariantOk (h : Placed conn size n p dis bs s)
    (heq : s.buf.gptr = s.buf.egptr) : s.buf.InvariantOk conn.role ↔ n ≤ size := by
  have hu := h.content_eq heq
  refine ⟨fun hi => ?_, fun hn => h.openReader.invariantOk ?_ (Nat.le_of_eq heq)⟩
  · rw [← hu, ← h.bufferSize]
    exact hi.2.2.1.1
  · rwa [hu, h.bufferSize]

theorem Placed.spot (h : Placed conn size n p dis bs s) (heq : s.buf.gptr = s.buf.egptr) :
    Spot conn .params size n p dis s.outer bs s :=
  ⟨⟨rfl, h.openReader, h.type, h.bufferSize, h.discard, h.content_eq heq, h.padding⟩, h.bytes⟩

/-- From the loop of `underflow()`. -/
theorem Spot.placed (h : Spot conn .params size u p dis o bs s)
    (hge : s.buf.egptr ≤ s.buf.gptr) (hc : s.world.io.Clean) :
    Placed conn size u p dis bs s :=
  ⟨h.openReader, h.type, h.bufferSize, h.discard, by
    rw [Nat.sub_eq_zero_of_le hge, Nat.zero_add, h.content], h.padding, h.bytes, hc⟩

/-- With nothing ahead the get area is behind. -/
theorem Spot.egptr_le_of_nil (h : Spot conn .params size u p dis o [] s) :
    s.buf.egptr ≤ s.buf.gptr := by
  have hrec := (List.append_eq_nil_iff.mp h.bytes).1
  have := ServerStreambuf.end_of_received_nil h.openReader.gptr_le hrec
  rw [this]
  exact h.openReader.egptr_le

/-- The characters at hand, and what arrives after them. -/
theorem Placed.reach_eq (h : Placed conn size n p dis bs s) (hle : s.buf.gptr ≤ s.buf.egptr) :
    s.buf.buffer_.load s.buf.gptr (s.buf.egptr - s.buf.gptr) ++ s.reach s.buf.egptr = bs := by
  have hend := h.openReader.egptr_le
  rw [← h.bytes, State.reach, State.reach, ← List.append_assoc]
  congr 1
  rw [ServerStreambuf.received, ServerStreambuf.received,
    show s.buf.bufferEnd_ - s.buf.gptr =
      (s.buf.egptr - s.buf.gptr) + (s.buf.bufferEnd_ - s.buf.egptr) by omega, Mem.load_add,
    show s.buf.gptr + (s.buf.egptr - s.buf.gptr) = s.buf.egptr by omega]

theorem Pause.placed (h : Pause conn .params size u p o area bs s) (hc : s.world.io.Clean) :
    Placed conn size (area.length + u) p false (area ++ bs) s := by
  have hplaced : Placed conn size (area.length + u) p false (s.reach s.buf.gptr) s := by
    refine ⟨h.openReader, h.type, h.bufferSize, h.discard, ?_, h.padding, rfl, hc⟩
    rw [h.content, ← h.area, Mem.length_load]
  have hbytes := hplaced.reach_eq h.ordered
  rw [h.area, h.bytes] at hbytes
  rwa [hbytes]

/-- A reader between two calls is at rest. -/
theorem Pause.rested (h : Pause conn .params size u p o area bs s) (hu : u ≤ size)
    (ho : o.ended = false) : Rested size s := by
  refine ⟨h.ordered, fun _ _ => .inl (h.content.symm ▸ hu), ?_⟩
  rintro (hd | he)
  · cases hd.symm.trans h.discard
  · have hopen : s.buf.isEndOfStream_ = false := (congrArg Outer.ended h.outer).trans ho
    cases he.symm.trans hopen

/-- A place without content to be discarded. -/
theorem Placed.pause (h : Placed conn size n p false bs s) (hle : s.buf.gptr ≤ s.buf.egptr) :
    Pause conn .params size s.buf.unreadContentLength_ p s.outer
      (s.buf.buffer_.load s.buf.gptr (s.buf.egptr - s.buf.gptr)) (s.reach s.buf.egptr) s :=
  ⟨⟨rfl, h.openReader, h.type, h.bufferSize, h.discard, rfl, h.padding⟩, hle, rfl, rfl⟩

/-- With a character at hand, the stream has not ended. -/
theorem Rested.isOpen (h : Rested size s) (hlt : s.buf.gptr < s.buf.egptr) :
    s.buf.isContentMustBeDiscarded_ = false ∧ s.buf.isEndOfStream_ = false := by
  refine ⟨Bool.eq_false_iff.mpr fun hd => ?_, Bool.eq_false_iff.mpr fun he => ?_⟩
  · exact absurd (h.empty (.inl hd)) (Nat.ne_of_lt hlt)
  · exact absurd (h.empty (.inr he)) (Nat.ne_of_lt hlt)

/-- Some of the content is at hand: so much has come at once that the rest fits. -/
theorem Placed.roomy (h : Placed conn size n p dis bs s) (hr : Rested size s)
    (hlt : s.buf.gptr < s.buf.egptr) : n ≤ size + min size bs.length := by
  obtain ⟨hd, he⟩ := hr.isOpen hlt
  have hu := (hr.fits hd he).resolve_right fun hr => absurd hr.1 (Nat.ne_of_lt hlt)
  have hsize := h.openReader.end_le
  rw [h.bufferSize] at hsize
  have hend := h.openReader.egptr_le
  have hlen := congrArg List.length (h.reach_eq hr.ordered)
  rw [List.length_append, Mem.length_load] at hlen
  have := h.content
  omega

/-- The next of the characters at hand. -/
theorem Placed.takeChar (h : Placed conn size n p dis bs s) (hr : Rested size s)
    (hlt : s.buf.gptr < s.buf.egptr) :
    ∃ m c cs s', n = m + 1 ∧ bs = c :: cs ∧ Fcgi.takeChar s = (.ok (some c), s') ∧
      Placed conn size m p dis cs s' ∧ Rested size s' ∧ s'.outer = s.outer ∧
      s'.buf.unreadContentLength_ ≤ size := by
  obtain ⟨hd, he⟩ := hr.isOpen hlt
  obtain rfl : dis = false := h.discard.symm.trans hd
  have hu := (hr.fits hd he).resolve_right fun hr => absurd hr.1 (Nat.ne_of_lt hlt)
  obtain ⟨c, cs, s', harea, htake, hs', hw⟩ := (h.pause hr.ordered).takeChar hlt
  have hlen := congrArg List.length harea
  rw [Mem.length_load, List.length_cons] at hlen
  have hn := h.content
  refine ⟨cs.length + s.buf.unreadContentLength_, c, cs ++ s.reach s.buf.egptr, s', by omega, ?_,
    htake, hs'.placed (hw ▸ h.clean), hs'.rested hu he, hs'.outer, hs'.content ▸ hu⟩
  rw [← h.reach_eq hr.ordered, harea, List.cons_append]

/-- With content ahead and none of it at hand, the loop makes some of it available. -/
theorem Placed.provide {c : UInt8} {cs : List UInt8}
    (h : Placed conn size n p false (c :: cs) s) (heq : s.buf.gptr = s.buf.egptr)
    (hsize : n ≤ size + 1) (hopen : s.buf.isEndOfStream_ = false) (hn : 0 < n)
    (header : List UInt8) :
    ∃ s', Prog.Runs (fun k => underflowLoop conn k header) s (.ok (some c)) s' ∧
      Placed conn size n p false (c :: cs) s' ∧ Rested size s' ∧ s'.outer = s.outer ∧
      s'.buf.unreadContentLength_ ≤ size ∧ s'.buf.gptr < s'.buf.egptr := by
  obtain ⟨c', k, s', hruns, hhead, hpos, hk, hle, hpause, hclean⟩ :=
    (h.spot heq).provide hn hsize (List.cons_ne_nil c cs) header
  cases hhead
  have hplaced := hpause.placed (hclean h.clean)
  rw [List.take_append_drop, List.length_take, Nat.min_eq_left hle,
    Nat.add_sub_cancel' hk] at hplaced
  have hu : n - k ≤ size := by omega
  refine ⟨s', hruns, hplaced, hpause.rested hu hopen, hpause.outer, hpause.content ▸ hu,
    hpause.lt_egptr fun e => ?_⟩
  have := congrArg List.length e
  rw [List.length_take, List.length_nil] at this
  omega

/-- Content for which there is no room, whatever has arrived of it. -/
theorem Placed.overfull (h : Placed conn size n p false bs s) (heq : s.buf.gptr = s.buf.egptr)
    (hn : size + min size bs.length < n) (hne : bs ≠ []) (header : List UInt8) :
    ∃ s', Prog.Runs (fun k => underflowLoop conn k header) s (.error .abort) s' ∧
      Placed conn size n p false bs s' ∧ s'.outer = s.outer ∧
      size < s'.buf.unreadContentLength_ := by
  obtain ⟨k, s', hruns, hk, hle, hlt, hpause, hclean⟩ := (h.spot heq).overfull hn hne header
  have hplaced := hpause.placed (hclean h.clean)
  rw [List.take_append_drop, List.length_take, Nat.min_eq_left hle,
    Nat.add_sub_cancel' hk] at hplaced
  exact ⟨s', hruns, hplaced, hpause.outer, hpause.content ▸ hlt⟩

/-- That the loop is entered is noted, and nothing else. -/
theorem Placed.entered (h : Placed conn size n p dis bs s) :
    Placed conn size n p dis bs s.entered :=
  ⟨h.openReader, h.type, h.bufferSize, h.discard, h.content, h.padding, h.bytes, h.clean⟩

/-- The next character is the first byte of it, at hand or not. -/
theorem Placed.next {c : UInt8} {cs : List UInt8} (h : Placed conn size n p false (c :: cs) s)
    (hr : Rested size s) (hopen : s.buf.isEndOfStream_ = false) (hn : 0 < n)
    (hroom : n ≤ size + min size (c :: cs).length) :
    ∃ s', Prog.Runs (fun k => sbumpc (underflow conn k)) s (.ok (some c)) s' ∧
      Placed conn size (n - 1) p false cs s' ∧ Rested size s' ∧ s'.outer = s.outer ∧
      s'.buf.unreadContentLength_ ≤ size := by
  by_cases hlt : s.buf.gptr < s.buf.egptr
  · obtain ⟨m, c', cs', s', rfl, hbs, htake, h', hr', ho⟩ := h.takeChar hr hlt
    cases hbs
    exact ⟨s', sbumpc_here hlt htake, h', hr', ho⟩
  · have heq := Nat.le_antisymm hr.ordered (Nat.le_of_not_lt hlt)
    have hsize : n ≤ size + 1 := by
      have hfits := hr.fits h.discard hopen
      rw [h.content_eq heq, h.bytes, Fits] at hfits
      omega
    obtain ⟨s₁, hruns, h₁, hr₁, ho₁, -, hlt₁⟩ := h.entered.provide heq hsize hopen hn []
    obtain ⟨m, c', cs', s', rfl, hbs, htake, h', hr', ho', hu'⟩ := h₁.takeChar hr₁ hlt₁
    cases hbs
    refine ⟨s', ?_, h', hr', ho'.trans ho₁, hu'⟩
    have hunder : ∀ k, underflow conn k s = underflowLoop conn k [] s.entered := fun k => by
      rw [h.openReader.underflow_eq, if_neg (Bool.eq_false_iff.mp hopen)]
    exact sbumpc_some (Nat.le_of_not_lt hlt) ((Prog.Leads.of_eq hunder).runs hruns) htake

end

end Fcgi

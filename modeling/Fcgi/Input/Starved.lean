import Fcgi.Input.Terminator

/-!
# Input — what an exception leaves of the get area

While `underflow()` passes over padding, content to be discarded and headers, gptr() goes past
egptr(), and only the next get area or the next header processed puts them in order again.  So the
order is lost for good where the bytes at hand end before either, and the read that follows brings
nothing.

That can be told from the places where the loop sets out: where a call of `underflow()` enters it,
where it goes on after a header, and where it goes on after the answer to a get-values record.
There egptr() stands, and what will be passed over is known: the rest of the content if it is to be
discarded, the padding, and what is missing of a header.  `ServerStreambuf.Starves` compares this
with the bytes at hand.  Whatever a read has brought since then lies before egptr(), for a read
sets egptr() to the end of what it brings.

* `History.Starved conn h`: in one of the places noted in `h` the reader starves.
* `Balanced`: the assertion that is carried through a round of the loop.  It says that the reader
  has starved if and only if it is about to, with the bytes that are at hand and the part of the
  header that has been read.
* **`underflow_starved`**: an exception leaves gptr() past egptr() if and only if the reader has
  starved in the call.
-/

namespace Fcgi
open Lib
open ServerStreambuf (gptr_eq egptr_eq gbump_getArea_eq)

/-! ### Where the reader starves -/

/-- The bytes at hand end before content to be read, and before the end of the header of which `n`
bytes have been read: all of them are passed over. -/
def ServerStreambuf.Short (b : ServerStreambuf) (n : Nat) : Prop :=
  ¬ (0 < b.unreadContentLength_ ∧ b.isContentMustBeDiscarded_ = false) ∧
    b.avail < b.unreadContentLength_ + b.unreadPaddingLength_ + (Header.size - n)

/-- Received bytes lie behind the get area, and the next read brings nothing. -/
def ServerStreambuf.Exposed (b : ServerStreambuf) (io : Io) : Prop :=
  io.reach = [] ∧ b.egptr < b.bufferEnd_

/-- The loop sets out here, with `n` bytes of the header, and comes to that read before it sets the
get area anew. -/
def ServerStreambuf.Starves (b : ServerStreambuf) (io : Io) (n : Nat) : Prop :=
  b.Exposed io ∧ (b.Short n ∨ b.avail = 0)

/-- The buffer with which the loop goes on once `process_header()` has dealt with the header, where
it does go on at once. -/
def Dispatch.next (conn : ConnectionInfo) (d : Dispatch) : Option ServerStreambuf :=
  let b := d.buf.dispatched d.header
  if d.header.protocolVersion ≠ 1 then none
  else if d.header.recordType = .beginRequest then
    if d.io.WriteFails then none else some (b.setContentMustBeDiscarded true)
  else if d.header.isManagementRecord then
    -- The variables of a get-values record are read first.
    if d.header.recordType = .getValues ∨ d.io.WriteFails then none else some b
  else if d.header.requestId ≠ conn.requestId then some (b.setContentMustBeDiscarded true)
  else if d.header.recordType = d.buf.type_.recordType ∧ d.header.contentLength ≠ 0 then some b
  else none

/-- The reader starves where a call has entered the loop. -/
def Entry.Starves (e : Entry) : Prop := e.buf.Starves e.io 0

/-- The reader starves after a header. -/
def Dispatch.Starves (conn : ConnectionInfo) (d : Dispatch) : Prop :=
  ∃ b, d.next conn = some b ∧ b.Starves d.io Header.size

/-- The content of the get-values record has been read to its end and the answer is sent, so the
loop goes on. -/
def Answer.Starves (a : Answer) : Prop :=
  a.buf.unreadContentLength_ = 0 ∧ ¬ a.io.WriteFails ∧ a.buf.Starves a.io Header.size

/-- The reader starves in one of the places noted. -/
def History.Starved (conn : ConnectionInfo) (h : History) : Prop :=
  (∃ e ∈ h.entries, e.Starves) ∨ (∃ d ∈ h.dispatches, d.Starves conn) ∨ ∃ a ∈ h.answers, a.Starves

/-- What has happened between `h₀` and `h`. -/
def History.since (h h₀ : History) : History where
  entries := h.entries.drop h₀.entries.length
  dispatches := h.dispatches.drop h₀.dispatches.length
  answers := h.answers.drop h₀.answers.length
  deliveries := h.deliveries.drop h₀.deliveries.length
  ungets := h.ungets.drop h₀.ungets.length

section decidable

instance (b : ServerStreambuf) (io : Io) (n : Nat) : Decidable (b.Starves io n) := by
  unfold ServerStreambuf.Starves ServerStreambuf.Exposed ServerStreambuf.Short
  infer_instance

instance (e : Entry) : Decidable e.Starves := inferInstanceAs (Decidable (e.buf.Starves e.io 0))

instance (a : Answer) : Decidable a.Starves := by
  unfold Answer.Starves
  infer_instance

instance (conn : ConnectionInfo) (d : Dispatch) : Decidable (d.Starves conn) :=
  decidable_of_iff ((d.next conn).any fun b => decide (b.Starves d.io Header.size)) (by
    simp [Dispatch.Starves, Option.any_eq_true])

instance (conn : ConnectionInfo) (h : History) : Decidable (h.Starved conn) := by
  unfold History.Starved
  infer_instance

end decidable

/-! ### The assertions -/

/-- An open reader in a state that has come after `h₀`. -/
structure Traced (conn : ConnectionInfo) (h₀ : History) (s : State) : Prop where
  openReader : OpenReader conn.role s.buf
  entries : h₀.entries.length ≤ s.world.history.entries.length
  dispatches : h₀.dispatches.length ≤ s.world.history.dispatches.length
  answers : h₀.answers.length ≤ s.world.history.answers.length

/-- The reader has starved since `h₀` if and only if `p`. -/
def Balanced (conn : ConnectionInfo) (h₀ : History) (p : State → Prop) (s : State) : Prop :=
  Traced conn h₀ s ∧ ((s.world.history.since h₀).Starved conn ↔ p s)

/-- At the beginning of a round, with `n` bytes of the header. -/
def State.Starves (n : Nat) (s : State) : Prop := s.buf.Starves s.world.io n

/-- In a round, with bytes at hand or some of them passed over. -/
def State.Lacks (n : Nat) (s : State) : Prop := s.buf.Exposed s.world.io ∧ s.buf.Short n

/-- gptr() is past egptr(). -/
def State.Overrun (s : State) : Prop := s.buf.egptr < s.buf.gptr

/-- The reader has not starved, and its pointers are in order. -/
def InOrder (conn : ConnectionInfo) (h₀ : History) (s : State) : Prop :=
  Balanced conn h₀ (fun _ => False) s ∧ s.buf.gptr ≤ s.buf.egptr

/-- What a call of `underflow()` that returns leaves. -/
def InOrderResult (conn : ConnectionInfo) (h₀ : History) : Option UInt8 → State → Prop
  | some _, s => InOrder conn h₀ s ∧ s.buf.gptr < s.buf.egptr
  | none, s => InOrder conn h₀ s

/-- What an exception leaves. -/
def Overran (conn : ConnectionInfo) (h₀ : History) : Fault Exception → State → Prop
  | .exc _, s => Balanced conn h₀ State.Overrun s
  | .abort, _ => True
  | .undef, _ => True
  | .spent, _ => True

section

variable {conn : ConnectionInfo} {h₀ : History} {n : Nat} {p q : State → Prop} {s s' : State}
  {b : ServerStreambuf} {w : World} {io io' : Io}

/-- The same with an equivalent condition. -/
theorem Balanced.iff (h : Balanced conn h₀ p s) (hpq : p s ↔ q s) : Balanced conn h₀ q s :=
  ⟨h.1, h.2.trans hpq⟩

/-- A step that is not noted. -/
theorem Balanced.move (h : Balanced conn h₀ p s) (ho : OpenReader conn.role s'.buf)
    (hw : s'.world.history = s.world.history) (hpq : p s ↔ q s') : Balanced conn h₀ q s' := by
  obtain ⟨b, w⟩ := s
  obtain ⟨b', w'⟩ := s'
  dsimp only at hw
  obtain ⟨⟨-, he, hd, ha⟩, hs⟩ := h
  exact ⟨⟨ho, hw ▸ he, hw ▸ hd, hw ▸ ha⟩, hw ▸ hs.trans hpq⟩

/-- A reader in order is not past egptr(). -/
theorem InOrder.balanced (h : InOrder conn h₀ s) : Balanced conn h₀ State.Overrun s :=
  h.1.iff ⟨False.elim, fun hlt => Nat.not_lt.mpr h.2 hlt⟩

/-- The reader has not starved, and its pointers are in order. -/
theorem Balanced.inOrder (h : Balanced conn h₀ p s) (hp : ¬ p s) (hle : s.buf.gptr ≤ s.buf.egptr) :
    InOrder conn h₀ s := ⟨h.iff (iff_of_false hp id), hle⟩

/-! ### What is noted -/

theorem starved_addEntry (he : h₀.entries.length ≤ w.history.entries.length) (e : Entry) :
    ((w.addEntry e).history.since h₀).Starved conn ↔
      (w.history.since h₀).Starved conn ∨ e.Starves := by
  simp only [History.Starved, History.since, World.addEntry_history_entries,
    World.addEntry_history_dispatches, World.addEntry_history_answers,
    List.drop_append_of_le_length he, List.mem_append, List.mem_singleton, or_and_right, exists_or,
    exists_eq_left]
  exact or_right_comm

theorem starved_addDispatch (hd : h₀.dispatches.length ≤ w.history.dispatches.length)
    (d : Dispatch) : ((w.addDispatch d).history.since h₀).Starved conn ↔
      (w.history.since h₀).Starved conn ∨ d.Starves conn := by
  simp only [History.Starved, History.since, World.addDispatch_history_entries,
    World.addDispatch_history_dispatches, World.addDispatch_history_answers,
    List.drop_append_of_le_length hd, List.mem_append, List.mem_singleton, or_and_right, exists_or,
    exists_eq_left]
  exact (or_congr_right or_right_comm).trans or_assoc.symm

theorem starved_addAnswer (ha : h₀.answers.length ≤ w.history.answers.length) (a : Answer) :
    ((w.addAnswer a).history.since h₀).Starved conn ↔
      (w.history.since h₀).Starved conn ∨ a.Starves := by
  simp only [History.Starved, History.since, World.addAnswer_history_entries,
    World.addAnswer_history_dispatches, World.addAnswer_history_answers,
    List.drop_append_of_le_length ha, List.mem_append, List.mem_singleton, or_and_right, exists_or,
    exists_eq_left, or_assoc]

/-- An entry is noted, and the reader may starve from it. -/
theorem Balanced.addEntry (h : Balanced conn h₀ (fun _ => False) ⟨b, w⟩) (e : Entry) :
    Balanced conn h₀ (fun _ => e.Starves) ⟨b, w.addEntry e⟩ := by
  obtain ⟨⟨ho, he, hd, ha⟩, hs⟩ := h
  refine ⟨⟨ho, ?_, hd, ha⟩,
    (starved_addEntry he e).trans ((or_congr_left hs).trans (Iff.of_eq (false_or _)))⟩
  exact Nat.le_trans he (List.length_append ▸ Nat.le_add_right _ _)

theorem Balanced.addDispatch (h : Balanced conn h₀ (fun _ => False) ⟨b, w⟩) (d : Dispatch) :
    Balanced conn h₀ (fun _ => d.Starves conn) ⟨b, w.addDispatch d⟩ := by
  obtain ⟨⟨ho, he, hd, ha⟩, hs⟩ := h
  refine ⟨⟨ho, he, ?_, ha⟩,
    (starved_addDispatch hd d).trans ((or_congr_left hs).trans (Iff.of_eq (false_or _)))⟩
  exact Nat.le_trans hd (List.length_append ▸ Nat.le_add_right _ _)

theorem Balanced.addAnswer (h : Balanced conn h₀ p ⟨b, w⟩) (a : Answer) :
    Balanced conn h₀ (fun _ => p ⟨b, w⟩ ∨ a.Starves) ⟨b, w.addAnswer a⟩ := by
  obtain ⟨⟨ho, he, hd, ha⟩, hs⟩ := h
  refine ⟨⟨ho, he, hd, ?_⟩, (starved_addAnswer ha a).trans (or_congr_left hs)⟩
  exact Nat.le_trans ha (List.length_append ▸ Nat.le_add_right _ _)

/-! ### The parts of a round before the header is there -/

/-- Where all bytes at hand have been passed over, the next read decides. -/
theorem starves_of_empty (h : s.buf.avail = 0) : s.Starves n ↔ s.buf.Exposed s.world.io :=
  and_iff_left (.inr h)

/-- With bytes at hand, the reader starves if they are too few. -/
theorem starves_of_avail (h : 0 < s.buf.avail) : s.Starves n ↔ s.Lacks n :=
  and_congr_right fun _ => or_iff_left (Nat.ne_of_gt h)

/-- Bytes are passed over. -/
theorem exposed_gbump (b' : ServerStreambuf) (io : Io) (m : Nat) (ho : OpenReader conn.role b)
    (hg : b'.getArea = b.getArea) (he : b'.bufferEnd_ = b.bufferEnd_) :
    (b'.gbump m).Exposed io ↔ b.Exposed io := by
  rw [ServerStreambuf.Exposed, ServerStreambuf.Exposed, egptr_eq (gbump_getArea_eq
    (hg.trans ho.getArea_eq) m), ServerStreambuf.gbump_bufferEnd_, he]

/-- The bytes at hand after some of them. -/
theorem avail_gbump (b' : ServerStreambuf) (m : Nat) (ho : OpenReader conn.role b)
    (hg : b'.getArea = b.getArea) (he : b'.bufferEnd_ = b.bufferEnd_) :
    (b'.gbump m).avail = b.avail - m := by
  rw [ServerStreambuf.avail, ServerStreambuf.avail, gptr_eq (gbump_getArea_eq
    (hg.trans ho.getArea_eq) m), ServerStreambuf.gbump_bufferEnd_, he, Nat.sub_add_eq]

/-- Where reading brings nothing, the reader has starved, or is in order. -/
theorem readRecords_starved :
    Triple (Balanced conn h₀ (State.Starves n)) readRecords
      (fun _ s => 0 < s.buf.avail → Balanced conn h₀ (State.Lacks n) s) (Overran conn h₀) := by
  rintro ⟨b, w⟩ hs
  have ho := hs.1.openReader
  rw [readRecords, Prog.bind_ok (Prog.get_run _)]
  dsimp only at ho ⊢
  by_cases hend : b.gptr = b.bufferEnd_
  · rw [if_pos hend]
    have hempty : b.avail = 0 := by rw [ServerStreambuf.avail, hend, Nat.sub_self]
    have hsize := ho.size_ge
    rcases w.io.read_reach (show 0 < b.bufferSize_ by omega) with
      ⟨bytes, io, hread, hne, hreach⟩ | ⟨hreach, r, io, hread, hr⟩
    · -- The read brings something: egptr() is the end of it, and nothing lies behind.
      have hlen := Io.length_read hread
      have hcap := ho.capacity
      rw [Prog.bind_ok (onIo_run hread), if_pos (List.length_pos_iff.mpr hne),
        Prog.bind_ok (storeBuf_run (by omega)), modifyBuf_run]
      have hstep : ReaderStep conn ⟨.loop [] false, b, w⟩ ⟨.loop [] false, _⟩ :=
        .recv hend hread (List.length_pos_iff.mpr hne)
      refine fun _ => hs.move (hstep.openReader ho) rfl (iff_of_false (fun h => ?_) fun h =>
        Nat.lt_irrefl _ h.1.2)
      exact hne (List.append_eq_nil_iff.mp (hreach.symm.trans h.1.1)).1
    · have hthrow : Balanced conn h₀ State.Overrun ⟨b, w.setIo io⟩ := by
        refine hs.move ho rfl ((starves_of_empty hempty).trans ?_)
        rw [State.Overrun, hend]
        exact and_iff_right hreach
      rcases hr with rfl | ⟨e, rfl⟩
      · rw [Prog.bind_ok (onIo_run hread)]
        exact hthrow
      · rw [Prog.bind_error (onIo_run hread)]
        exact hthrow
  · rw [if_neg hend]
    exact fun hpos => hs.iff (starves_of_avail hpos)

/-- Content is handed out in order, or discarded. -/
theorem setUpContent_starved :
    Triple (fun s => Balanced conn h₀ (State.Lacks n) s ∧ 0 < s.buf.avail) (setUpContent conn)
      (fun r s => match r with
        | some (.done r) => InOrderResult conn h₀ r s
        | some (.again _) => Balanced conn h₀ (State.Starves n) s
        | none => Balanced conn h₀ (State.Lacks n) s ∧ s.buf.unreadContentLength_ = 0)
      (Overran conn h₀) := by
  rintro ⟨b, w⟩ ⟨hs, hpos⟩
  have ho := hs.1.openReader
  dsimp only at ho hpos
  by_cases hu : 0 < b.unreadContentLength_
  · set m := min b.unreadContentLength_ b.avail with hm
    have hcur : b.gptr < b.bufferEnd_ := Nat.lt_of_sub_pos hpos
    by_cases hd : b.isContentMustBeDiscarded_ = true
    · rw [setUpContent_discard hu hd hm rfl]
      have hstep : ReaderStep conn ⟨.loop [] false, b, w⟩ ⟨.loop [] false, _⟩ :=
        .discard hu hd hcur hm
      have ho₁ := hstep.openReader ho
      have hexp := exposed_gbump (b.setUnreadContentLength
        (b.unreadContentLength_ - m)) w.io m ho rfl rfl
      have havail := avail_gbump (b.setUnreadContentLength
        (b.unreadContentLength_ - m)) m ho rfl rfl
      -- Content to be discarded is passed over, so the clause on content is of no account.
      have hshort : b.Short n ↔ b.avail < b.unreadContentLength_ + b.unreadPaddingLength_ +
          (Header.size - n) := and_iff_right fun h => by rw [hd] at h; cases h.2
      set b₁ := (b.setUnreadContentLength (b.unreadContentLength_ - m)).gbump m
      have hu₁ : b₁.unreadContentLength_ = b.unreadContentLength_ - m := rfl
      have hp₁ : b₁.unreadPaddingLength_ = b.unreadPaddingLength_ := rfl
      by_cases hu' : 0 < b₁.unreadContentLength_
      · -- Nothing is at hand any more.
        rw [if_pos hu']
        have hempty : b₁.avail = 0 := by omega
        refine hs.move ho₁ rfl (Iff.trans ?_ (starves_of_empty hempty).symm)
        exact (and_iff_left (hshort.mpr (by omega))).trans hexp.symm
      · rw [if_neg hu']
        have hzero := Nat.eq_zero_of_not_pos hu'
        refine ⟨hs.move (ho₁.setContentMustBeDiscarded false) rfl (and_congr hexp.symm ?_), hzero⟩
        refine hshort.trans (Iff.trans ?_ (and_iff_right fun h => hu' h.1).symm)
        change _ ↔ b₁.avail < b₁.unreadContentLength_ + b₁.unreadPaddingLength_ + _
        omega
    · obtain ⟨b₁, hb₁⟩ : ∃ b₁, b₁ = (b.setUnreadContentLength (b.unreadContentLength_ - m)).setg
        b.gptr b.gptr (b.gptr + m) := ⟨_, rfl⟩
      rw [Bool.not_eq_true] at hd
      rw [setUpContent_deliver hu hd hm hb₁]
      have hstep : ReaderStep conn ⟨.loop [] false, b, w⟩ ⟨.idle, _⟩ :=
        .deliver (.inl rfl) hu hd hcur hm hb₁
      -- A get area has been set, so gptr() is before egptr() and the reader has not starved.
      have hlt : b₁.gptr < b₁.egptr := by
        subst hb₁
        exact Nat.lt_add_of_pos_right (Nat.lt_min.mpr ⟨hu, hpos⟩)
      have horder : InOrderResult conn h₀ (some (b.buffer_ b.gptr))
          ⟨b₁, w.addDelivery ⟨b₁, w.io⟩⟩ := by
        refine ⟨⟨⟨?_, ?_⟩, Nat.le_of_lt hlt⟩, hlt⟩
        · exact ⟨hstep.openReader ho, hs.1.entries, hs.1.dispatches, hs.1.answers⟩
        · exact hs.2.trans (iff_of_false (fun h => h.2.1 ⟨hu, hd⟩) id)
      by_cases hi : b₁.InvariantOk conn.role
      · rw [Prog.bind_ok (assertInvariantOk_run hi)]
        exact horder
      · rw [Prog.bind_error (assertInvariantOk_abort hi)]
        trivial
  · rw [setUpContent_none (Nat.eq_zero_of_not_pos hu)]
    exact ⟨hs, Nat.eq_zero_of_not_pos hu⟩

theorem skipPadding_starved :
    Triple (fun s => Balanced conn h₀ (State.Lacks n) s ∧ s.buf.unreadContentLength_ = 0)
      skipPadding
      (fun r s => if r then Balanced conn h₀ (State.Starves n) s
        else Balanced conn h₀ (State.Lacks n) s ∧ s.buf.unreadContentLength_ = 0)
      (Overran conn h₀) := by
  rintro ⟨b, w⟩ ⟨hs, hu⟩
  have ho := hs.1.openReader
  dsimp only at ho hu
  by_cases hp : 0 < b.unreadPaddingLength_
  · set m := min b.unreadPaddingLength_ b.avail with hm
    rw [skipPadding_run hp hm rfl]
    have hstep : ReaderStep conn ⟨.loop [] false, b, w⟩ ⟨.loop [] false, _⟩ := .skip hu hp hm
    have ho₁ := hstep.openReader ho
    have hexp := exposed_gbump (b.setUnreadPaddingLength
      (b.unreadPaddingLength_ - m)) w.io m ho rfl rfl
    have havail := avail_gbump (b.setUnreadPaddingLength
      (b.unreadPaddingLength_ - m)) m ho rfl rfl
    have hshort : b.Short n ↔ b.avail < b.unreadContentLength_ + b.unreadPaddingLength_ +
        (Header.size - n) := and_iff_right fun h => Nat.ne_of_gt h.1 hu
    set b₁ := (b.setUnreadPaddingLength (b.unreadPaddingLength_ - m)).gbump m
    have hu₁ : b₁.unreadContentLength_ = b.unreadContentLength_ := rfl
    have hp₁ : b₁.unreadPaddingLength_ = b.unreadPaddingLength_ - m := rfl
    by_cases hp' : 0 < b₁.unreadPaddingLength_
    · have hempty : b₁.avail = 0 := by omega
      rw [decide_eq_true hp']
      refine hs.move ho₁ rfl (Iff.trans ?_ (starves_of_empty hempty).symm)
      exact (and_iff_left (hshort.mpr (by omega))).trans hexp.symm
    · rw [decide_eq_false hp']
      refine ⟨hs.move ho₁ rfl (and_congr hexp.symm (hshort.trans ?_)), hu⟩
      refine Iff.trans ?_ (and_iff_right fun h => Nat.ne_of_gt h.1 (hu₁.trans hu)).symm
      change _ ↔ b₁.avail < b₁.unreadContentLength_ + b₁.unreadPaddingLength_ + _
      omega
  · rw [skipPadding_none (Nat.eq_zero_of_not_pos hp)]
    exact ⟨hs, hu⟩

/-- What is known of a header of which as much has been read as was at hand. -/
def Accumulated (conn : ConnectionInfo) (h₀ : History) (h : List UInt8) (s : State) : Prop :=
  if h.length < Header.size then Balanced conn h₀ (State.Starves h.length) s
  else Balanced conn h₀ (fun _ => False) s

theorem accumulateHeader_starved (h : List UInt8) :
    Triple (fun s => (Balanced conn h₀ (State.Lacks h.length) s ∧
        s.buf.unreadContentLength_ = 0) ∧ s.buf.unreadPaddingLength_ = 0) (accumulateHeader h)
      (Accumulated conn h₀) (Overran conn h₀) := by
  rintro ⟨b, w⟩ ⟨⟨hs, hu⟩, hp⟩
  have ho := hs.1.openReader
  dsimp only at ho hu hp
  have hshort : b.Short h.length ↔ b.avail < Header.size - h.length := by
    rw [ServerStreambuf.Short, hu, hp, Nat.add_zero, Nat.zero_add]
    exact and_iff_right fun h => Nat.lt_irrefl 0 h.1
  rw [accumulateHeader_run rfl]
  set m := min (8 - h.length) (b.bufferEnd_ - b.gptr) with hm
  have hexp := exposed_gbump b w.io m ho rfl rfl
  have havail := avail_gbump b m ho rfl rfl
  have ho₁ := ho.gbump (Nat.min_le_right (8 - h.length) (b.bufferEnd_ - b.gptr))
  have hlen : (h ++ b.buffer_.load b.gptr m).length = h.length + m := by
    rw [List.length_append, Mem.length_load]
  dsimp only
  rw [Accumulated, hlen, Header.size]
  rw [Header.size] at hshort
  split
  · have hempty : (b.gbump m).avail = 0 := by
      simp only [ServerStreambuf.avail] at havail ⊢
      omega
    refine hs.move ho₁ rfl (Iff.trans ?_ (starves_of_empty hempty).symm)
    refine (and_iff_left (hshort.mpr ?_)).trans hexp.symm
    simp only [ServerStreambuf.avail]
    omega
  · refine hs.move ho₁ rfl (iff_of_false (fun hl => ?_) id)
    have := hshort.mp hl.2
    simp only [ServerStreambuf.avail] at this
    omega

/-! ### Writing, and reading variables -/

/-- It depends on what can be reached. -/
theorem ServerStreambuf.starves_congr (h : io.reach = io'.reach) :
    b.Starves io n ↔ b.Starves io' n := by
  rw [ServerStreambuf.Starves, ServerStreambuf.Starves, ServerStreambuf.Exposed,
    ServerStreambuf.Exposed, h]

/-- A write leaves the buffer alone, and what the reads will bring. -/
theorem writeAll_starved (bs : List UInt8) :
    Triple (fun s => s = ⟨b, w⟩) (onIo (Io.writeAll bs))
      (fun _ s => ¬ w.io.WriteFails ∧ ∃ io, s = ⟨b, w.setIo io⟩ ∧ w.io.reach = io.reach)
      (fun x s => x = .abort ∨
        (∃ e, x = .exc e) ∧ w.io.WriteFails ∧ ∃ io, s = ⟨b, w.setIo io⟩) := by
  rintro s rfl
  rcases Io.writeAll_cases bs w.io with e | ⟨-, x, e⟩ | ⟨m, -, -, e⟩ <;> rw [onIo_run e]
  · exact ⟨Io.writeAll_ok e, _, rfl, rfl⟩
  · exact .inr ⟨⟨x, rfl⟩, Io.writeAll_exc e, _, rfl⟩
  · exact .inl rfl

/-- The header has been processed, so the reader is in order or past egptr(). -/
theorem violation_starved {α : Type} (header : Header) {Q : α → State → Prop} :
    Triple (Balanced conn h₀ State.Overrun) (endRequestProtocolViolation header) Q
      (Overran conn h₀) := by
  rintro ⟨b, w⟩ hs
  have same : ∀ io, Balanced conn h₀ State.Overrun ⟨b, w.setIo io⟩ := fun io =>
    hs.move hs.1.openReader rfl Iff.rfl
  refine Triple.bind (P := fun s => s = ⟨b, w⟩) (Q := fun _ => Balanced conn h₀ State.Overrun)
    (fun s hs => ?_) (fun _ => Triple.throw fun _ hs => hs) _ rfl
  rw [endRequest_eq]
  refine ((writeAll_starved _).conseq (fun _ => id) ?_ ?_) s hs
  · rintro - t ⟨-, io, rfl, -⟩
    exact same io
  · rintro x t (rfl | ⟨⟨e, rfl⟩, -, io, rfl⟩)
    · trivial
    · exact same io

/-- The calls through which the variables are read. -/
theorem callee_starved {call : M (Option UInt8)}
    (hcall : Triple (InOrder conn h₀) call (InOrderResult conn h₀) (Overran conn h₀)) :
    Callee (InOrder conn h₀) (InOrder conn h₀) (InOrder conn h₀) (Balanced conn h₀ State.Overrun)
      (Overran conn h₀) call where
  call := by
    refine hcall.conseq (fun s hs => hs.1) (fun r s hs => ?_) fun _ _ => id
    cases r <;> exact hs
  take := by
    rintro ⟨b, w⟩ ⟨hs, hlt⟩
    have hstep : ReaderStep conn ⟨.idle, b, w⟩ ⟨.idle, _⟩ := .take hlt
    have hg := gbump_getArea_eq hs.1.1.openReader.getArea_eq 1
    rw [takeChar, Prog.bind_ok (Prog.get_run _), Prog.bind_ok (modifyBuf_run _), Prog.pure_run]
    refine ⟨hs.1.move (hstep.openReader hs.1.1.openReader) rfl Iff.rfl, ?_⟩
    dsimp only
    rw [gptr_eq hg, egptr_eq hg]
    exact hlt
  start _ := id
  stop _ := InOrder.balanced
  eof _ := InOrder.balanced
  caught _ _ := id

/-- After a header that ends the call the reader does not starve. -/
theorem Dispatch.not_starves {d : Dispatch} (h : d.next conn = none) : ¬ d.Starves conn := by
  rintro ⟨b, hb, -⟩
  cases h.symm.trans hb

theorem Dispatch.starves_iff {d : Dispatch} (h : d.next conn = some b) :
    d.Starves conn ↔ b.Starves d.io Header.size :=
  ⟨fun ⟨_, hb, hs⟩ => Option.some.inj (h.symm.trans hb) ▸ hs, fun hs => ⟨b, h, hs⟩⟩

/-- What is left of a management record, up to the last assertion of `process_header()`. -/
def Replied (conn : ConnectionInfo) (h₀ : History) (s : State) : Prop :=
  OpenReader conn.role s.buf ∧
    (s.buf.gptr ≤ s.buf.egptr → Balanced conn h₀ (State.Starves Header.size) s)

/-- The answer to a get-values record. -/
theorem answering_starved (header : Header) (vars : NamesValues) :
    Triple (Balanced conn h₀ State.Overrun) (answering conn header vars)
      (fun r s => r = .managementProcessed ∧ Replied conn h₀ s) (Overran conn h₀) := by
  rintro ⟨b, w⟩ hs
  rw [answering, Prog.bind_ok (noteAnswer_run _ _ _), Prog.bind_ok (Prog.get_run _)]
  set a : Answer := ⟨vars.pairs_.map NameValue.name, b, w.io⟩
  have hs₁ := hs.addAnswer a
  set w₁ := w.addAnswer a
  -- Where the loop does not go on, the answer does not count.
  have stays : ¬ a.Starves → ∀ io, Balanced conn h₀ State.Overrun ⟨b, w₁.setIo io⟩ := fun ha io =>
    hs₁.move hs.1.openReader rfl (or_iff_left ha)
  by_cases hu : b.unreadContentLength_ > 0
  · rw [if_pos hu]
    refine Triple.bind (Q := fun _ _ => False) (violation_starved header) (fun _ _ hf => hf.elim)
      _ (stays (fun ha => Nat.ne_of_gt hu ha.1) w₁.io)
  · rw [if_neg hu]
    have hzero := Nat.eq_zero_of_not_pos hu
    dsimp only
    by_cases hfit : 8 + (replyContent (vars.pairs_.map NameValue.name)).length ≤ replySize
    · refine Triple.bind (P := fun s => s = ⟨b, w₁⟩) (Q := fun _ => Replied conn h₀)
        (fun s hs' => ?_) (fun _ => Triple.pure fun _ hs => ⟨rfl, hs⟩) _ rfl
      rw [sendGetValuesResult_eq rfl hfit]
      refine ((writeAll_starved _).conseq (fun _ => id) ?_ ?_) s hs'
      · rintro - t ⟨hok, io, rfl, hreach⟩
        refine ⟨hs.1.openReader, fun hle => ?_⟩
        refine hs₁.move hs.1.openReader rfl ?_
        refine (or_iff_right (Nat.not_lt.mpr hle)).trans ?_
        exact Iff.trans ⟨fun ha => ha.2.2, fun h => ⟨hzero, hok, h⟩⟩
          (ServerStreambuf.starves_congr hreach)
      · rintro x t (rfl | ⟨⟨e, rfl⟩, hfail, io, rfl⟩)
        · trivial
        · exact stays (fun ha => ha.2.1 hfail) io
    · rw [Prog.bind_error (sendGetValuesResult_abort hfit _)]
      trivial

/-! ### Processing the header -/

/-- What `process_header()` leaves of a record that is not of the stream, up to its last
assertion. -/
def ProcessedStarved (conn : ConnectionInfo) (h₀ : History) : ProcessHeaderResult → State → Prop
  | .requestRejected, _ => False
  | .managementProcessed, s => Replied conn h₀ s
  | .contentMustBeConsumed, _ => False
  | .contentMustBeDiscarded, s => Balanced conn h₀ (fun s =>
    (s.buf.setContentMustBeDiscarded true).Starves s.world.io Header.size) s

section header

variable {stale : Bool} {header : Header}

/-- A reply to a header is written, and the loop goes on with `b'`. -/
theorem reply_starved {d : Dispatch} {b' : ServerStreambuf}
    (hs : Balanced conn h₀ (fun _ => d.Starves conn) ⟨b, w⟩) (hio : w.io = d.io)
    (hle : b.gptr ≤ b.egptr) (hnext : d.next conn = if d.io.WriteFails then none else some b')
    (bs : List UInt8) :
    Triple (fun s => s = ⟨b, w⟩) (onIo (Io.writeAll bs))
      (fun _ s => s.buf = b ∧ Balanced conn h₀ (fun s => b'.Starves s.world.io Header.size) s)
      (Overran conn h₀) := by
  refine (writeAll_starved bs).conseq (fun _ => id) ?_ ?_
  · rintro - t ⟨hok, io, rfl, hreach⟩
    refine ⟨rfl, hs.move hs.1.openReader rfl ?_⟩
    rw [hio] at hok hreach
    exact (Dispatch.starves_iff (hnext.trans (if_neg hok))).trans
      (ServerStreambuf.starves_congr hreach)
  · rintro x t (rfl | ⟨⟨e, rfl⟩, hfail, io, rfl⟩)
    · trivial
    · -- The loop does not go on, and gptr() is still at egptr().
      have hnone : ¬ d.Starves conn := Dispatch.not_starves (hnext.trans (if_pos (hio ▸ hfail)))
      have hs' : Balanced conn h₀ (fun s => s.buf.egptr < s.buf.gptr) ⟨b, w.setIo io⟩ :=
        (hs.inOrder hnone hle).1.move hs.1.openReader rfl (iff_of_false id (Nat.not_lt.mpr hle))
      exact hs'

/-- A management record. -/
theorem management_starved {call : M (Option UInt8)} {N : Nat}
    (hcall : Triple (InOrder conn h₀) call (InOrderResult conn h₀) (Overran conn h₀))
    {d : Dispatch} (hs : Balanced conn h₀ (fun _ => d.Starves conn)
      ⟨d.buf.dispatched d.header, w⟩) (hio : w.io = d.io) (hv : d.header.protocolVersion = 1)
    (hb : d.header.recordType ≠ .beginRequest) (hm : d.header.isManagementRecord = true) :
    Triple (fun s => s = ⟨d.buf.dispatched d.header, w⟩)
      (processManagementRecord conn N call d.header) (ProcessedStarved conn h₀)
      (Overran conn h₀) := by
  by_cases hg : d.header.recordType = .getValues
  · -- The loop goes on from the answer, so the header itself does not count.
    have hnext : d.next conn = none := by
      rw [Dispatch.next, if_neg (not_not.mpr hv), if_neg hb, if_pos hm, if_pos (.inl hg)]
    have hstart : InOrder conn h₀ ⟨d.buf.dispatched d.header, w⟩ :=
      hs.inOrder (Dispatch.not_starves hnext) (Nat.le_refl _)
    rw [processManagementRecord_getValues hg]
    refine Triple.bind (((callee_starved hcall).ofStream (fun _ _ => id) (fun _ _ => trivial) N
      rfl (by decide)).pre fun s e => e ▸ hstart) fun p => ?_
    refine ((answering_starved d.header p.1).pre fun _ hs => hs.1).post ?_
    rintro r t ⟨rfl, ht⟩
    exact ht
  · have hnext : d.next conn = if d.io.WriteFails then none
        else some (d.buf.dispatched d.header) := by
      rw [Dispatch.next, if_neg (not_not.mpr hv), if_neg hb, if_pos hm]
      exact if_congr (or_iff_right hg) rfl rfl
    refine Triple.ite (fun h => absurd h hg) fun _ s hs' => ?_
    rw [Prog.bind_ok (Record.unknownTypeRecord_run _)]
    refine Triple.bind (Q := fun _ => ProcessedStarved conn h₀ .managementProcessed)
      ((reply_starved hs hio (Nat.le_refl _) hnext _).post fun _ t ht => ?_)
      (fun _ => Triple.pure fun _ hs => hs) s hs'
    exact ⟨ht.2.1.openReader, fun _ => ht.2.iff (by rw [State.Starves, ht.1])⟩

/-- The header of a record that is not of the stream. -/
theorem dispatch_starved {call : M (Option UInt8)} {N : Nat}
    (hcall : Triple (InOrder conn h₀) call (InOrderResult conn h₀) (Overran conn h₀))
    (hs : Balanced conn h₀ (fun _ => False) ⟨b, w⟩) (hv : header.protocolVersion = 1)
    (hno : header.isManagementRecord = false → ¬ header.IsOwn conn b.type_) :
    Triple (fun s => s = ⟨b.dispatched header, w.addDispatch ⟨header, stale, b, w.io⟩⟩)
      (dispatch conn N call header) (ProcessedStarved conn h₀) (Overran conn h₀) := by
  set d : Dispatch := ⟨header, stale, b, w.io⟩
  have hs₁ : Balanced conn h₀ (fun _ => d.Starves conn) ⟨b.dispatched header, w.addDispatch d⟩ :=
    (hs.addDispatch d).move (hs.1.openReader.dispatched header) rfl Iff.rfl
  refine Triple.get fun s hs' => ?_
  subst hs'
  -- The branches of the source; an own record is left to `own_starved`.
  refine Triple.ite (fun hb => ?_) fun hb => Triple.ite (fun hm =>
    management_starved (d := d) hcall hs₁ rfl hv hb hm) fun hm => Triple.ite (fun hid => ?_)
      fun hid => Triple.ite (fun ht => absurd ⟨not_not.mp hid, ht⟩ (hno (Bool.eq_false_iff.mpr hm)))
        fun ht => ?_
  · -- A new request.
    have hnext : d.next conn = if d.io.WriteFails then none
        else some ((b.dispatched header).setContentMustBeDiscarded true) := by
      rw [Dispatch.next, if_neg (not_not.mpr hv), if_pos hb]
    refine Triple.bind (Q := fun _ => ProcessedStarved conn h₀ .contentMustBeDiscarded)
      (fun s hs' => ?_) fun _ => Triple.pure fun _ hs => hs
    rw [endRequest_eq]
    refine ((reply_starved hs₁ rfl (Nat.le_refl _) hnext _).post fun _ t ht => ?_) s hs'
    exact Balanced.iff (q := fun s =>
      (s.buf.setContentMustBeDiscarded true).Starves s.world.io Header.size) ht.2 (by rw [ht.1])
  · -- A record of another request.
    have hnext : d.next conn = some ((b.dispatched header).setContentMustBeDiscarded true) := by
      rw [Dispatch.next, if_neg (not_not.mpr hv), if_neg hb, if_neg hm, if_pos hid]
    refine Triple.pure fun s hs' => ?_
    subst hs'
    exact Balanced.iff (q := fun s =>
      (s.buf.setContentMustBeDiscarded true).Starves s.world.io Header.size) hs₁
        (Dispatch.starves_iff hnext)
  · -- A record of another stream.
    have hnext : d.next conn = none := by
      rw [Dispatch.next, if_neg (not_not.mpr hv), if_neg hb, if_neg hm, if_neg hid,
        if_neg fun h => ht h.1]
    exact (violation_starved header).pre fun s hs' => hs' ▸
      (hs₁.inOrder (Dispatch.not_starves hnext) (Nat.le_refl _)).balanced

/-- What a round does. -/
def RoundStarved (conn : ConnectionInfo) (h₀ : History) :
    Flow (List UInt8) (Option UInt8) → State → Prop
  | .again header, s => Balanced conn h₀ (State.Starves header.length) s
  | .done r, s => InOrderResult conn h₀ r s

/-- The header of a record of the stream. -/
theorem own_starved {call : M (Option UInt8)} {N : Nat} {header : List UInt8}
    (hs : Balanced conn h₀ (fun _ => False) ⟨b, w⟩) (hlen : header.length = Header.size)
    (hv : (Header.ofBytes header).protocolVersion = 1)
    (hm : (Header.ofBytes header).isManagementRecord = false)
    (ho : (Header.ofBytes header).IsOwn conn b.type_) :
    Triple (fun s => s = ⟨b, w⟩) (do
        noteDispatch stale (Header.ofBytes header)
        processAccumulated conn N call header)
      (RoundStarved conn h₀) (Overran conn h₀) := by
  set d : Dispatch := ⟨Header.ofBytes header, stale, b, w.io⟩ with hdef
  have hid : conn.requestId ≠ 0 := fun h0 =>
    absurd (beq_iff_eq.mpr (ho.1.trans h0)) (Bool.eq_false_iff.mp hm)
  have ho₁ := hs.1.openReader.dispatched (Header.ofBytes header)
  have hs₁ : Balanced conn h₀ (fun _ => d.Starves conn)
      ⟨b.dispatched (Header.ofBytes header), w.addDispatch d⟩ :=
    (hs.addDispatch d).move ho₁ rfl Iff.rfl
  have hb : (Header.ofBytes header).recordType ≠ .beginRequest := fun hb =>
    StreamType.recordType_ne_beginRequest _ (ho.2.symm.trans hb)
  have hnext : d.next conn = if d.header.contentLength ≠ 0 then
      some (b.dispatched (Header.ofBytes header)) else none := by
    rw [Dispatch.next, if_neg (not_not.mpr hv), if_neg hb, if_neg (Bool.eq_false_iff.mp hm),
      if_neg (not_not.mpr ho.1)]
    exact if_congr (and_iff_right ho.2) rfl rfl
  -- Without content the header adds nothing to be read before the next delivery.
  have horder : ∀ {b'}, (b.dispatched (Header.ofBytes header)).unreadContentLength_ = 0 →
      OpenReader conn.role b' → b'.gptr ≤ b'.egptr → InOrder conn h₀ ⟨b', w.addDispatch d⟩ :=
    fun h0 ho' hle => ⟨hs₁.move ho' rfl (iff_of_false (Dispatch.not_starves
      (hnext.trans (if_neg (not_not.mpr h0)))) id), hle⟩
  refine (own_processed hid N call stale hv ho).conseq (fun _ => id) (fun r s hr => ?_)
    fun x _ hx => by subst hx; trivial
  cases hr with
  | content h0 =>
      refine hs₁.iff ?_
      rw [hlen]
      exact Dispatch.starves_iff (hnext.trans (if_pos h0))
  | ended h0 => exact horder h0 (ho₁.setg_gptr.setEndOfStream true) (Nat.le_refl _)
  | data h0 hready =>
      have hrole : conn.role = .filter := by
        simp only [ServerStreambuf.isReadyToFilterData, Bool.and_eq_true, beq_iff_eq] at hready
        exact hready.1.1.2
      exact horder h0 ((ho₁.setg_gptr.setEndOfStream true).reset rfl
        (.inr (.inr (.inr ⟨hrole, .inr rfl⟩)))) (Nat.le_refl _)

theorem processAccumulated_starved {call : M (Option UInt8)} {N : Nat}
    (hcall : Triple (InOrder conn h₀) call (InOrderResult conn h₀) (Overran conn h₀))
    {header : List UInt8} (hlen : header.length = Header.size) :
    Triple (Balanced conn h₀ fun _ => False) (do
        noteDispatch stale (Header.ofBytes header)
        processAccumulated conn N call header)
      (RoundStarved conn h₀) (Overran conn h₀) := by
  rintro ⟨b, w⟩ hs
  by_cases hown : (Header.ofBytes header).protocolVersion = 1 ∧
      (Header.ofBytes header).isManagementRecord = false ∧
      (Header.ofBytes header).IsOwn conn b.type_
  · obtain ⟨hv, hm, ho⟩ := hown
    exact own_starved hs hlen hv hm ho _ rfl
  -- What is left is a record that is not an own one, or that is refused.
  rw [processing_run]
  set d : Dispatch := ⟨Header.ofBytes header, stale, b, w.io⟩
  refine Triple.bind (Q := fun r s => ProcessedStarved conn h₀ r s ∧ s.buf.gptr ≤ s.buf.egptr)
    (P := fun s => s = ⟨b.setg b.gptr b.gptr b.gptr, w.addDispatch d⟩) ?_ (fun r => ?_) _ rfl
  · rintro s rfl
    by_cases hv : (Header.ofBytes header).protocolVersion = 1
    · rw [processHeader, Header.checkValidity, if_neg (not_not.mpr hv),
        Prog.bind_ok (Prog.pure_run _ _), Prog.bind_ok (modifyBuf_run _)]
      refine Triple.bind (dispatch_starved hcall hs hv fun hm ho => hown ⟨hv, hm, ho⟩) (fun r => ?_)
        _ rfl
      have hopen : ∀ s, ProcessedStarved conn h₀ r s → OpenReader conn.role s.buf := by
        intro s hs
        cases r with
        | requestRejected => exact hs.elim
        | managementProcessed => exact hs.1
        | contentMustBeConsumed => exact hs.elim
        | contentMustBeDiscarded => exact hs.1.1
      refine Triple.bind (Q := fun _ s => ProcessedStarved conn h₀ r s ∧
        s.buf.gptr ≤ s.buf.egptr) (Triple.get fun s hs => Triple.assert (fun t ht hi => ?_)
          fun _ _ _ => trivial) fun _ => Triple.pure fun _ hs => hs
      subst ht
      exact ⟨hs, (hopen t hs).gptr_le_egptr hi⟩
    · -- The header is of another version.
      rw [processHeader, Header.checkValidity, if_pos hv]
      have hnext : d.next conn = none := by rw [Dispatch.next, if_pos hv]
      exact InOrder.balanced ⟨(hs.addDispatch d).move hs.1.openReader.setg_gptr rfl
        (iff_of_false (Dispatch.not_starves hnext) id), Nat.le_refl _⟩
  · cases r with
    | requestRejected => exact fun _ hf => hf.1.elim
    | managementProcessed =>
        refine Triple.pure fun _ hs => ?_
        rw [RoundStarved, hlen]
        exact hs.1.2 hs.2
    | contentMustBeConsumed => exact fun _ hf => hf.1.elim
    | contentMustBeDiscarded =>
        refine Triple.bind (Q := fun _ => Balanced conn h₀ (State.Starves Header.size))
          (Triple.modify ?_) fun _ => Triple.pure fun _ hs => ?_
        · rintro ⟨b, w⟩ ⟨hs, -⟩
          have hs : Balanced conn h₀ (fun s => (s.buf.setContentMustBeDiscarded true).Starves
            s.world.io Header.size) ⟨b, w⟩ := hs
          exact hs.move (hs.1.openReader.setContentMustBeDiscarded true) rfl Iff.rfl
        · rw [RoundStarved, hlen]
          exact hs

end header

/-! ### The loop -/

theorem underflowRound_starved {call : M (Option UInt8)} {N : Nat}
    (hcall : Triple (InOrder conn h₀) call (InOrderResult conn h₀) (Overran conn h₀))
    (h : List UInt8) :
    Triple (Balanced conn h₀ (State.Starves h.length)) (underflowRound conn N call h)
      (RoundStarved conn h₀) (Overran conn h₀) := by
  refine Triple.bind readRecords_starved fun _ => Triple.get fun s hs => ?_
  refine Triple.bind (Q := fun _ s => Balanced conn h₀ (State.Lacks h.length) s ∧ 0 < s.buf.avail)
    (Triple.assert (fun t ht hp => ht ▸ ⟨hs hp, hp⟩) fun _ _ _ => trivial) fun _ => ?_
  refine Triple.bind setUpContent_starved fun r => ?_
  rcases r with _ | ⟨_ | r⟩
  · refine Triple.get fun s hs => Triple.bind (Q := fun _ s =>
      Balanced conn h₀ (State.Lacks h.length) s ∧ s.buf.unreadContentLength_ = 0)
      (Triple.assert (fun t ht _ => ht ▸ hs) fun _ _ _ => trivial) fun _ => ?_
    refine Triple.bind skipPadding_starved fun r => ?_
    cases r with
    | true => exact Triple.pure fun s hs => hs
    | false =>
        refine Triple.get fun s hs => Triple.bind (Q := fun _ s =>
          (Balanced conn h₀ (State.Lacks h.length) s ∧ s.buf.unreadContentLength_ = 0) ∧
            s.buf.unreadPaddingLength_ = 0)
          (Triple.assert (fun t ht hp => ht ▸ ⟨hs, hp⟩) fun _ _ _ => trivial) fun _ => ?_
        refine Triple.bind (accumulateHeader_starved h) fun h' => ?_
        refine Triple.ite (fun hlt => Triple.pure fun s hs => ?_) fun hge => ?_
        · rw [Accumulated, if_pos hlt] at hs
          exact hs
        · intro s hs
          rw [Accumulated, if_neg hge] at hs
          by_cases hh : h'.length = Header.size
          · rw [Prog.bind_ok (Prog.assert_true hh _)]
            exact processAccumulated_starved hcall hh s hs
          · rw [Prog.bind_error (by rw [Prog.assert_run, if_neg hh])]
            trivial
  · exact Triple.pure fun s hs => hs
  · exact Triple.pure fun s hs => hs

/-- The call enters the loop, and that is noted. -/
theorem noteEntry_starved : Triple (Balanced conn h₀ fun _ => False) noteEntry
    (fun _ => Balanced conn h₀ (State.Starves 0)) (Overran conn h₀) :=
  Triple.modify fun s hs => (hs.addEntry ⟨s.buf, s.world.io⟩).move hs.1.openReader rfl Iff.rfl

theorem enterUnderflow_starved {loop : M (Option UInt8)}
    (h : Triple (Balanced conn h₀ (State.Starves 0)) loop (InOrderResult conn h₀)
      (Overran conn h₀)) :
    Triple (InOrder conn h₀) (enterUnderflow loop) (InOrderResult conn h₀) (Overran conn h₀) := by
  refine Triple.get fun s hs => Triple.bind (Q := fun _ => InOrder conn h₀)
    (Triple.assert (fun t ht _ => ht ▸ hs) fun _ _ _ => trivial) fun _ => ?_
  exact Triple.ite (fun _ => Triple.pure fun _ ht => ht) fun _ =>
    Triple.bind (noteEntry_starved.pre fun _ ht => ht.1) fun _ => h

/-- The rule of recursive loops, with what the rounds keep. -/
theorem underflowLoop_starved (N : Nat) (h : List UInt8) :
    Triple (Balanced conn h₀ (State.Starves h.length)) (underflowLoop conn N h)
      (InOrderResult conn h₀) (Overran conn h₀) :=
  Triple.recLoop (I := fun h => Balanced conn h₀ (State.Starves h.length))
    (fun _ _ _ => trivial) (fun k call ih h =>
      (underflowRound_starved (enterUnderflow_starved (ih [])) h).post fun r s hs => by
        cases r <;> exact hs) N h

/-- **What an exception leaves**: gptr() is past egptr() if and only if the reader has starved in
the call. -/
theorem underflow_starved {fuel : Nat} {e : Exception} (ho : OpenReader conn.role s.buf)
    (h : underflow conn fuel s = (.error (.exc e), s')) :
    s'.buf.egptr < s'.buf.gptr ↔ (s'.world.history.since s.world.history).Starved conn := by
  rw [ho.underflow_eq] at h
  split at h
  · cases h
  · have hs : Balanced conn s.world.history (fun _ => False) s := by
      refine ⟨⟨ho, Nat.le_refl _, Nat.le_refl _, Nat.le_refl _⟩, iff_of_false ?_ id⟩
      simp [History.Starved, History.since]
    have hx : Overran conn s.world.history (.exc e) s' :=
      (underflowLoop_starved fuel []).of_error (noteEntry_starved.of_ok hs rfl) h
    exact hx.2.symm

end

end Fcgi

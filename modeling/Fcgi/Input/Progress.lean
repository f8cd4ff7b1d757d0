import Fcgi.Streams.Drains
import Fcgi.Input.Terminator
import Fcgi.Input.Traversal

/-!
# Input — the loop of `underflow()` ends

`State.rank` bounds the rounds that the loop can still make: two for each byte to come, and one
more where a header can be processed again.  Every round that continues lowers it, except where a
header is processed a second time that announces no bytes and is answered or skipped, while bytes
are to come (`Dispatch.Spins`).

**`underflow_ranked`**: with more fuel than the rank, `underflow()` is spent only if that happens.

The bound is carried through a round as an assertion on the state (`Ranked`), with a flag that says
whether it still holds; the flag is lost only where the history shows such a header.  A round is in
one of two conditions: something has been consumed in it (`Passed`), so that the rank is lower, or
nothing has, and then at least one byte must be consumed before it may continue (`Pending`).  The
inner calls for the variables of a get-values record are bounded by the same rank, and each
character they take lowers it (`RankedCall.drains`).
-/

namespace Fcgi
open Lib
open ServerStreambuf (gptr_eq egptr_eq gbump_getArea_eq)

/-- The bytes that have not been passed. -/
def State.left (s : State) : Nat := s.buf.avail + s.world.io.bytes.length

/-- A bound on the rounds of the loop that are still to come. -/
def State.rank (s : State) : Nat :=
  2 * s.left +
    if s.buf.unreadContentLength_ = 0 ∧ s.buf.unreadPaddingLength_ = 0 then 1 else 0

/-- The same header is about to be processed again, and will be once more: nothing of its record
is to come, but other bytes are. -/
def Dispatch.Spins (conn : ConnectionInfo) (d : Dispatch) : Prop :=
  d.stale = true ∧ d.header.contentLength = 0 ∧ d.header.paddingLength = 0 ∧
    (d.header.IsRejected conn ∨ d.header.isManagementRecord) ∧
    0 < State.left ⟨d.buf, { io := d.io }⟩

/-- A header has been processed over and over. -/
def History.Spun (conn : ConnectionInfo) (history : History) : Prop :=
  ∃ d ∈ history.dispatches, d.Spins conn

/-- The rank is at most `n`; and `G`, unless a header has been processed over and over. -/
structure Ranked (conn : ConnectionInfo) (n : Nat) (G : Prop) (s : State) : Prop where
  openReader : OpenReader conn.role s.buf
  rank : s.rank ≤ n
  live : G ∨ s.world.history.Spun conn

/-- At least one byte has been passed. -/
structure Passed (conn : ConnectionInfo) (n : Nat) (G : Prop) (s : State) : Prop where
  openReader : OpenReader conn.role s.buf
  left : 2 * s.left + 2 ≤ n
  live : G ∨ s.world.history.Spun conn

/-- How the loop ends otherwise than by a return. -/
def RankedFault (conn : ConnectionInfo) (n : Nat) (G : Prop) : Fault Exception → State → Prop
  | .spent, s => s.world.history.Spun conn
  | .exc _, s => Ranked conn n G s
  | .abort, _ => True
  | .undef, _ => True

/-- A character is at hand, or the end has been reached. -/
def RankedResult (conn : ConnectionInfo) (n : Nat) (G : Prop) : Option UInt8 → State → Prop
  | none, s => Ranked conn n G s
  | some _, s => (OpenReader conn.role s.buf ∧ 2 * s.left ≤ n ∧
      (G ∨ s.world.history.Spun conn)) ∧ s.buf.gptr < s.buf.egptr

/-- `k` and `G'` where the loop goes on, with `n` and `G` before. -/
def Lowers (n : Nat) (G : Prop) (k : Nat) (G' : Prop) : Prop :=
  k < n ∧ G' = G ∨ k = n ∧ G' = False

section

variable {conn : ConnectionInfo} {n k N : Nat} {G G' : Prop} {s s' : State}

theorem State.rank_le (s : State) : s.rank ≤ 2 * s.left + 1 := by
  unfold State.rank
  split <;> omega

theorem State.le_rank (s : State) : 2 * s.left ≤ s.rank := Nat.le_add_right _ _

theorem Ranked.mono (h : Ranked conn k G' s) (hk : k ≤ n) (hG : G' → G) : Ranked conn n G s :=
  ⟨h.openReader, Nat.le_trans h.rank hk, h.live.imp_left hG⟩

theorem RankedFault.mono {x : Fault Exception} (h : RankedFault conn k G' x s) (hk : k ≤ n)
    (hG : G' → G) : RankedFault conn n G x s := by
  cases x with
  | exc e => exact Ranked.mono h hk hG
  | _ => exact h

theorem RankedResult.mono {r : Option UInt8} (h : RankedResult conn k G' r s) (hk : k ≤ n)
    (hG : G' → G) : RankedResult conn n G r s := by
  cases r with
  | none => exact Ranked.mono h hk hG
  | some c => exact ⟨⟨h.1.1, Nat.le_trans h.1.2.1 hk, h.1.2.2.imp_left hG⟩, h.2⟩

theorem Lowers.le (h : Lowers n G k G') : k ≤ n := by
  rcases h with ⟨h, -⟩ | ⟨h, -⟩ <;> omega

theorem Lowers.imp (h : Lowers n G k G') : G' → G := by
  rcases h with ⟨-, rfl⟩ | ⟨-, rfl⟩
  · exact id
  · exact False.elim

/-- What does not concern the rank. -/
theorem Ranked.of_eq (h : Ranked conn n G s) (hb : s'.buf = s.buf)
    (hin : s'.world.io.bytes = s.world.io.bytes)
    (hd : s'.world.history.dispatches = s.world.history.dispatches) : Ranked conn n G s' := by
  obtain ⟨b, w⟩ := s
  obtain ⟨b', w'⟩ := s'
  dsimp only at hb hin hd
  subst hb
  refine ⟨h.openReader, ?_, h.live.imp_right fun ⟨d, hmem, hs⟩ => ⟨d, hd ▸ hmem, hs⟩⟩
  have hr := h.rank
  simp only [State.rank, State.left] at hr ⊢
  rw [hin]
  exact hr

/-- Where something has been consumed, the bound is lower. -/
theorem Passed.ranked (h : Passed conn n G s) : ∃ k, Lowers n G k G ∧ Ranked conn k G s := by
  have := h.left
  have := s.rank_le
  exact ⟨n - 1, .inl ⟨by omega, rfl⟩, h.openReader, by omega, h.live⟩

/-- The bound that was there before is one. -/
theorem Passed.weaken (h : Passed conn n G s) : Ranked conn n G s := by
  have := h.left
  have := s.rank_le
  exact ⟨h.openReader, by omega, h.live⟩

/-- Bytes of the buffer are passed over. -/
theorem left_gbump {b : ServerStreambuf} (b' : ServerStreambuf) (w : World) (m : Nat)
    (ho : OpenReader conn.role b) (hg : b'.getArea = b.getArea)
    (he : b'.bufferEnd_ = b.bufferEnd_) (hm : m ≤ b.avail) :
    State.left ⟨b'.gbump m, w⟩ + m = State.left ⟨b, w⟩ := by
  have hcur : (b'.gbump m).gptr = b.gptr + m :=
    gptr_eq (gbump_getArea_eq (hg.trans ho.getArea_eq) m)
  simp only [State.left, ServerStreambuf.avail, ServerStreambuf.gbump_bufferEnd_, hcur, he]
  simp only [ServerStreambuf.avail] at hm
  omega

/-! ### The parts of a round before the header is there -/

/-- Reading moves bytes from the transport into the buffer. -/
theorem readRecords_ranked :
    Triple (Ranked conn n G) readRecords (fun _ => Ranked conn n G) (RankedFault conn n G) := by
  rintro ⟨b, w⟩ hs
  have ho := hs.openReader
  rw [readRecords, Prog.bind_ok (Prog.get_run _)]
  dsimp only at ho ⊢
  by_cases hend : b.gptr = b.bufferEnd_
  · rw [if_pos hend]
    rcases hread : Io.read b.bufferSize_ w.io with ⟨x | bytes, io⟩
    · obtain ⟨e, rfl⟩ := Io.read_error hread
      rw [Prog.bind_error (onIo_run hread)]
      exact hs.of_eq rfl (Io.bytes_read_error hread) rfl
    · rw [Prog.bind_ok (onIo_run hread)]
      have hbytes := Io.bytes_read hread
      by_cases hne : 0 < bytes.length
      · have hlen := Io.length_read hread
        have hcap := ho.capacity
        rw [if_pos hne, Prog.bind_ok (storeBuf_run (by omega)), modifyBuf_run]
        have hstep : ReaderStep conn ⟨.loop [] false, b, w⟩ ⟨.loop [] false, _⟩ :=
          .recv hend hread hne
        have hrank := hs.rank
        refine ⟨hstep.openReader ho, Nat.le_trans (Nat.le_of_eq ?_) hrank, hs.live⟩
        -- The bytes have gone from the transport to the buffer.
        simp only [State.rank, State.left, ServerStreambuf.avail, World.setIo_io, hbytes,
          List.length_append, hend]
        change 2 * (bytes.length - 0 + io.bytes.length) + _ =
          2 * (b.bufferEnd_ - b.bufferEnd_ + _) + _
        rw [Nat.sub_self, Nat.zero_add]
        rfl
      · rw [if_neg hne]
        have hnil : bytes = [] := List.eq_nil_of_length_eq_zero (Nat.eq_zero_of_not_pos hne)
        exact hs.of_eq rfl (by rw [hbytes, hnil]; rfl) rfl
  · rw [if_neg hend]
    exact hs

/-- Before the header: a byte has been passed in this round, or the rank is as before and bytes
are at hand. -/
def Pending (conn : ConnectionInfo) (n : Nat) (G : Prop) (s : State) : Prop :=
  Passed conn n G s ∨ Ranked conn n G s ∧ 0 < s.buf.avail

/-- Content is consumed by being handed out or discarded. -/
theorem setUpContent_ranked :
    Triple (fun s => Ranked conn n G s ∧ 0 < s.buf.avail) (setUpContent conn)
      (fun r s => match r with
        | some (.done r) => RankedResult conn n G r s
        | some (.again _) => Passed conn n G s
        | none => Pending conn n G s) (RankedFault conn n G) := by
  rintro ⟨b, w⟩ ⟨hs, hpos⟩
  have ho := hs.openReader
  dsimp only at ho hpos
  by_cases hu : 0 < b.unreadContentLength_
  · have hcur : b.gptr < b.bufferEnd_ := Nat.lt_of_sub_pos hpos
    have hleft := Nat.le_trans (State.le_rank _) hs.rank
    set m := min b.unreadContentLength_ (b.bufferEnd_ - b.gptr) with hm
    have hm0 : 0 < m := by
      simp only [ServerStreambuf.avail] at hpos
      omega
    by_cases hd : b.isContentMustBeDiscarded_ = true
    · rw [setUpContent_discard hu hd hm rfl]
      have hstep : ReaderStep conn ⟨.loop [] false, b, w⟩ ⟨.loop [] false, _⟩ :=
        .discard hu hd hcur hm
      have ho₁ := hstep.openReader ho
      have hl := left_gbump (b.setUnreadContentLength (b.unreadContentLength_ - m)) w m ho rfl rfl
        (Nat.min_le_right _ _)
      set b₁ := (b.setUnreadContentLength (b.unreadContentLength_ - m)).gbump m
      -- Some of the content is passed over, so the rank is lower.
      have hp : Passed conn n G ⟨b₁, w⟩ := ⟨ho₁, by omega, hs.live⟩
      by_cases hu' : 0 < b₁.unreadContentLength_
      · rw [if_pos hu']
        exact hp
      · rw [if_neg hu']
        have hstep' : ReaderStep conn ⟨.loop [] false, b₁, w⟩ ⟨.loop [] false, _⟩ :=
          .discarded (Nat.eq_zero_of_not_pos hu') hd
        exact .inl ⟨hstep'.openReader ho₁, hp.left, hp.live⟩
    · obtain ⟨b₁, hb₁⟩ : ∃ b₁, b₁ = (b.setUnreadContentLength (b.unreadContentLength_ - m)).setg
        b.gptr b.gptr (b.gptr + m) := ⟨_, rfl⟩
      rw [Bool.not_eq_true] at hd
      rw [setUpContent_deliver hu hd hm hb₁]
      have hstep : ReaderStep conn ⟨.loop [] false, b, w⟩ ⟨.idle, _⟩ :=
        .deliver (.inl rfl) hu hd hcur hm hb₁
      have ho₁ := hstep.openReader ho
      -- The get area is not empty, and what is to come is not more than before.
      have hr : RankedResult conn n G (some (b.buffer_ b.gptr)) ⟨b₁, w.addDelivery ⟨b₁, w.io⟩⟩ := by
        refine ⟨⟨ho₁, ?_, hs.live⟩, ?_⟩
        · subst hb₁
          exact hleft
        · subst hb₁
          exact Nat.lt_add_of_pos_right hm0
      by_cases hi : b₁.InvariantOk conn.role
      · rw [Prog.bind_ok (assertInvariantOk_run hi)]
        exact hr
      · rw [Prog.bind_error (assertInvariantOk_abort hi)]
        trivial
  · rw [setUpContent_none (Nat.eq_zero_of_not_pos hu)]
    exact .inr ⟨hs, hpos⟩

theorem skipPadding_ranked :
    Triple (fun s => Pending conn n G s ∧ s.buf.unreadContentLength_ = 0) skipPadding
      (fun r s => (if r then Passed conn n G s else Pending conn n G s) ∧
        s.buf.unreadContentLength_ = 0) (RankedFault conn n G) := by
  rintro ⟨b, w⟩ ⟨hs, hu⟩
  dsimp only at hu
  by_cases hp : 0 < b.unreadPaddingLength_
  · rw [skipPadding_run hp rfl rfl]
    set m := min b.unreadPaddingLength_ (b.bufferEnd_ - b.gptr) with hm
    have ho : OpenReader conn.role b := hs.elim (·.openReader) (·.1.openReader)
    have hstep : ReaderStep conn ⟨.loop [] false, b, w⟩ ⟨.loop [] false, _⟩ := .skip hu hp hm
    have hl := left_gbump (b.setUnreadPaddingLength (b.unreadPaddingLength_ - m)) w m ho rfl rfl
      (Nat.min_le_right _ _)
    have hpass : Passed conn n G ⟨(b.setUnreadPaddingLength
        (b.unreadPaddingLength_ - m)).gbump m, w⟩ := by
      rcases hs with hs | ⟨hs, hpos⟩
      · have := hs.left
        exact ⟨hstep.openReader ho, by omega, hs.live⟩
      · have := Nat.le_trans (State.le_rank _) hs.rank
        have : 0 < m := by
          simp only [ServerStreambuf.avail] at hpos
          omega
        exact ⟨hstep.openReader ho, by omega, hs.live⟩
    refine ⟨?_, hu⟩
    split
    · exact hpass
    · exact .inl hpass
  · rw [skipPadding_none (Nat.eq_zero_of_not_pos hp)]
    exact ⟨hs, hu⟩

/-- A header consumes bytes, unless it was whole before. -/
theorem accumulateHeader_ranked (h : List UInt8) :
    Triple (fun s => Pending conn n G s ∧ s.buf.unreadContentLength_ = 0 ∧
        s.buf.unreadPaddingLength_ = 0) (accumulateHeader h)
      (fun h' s => (s.buf.unreadContentLength_ = 0 ∧ s.buf.unreadPaddingLength_ = 0) ∧
        h.length ≤ h'.length ∧
        (Passed conn n G s ∨ (Ranked conn n G s ∧ 0 < s.buf.avail) ∧ 8 ≤ h.length))
      (RankedFault conn n G) := by
  rintro ⟨b, w⟩ ⟨hs, hu, hp⟩
  dsimp only at hu hp
  have ho : OpenReader conn.role b := hs.elim (·.openReader) (·.1.openReader)
  by_cases h8 : 8 ≤ h.length
  · rw [accumulateHeader_all h8]
    exact ⟨⟨hu, hp⟩, Nat.le_refl _, hs.imp_right fun hs => ⟨hs, h8⟩⟩
  · rw [accumulateHeader_run rfl]
    set m := min (8 - h.length) (b.bufferEnd_ - b.gptr) with hm
    have hstep : ReaderStep conn ⟨.loop h false, b, w⟩ ⟨.loop _ false, _⟩ :=
      .accumulate (Nat.lt_of_not_le h8) hu hp hm
    have hl := left_gbump b w m ho rfl rfl (Nat.min_le_right _ _)
    refine ⟨⟨hu, hp⟩, ?_, .inl ?_⟩
    · rw [List.length_append]
      exact Nat.le_add_right _ _
    · rcases hs with hs | ⟨hs, hpos⟩
      · have := hs.left
        exact ⟨hstep.openReader ho, by omega, hs.live⟩
      · have := Nat.le_trans (State.le_rank _) hs.rank
        have : 0 < m := by
          simp only [ServerStreambuf.avail] at hpos
          omega
        exact ⟨hstep.openReader ho, by omega, hs.live⟩

/-! ### Writing, and reading variables -/

/-- Whatever a write does, it leaves the rank alone. -/
theorem writeAll_ranked (bs : List UInt8) :
    Triple (Ranked conn n G) (onIo (Io.writeAll bs)) (fun _ => Ranked conn n G)
      (RankedFault conn n G) := by
  rintro ⟨b, w⟩ hs
  rcases Io.writeAll_cases bs w.io with e | ⟨-, x, e⟩ | ⟨m, -, -, e⟩ <;> rw [onIo_run e]
  · exact hs.of_eq rfl rfl rfl
  · exact Ranked.of_eq hs rfl rfl rfl
  · trivial

/-- A protocol violation ends the loop. -/
theorem violation_ranked {α : Type} (header : Header) {Q : α → State → Prop} :
    Triple (Ranked conn n G) (endRequestProtocolViolation header) Q (RankedFault conn n G) := by
  refine Triple.bind (Q := fun _ => Ranked conn n G) (fun s hs => ?_) fun _ =>
    Triple.throw fun _ hs => hs
  rw [endRequest_eq]
  exact writeAll_ranked _ s hs

theorem sendGetValuesResult_ranked (header : Header) (vars : NamesValues) :
    Triple (Ranked conn n G) (sendGetValuesResult conn header vars) (fun _ => Ranked conn n G)
      (RankedFault conn n G) := by
  intro s hs
  by_cases hfit : 8 + (replyContent (vars.pairs_.map NameValue.name)).length ≤ replySize
  · rw [sendGetValuesResult_eq rfl hfit]
    exact writeAll_ranked _ s hs
  · rw [sendGetValuesResult_abort hfit]
    trivial

/-- What the loop does with less fuel. -/
def RankedCall (conn : ConnectionInfo) (N : Nat) (call : M (Option UInt8)) : Prop :=
  ∀ (k : Nat) (G : Prop), (G → k < N) →
    Triple (Ranked conn k G) call (RankedResult conn k G) (RankedFault conn k G)

/-- Taking a character lowers the bound. -/
theorem takeChar_ranked :
    Triple (fun s => (OpenReader conn.role s.buf ∧ 2 * s.left ≤ n ∧
        (G ∨ s.world.history.Spun conn)) ∧ s.buf.gptr < s.buf.egptr) takeChar
      (fun _ s => ∃ j < n, Ranked conn j G s) (RankedFault conn n G) := by
  rintro ⟨b, w⟩ ⟨⟨ho, hleft, hlive⟩, hlt⟩
  dsimp only at ho hlt
  have hstep : ReaderStep conn ⟨.idle, b, w⟩ ⟨.idle, _⟩ := .take hlt
  have hle := ho.egptr_le
  have hl := left_gbump b w 1 ho rfl rfl (by
    simp only [ServerStreambuf.avail]
    omega)
  rw [takeChar, Prog.bind_ok (Prog.get_run _), Prog.bind_ok (modifyBuf_run _), Prog.pure_run]
  have := State.rank_le ⟨b.gbump 1, w⟩
  exact ⟨n - 1, by omega, hstep.openReader ho, by omega, hlive⟩

/-- The character taken lowers the lesser of the rank and a bound. -/
theorem takeChar_lowers {k : Nat} : Triple (fun s => (OpenReader conn.role s.buf ∧
      2 * s.left ≤ min k n ∧ (G ∨ s.world.history.Spun conn)) ∧ s.buf.gptr < s.buf.egptr) takeChar
    (fun r s => match r with
      | some _ => ∃ j < k, Ranked conn (min j n) G s
      | none => Ranked conn (min k n) G s) (RankedFault conn (min k n) G) := by
  intro s hs
  have h := (takeChar_ranked : Triple _ _ _ (RankedFault conn (min k n) G)) s hs
  rcases e : takeChar s with ⟨x | r, s'⟩ <;> simp only [e] at h ⊢
  · exact h
  · obtain ⟨j, hj, hr⟩ := h
    cases r with
    | none => exact hr.mono (Nat.le_of_lt hj) id
    | some c => exact ⟨j, by omega, hr.mono (by omega) id⟩

/-- A character taken through the call lowers the rank. -/
theorem RankedCall.drains {call : M (Option UInt8)} (hcall : RankedCall conn N call)
    (hN : G → n < N) : Drains (fun k s => Ranked conn (min k n) G s)
      (fun k x s => RankedFault conn (min k n) G x s) call where
  bump k := by
    refine Triple.get fun s hs => Triple.ite (fun hlt => takeChar_lowers.pre ?_) fun _ =>
      Triple.bind ((hcall (min k n) G fun hg => Nat.lt_of_le_of_lt (Nat.min_le_right _ _)
        (hN hg)).pre fun t ht => ht ▸ hs) fun r => ?_
    · rintro t rfl
      exact ⟨⟨hs.openReader, Nat.le_trans (State.le_rank _) hs.rank, hs.live⟩, hlt⟩
    · cases r with
      | none => exact Triple.pure fun _ ht => ht
      | some c => exact takeChar_lowers
  mono hj h := h.mono (by omega) id
  fault hj h := h.mono (by omega) id
  caught h := h
  throw h := h

/-- A management record, with the inner calls. -/
theorem processManagementRecord_ranked {call : M (Option UInt8)} (hcall : RankedCall conn N call)
    (hN : G → n < N) (header : Header) :
    Triple (Ranked conn n G) (processManagementRecord conn N call header)
      (fun r s => r = .managementProcessed ∧ Ranked conn n G s) (RankedFault conn n G) := by
  have done : ∀ {m : M Unit}, Triple (Ranked conn n G) m (fun _ => Ranked conn n G)
      (RankedFault conn n G) → Triple (Ranked conn n G)
        (m >>= fun _ => (pure ProcessHeaderResult.managementProcessed : M _))
        (fun r s => r = .managementProcessed ∧ Ranked conn n G s) (RankedFault conn n G) :=
    fun hm => Triple.bind hm fun _ => Triple.pure fun _ hs => ⟨rfl, hs⟩
  have hstream : Triple (Ranked conn n G) (NamesValues.ofStream call N {} 3)
      (fun _ => Ranked conn n G) (RankedFault conn n G) := by
    have hspent : n < N ∨ ∀ s, Ranked conn (min n n) G s →
        RankedFault conn (min n n) G .spent s := by
      by_cases hg : G
      · exact .inl (hN hg)
      · exact .inr fun s hs => hs.live.resolve_left hg
    have h : Triple (Ranked conn (min n n) G) (NamesValues.ofStream call N {} 3)
        (fun _ => Ranked conn (min n n) G) (RankedFault conn (min n n) G) :=
      (hcall.drains hN).ofStream hspent fun _ _ => trivial
    rw [Nat.min_self] at h
    exact h
  refine Triple.ite (fun _ => Triple.bind hstream fun p => ?_) fun _ => ?_
  · refine Triple.bind (Q := fun _ => Ranked conn n G)
      (Triple.modify fun s hs => hs.of_eq rfl rfl rfl) fun _ => Triple.get fun s hs => ?_
    have hsend := @done (sendGetValuesResult conn header p.1)
      (sendGetValuesResult_ranked header p.1)
    refine Triple.pre ?_ fun t ht => ht ▸ hs
    exact Triple.ite (fun _ => Triple.bind (violation_ranked (Q := fun _ _ => False) header)
      fun _ _ hf => hf.elim) fun _ => hsend
  · intro s hs
    rw [Prog.bind_ok (Record.unknownTypeRecord_run _)]
    exact done (writeAll_ranked _) s hs

/-! ### Processing the header -/

/-- The header has been accumulated.  In a round that has passed no byte it was there before. -/
structure HeaderRead (conn : ConnectionInfo) (n : Nat) (G : Prop) (stale : Bool) (s : State) :
    Prop where
  content : s.buf.unreadContentLength_ = 0
  padding : s.buf.unreadPaddingLength_ = 0
  passed : Passed conn n G s ∨ (Ranked conn n G s ∧ 0 < s.buf.avail) ∧ stale = true

/-- The bound before a header is processed. -/
theorem HeaderRead.ranked {stale : Bool} (h : HeaderRead conn n G stale s) : Ranked conn n G s :=
  h.passed.elim (fun hp => hp.weaken) fun hr => hr.1.1

section header

variable {b : ServerStreambuf} {w : World} {stale : Bool} {header : Header}

/-- The lengths have been stored. -/
theorem HeaderRead.dispatched (h : HeaderRead conn n G stale ⟨b, w⟩) (header : Header) :
    Ranked conn n G ⟨b.dispatched header, w.addDispatch ⟨header, stale, b, w.io⟩⟩ := by
  have hr := h.ranked
  have hrank := hr.rank
  rw [State.rank, if_pos ⟨h.content, h.padding⟩] at hrank
  refine ⟨hr.openReader.dispatched header, Nat.le_trans (State.rank_le _) hrank, ?_⟩
  exact hr.live.imp_right fun ⟨d, hd, hs⟩ => ⟨d, List.mem_append_left _ hd, hs⟩

/-- Unless the header spins, storing the lengths lowers the rank. -/
theorem HeaderRead.later (h : HeaderRead conn n G stale ⟨b, w⟩) (header : Header)
    (hh : (header.contentLength = 0 ∧ header.paddingLength = 0) →
      header.IsRejected conn ∨ header.isManagementRecord) :
    ∃ k G', Lowers n G k G' ∧
      Ranked conn k G' ⟨b.dispatched header, w.addDispatch ⟨header, stale, b, w.io⟩⟩ := by
  have hd := h.dispatched header
  have hleft : State.left ⟨b.dispatched header, w.addDispatch ⟨header, stale, b, w.io⟩⟩ =
      State.left ⟨b, w⟩ := rfl
  have hrank := h.ranked.rank
  rw [State.rank, if_pos ⟨h.content, h.padding⟩] at hrank
  by_cases h0 : header.contentLength = 0 ∧ header.paddingLength = 0
  · rcases h.passed with hp | ⟨⟨-, hpos⟩, hst⟩
    · have := hp.left
      refine ⟨n - 1, G, .inl ⟨by omega, rfl⟩, hd.openReader, ?_, hd.live⟩
      exact Nat.le_trans (State.rank_le _) (by omega)
    · -- The same header once more: the rank stays, and the history notes it.
      refine ⟨n, False, .inr ⟨rfl, rfl⟩, hd.openReader, hd.rank, .inr ⟨_, List.mem_append_right _
        (List.mem_singleton_self _), hst, h0.1, h0.2, hh h0, ?_⟩⟩
      exact Nat.lt_of_lt_of_le hpos (Nat.le_add_right _ _)
  · refine ⟨n - 1, G, .inl ⟨by omega, rfl⟩, hd.openReader, ?_, hd.live⟩
    have hne : ¬ ((b.dispatched header).unreadContentLength_ = 0 ∧
        (b.dispatched header).unreadPaddingLength_ = 0) := h0
    rw [State.rank, if_neg hne]
    omega

/-- What is known after `process_header()`: the loop goes on with a lower rank, or the record is
one of the stream that is being read. -/
def ProcessedRanked (conn : ConnectionInfo) (n : Nat) (G : Prop) :
    ProcessHeaderResult → State → Prop
  | .requestRejected, _ => False
  | .contentMustBeConsumed, _ => False
  | _, s => ∃ k G', Lowers n G k G' ∧ Ranked conn k G' s

/-- The header of a record that is not of the stream. -/
theorem dispatch_ranked {call : M (Option UInt8)} (hcall : RankedCall conn N call)
    (hN : G → n ≤ N) (h : HeaderRead conn n G stale ⟨b, w⟩)
    (hno : header.isManagementRecord = false →
      ¬ header.IsOwn conn b.type_) :
    Triple (fun s => s = ⟨b.dispatched header, w.addDispatch ⟨header, stale, b, w.io⟩⟩)
      (dispatch conn N call header) (ProcessedRanked conn n G) (RankedFault conn n G) := by
  refine Triple.get fun s hs => ?_
  subst hs
  set s₁ : State := ⟨b.dispatched header, w.addDispatch ⟨header, stale, b, w.io⟩⟩
  -- With the rank `k` that is left once the lengths are stored.
  have later : ∀ {m : M ProcessHeaderResult}, (header.IsRejected conn ∨
      header.isManagementRecord) → (∀ k G', Lowers n G k G' → Triple (Ranked conn k G') m
        (fun r s => (r = .managementProcessed ∨ r = .contentMustBeDiscarded) ∧ Ranked conn k G' s)
        (RankedFault conn k G')) →
      Triple (fun t => t = s₁) m (ProcessedRanked conn n G) (RankedFault conn n G) := by
    intro m hh hm
    obtain ⟨k, G', hl, hr⟩ := h.later header fun _ => hh
    refine (hm k G' hl).conseq (fun t ht => ht ▸ hr) (fun r t ht => ?_)
      fun x t hx => hx.mono hl.le hl.imp
    rcases ht with ⟨rfl | rfl, hr⟩ <;> exact ⟨k, G', hl, hr⟩
  have skip : ∀ k G', Triple (Ranked conn k G')
      (pure .contentMustBeDiscarded : M ProcessHeaderResult)
      (fun r s => (r = .managementProcessed ∨ r = .contentMustBeDiscarded) ∧ Ranked conn k G' s)
      (RankedFault conn k G') := fun _ _ => Triple.pure fun _ hs => ⟨.inr rfl, hs⟩
  refine Triple.ite (fun hb => later (.inl (.inl hb)) fun k G' _ => ?_) fun _ =>
    Triple.ite (fun hm => later (.inr hm) fun k G' hl => ?_) fun hm =>
    Triple.ite (fun hid => later (.inl (.inr ⟨hm, hid⟩)) fun k G' _ => skip k G') fun hid =>
    Triple.ite (fun ht => absurd ⟨not_not.mp hid, ht⟩ (hno (Bool.eq_false_iff.mpr hm)))
      fun _ => ?_
  · refine Triple.bind (Q := fun _ => Ranked conn k G') (fun s hs => ?_) fun _ => skip k G'
    rw [endRequest_eq]
    exact writeAll_ranked _ s hs
  · refine (processManagementRecord_ranked hcall (fun hg => ?_) header).post fun r s hs =>
      ⟨.inl hs.1, hs.2⟩
    rcases hl with ⟨hlt, rfl⟩ | ⟨-, rfl⟩
    · exact Nat.lt_of_lt_of_le hlt (hN hg)
    · exact hg.elim
  · exact (violation_ranked header).pre fun t ht => ht ▸ h.dispatched header

/-- What a round does: it lowers the rank, or ends the loop. -/
def RoundRanked (conn : ConnectionInfo) (n : Nat) (G : Prop) :
    Flow (List UInt8) (Option UInt8) → State → Prop
  | .again _, s => ∃ k G', Lowers n G k G' ∧ Ranked conn k G' s
  | .done r, s => RankedResult conn n G r s

/-- The header of a record of the stream: with content the rank is lower, without any the stream
ends. -/
theorem own_ranked {call : M (Option UInt8)} (h : HeaderRead conn n G stale ⟨b, w⟩)
    {header : List UInt8} (hid : conn.requestId ≠ 0)
    (hv : (Header.ofBytes header).protocolVersion = 1)
    (ho : (Header.ofBytes header).IsOwn conn b.type_) :
    Triple (fun s => s = ⟨b, w⟩) (do
        noteDispatch stale (Header.ofBytes header)
        processAccumulated conn N call header)
      (RoundRanked conn n G) (RankedFault conn n G) := by
  set d : Dispatch := ⟨Header.ofBytes header, stale, b, w.io⟩
  set b₁ := b.dispatched (Header.ofBytes header)
  have hd : Ranked conn n G ⟨b₁, w.addDispatch d⟩ := h.dispatched _
  -- Nothing is left of the record, so the rank is the one before the header.
  have hend : ∀ b₂ : ServerStreambuf, OpenReader conn.role b₂ → b₂.avail = b.avail →
      Ranked conn n G ⟨b₂, w.addDispatch d⟩ := by
    intro b₂ ho₂ ha
    have hrank := h.ranked.rank
    rw [State.rank, if_pos ⟨h.content, h.padding⟩] at hrank
    refine ⟨ho₂, Nat.le_trans (State.rank_le _) (Nat.le_trans (Nat.le_of_eq ?_) hrank), hd.live⟩
    simp only [State.left, ha]
    rfl
  refine (own_processed hid N call stale hv ho).conseq (fun _ => id) (fun r s hr => ?_)
    fun x _ hx => by subst hx; trivial
  cases hr with
  | content h0 =>
      obtain ⟨k, G', hl, hr⟩ := h.later (Header.ofBytes header) fun hn => absurd hn.1 h0
      exact ⟨k, G', hl, hr⟩
  | ended h0 =>
      have hstep : ReaderStep conn ⟨.process header, b₁, w.addDispatch d⟩ ⟨.process header, _⟩ :=
        .endOfStream ho h0 h0
      exact hend _ (hstep.openReader hd.openReader) rfl
  | data h0 hready =>
      have hstep : ReaderStep conn ⟨.process header, b₁, w.addDispatch d⟩ ⟨.process header, _⟩ :=
        .endOfStream ho h0 h0
      simp only [ServerStreambuf.isReadyToFilterData, Bool.and_eq_true, beq_iff_eq] at hready
      have hswitch : ReaderStep conn ⟨.process header, (b₁.setg b₁.gptr b₁.gptr
          b₁.gptr).setEndOfStream true, w.addDispatch d⟩ ⟨.process header, _⟩ :=
        .switch hready.1.1.2 hready.1.2 hready.2
      exact hend _ (hswitch.openReader (hstep.openReader hd.openReader)) rfl

/-- The end of a round: it lowers the bound, or ends the loop. -/
theorem processAccumulated_ranked {call : M (Option UInt8)} (hcall : RankedCall conn N call)
    (hN : G → n ≤ N) (stale : Bool) (header : List UInt8) :
    Triple (HeaderRead conn n G stale) (do
        noteDispatch stale (Header.ofBytes header)
        processAccumulated conn N call header)
      (RoundRanked conn n G) (RankedFault conn n G) := by
  rintro ⟨b, w⟩ h
  by_cases hown : (Header.ofBytes header).protocolVersion = 1 ∧
      (Header.ofBytes header).isManagementRecord = false ∧
      (Header.ofBytes header).IsOwn conn b.type_
  · obtain ⟨hv, hm, ho⟩ := hown
    have hid : conn.requestId ≠ 0 := fun h0 =>
      absurd (beq_iff_eq.mpr (ho.1.trans h0)) (Bool.eq_false_iff.mp hm)
    exact own_ranked h hid hv ho _ rfl
  -- A record that is not an own one delivers nothing, so its round must lower the rank.
  rw [processing_run]
  set d : Dispatch := ⟨Header.ofBytes header, stale, b, w.io⟩
  refine Triple.bind (Q := ProcessedRanked conn n G)
    (P := fun s => s = ⟨b.setg b.gptr b.gptr b.gptr, w.addDispatch d⟩) ?_ (fun r => ?_) _ rfl
  · rintro s rfl
    by_cases hv : (Header.ofBytes header).protocolVersion = 1
    · rw [processHeader, Header.checkValidity, if_neg (not_not.mpr hv),
        Prog.bind_ok (Prog.pure_run _ _), Prog.bind_ok (modifyBuf_run _)]
      refine Triple.bind (dispatch_ranked hcall hN h fun hm ho => hown ⟨hv, hm, ho⟩) (fun r => ?_)
        _ rfl
      exact Triple.bind (Q := fun _ => ProcessedRanked conn n G r) (Triple.get fun s hs =>
        Triple.assert (fun _ ht _ => ht ▸ hs) fun _ _ _ => trivial) fun _ =>
          Triple.pure fun _ hs => hs
    · rw [processHeader, Header.checkValidity, if_pos hv]
      have hr := h.ranked
      exact Ranked.mk hr.openReader.setg_gptr hr.rank (h.dispatched (Header.ofBytes header)).live
  · cases r with
    | requestRejected => exact fun _ hf => hf.elim
    | managementProcessed => exact Triple.pure fun _ hs => hs
    | contentMustBeConsumed => exact fun _ hf => hf.elim
    | contentMustBeDiscarded =>
        refine Triple.bind (Q := fun _ s => ∃ k G', Lowers n G k G' ∧ Ranked conn k G' s)
          (Triple.modify ?_) fun _ => Triple.pure fun _ hs => hs
        rintro ⟨b, w⟩ ⟨k, G', hl, hr⟩
        exact ⟨k, G', hl, hr.openReader.setContentMustBeDiscarded _, hr.rank, hr.live⟩

end header

/-! ### The loop -/

theorem underflowRound_ranked {call : M (Option UInt8)} (hcall : RankedCall conn N call)
    (hN : G → n ≤ N) (h : List UInt8) :
    Triple (Ranked conn n G) (underflowRound conn N call h) (RoundRanked conn n G)
      (RankedFault conn n G) := by
  have again : ∀ {h' : List UInt8} {s : State}, Passed conn n G s →
      RoundRanked conn n G (.again h') s := fun hp => by
    obtain ⟨k, hl, hr⟩ := hp.ranked
    exact ⟨k, G, hl, hr⟩
  -- The parts of a round in their order; each that goes on leaves the rank lower.
  refine Triple.bind readRecords_ranked fun _ => Triple.get fun s hs => ?_
  refine Triple.bind (Q := fun _ s => Ranked conn n G s ∧ 0 < s.buf.avail)
    (Triple.assert (fun t ht hp => ht ▸ ⟨hs, hp⟩) fun _ _ _ => trivial) fun _ => ?_
  refine Triple.bind setUpContent_ranked fun r => ?_
  rcases r with _ | ⟨_ | r⟩
  · refine Triple.get fun s hs => Triple.bind (Q := fun _ s =>
      Pending conn n G s ∧ s.buf.unreadContentLength_ = 0)
      (Triple.assert (fun t ht hp => ht ▸ ⟨hs, hp⟩) fun _ _ _ => trivial) fun _ => ?_
    refine Triple.bind skipPadding_ranked fun r => ?_
    cases r with
    | true => exact Triple.pure fun s hs => again hs.1
    | false =>
        refine Triple.get fun s hs => Triple.bind (Q := fun _ s => Pending conn n G s ∧
          s.buf.unreadContentLength_ = 0 ∧ s.buf.unreadPaddingLength_ = 0)
          (Triple.assert (fun t ht hp => ht ▸ ⟨hs.1, hs.2, hp⟩) fun _ _ _ => trivial) fun _ => ?_
        refine Triple.bind (accumulateHeader_ranked h) fun h' => ?_
        refine Triple.ite (fun hlt => Triple.pure fun s hs => ?_) fun _ => ?_
        · -- A part of the header is missing, so some of it was read in this round.
          refine again (hs.2.2.resolve_right fun hst => ?_)
          exact absurd (Nat.lt_of_le_of_lt hs.2.1 hlt) (Nat.not_lt.mpr hst.2)
        · intro s hs
          by_cases hh : h'.length = Header.size
          · rw [Prog.bind_ok (Prog.assert_true hh _)]
            refine processAccumulated_ranked hcall hN _ h' s ⟨hs.1.1, hs.1.2, ?_⟩
            refine hs.2.2.imp_right fun hst => ⟨hst.1, decide_eq_true ?_⟩
            exact Nat.le_antisymm (Nat.le_trans hs.2.1 (Nat.le_of_eq hh)) hst.2
          · rw [Prog.bind_error (by rw [Prog.assert_run, if_neg hh])]
            trivial
  · exact Triple.pure fun s hs => again hs
  · exact Triple.pure fun s hs => hs

theorem enterUnderflow_ranked {loop : M (Option UInt8)}
    (h : Triple (Ranked conn n G) loop (RankedResult conn n G) (RankedFault conn n G)) :
    Triple (Ranked conn n G) (enterUnderflow loop) (RankedResult conn n G)
      (RankedFault conn n G) := by
  refine Triple.get fun s hs => Triple.bind (Q := fun _ => Ranked conn n G)
    (Triple.assert (fun t ht _ => ht ▸ hs) fun _ _ _ => trivial) fun _ => ?_
  exact Triple.ite (fun _ => Triple.pure fun _ ht => ht) fun _ =>
    Triple.bind (Q := fun _ => Ranked conn n G)
      (Triple.modify fun _ ht => ht.of_eq rfl rfl rfl) fun _ => h

/-- The induction is on the fuel: a round that goes on leaves a lower rank, and less fuel. -/
theorem underflowLoop_ranked (N : Nat) : ∀ {n : Nat} {G : Prop} (h : List UInt8), (G → n < N) →
    Triple (Ranked conn n G) (underflowLoop conn N h) (RankedResult conn n G)
      (RankedFault conn n G) := by
  induction N with
  | zero =>
      intro n G h hN s hs
      exact hs.live.resolve_left fun hg => Nat.not_lt_zero _ (hN hg)
  | succ N ih =>
      intro n G h hN
      have hcall : RankedCall conn N (enterUnderflow (underflowLoop conn N [])) :=
        fun k G' hk => enterUnderflow_ranked (ih [] hk)
      refine Triple.bind (underflowRound_ranked hcall (fun hg => Nat.le_of_lt_succ (hN hg)) h)
        fun r => ?_
      cases r with
      | done r => exact Triple.pure fun s hs => hs
      | again h' =>
          rintro s ⟨k, G', hl, hs⟩
          have hk : G' → k < N := by
            rcases hl with ⟨hlt, rfl⟩ | ⟨-, rfl⟩
            · exact fun hg => Nat.lt_of_lt_of_le hlt (Nat.le_of_lt_succ (hN hg))
            · exact False.elim
          exact ((ih h' hk).conseq (fun _ => id) (fun _ _ hr => hr.mono hl.le hl.imp)
            fun _ _ hx => hx.mono hl.le hl.imp) s hs

/-- A call of `underflow()` with more fuel than the rank. -/
theorem underflow_ranked (hN : n < N) : Triple (Ranked conn n True) (underflow conn N)
    (RankedResult conn n True) (RankedFault conn n True) :=
  enterUnderflow_ranked (underflowLoop_ranked N [] fun _ => hN)

/-- **The loop ends**: with more fuel than the rank, `underflow()` is spent only if a header has
spun. -/
theorem underflow_spent (ho : OpenReader conn.role s.buf) {fuel : Nat} (hfuel : s.rank < fuel)
    (h : underflow conn fuel s = (.error .spent, s')) : s'.world.history.Spun conn :=
  (underflow_ranked hfuel).of_error ⟨ho, Nat.le_refl _, .inl trivial⟩ h

end

end Fcgi

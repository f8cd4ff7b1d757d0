import Fcgi.Lib.Rel
import Fcgi.Input.Stable

/-!
# Input — two readers that differ in memory

`Twin s t`: the states differ in the history, and in the memory of the buffer behind the received
bytes.  From such states, and whatever lies on the stack, `underflow()` and the calls that lead to
it end alike (`underflow_twin`), until a get-values-result has been sent with padding
(`Answer.Padded`), the bytes of which come from the stack.

The rules are those of `Lib.Rel`: the second program of each lemma is the first with another
stack.  What differs in memory is behind `buffer_end_` and is overwritten before it is read, since
every access of the reader is below it.  The history is where the leak is seen; it is noted in the
first run, and nothing undoes it (`leaked_stable`).
-/

namespace Fcgi
open Lib

/-- The reply to a get-values record is sent with padding. -/
def Answer.Padded (a : Answer) : Prop :=
  a.buf.unreadContentLength_ = 0 ∧ 8 + (replyContent a.names).length ≤ replySize ∧
    (replyContent a.names).length % 8 ≠ 0

/-- A reply has been sent with padding. -/
def History.Leaked (h : History) : Prop := ∃ a ∈ h.answers, a.Padded

/-- Bytes of the stack have been sent. -/
abbrev Leaked (s : State) : Prop := s.world.history.Leaked

theorem leaked_stable : Stable Leaked where
  buf _ _ _ h := h
  io _ _ _ h := h
  entry _ _ _ h := h
  dispatch _ _ _ h := h
  answer _ _ _ := fun ⟨a, ha, hp⟩ => ⟨a, List.mem_append_left _ ha, hp⟩
  delivery _ _ _ h := h

theorem leaked_lasting : Lasting Leaked := leaked_stable.lasting

/-- Two readers with the same received bytes. -/
inductive Twin : State → State → Prop
  | mk {b : ServerStreambuf} {w : World} (mem : Mem) (h : History)
      (hmem : ∀ i < b.bufferEnd_, mem i = b.buffer_ i) (hcur : b.gptr ≤ b.bufferEnd_)
      (hlim : b.egptr ≤ b.bufferEnd_) (hans : h.answers.length = w.history.answers.length)
      (hrd : b.isReader = true) : Twin ⟨b, w⟩ ⟨b.setBuffer mem, ⟨w.io, h⟩⟩

/-- The connection above another stack. -/
def ConnectionInfo.over (conn : ConnectionInfo) (st : Nat → Mem) : ConnectionInfo :=
  { conn with stack := st }

/-- Two runs that do not part. -/
abbrev Never {σ : Type} : σ → Prop := fun _ => False

/-- What `underflow()` returns. -/
def Got (r : Option UInt8) (s t : State) : Prop :=
  Twin s t ∧ (r.isSome → s.buf.gptr < s.buf.egptr)

/-- gptr() moves on by no more than asked. -/
theorem ServerStreambuf.gptr_gbump_le (b : ServerStreambuf) (n : Nat) :
    (b.gbump n).gptr ≤ b.gptr + n := by
  rw [gptr, gptr, gbump_getArea]
  cases b.getArea with
  | none => exact Nat.zero_le _
  | some a => exact Nat.le_refl _

@[simp] theorem ServerStreambuf.egptr_gbump (b : ServerStreambuf) (n : Nat) :
    (b.gbump n).egptr = b.egptr := by
  rw [egptr, egptr, gbump_getArea]
  cases b.getArea <;> rfl

section

variable {conn : ConnectionInfo} {st : Nat → Mem} {fuel : Nat} {call call' : M (Option UInt8)}

/-! ### The transport and the assertions -/

/-- The transport is the same in both runs. -/
theorem onIo_rel {α : Type} {R : State → State → Prop} (m : Prog Io Exception α)
    (hio : ∀ s t, R s t → t.world.io = s.world.io)
    (hset : ∀ s t io, R s t → R ⟨s.buf, s.world.setIo io⟩ ⟨t.buf, t.world.setIo io⟩) :
    Rel R (onIo m) (onIo m) (fun _ => R) R Never := by
  rintro ⟨b, w⟩ ⟨b', w'⟩ hst
  have hw : w'.io = w.io := hio _ _ hst
  rcases e : m w.io with ⟨x | a, io⟩ <;> rw [onIo_run e, onIo_run (hw ▸ e)]
  · exact .inr (.error (hset _ _ io hst))
  · exact .inr (.ok (hset _ _ io hst))

/-- The assertion holds in both states or in neither. -/
theorem assertInvariantOk_rel {R : State → State → Prop}
    (hR : ∀ s t, R s t → (s.buf.InvariantOk conn.role ↔ t.buf.InvariantOk conn.role)) :
    Rel R (assertInvariantOk conn) (assertInvariantOk (conn.over st)) (fun _ => R) R Never := by
  refine Rel.get fun s t hst => Rel.assert (hR s t hst) ?_ ?_ <;> rintro _ _ ⟨rfl, rfl⟩
  · exact fun _ => hst
  · exact hst

theorem onIo_twin {α : Type} (m : Prog Io Exception α) :
    Rel Twin (onIo m) (onIo m) (fun _ => Twin) Twin Never := by
  refine onIo_rel m ?_ ?_
  · rintro _ _ ⟨mem, h, hmem, hcur, hlim, hans, hrd⟩
    rfl
  · rintro _ _ io ⟨mem, h, hmem, hcur, hlim, hans, hrd⟩
    exact .mk mem h hmem hcur hlim hans hrd

/-- The invariant looks at no memory. -/
theorem Twin.invariantOk {s t : State} (h : Twin s t) {role : Role} :
    s.buf.InvariantOk role ↔ t.buf.InvariantOk role := by
  obtain ⟨mem, h, hmem, hcur, hlim, hans, hrd⟩ := h
  exact Iff.rfl

theorem assertInvariantOk_twin :
    Rel Twin (assertInvariantOk conn) (assertInvariantOk (conn.over st)) (fun _ => Twin) Twin
      Never :=
  assertInvariantOk_rel fun _ _ h => h.invariantOk

/-- An assertion and what follows it. -/
theorem assertInvariantOk_then {α : Type} {s t : State} {f g : Unit → M α}
    {Q : α → State → State → Prop} {B : State → Prop} (hst : Twin s t)
    (h : Rel (At s t) (f ()) (g ()) Q Twin B) :
    Rel (At s t) (assertInvariantOk conn >>= f) (assertInvariantOk (conn.over st) >>= g) Q
      Twin B := by
  by_cases hi : s.buf.InvariantOk conn.role
  · exact Rel.step (assertInvariantOk_run hi) (assertInvariantOk_run (hst.invariantOk.mp hi)) h
  · rintro s t ⟨rfl, rfl⟩
    have hi' : ¬ t.buf.InvariantOk (conn.over st).role := mt hst.invariantOk.mpr hi
    rw [Prog.bind_error (x := .abort) (by
        rw [assertInvariantOk, Prog.bind_ok (Prog.get_run _), Prog.assert_run, if_neg hi]),
      Prog.bind_error (x := .abort) (by
        rw [assertInvariantOk, Prog.bind_ok (Prog.get_run _), Prog.assert_run,
          if_neg hi'])]
    exact .inr (.error hst)

/-! ### The parts of a round before the header is there -/

theorem readRecords_twin : Rel Twin readRecords readRecords (fun _ => Twin) Twin Never := by
  refine Rel.get fun s t hst => ?_
  obtain ⟨mem, h, hmem, hcur, hlim, hans, hrd⟩ := hst
  rename_i b w
  refine Rel.ite Iff.rfl (fun hend => ?_) fun _ => Rel.ret (.mk mem h hmem hcur hlim hans hrd)
  refine Rel.seq ((onIo_twin _).at_pre (.mk mem h hmem hcur hlim hans hrd)) fun bytes => ?_
  refine Rel.ite Iff.rfl (fun hne => ?_) fun _ => Rel.throw fun _ _ hst => hst
  refine Rel.seq (Q := fun _ s t => Twin s t ∧
    ∀ i < bytes.length, t.buf.buffer_ i = s.buf.buffer_ i) ?_ fun _ => Rel.modify ?_
  · refine Rel.get fun s t hst => ?_
    obtain ⟨mem, h, hmem, hcur, hlim, hans, hrd⟩ := hst
    refine Rel.ite Iff.rfl (fun _ => Rel.modify ?_) fun _ =>
      Rel.fault fun _ _ ⟨hs, ht⟩ => hs ▸ ht ▸ .mk mem h hmem hcur hlim hans hrd
    rintro _ _ ⟨rfl, rfl⟩
    exact ⟨.mk (mem.store 0 bytes) h (fun i hi => Mem.store_congr (.inl (hmem i hi))) hcur hlim
      hans hrd, fun i hi => Mem.store_congr (.inr ⟨Nat.zero_le i, by omega⟩)⟩
  · rintro _ _ ⟨⟨mem, h, hmem, hcur, hlim, hans, hrd⟩, hbytes⟩
    exact .mk mem h hbytes (Nat.zero_le _) (Nat.le_refl _) hans hrd

theorem setUpContent_twin :
    Rel (fun s t => Twin s t ∧ s.buf.gptr < s.buf.bufferEnd_) (setUpContent conn)
      (setUpContent (conn.over st)) (fun r s t => Twin s t ∧ match r with
        | some (.done c) => c.isSome → s.buf.gptr < s.buf.egptr
        | _ => True) Twin Never := by
  refine Rel.get fun s t hst => ?_
  obtain ⟨⟨mem, h, hmem, hcur, hlim, hans, hrd⟩, hlt⟩ := hst
  rename_i b w
  dsimp only at hlt
  refine Rel.ite Iff.rfl (fun hu => ?_) fun _ =>
    Rel.ret ⟨.mk mem h hmem hcur hlim hans hrd, trivial⟩
  dsimp only at hu
  refine Rel.step (modifyBuf_run _) (modifyBuf_run _) ?_
  set n := min b.unreadContentLength_ (b.bufferEnd_ - b.gptr) with hn
  refine Rel.ite Iff.rfl (fun hd => ?_) fun hd => ?_
  -- Content is delivered: the character read lies in the bytes that were received.
  · refine Rel.step (modifyBuf_run _) (modifyBuf_run _) ?_
    refine Rel.step (noteDelivery_run _ _) (noteDelivery_run _ _) ?_
    have hchar : (b.setBuffer mem).buffer_ (b.setBuffer mem).gptr = b.buffer_ b.gptr := hmem _ hlt
    dsimp only
    rw [hchar]
    set b₁ := (b.setUnreadContentLength (b.unreadContentLength_ - n)).setg b.gptr b.gptr
      (b.gptr + n) with hb₁
    refine assertInvariantOk_then (.mk mem _ hmem hcur ?_ hans hrd) (Rel.ret ⟨.mk mem _ hmem hcur ?_
      hans hrd, fun _ => ?_⟩)
    · change b.gptr + n ≤ b.bufferEnd_
      omega
    · change b.gptr + n ≤ b.bufferEnd_
      omega
    · change b.gptr < b.gptr + n
      omega
  -- Content is discarded: only the positions move, in both buffers alike.
  · refine Rel.step (modifyBuf_run _) (modifyBuf_run _) (Rel.get fun s t hst => ?_)
    obtain ⟨rfl, rfl⟩ := hst
    set b₁ := (b.setUnreadContentLength (b.unreadContentLength_ - n)).gbump n
    have hcur₁ : b₁.gptr ≤ b.bufferEnd_ := by
      have : b₁.gptr ≤ b.gptr + n := ServerStreambuf.gptr_gbump_le _ n
      omega
    have hlim₁ : b₁.egptr ≤ b.bufferEnd_ := by
      have : b₁.egptr = b.egptr := ServerStreambuf.egptr_gbump _ n
      omega
    refine Rel.ite Iff.rfl (fun _ =>
      Rel.ret ⟨.mk mem h hmem hcur₁ hlim₁ hans hrd, trivial⟩) fun _ => ?_
    exact Rel.step (modifyBuf_run _) (modifyBuf_run _)
      (Rel.ret ⟨.mk mem h hmem hcur₁ hlim₁ hans hrd, trivial⟩)

theorem skipPadding_twin : Rel Twin skipPadding skipPadding (fun _ => Twin) Twin Never := by
  refine Rel.get fun s t hst => ?_
  obtain ⟨mem, h, hmem, hcur, hlim, hans, hrd⟩ := hst
  rename_i b w
  refine Rel.ite Iff.rfl (fun _ => ?_) fun _ => Rel.ret (.mk mem h hmem hcur hlim hans hrd)
  refine Rel.step (modifyBuf_run _) (modifyBuf_run _) (Rel.get fun s t hst => ?_)
  obtain ⟨rfl, rfl⟩ := hst
  set n := min b.unreadPaddingLength_ (b.bufferEnd_ - b.gptr)
  refine Rel.ret (.mk mem h hmem ?_ ?_ hans hrd)
  · have := ServerStreambuf.gptr_gbump_le
      (b.setUnreadPaddingLength (b.unreadPaddingLength_ - n)) n
    exact Nat.le_trans this (show b.gptr + n ≤ b.bufferEnd_ by omega)
  · have := ServerStreambuf.egptr_gbump (b.setUnreadPaddingLength (b.unreadPaddingLength_ - n)) n
    exact Nat.le_trans (Nat.le_of_eq this) hlim

theorem accumulateHeader_twin (header : List UInt8) :
    Rel Twin (accumulateHeader header) (accumulateHeader header) (fun _ => Twin) Twin Never := by
  refine Rel.get fun s t hst => ?_
  obtain ⟨mem, h, hmem, hcur, hlim, hans, hrd⟩ := hst
  rename_i b w
  refine Rel.step (modifyBuf_run _) (modifyBuf_run _) ?_
  set n := min (Header.size - header.length) (b.bufferEnd_ - b.gptr) with hn
  have hload : (b.setBuffer mem).buffer_.load (b.setBuffer mem).gptr n = b.buffer_.load b.gptr n :=
    Mem.load_congr fun i h₁ h₂ => hmem i (by
      change b.gptr ≤ i at h₁
      change i < b.gptr + n at h₂
      omega)
  have htwin : Twin ⟨b.gbump n, w⟩ ⟨(b.setBuffer mem).gbump n, ⟨w.io, h⟩⟩ := by
    refine .mk mem h hmem ?_ ?_ hans hrd
    · exact Nat.le_trans (ServerStreambuf.gptr_gbump_le b n)
        (show b.gptr + n ≤ b.bufferEnd_ by omega)
    · exact Nat.le_trans (Nat.le_of_eq (ServerStreambuf.egptr_gbump b n)) hlim
  have hret := Rel.ret (ε := Exception) (Q := fun _ => Twin) (E := Twin) (B := Never)
    (a := header ++ b.buffer_.load b.gptr n) htwin
  rw [← hload] at hret ⊢
  exact hret

/-! ### Calls of the stream buffer's base class -/

theorem takeChar_twin :
    Rel (fun s t => Twin s t ∧ s.buf.gptr < s.buf.egptr) takeChar takeChar (fun _ => Twin) Twin
      Never := by
  refine Rel.get fun s t hst => ?_
  obtain ⟨⟨mem, h, hmem, hcur, hlim, hans, hrd⟩, hlt⟩ := hst
  rename_i b w
  dsimp only at hlt
  refine Rel.step (modifyBuf_run _) (modifyBuf_run _) ?_
  have hchar : (b.setBuffer mem).buffer_ (b.setBuffer mem).gptr = b.buffer_ b.gptr :=
    hmem b.gptr (by omega)
  dsimp only
  rw [hchar]
  refine Rel.ret (.mk mem h hmem ?_ ?_ hans hrd)
  · exact Nat.le_trans (ServerStreambuf.gptr_gbump_le b 1)
      (show b.gptr + 1 ≤ b.bufferEnd_ by omega)
  · exact Nat.le_trans (Nat.le_of_eq (ServerStreambuf.egptr_gbump b 1)) hlim

section calls

variable (hcall : Rel Twin call call' Got Twin Leaked) (hkeep : Keeps Leaked call)

include hcall

theorem sgetc_twin : Rel Twin (sgetc call) (sgetc call') (fun _ => Twin) Twin Leaked := by
  refine Rel.get fun s t hst => ?_
  obtain ⟨mem, h, hmem, hcur, hlim, hans, hrd⟩ := hst
  rename_i b w
  refine Rel.ite Iff.rfl (fun hlt => ?_) fun _ => ?_
  · have hchar : (b.setBuffer mem).buffer_ (b.setBuffer mem).gptr = b.buffer_ b.gptr :=
      hmem b.gptr (by dsimp only at hlt; omega)
    dsimp only
    rw [hchar]
    exact Rel.ret (.mk mem h hmem hcur hlim hans hrd)
  · exact (hcall.post fun _ _ _ h => h.1).at_pre (.mk mem h hmem hcur hlim hans hrd)

theorem sbumpc_twin : Rel Twin (sbumpc call) (sbumpc call') (fun _ => Twin) Twin Leaked := by
  have htake : Keeps Leaked takeChar :=
    .get fun _ => .bind (modifyBuf_stable leaked_stable _) fun _ => .pure _
  refine Rel.get fun s t hst => ?_
  refine Rel.ite ?_ (fun hlt => (takeChar_twin.at_pre ⟨hst, hlt⟩).mono) fun _ => ?_
  · obtain ⟨mem, h, hmem, hcur, hlim, hans, hrd⟩ := hst
    exact Iff.rfl
  · refine Rel.bind (hcall.at_pre hst) (fun r => ?_) fun r => ?_
    · cases r with
      | none => exact .pure _
      | some c => exact htake
    · cases r with
      | none => exact Rel.pure fun _ _ h => h.1
      | some c => exact (takeChar_twin.pre fun _ _ h => ⟨h.1, h.2 rfl⟩).mono

theorem get_twin (is : Istream) :
    Rel Twin (is.get call) (is.get call') (fun _ => Twin) Twin Leaked := by
  refine Rel.ite Iff.rfl (fun _ => ?_) fun _ => Rel.pure fun _ _ h => h
  refine Rel.bind (Rel.attempt (S := fun _ => Twin) (sbumpc_twin hcall) fun _ _ _ h => h)
    (fun r => ?_) fun r => ?_
  · rcases r with e | _ | c <;> exact .pure _
  · rcases r with e | _ | c <;> exact Rel.pure fun _ _ h => h

theorem peek_twin (is : Istream) :
    Rel Twin (is.peek call) (is.peek call') (fun _ => Twin) Twin Leaked := by
  refine Rel.ite Iff.rfl (fun _ => ?_) fun _ => Rel.pure fun _ _ h => h
  refine Rel.bind (Rel.attempt (S := fun _ => Twin) (sgetc_twin hcall) fun _ _ _ h => h)
    (fun r => ?_) fun r => ?_
  · rcases r with e | _ | c <;> exact .pure _
  · rcases r with e | _ | c <;> exact Rel.pure fun _ _ h => h

include hkeep

theorem xsgetn_twin (n : Nat) :
    Rel Twin (xsgetn call n) (xsgetn call' n) (fun _ => Twin) Twin Leaked := by
  induction n with
  | zero => exact Rel.pure fun _ _ h => h
  | succ n ih =>
      refine Rel.bind (sbumpc_twin hcall) (fun r => ?_) fun r => ?_
      · cases r with
        | none => exact .pure _
        | some c => exact .bind (xsgetn_stable leaked_lasting .keeps hkeep n) fun _ => .pure _
      · cases r with
        | none => exact Rel.pure fun _ _ h => h
        | some c => exact Rel.bind ih (fun _ => .pure _) fun _ => Rel.pure fun _ _ h => h

theorem read_twin (is : Istream) (n : Int) :
    Rel Twin (is.read call n) (is.read call' n) (fun _ => Twin) Twin Leaked := by
  refine Rel.ite Iff.rfl (fun _ => ?_) fun _ => Rel.pure fun _ _ h => h
  refine Rel.bind (Rel.attempt (S := fun _ => Twin) (xsgetn_twin hcall hkeep _) fun _ _ _ h => h)
    (fun r => ?_) fun r => ?_
  · rcases r with e | cs
    · exact .pure _
    · exact .ite (.pure _) (.pure _)
  · rcases r with e | cs
    · exact Rel.pure fun _ _ h => h
    · exact Rel.ite Iff.rfl (fun _ => Rel.pure fun _ _ h => h) fun _ => Rel.pure fun _ _ h => h

/-! ### Names and values -/

theorem readLength_twin (is : Istream) :
    Rel Twin (NamesValues.readLength call is) (NamesValues.readLength call' is) (fun _ => Twin)
      Twin Leaked := by
  refine Rel.bind (get_twin hcall is) (fun p => ?_) fun p => ?_
  · rcases p with ⟨_ | c, is₁⟩
    · exact .pure _
    · exact .ite (.bind (read_stable leaked_lasting .keeps hkeep is₁ 3) fun _ =>
        .ite (.pure _) (.throw _)) (.pure _)
  · rcases p with ⟨_ | c, is₁⟩
    · exact Rel.pure fun _ _ h => h
    · refine Rel.ite Iff.rfl (fun _ => ?_) fun _ => Rel.pure fun _ _ h => h
      refine Rel.bind (read_twin hcall hkeep is₁ 3) (fun _ => .ite (.pure _) (.throw _)) fun _ => ?_
      exact Rel.ite Iff.rfl (fun _ => Rel.pure fun _ _ h => h) fun _ => Rel.throw fun _ _ h => h

theorem readPair_twin (is : Istream) (nv : NamesValues) :
    Rel Twin (NamesValues.readPair call is nv) (NamesValues.readPair call' is nv) (fun _ => Twin)
      Twin Leaked := by
  have hlength := fun is => readLength_stable leaked_lasting .keeps hkeep is
  have hdata : ∀ is n, Keeps Leaked (NamesValues.readData call is n) := fun is n =>
    .bind (read_stable leaked_lasting .keeps hkeep is n) fun _ => .ite (.pure _) (.throw _)
  refine Rel.bind (readLength_twin hcall hkeep is) (fun p => ?_) fun p => ?_
  · rcases p with ⟨_ | n, is₁⟩
    · exact .pure _
    · refine .bind (hlength is₁) fun p => ?_
      rcases p with ⟨_ | v, is₂⟩
      · exact .throw _
      · exact .bind (hdata is₂ _) fun _ => .pure _
  · rcases p with ⟨_ | n, is₁⟩
    · exact Rel.pure fun _ _ h => h
    · refine Rel.bind (readLength_twin hcall hkeep is₁) (fun p => ?_) fun p => ?_
      · rcases p with ⟨_ | v, is₂⟩
        · exact .throw _
        · exact .bind (hdata is₂ _) fun _ => .pure _
      · rcases p with ⟨_ | v, is₂⟩
        · exact Rel.throw fun _ _ h => h
        · refine Rel.bind (Q := fun _ => Twin) ?_ (fun _ => .pure _) fun _ =>
            Rel.pure fun _ _ h => h
          refine Rel.bind (read_twin hcall hkeep is₂ _) (fun _ => .ite (.pure _) (.throw _))
            fun _ => ?_
          exact Rel.ite Iff.rfl (fun _ => Rel.pure fun _ _ h => h) fun _ =>
            Rel.throw fun _ _ h => h

theorem ofStream_twin (fuel : Nat) (is : Istream) (reserve : Nat) :
    Rel Twin (NamesValues.ofStream call fuel is reserve)
      (NamesValues.ofStream call' fuel is reserve) (fun _ => Twin) Twin Leaked := by
  refine Rel.seq (Rel.assert (Q := fun _ => Twin) Iff.rfl (fun _ _ h _ => h) fun _ _ h => h)
    fun _ => ?_
  have hpair : ∀ p : Istream × NamesValues, Keeps Leaked (NamesValues.readPair call p.1 p.2) :=
    fun p => readPair_stable leaked_lasting .keeps hkeep p.1 p.2
  refine Rel.recLoop (I := fun _ => Twin) (fun _ _ _ h => h)
    (fun n p => .recLoop (fun _ _ _ p => hpair p) n p)
    (fun n _ _ _ _ p => (readPair_twin hcall hkeep p.1 p.2).post fun r _ _ h => ?_) fuel _
  cases r with
  | again p' => exact h
  | done a => exact h

end calls

/-! ### Processing a header -/

theorem endRequest_twin (header : Header) (ps : ProtocolStatus) :
    Rel Twin (endRequest header ps) (endRequest header ps) (fun _ => Twin) Twin Never := by
  intro s t hst
  rw [endRequest_eq, endRequest_eq]
  exact onIo_twin _ s t hst

theorem violation_twin {α : Type} {Q : α → State → State → Prop} (header : Header) :
    Rel Twin (endRequestProtocolViolation header : M α) (endRequestProtocolViolation header) Q
      Twin Never :=
  Rel.seq (endRequest_twin header _) fun _ => Rel.throw fun _ _ h => h

/-- A reply that needs no padding does not depend on the stack. -/
theorem sendGetValuesResult_twin (header : Header) (vars : NamesValues) :
    Rel (fun s t => Twin s t ∧ (8 + (replyContent (vars.pairs_.map NameValue.name)).length ≤
        replySize → (replyContent (vars.pairs_.map NameValue.name)).length % 8 = 0))
      (sendGetValuesResult conn header vars) (sendGetValuesResult (conn.over st) header vars)
      (fun _ => Twin) Twin Never := by
  rintro s t ⟨hst, hpad⟩
  by_cases hfit : 8 + (replyContent (vars.pairs_.map NameValue.name)).length ≤ replySize
  · have hnil : Math.pad8 (replyContent (vars.pairs_.map NameValue.name)).length = 0 := by
      rw [Math.pad8, hpad hfit]
    rw [sendGetValuesResult_eq rfl hfit, sendGetValuesResult_eq rfl hfit, replyBytes_eq,
      replyBytes_eq, hnil, Mem.load_zero, Mem.load_zero]
    exact onIo_twin _ s t hst
  · rw [sendGetValuesResult_abort hfit, sendGetValuesResult_abort hfit]
    exact .inr (.error hst)

theorem processManagementRecord_twin (hcall : Rel Twin call call' Got Twin Leaked)
    (hkeep : Keeps Leaked call) (header : Header) :
    Rel Twin (processManagementRecord conn fuel call header)
      (processManagementRecord (conn.over st) fuel call' header) (fun _ => Twin) Twin Leaked := by
  refine Rel.ite Iff.rfl (fun _ => ?_) fun _ => ?_
  -- A get-values record: its names are read by either reader.
  · have hsend : ∀ vars : NamesValues, Keeps Leaked (do
        sendGetValuesResult conn header vars
        pure ProcessHeaderResult.managementProcessed) := fun vars =>
      .bind (sendGetValuesResult_lasting leaked_lasting _ _) fun _ => .pure _
    refine Rel.bind (ofStream_twin hcall hkeep fuel _ _) (fun p => ?_) fun p => ?_
    · exact .bind (.modify fun s => leaked_stable.answer s.buf s.world _) fun _ => .get fun s =>
        .ite (.bind (violation_lasting leaked_lasting _) fun _ => hsend p.1) (hsend p.1)
    -- Any other management record is answered with its type alone.
    · refine Rel.of_at fun s t hst => ?_
      obtain ⟨mem, h, hmem, hcur, hlim, hans, hrd⟩ := hst
      rename_i b w
      refine Rel.step (noteAnswer_run _ _ _) (noteAnswer_run _ _ _) (Rel.get fun s t hst => ?_)
      obtain ⟨rfl, rfl⟩ := hst
      set a : Answer := ⟨p.1.pairs_.map NameValue.name, b, w.io⟩ with ha
      have htwin : Twin ⟨b, w.addAnswer a⟩ ⟨b.setBuffer mem,
          World.addAnswer ⟨w.io, h⟩ ⟨p.1.pairs_.map NameValue.name, b.setBuffer mem, w.io⟩⟩ := by
        refine .mk mem _ hmem hcur hlim ?_ hrd
        rw [World.addAnswer_history_answers, List.length_append, List.length_append, hans]
        rfl
      refine Rel.ite Iff.rfl (fun _ => ?_) fun hu => ?_
      · exact (Rel.seq (Q := fun _ _ _ => False) ((violation_twin _).at_pre htwin)
          fun _ _ _ h => h.elim).mono
      · by_cases hp : a.Padded
        · -- The padding comes from the stack.
          refine Rel.parted (hsend p.1) fun s t hst => hst.1 ▸ ?_
          exact ⟨a, List.mem_append_right _ (List.mem_singleton_self _), hp⟩
        · have hpad : 8 + (replyContent (p.1.pairs_.map NameValue.name)).length ≤ replySize →
              (replyContent (p.1.pairs_.map NameValue.name)).length % 8 = 0 := fun hfit =>
            by_contra fun h8 => hp ⟨Nat.eq_zero_of_not_pos hu, hfit, h8⟩
          exact (Rel.seq ((sendGetValuesResult_twin header p.1).at_pre ⟨htwin, hpad⟩)
            fun _ => Rel.pure fun _ _ h => h).mono
  · refine Rel.of_at fun s t hst => ?_
    refine Rel.step (Record.unknownTypeRecord_run _) (Record.unknownTypeRecord_run _) ?_
    exact (Rel.seq ((onIo_twin _).at_pre hst) fun _ => Rel.pure fun _ _ h => h).mono

/-- What `process_header()` does once the header is found valid. -/
theorem dispatch_twin (hcall : Rel Twin call call' Got Twin Leaked) (hkeep : Keeps Leaked call)
    (header : Header) :
    Rel Twin (dispatch conn fuel call header) (dispatch (conn.over st) fuel call' header)
      (fun _ => Twin) Twin Leaked := by
  refine Rel.get fun s t hst => Rel.ite Iff.rfl (fun _ => ?_) fun _ =>
    Rel.ite Iff.rfl (fun _ => ?_) fun _ => Rel.ite Iff.rfl (fun _ => Rel.ret hst) fun _ => ?_
  · exact (Rel.seq ((endRequest_twin header _).at_pre hst) fun _ => Rel.pure fun _ _ h => h).mono
  · exact (processManagementRecord_twin hcall hkeep header).at_pre hst
  · refine Rel.ite ?_ (fun _ => Rel.ret hst) fun _ => ((violation_twin header).at_pre hst).mono
    obtain ⟨mem, h, hmem, hcur, hlim, hans, hrd⟩ := hst
    exact Iff.rfl

theorem processHeader_twin (hcall : Rel Twin call call' Got Twin Leaked)
    (hkeep : Keeps Leaked call) (header : Header) :
    Rel Twin (processHeader conn fuel call header)
      (processHeader (conn.over st) fuel call' header) (fun _ => Twin) Twin Leaked := by
  refine Rel.seq (Q := fun _ => Twin) ?_ fun _ => ?_
  · exact Rel.ite Iff.rfl (fun _ => Rel.throw fun _ _ h => h) fun _ => Rel.pure fun _ _ h => h
  refine Rel.seq (Q := fun _ => Twin) (Rel.modify fun s t hst => ?_) fun _ => ?_
  · obtain ⟨mem, h, hmem, hcur, hlim, hans, hrd⟩ := hst
    exact .mk mem h hmem hcur hlim hans hrd
  refine Rel.bind (dispatch_twin hcall hkeep header)
    (fun _ => .bind assertInvariantOk_stable fun _ => .pure _) fun r => ?_
  exact (Rel.seq assertInvariantOk_twin fun _ => Rel.pure fun _ _ h => h).mono

theorem setEndOfStream_twin :
    Rel Twin (setEndOfStream conn) (setEndOfStream (conn.over st)) (fun _ => Twin) Twin Never := by
  refine Rel.seq (Q := fun _ => Twin) (Rel.modify fun s t hst => ?_) fun _ => assertInvariantOk_twin
  obtain ⟨mem, h, hmem, hcur, hlim, hans, hrd⟩ := hst
  exact .mk mem h hmem hcur hcur hans hrd

theorem resetReader_twin {type : StreamType} (ht : type = .«in» ∨ type = .data) :
    Rel Twin (resetReader conn type) (resetReader (conn.over st) type) (fun _ => Twin) Twin
      Never := by
  refine Rel.get fun s t hst => ?_
  obtain ⟨mem, h, hmem, hcur, hlim, hans, hrd⟩ := hst
  refine Rel.guard Iff.rfl (.mk mem h hmem hcur hlim hans hrd) fun _ => ?_
  refine Rel.step (modifyBuf_run _) (modifyBuf_run _) ?_
  refine assertInvariantOk_twin.at_pre (.mk mem h hmem hcur hlim hans ?_)
  rcases ht with rfl | rfl <;> rfl

/-- The result of a round, or of the loop. -/
def Rounds : Flow (List UInt8) (Option UInt8) → State → State → Prop
  | .again _, s, t => Twin s t
  | .done r, s, t => Got r s t

theorem processAccumulated_twin (hcall : Rel Twin call call' Got Twin Leaked)
    (hkeep : Keeps Leaked call) (header : List UInt8) :
    Rel Twin (processAccumulated conn fuel call header)
      (processAccumulated (conn.over st) fuel call' header) Rounds Twin Leaked := by
  refine Rel.seq (Q := fun _ => Twin) (Rel.modify fun s t hst => ?_) fun _ => ?_
  -- The whole area has been read: both buffers are set to their position.
  · obtain ⟨mem, h, hmem, hcur, hlim, hans, hrd⟩ := hst
    exact .mk mem h hmem hcur hcur hans hrd
  -- A history in which bytes leaked stays so through the rest of the round.
  have hend : Keeps Leaked (setEndOfStream conn) := setEndOfStream_lasting leaked_lasting
  have hreset : Keeps Leaked (resetReader conn .data) := .get fun _ => .bind (.assert _) fun _ =>
    .bind (modifyBuf_stable leaked_stable _) fun _ => assertInvariantOk_stable
  refine Rel.bind (processHeader_twin hcall hkeep _) (fun r => ?_) fun r => ?_
  · cases r with
    | requestRejected => exact .bind hend fun _ => .pure _
    | managementProcessed => exact .pure _
    | contentMustBeConsumed =>
        exact .get fun _ => .ite (.bind hend fun _ => .get fun _ =>
          .ite (.bind hreset fun _ => .pure _) (.pure _)) (.pure _)
    | contentMustBeDiscarded =>
        exact .bind (modifyBuf_stable leaked_stable _) fun _ => .pure _
  · cases r with
    | requestRejected =>
        exact (Rel.seq setEndOfStream_twin fun _ => Rel.pure fun _ _ h => ⟨h, nofun⟩).mono
    | managementProcessed => exact Rel.pure fun _ _ h => h
    | contentMustBeConsumed =>
        refine Rel.mono (Rel.get fun s t hst => ?_)
        refine Rel.ite ?_ (fun _ => ?_) fun _ => Rel.ret hst
        · obtain ⟨mem, h, hmem, hcur, hlim, hans, hrd⟩ := hst
          exact Iff.rfl
        · refine Rel.seq (setEndOfStream_twin.at_pre hst) fun _ => Rel.get fun s t hst => ?_
          refine Rel.ite ?_ (fun _ => ?_) fun _ => Rel.ret ⟨hst, nofun⟩
          · obtain ⟨mem, h, hmem, hcur, hlim, hans, hrd⟩ := hst
            exact Iff.rfl
          · exact Rel.seq ((resetReader_twin (.inr rfl)).at_pre hst) fun _ =>
              Rel.pure fun _ _ h => ⟨h, nofun⟩
    | contentMustBeDiscarded =>
        refine Rel.seq (Q := fun _ => Twin) (Rel.modify fun s t hst => ?_) fun _ =>
          Rel.pure fun _ _ h => h
        obtain ⟨mem, h, hmem, hcur, hlim, hans, hrd⟩ := hst
        exact .mk mem h hmem hcur hlim hans hrd

/-! ### The loop -/

theorem underflowRound_twin (hcall : Rel Twin call call' Got Twin Leaked)
    (hkeep : Keeps Leaked call) (header : List UInt8) :
    Rel Twin (underflowRound conn fuel call header)
      (underflowRound (conn.over st) fuel call' header) Rounds Twin Leaked := by
  refine Rel.seq readRecords_twin fun _ => Rel.get fun s t hst => ?_
  refine Rel.guard ?_ hst fun hlt => ?_
  · obtain ⟨mem, h, hmem, hcur, hlim, hans, hrd⟩ := hst
    exact Iff.rfl
  refine Rel.seq (setUpContent_twin.at_pre ⟨hst, Nat.lt_of_sub_pos hlt⟩) fun r => ?_
  rcases r with _ | ⟨_ | r⟩
  · refine Rel.get fun s t hst => ?_
    refine Rel.guard ?_ hst.1 fun _ => ?_
    · obtain ⟨⟨mem, h, hmem, hcur, hlim, hans, hrd⟩, -⟩ := hst
      exact Iff.rfl
    refine Rel.seq (skipPadding_twin.at_pre hst.1) fun r => ?_
    refine Rel.ite Iff.rfl (fun _ => Rel.pure fun _ _ h => h) fun _ => Rel.get fun s t hst => ?_
    refine Rel.guard ?_ hst fun _ => ?_
    · obtain ⟨mem, h, hmem, hcur, hlim, hans, hrd⟩ := hst
      exact Iff.rfl
    refine Rel.seq ((accumulateHeader_twin header).at_pre hst) fun header' => ?_
    refine Rel.ite Iff.rfl (fun _ => Rel.pure fun _ _ h => h) fun _ => ?_
    refine Rel.seq (Q := fun _ => Twin) (Rel.assert Iff.rfl (fun _ _ h _ => h) fun _ _ h => h)
      fun _ => Rel.seq (Q := fun _ => Twin) (Rel.modify fun s t hst => ?_) fun _ => ?_
    · obtain ⟨mem, h, hmem, hcur, hlim, hans, hrd⟩ := hst
      exact .mk mem _ hmem hcur hlim hans hrd
    · exact processAccumulated_twin hcall hkeep header'
  · exact Rel.pure fun _ _ h => h.1
  · exact Rel.pure fun _ _ h => ⟨h.1, h.2⟩

theorem enterUnderflow_twin {loop loop' : M (Option UInt8)}
    (hloop : Rel Twin loop loop' Got Twin Leaked) :
    Rel Twin (enterUnderflow loop) (enterUnderflow loop') Got Twin Leaked := by
  refine Rel.get fun s t hst => ?_
  refine Rel.guard ?_ hst fun _ => Rel.ite ?_ (fun _ => Rel.ret ⟨hst, nofun⟩) fun _ =>
    Rel.at_pre (Rel.seq (Q := fun _ => Twin) (Rel.modify fun s t hst => ?_) fun _ => hloop) hst
  rotate_left 2
  · obtain ⟨mem, h, hmem, hcur, hlim, hans, hrd⟩ := hst
    exact .mk mem _ hmem hcur hlim hans hrd
  all_goals
    obtain ⟨mem, h, hmem, hcur, hlim, hans, hrd⟩ := hst
    exact Iff.rfl

/-- **`underflow()` in twin states.** -/
theorem underflow_twin (fuel : Nat) :
    Rel Twin (underflow conn fuel) (underflow (conn.over st) fuel) Got Twin Leaked := by
  refine enterUnderflow_twin (Rel.recLoop (I := fun _ => Twin) (fun _ _ _ h => h)
    (underflowLoop_stable leaked_stable) (fun n call call' hcall hkeep header => ?_) fuel [])
  have hkeep' : Keeps Leaked (enterUnderflow (call [])) :=
    enterUnderflow_lasting leaked_lasting .keeps (hkeep [])
  refine (underflowRound_twin (enterUnderflow_twin (hcall [])) hkeep' header).post fun r s t h => ?_
  cases r with
  | again _ => exact h
  | done _ => exact h

theorem underflow_leaked (fuel : Nat) : Keeps Leaked (underflow conn fuel) :=
  underflow_stable leaked_stable fuel

end

end Fcgi

import Fcgi.Output.Close

/-!
# Output — the refusal of `close()`

`close()` of an output stream may refuse, for the Filter has not read all of stdin.  The exception
that says so is thrown there only, before anything has been changed: **`close_refused`**.

`NoRefusal` of a program is closed under the constructs the source is written with, so there is one
lemma for each function that `close()` calls, and what is left is the test itself.
-/

namespace Fcgi
open Lib

/-- The exception with which `close()` refuses. -/
def refusal : Exception := .fcgi "not all FastCGI stdin has been read by Filter"

/-- `m` does not throw it. -/
def NoRefusal {σ α : Type} (m : Prog σ Exception α) : Prop :=
  Triple (fun _ => True) m (fun _ _ => True) fun x _ => x ≠ .exc refusal

namespace NoRefusal

variable {σ α β : Type}

theorem pure (a : α) : NoRefusal (Pure.pure a : Prog σ Exception α) := fun _ _ => trivial

theorem modify (f : σ → σ) : NoRefusal (Prog.modify f : Prog σ Exception Unit) := fun _ _ => trivial

/-- Any other exception is not the refusal. -/
theorem fault {x : Fault Exception} (h : x ≠ .exc refusal) :
    NoRefusal (Prog.fault x : Prog σ Exception α) := fun _ _ => h

/-- A sequence does not refuse if its parts do not. -/
theorem bind {m : Prog σ Exception α} {f : α → Prog σ Exception β} (hm : NoRefusal m)
    (hf : ∀ a, NoRefusal (f a)) : NoRefusal (m >>= f) := Triple.bind hm hf

/-- Reading the state throws nothing. -/
theorem get {f : σ → Prog σ Exception β} (hf : ∀ s, NoRefusal (f s)) :
    NoRefusal (Prog.get >>= f) := Triple.get fun s _ => (hf s).pre fun _ _ => trivial

/-- A failed assertion is no exception. -/
theorem assert (p : Prop) {_ : Decidable p} : NoRefusal (Prog.assert p : Prog σ Exception Unit) :=
  Triple.assert (fun _ _ _ => trivial) fun _ _ _ => nofun

theorem ite {p : Prop} {_ : Decidable p} {m m' : Prog σ Exception α} (h : NoRefusal m)
    (h' : NoRefusal m') : NoRefusal (if p then m else m') :=
  Triple.ite (fun _ => h) fun _ => h'

/-- From one state, too, the exception is another. -/
theorem pre_eq {m : Prog σ Exception α} (h : NoRefusal m) {s₀ : σ} :
    Triple (fun s => s = s₀) m (fun _ _ => True) fun x _ => x ≠ .exc refusal :=
  h.pre fun _ _ => trivial

/-- `math::padding()` does not throw it. -/
theorem padding (n : BitVec 64) :
    NoRefusal (Prog.ofExcept (Math.padding true n 8) : Prog σ Exception (BitVec 64)) := by
  rw [Math.padding]
  split
  · exact fault (by decide)
  · split
    · exact fault (by decide)
    · exact pure _

end NoRefusal

theorem Header.make_noRefusal {σ : Type} (t : RecordType) (id c p : Nat) :
    NoRefusal (Header.make t id c p : Prog σ Exception Header) :=
  (NoRefusal.assert _).bind fun _ => .pure _

theorem modifyBuf_noRefusal (f : ServerStreambuf → ServerStreambuf) : NoRefusal (modifyBuf f) :=
  .modify _

theorem storeBuf_noRefusal (off : Nat) (bs : List UInt8) : NoRefusal (storeBuf off bs) :=
  .get fun _ => (modifyBuf_noRefusal _).ite (.fault nofun)

theorem assertInvariantOk_noRefusal (conn : ConnectionInfo) : NoRefusal (assertInvariantOk conn) :=
  .get fun _ => .assert _

theorem writeAll_noRefusal (bs : List UInt8) : NoRefusal (onIo (Io.writeAll bs)) := by
  rw [NoRefusal, onIo, onWorld, World.onIo]
  refine Triple.zoom fun s _ => Triple.zoom fun w _ => NoRefusal.pre_eq ?_
  refine NoRefusal.bind ?_ fun count => .assert _
  rintro ⟨incoming, sends, written⟩ -
  rcases sends with _ | ⟨⟨n⟩ | _, rest⟩
  · trivial
  · trivial
  · intro e
    cases e

section

variable (conn : ConnectionInfo)

theorem endRequestRecord_noRefusal {σ : Type} (id : Nat) (status : BitVec 32)
    (ps : ProtocolStatus) :
    NoRefusal (endRequestRecord id status ps : Prog σ Exception (List UInt8)) :=
  (Header.make_noRefusal _ _ _ _).bind fun _ => .pure _

theorem storeExtra_noRefusal (ch : Option UInt8) : NoRefusal (storeExtra ch) := by
  cases ch with
  | none => exact .pure _
  | some c =>
      exact .get fun _ => (NoRefusal.assert _).bind fun _ => (storeBuf_noRefusal _ _).bind fun _ =>
        modifyBuf_noRefusal _

theorem sendRecord_noRefusal (contentLength : Nat) : NoRefusal (sendRecord conn contentLength) := by
  refine (NoRefusal.padding _).bind fun _ => .get fun _ => (NoRefusal.assert _).bind fun _ => ?_
  refine (storeBuf_noRefusal _ _).bind fun _ => (modifyBuf_noRefusal _).bind fun _ => ?_
  refine (Header.make_noRefusal _ _ _ _).bind fun _ => (storeBuf_noRefusal _ _).bind fun _ => ?_
  refine .get fun _ => NoRefusal.ite ?_ (.pure _)
  exact (writeAll_noRefusal _).bind fun _ => modifyBuf_noRefusal _

theorem sendPutArea_noRefusal (ch : Option UInt8) : NoRefusal (sendPutArea conn ch) :=
  .get fun _ => NoRefusal.ite (.pure _) ((storeExtra_noRefusal ch).bind fun _ =>
    sendRecord_noRefusal conn _)

theorem sendEndRecords_noRefusal : NoRefusal (sendEndRecords conn) := by
  have send : ∀ dataSize : Nat, NoRefusal (do
      let s ← Prog.get
      if 0 < dataSize then onIo (Io.writeAll (s.buf.buffer_.load 0 dataSize)) else pure ()
      modifyBuf fun b => (b.setEndRecordsMustBeTransmitted false).setEndOfStream true : M Unit) :=
    fun dataSize => .get fun s => .ite ((writeAll_noRefusal _).bind fun _ => modifyBuf_noRefusal _)
      (modifyBuf_noRefusal _)
  have endRequest : ∀ (s : State) (dataSize : Nat), NoRefusal (do
      let dataSize ←
        if s.buf.type_ = .out then do
          let record ← endRequestRecord conn.requestId conn.applicationStatus .requestComplete
          storeBuf dataSize record
          pure (dataSize + endRequestRecordSize)
        else pure dataSize
      let s ← Prog.get
      if 0 < dataSize then onIo (Io.writeAll (s.buf.buffer_.load 0 dataSize)) else pure ()
      modifyBuf fun b => (b.setEndRecordsMustBeTransmitted false).setEndOfStream true : M Unit) :=
    fun s dataSize => .ite ((endRequestRecord_noRefusal _ _ _).bind fun _ =>
      (storeBuf_noRefusal _ _).bind fun _ => (NoRefusal.pure _).bind send)
      ((NoRefusal.pure _).bind send)
  refine .get fun s => .ite ?_ ((NoRefusal.pure _).bind (endRequest s))
  exact (Header.make_noRefusal _ _ _ _).bind fun _ => (storeBuf_noRefusal _ _).bind fun _ =>
    (NoRefusal.pure _).bind (endRequest s)

theorem sync_noRefusal : NoRefusal (sync conn) := by
  refine NoRefusal.bind (.get fun _ => (NoRefusal.assert _).bind fun _ => ?_) fun _ => .pure _
  refine NoRefusal.ite (.pure _) ((NoRefusal.assert _).bind fun _ => ?_)
  refine (sendPutArea_noRefusal conn none).bind fun _ => (modifyBuf_noRefusal _).bind fun _ => ?_
  have done : NoRefusal (do assertInvariantOk conn; pure (some 0) : M (Option UInt8)) :=
    (assertInvariantOk_noRefusal conn).bind fun _ => .pure _
  exact .get fun _ => .ite ((sendEndRecords_noRefusal conn).bind fun _ => done) done

theorem closeAreas_noRefusal : NoRefusal (closeAreas conn) :=
  (modifyBuf_noRefusal _).bind fun _ => .get fun _ => (NoRefusal.assert _).bind fun _ =>
    assertInvariantOk_noRefusal conn

theorem closeOutput_noRefusal : NoRefusal (closeOutput conn) :=
  (modifyBuf_noRefusal _).bind fun _ => (sync_noRefusal conn).bind fun _ => .get fun _ =>
    (NoRefusal.assert _).bind fun _ => closeAreas_noRefusal conn

/-- **Where `close()` refuses, nothing has been changed.**  Where it does not, an output stream
was closed before, or the input buffer permits it. -/
theorem close_refused (inbuf : ServerStreambuf) (s₀ : State) :
    Triple (fun s => s = s₀) (close conn inbuf)
      (fun _ s => s₀.buf.isReader = false →
        s₀.buf.isClosed = true ∧ s = s₀ ∨ MayClose conn.role inbuf)
      (fun x s => x = .exc refusal →
        s = s₀ ∧ s₀.buf.isReader = false ∧ s₀.buf.isClosed = false ∧
          ¬ MayClose conn.role inbuf) := by
  -- What is left to do once the input buffer permits it.
  have rest : ∀ {α : Type} {P : State → Prop} {Q : α → State → Prop} {m : M α}, NoRefusal m →
      (∀ a s, Q a s) → Triple P m Q (fun x s => x = .exc refusal → s = s₀ ∧
        s₀.buf.isReader = false ∧ s₀.buf.isClosed = false ∧ ¬ MayClose conn.role inbuf) :=
    fun hm hq => hm.conseq (fun _ _ => trivial) (fun a s _ => hq a s)
      fun _ _ hx e => absurd e hx
  refine Triple.get fun s hs => ?_
  subst hs
  refine Triple.ite (fun hc => Triple.pure fun _ ht _ => .inl ⟨hc, ht⟩) fun hc => ?_
  refine Triple.ite (fun hr => ?_) fun hr => ?_
  · have hr : s.buf.isReader = false := Bool.eq_false_iff.mpr hr
    have keep : ∀ {p : Prop} {_ : Decidable p}, Triple (fun t => t = s)
        (Prog.assert p : M Unit) (fun _ t => t = s) (fun x t => x = .exc refusal → t = s ∧
          s.buf.isReader = false ∧ s.buf.isClosed = false ∧ ¬ MayClose conn.role inbuf) :=
      Triple.assert (fun _ ht _ => ht) fun _ _ _ => nofun
    refine keep.bind fun _ => keep.bind fun _ => Triple.ite (fun hmay => ?_) fun hmay => ?_
    · exact rest (closeOutput_noRefusal conn) fun _ _ _ => .inr hmay
    · exact Triple.throw fun _ ht _ => ⟨ht, hr, Bool.eq_false_iff.mpr hc, hmay⟩
  · exact rest (closeAreas_noRefusal conn) fun _ _ h => absurd (h ▸ hr) fun hn => hn nofun

end

end Fcgi

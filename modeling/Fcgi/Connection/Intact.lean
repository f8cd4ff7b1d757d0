import Fcgi.Connection.Transcript
import Fcgi.Connection.RefusedClose

/-!
# Connection — where every write succeeds

Such a connection is open and can be written to (`Writable`), or closed (`Shut`); `Intact` is
either.  `IntactStep op c c'` lists what a call does to it: `Op.exec_intact`.  On a closed
connection a call does nothing at all, or stops the process (`Shut.exec`).

The list has few entries, for without a failed write an output stream is never bad and its put area
never ends behind epptr(): a call writes and sends whole records, or reads, or closes, or does
nothing. It is what the results on whole lifetimes are proved from.
-/

namespace Fcgi
open Lib

/-! ### Closed connections -/

section

variable {c c' : Connection} {fuel : Nat}

/-- `overflow()` of a closed stream fails its assertion. -/
theorem overflow_closed {conn : ConnectionInfo} {ch : Option UInt8} {s : State}
    (h : s.buf.isClosed = true) : overflow conn ch s = (.error .abort, s) := by
  rw [overflow, Prog.bind_ok (Prog.get_run _), Prog.bind_error]
  rw [Prog.assert_run, if_neg fun hp => hp.2 h]

/-- On a closed stream a call does nothing, or stops the process. -/
theorem OutOp.exec_closed (conn : ConnectionInfo) {t : StreamType} {s₀ : State}
    (hok : WriterOk t s₀.buf) (h : s₀.buf.isClosed = true) (op : OutOp) :
    Triple (fun s => s = s₀) (op.exec conn false)
      (fun bad s => s = s₀ ∧ bad = false ∧ op.bytes = []) (fun x _ => x = .abort) := by
  rintro s rfl
  have hput : ∀ c, sputc conn c s = (.error .abort, s) := fun c => by
    have hnone := hok.isClosed_iff.mp h
    have hge : ¬ s.buf.pptr < s.buf.epptr := by
      rw [ServerStreambuf.pptr, ServerStreambuf.epptr, hnone]
      exact Nat.lt_irrefl 0
    rw [sputc, Prog.bind_ok (Prog.get_run _), if_neg hge, overflow_closed h]
  cases op with
  | put c =>
      rw [OutOp.exec, if_neg Bool.false_ne_true,
        Prog.bind_error (Prog.attempt_abort (hput c))]
  | write bytes =>
      cases bytes with
      | nil => exact ⟨rfl, rfl, rfl⟩
      | cons c cs =>
          have hrun : xsputn conn (c :: cs) s = (.error .abort, s) := by
            rw [xsputn, Prog.bind_error (hput c)]
          rw [OutOp.exec, if_neg Bool.false_ne_true, Prog.bind_error (Prog.attempt_abort hrun)]
  | flush =>
      have hrun : pubsync conn s = (.error .abort, s) := by
        rw [pubsync, sync, Prog.bind_error (overflow_closed h)]
      rw [OutOp.exec, if_neg Bool.false_ne_true, Prog.bind_error (Prog.attempt_abort hrun)]
  | clear => exact ⟨rfl, rfl, rfl⟩

/-- A closed connection whose output streams are good. -/
structure Shut (c : Connection) : Prop where
  members : Members c
  closed : Closed c
  good : c.out_.bad = false ∧ c.err_.bad = false

/-- From `c` to `c'`, nothing is written, sent or opened. -/
structure Idles (op : Op) (c c' : Connection) : Prop where
  shut : Shut c'
  world : c'.world = c.world
  out : c'.out_ = c.out_ ∧ op.outBytes = []
  err : c'.err_ = c.err_ ∧ op.errBytes = []

/-- **A closed connection is inert**: a call does nothing, or stops the process. -/
theorem Shut.exec (h : Shut c) : ∀ op : Op,
    Triple (fun c' => c' = c) (op.exec fuel) (fun _ c' => Idles op c c') (fun x _ => x = .abort)
  | .«in» op => by
      rintro c rfl
      -- The input is closed too, so its buffer can only be a closed reader.
      have hc : ClosedReader c.in_.streambuf_ := h.members.in_.resolve_left fun ho =>
        absurd (ho.not_isClosed.symm.trans h.closed.in_) Bool.false_ne_true
      have hrun := ClosedReader.exec c.info c.inState hc fuel op c.in_.ios _ rfl
      rw [Op.exec, Prog.bind_ok (Prog.get_run _)]
      rcases e : op.exec c.info fuel c.in_.ios c.inState with ⟨x | is, s⟩ <;> simp only [e] at hrun
      · rw [Prog.bind_error (Connection.onIn_run e)]
        exact hrun.1.1
      · subst hrun
        rw [Prog.bind_ok (Connection.onIn_run e)]
        exact ⟨⟨⟨h.members.id, h.members.in_, h.members.out, h.members.err⟩,
          ⟨h.closed.in_, h.closed.out, h.closed.err⟩, h.good⟩, rfl, ⟨rfl, rfl⟩, rfl, rfl⟩
  | .out op => by
      rintro c rfl
      have hrun := OutOp.exec_closed c.info (show WriterOk .out c.outState.buf from h.members.out)
        h.closed.out op _ rfl
      rw [Op.exec, Prog.bind_ok (Prog.get_run _), h.good.1]
      rcases e : op.exec c.info false c.outState with ⟨x | bad, s⟩ <;> simp only [e] at hrun
      · rw [Prog.bind_error (Connection.onOut_run e)]
        exact hrun
      · obtain ⟨rfl, rfl, hbytes⟩ := hrun
        rw [Prog.bind_ok (Connection.onOut_run e)]
        -- No bit is set, for nothing has failed.
        have hout : ({ c.out_ with bad := false } : ServerOstream) = c.out_ := by
          rw [← h.good.1]
        exact ⟨⟨⟨h.members.id, h.members.in_, h.members.out, h.members.err⟩,
          ⟨h.closed.in_, h.closed.out, h.closed.err⟩, rfl, h.good.2⟩, rfl, ⟨hout, hbytes⟩, rfl,
          rfl⟩
  | .err op => by
      rintro c rfl
      have hrun := OutOp.exec_closed c.info (show WriterOk .err c.errState.buf from h.members.err)
        h.closed.err op _ rfl
      rw [Op.exec, Prog.bind_ok (Prog.get_run _), h.good.2]
      rcases e : op.exec c.info false c.errState with ⟨x | bad, s⟩ <;> simp only [e] at hrun
      · rw [Prog.bind_error (Connection.onErr_run e)]
        exact hrun
      · obtain ⟨rfl, rfl, hbytes⟩ := hrun
        rw [Prog.bind_ok (Connection.onErr_run e)]
        have herr : ({ c.err_ with bad := false } : ServerOstream) = c.err_ := by
          rw [← h.good.2]
        exact ⟨⟨⟨h.members.id, h.members.in_, h.members.out, h.members.err⟩,
          ⟨h.closed.in_, h.closed.out, h.closed.err⟩, h.good.1, rfl⟩, rfl, ⟨rfl, rfl⟩, herr,
          hbytes⟩
  | .setApplicationStatus status => by
      rintro c rfl
      exact ⟨⟨⟨h.members.id, h.members.in_, h.members.out, h.members.err⟩,
        ⟨h.closed.in_, h.closed.out, h.closed.err⟩, h.good⟩, rfl, ⟨rfl, rfl⟩, rfl, rfl⟩
  | .close => by
      rintro c rfl
      rw [show Op.exec fuel .close c = _ from h.closed.close]
      exact ⟨h, rfl, ⟨rfl, rfl⟩, rfl, rfl⟩

/-! ### Calls -/

/-- Closing a connection leaves the states of its streams alone. -/
theorem close_good (h : c.out_.bad = false ∧ c.err_.bad = false) :
    (Connection.close c).2.out_.bad = false ∧ (Connection.close c).2.err_.bad = false := by
  have herr : ∀ m : ConnectionInfo → M Unit, Keeps
      (fun c : Connection => c.out_.bad = false ∧ c.err_.bad = false) (Connection.onErr m) :=
    fun m c hc => by
      rcases e : m c.info c.errState with ⟨x | a, s⟩ <;> rw [Connection.onErr_run e] <;> exact hc
  have hout : ∀ m : ConnectionInfo → M Unit, Keeps
      (fun c : Connection => c.out_.bad = false ∧ c.err_.bad = false) (Connection.onOut m) :=
    fun m c hc => by
      rcases e : m c.info c.outState with ⟨x | a, s⟩ <;> rw [Connection.onOut_run e] <;> exact hc
  have hin : ∀ m : ConnectionInfo → M Unit, Keeps
      (fun c : Connection => c.out_.bad = false ∧ c.err_.bad = false) (Connection.onIn m) :=
    fun m c hc => by
      rcases e : m c.info c.inState with ⟨x | a, s⟩ <;> rw [Connection.onIn_run e] <;> exact hc
  exact (Keeps.get fun _ => (herr _).bind fun _ => (hout _).bind fun _ => hin _).run h

/-- The members of such a connection are in a known state. -/
theorem Writable.members (h : Writable c) : Members c :=
  ⟨h.id, .inl h.in_, h.out.writerOk, h.err.writerOk⟩

theorem Writable.read {cfg : Config} (h : Writable c) (hcfg : cfg = ⟨.idle, c.inState⟩)
    (hro : ReadOnly cfg c c') : Writable c' := by
  subst hcfg
  have hrole : c'.role_ = c.role_ := congrArg ConnectionInfo.role hro.info
  have ho : OpenReader c'.role_ c'.in_.streambuf_ := by
    rw [hrole]
    exact hro.reached.openReader
  refine ⟨?_, hro.reached.sends h.sends, by rw [hro.out, hro.err]; exact h.good,
    hro.out ▸ h.out, hro.err ▸ h.err, ho, ho.reader, ho.not_isClosed, ?_⟩
  · rw [show c'.requestId_ = c.requestId_ from congrArg ConnectionInfo.requestId hro.info]
    exact h.id
  · rw [hrole]
    rcases hro.reached.type with e | ⟨-, -, e⟩
    · exact h.mayRead.stream.imp_right fun hn => e ▸ hn
    · exact .inr fun hp => by cases e.symm.trans hp

/-- A connection whose writes have succeeded. -/
def Intact (c : Connection) : Prop := Writable c ∨ Shut c

/-- What a call does to it, if it returns or throws. -/
inductive IntactStep (op : Op) (c : Connection) : Connection → Prop
  | wrote {rs : List Record} {c' : Connection} (hc : Writable c) (hw : Wrote [op] rs c c') :
      IntactStep op c c'
  | read {c' : Connection} (hc : Writable c) (hop : op.outBytes = [] ∧ op.errBytes = [])
      (hro : ReadOnly ⟨.idle, c.inState⟩ c c') : IntactStep op c c'
  | closed {errs outs rs : List Record} {c' : Connection} (hc : Writable c) (hop : op = .close)
      (h : Closing c errs outs rs) (hshut : Shut c')
      (hw : c'.world = c.world.send (Frame.join rs)) : IntactStep op c c'
  | refused (hc : Writable c) (hop : op = .close)
      (hmay : ¬ MayClose c.role_ c.in_.streambuf_) : IntactStep op c c
  | idles {c' : Connection} (hc : Shut c) (h : Idles op c c') : IntactStep op c c'

/-- **What a call does.** -/
theorem Op.exec_intact (fuel : Nat) (op : Op) (h : Intact c) :
    Triple (fun c' => c' = c) (op.exec fuel) (fun _ c' => IntactStep op c c')
      (fun x c' => ∀ e, x = .exc e → IntactStep op c c') := by
  rintro c rfl
  rcases h with hw | hshut
  · by_cases hout : op.isOutput = true
    · obtain ⟨rs, c', hrun, hwrote⟩ := Op.exec_wrote hw hout
      rw [hrun]
      exact .wrote hw hwrote
    cases op with
    | «in» op =>
        have hc : ReadOnly ⟨.idle, c.inState⟩ c c := ⟨⟨.refl, hw.in_⟩, rfl, rfl, rfl⟩
        have hro := @Op.exec_in_steps fuel _ _ op c hc
        rcases e : (Op.«in» op).exec fuel c with ⟨x | a, c'⟩ <;> rw [e] at hro
        · rintro x rfl
          exact .read hw ⟨rfl, rfl⟩ (hro.2 x rfl)
        · exact .read hw ⟨rfl, rfl⟩ hro
    | close =>
        have hclose : Op.exec fuel .close c = Connection.close c := rfl
        have hsteps := Op.exec_steps fuel hw.members .close c rfl
        by_cases hmay : MayClose c.role_ c.in_.streambuf_
        · obtain ⟨errs, outs, rs, c', hclosing, hclosed, hworld, hrun⟩ := hw.close hmay
          -- The last assertion of the input buffer: what is unread fits into it.
          by_cases hle : c.in_.streambuf_.unreadContentLength_ ≤ c.in_.streambuf_.bufferSize_
          · rw [if_pos hle] at hrun
            have hgood := close_good hw.good
            rw [hrun] at hgood
            rw [hclose, hrun] at hsteps ⊢
            have hmembers := ConnectionSteps.members hsteps hw.members
            exact .closed hw rfl hclosing ⟨hmembers, hclosed, hgood⟩ hworld
          · rw [if_neg hle] at hrun
            rw [hclose, hrun]
            intro x hx
            cases hx
        · rw [hclose, hw.close_not_may hmay]
          exact fun e _ => .refused hw rfl hmay
    | _ => exact absurd rfl hout
  · have hrun := @Shut.exec _ fuel hshut op c rfl
    rcases e : op.exec fuel c with ⟨x | a, c'⟩ <;> rw [e] at hrun
    · rintro x rfl
      cases hrun
    · exact .idles hshut hrun

/-- After a call the connection is open and writable, or closed. -/
theorem IntactStep.intact {op : Op} (hs : IntactStep op c c') : Intact c' := by
  cases hs with
  | wrote hc hw => exact .inl (hw.writable hc)
  | read hc _ hro => exact .inl (hc.read rfl hro)
  | closed _ _ _ hshut => exact .inr hshut
  | refused hc => exact .inl hc
  | idles _ h => exact .inr h.shut

/-- **What a run does**, if it ends: what each call keeps, given the calls before it. -/
theorem run_intact (fuel : Nat) {I : List Op → Connection → Prop}
    (step : ∀ {done op c c'}, IntactStep op c c' → I done c → I (done ++ [op]) c') :
    ∀ (ops done : List Op), Triple (fun c => Intact c ∧ I done c) (run fuel ops)
      (fun _ c => Intact c ∧ I (done ++ ops) c) (fun _ _ => True)
  | [], done => Triple.pure fun _ h => by rwa [List.append_nil]
  | op :: ops, done => by
      refine Triple.bind (Q := fun _ c => Intact c ∧ I (done ++ [op]) c) (Triple.attempt
        fun c h => ?_) fun _ => ?_
      · have hrun := op.exec_intact fuel h.1 c rfl
        rcases e : op.exec fuel c with ⟨x | a, c'⟩ <;> rw [e] at hrun
        · cases x with
          | exc x => exact ⟨(hrun x rfl).intact, step (hrun x rfl) h.2⟩
          | _ => trivial
        · exact ⟨IntactStep.intact hrun, step hrun h.2⟩
      · have hrun := run_intact fuel (I := I) step ops (done ++ [op])
        rwa [List.append_assoc] at hrun

/-- `accept()` returns one that is writable. -/
theorem accept_intact {uninit : Uninit} {w w' : World} (hsends : w.io.sends = [])
    (haccept : accept uninit fuel w = (.ok c, w')) : Writable c := by
  obtain ⟨s₀, s₁, hacc, hs₀⟩ := accept_accepted hsends haccept
  exact hacc.writable hs₀ hacc.readOnly

/-- The connection after a run. -/
theorem run_ends {uninit : Uninit} {w w' : World} {ops : List Op} (hsends : w.io.sends = [])
    (haccept : accept uninit fuel w = (.ok c, w')) (hrun : run fuel ops c = (.ok (), c')) :
    Intact c' :=
  ((run_intact fuel (I := fun _ _ => True) (fun _ _ => trivial) ops []).of_ok
    ⟨.inl (accept_intact hsends haccept), trivial⟩ hrun).1

end

end Fcgi

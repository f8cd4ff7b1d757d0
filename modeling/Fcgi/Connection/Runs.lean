import Fcgi.Output.Close
import Fcgi.Connection.Accepted

/-!
# Connection — runs, call by call

What a call on a stream does to the connection, and runs that read only: **`run_in`** says that
such a run takes the input buffer along the steps of `ReaderStep` and leaves the rest alone.

A run is a list of calls, and an exception of one does not end it, so a run is taken apart at its
first call, whether that returns (`run_cons_ok`) or throws (`run_cons_exc`), or after some of its
calls (`run_append`).  What `accept()` leaves, by `Accepted`, is where such runs begin.
-/

namespace Fcgi
open Lib

namespace Connection

/-- The state of the input buffer. -/
def inState (c : Connection) : State := ⟨c.in_.streambuf_, c.world⟩

/-- The state of the buffer of `out()`. -/
def outState (c : Connection) : State := ⟨c.out_.streambuf_, c.world⟩

/-- The state of the buffer of `err()`. -/
def errState (c : Connection) : State := ⟨c.err_.streambuf_, c.world⟩

/-- The connection after a call on `in()`. -/
@[simps]
def setIn (c : Connection) (s : State) : Connection :=
  { c with in_.streambuf_ := s.buf, world := s.world }

/-- The connection after a call on `out()`. -/
@[simps]
def setOut (c : Connection) (s : State) : Connection :=
  { c with out_.streambuf_ := s.buf, world := s.world }

/-- The connection after a call on `err()`. -/
@[simps]
def setErr (c : Connection) (s : State) : Connection :=
  { c with err_.streambuf_ := s.buf, world := s.world }

section

variable {α : Type} {m : ConnectionInfo → Fcgi.M α} {c : Connection}
  {r : Except (Fault Exception) α} {s : State}

/-- A call on `in()` is made on the state of its buffer. -/
theorem onIn_run (h : m c.info c.inState = (r, s)) : onIn m c = (r, c.setIn s) :=
  Prog.zoom_run h

/-- A call on `out()` is made on the state of its buffer. -/
theorem onOut_run (h : m c.info c.outState = (r, s)) : onOut m c = (r, c.setOut s) :=
  Prog.zoom_run h

/-- A call on `err()` is made on the state of its buffer. -/
theorem onErr_run (h : m c.info c.errState = (r, s)) : onErr m c = (r, c.setErr s) :=
  Prog.zoom_run h

end

end Connection

section

variable {fuel : Nat} {c c' : Connection} {ops : List Op}

/-- After a call that returns, the run goes on. -/
theorem run_cons_ok {op : Op} (h : op.exec fuel c = (.ok (), c')) :
    run fuel (op :: ops) c = run fuel ops c' := by
  rw [run, Prog.bind_ok (Prog.attempt_ok h)]

theorem run_cons_exc {op : Op} {e : Exception} (h : op.exec fuel c = (.error (.exc e), c')) :
    run fuel (op :: ops) c = run fuel ops c' := by
  rw [run, Prog.bind_ok (Prog.attempt_exc h)]

/-- The calls of two runs, one after the other. -/
theorem run_append {ops' : List Op} (h : run fuel ops c = (.ok (), c')) :
    run fuel (ops ++ ops') c = run fuel ops' c' := by
  induction ops generalizing c with
  | nil => cases h; rfl
  | cons op ops ih =>
      obtain ⟨r, c₁, hop, hrun⟩ := Prog.bind_eq_ok h
      rw [List.cons_append, run, Prog.bind_ok hop]
      exact ih hrun

/-- Where the process stops, no further call is made. -/
theorem run_append_error {ops' : List Op} {x : Fault Exception}
    (h : run fuel ops c = (.error x, c')) : run fuel (ops ++ ops') c = (.error x, c') := by
  induction ops generalizing c with
  | nil => cases h
  | cons op ops ih =>
      rcases Prog.bind_eq_error h with hop | ⟨r, c₁, hop, hrun⟩
      · rw [List.cons_append, run, Prog.bind_error hop]
      · rw [List.cons_append, run, Prog.bind_ok hop]
        exact ih hrun

end

/-! ### The input buffer of an accepted connection -/

namespace Accepted

variable {size : Nat} {s₀ s₁ : State} {c : Connection}

/-- The input buffer is that of the parameters, reset. -/
theorem inState (h : Accepted size s₀ s₁ c) :
    c.inState = ⟨inputBuffer c.role_ s₁.buf, s₁.world⟩ := by
  rw [Connection.inState, h.in_, h.world]

/-- It stands between two calls of `underflow()`. -/
theorem reached (h : Accepted size s₀ s₁ c) :
    Reached c.info ⟨.idle, c.inState⟩ .idle c.inState :=
  ⟨.refl, h.inState ▸ h.read.openReader⟩

/-- No answer of the transport is left if there was none. -/
theorem sends (h : Accepted size s₀ s₁ c) (h₀ : s₀.world.io.sends = []) :
    c.world.io.sends = [] :=
  h.world ▸ h.read.atEnd.returned.reached.sends h₀

theorem bounded (h : Accepted size s₀ s₁ c) : c.inState.buf.bufferSize_ = size ∧
    c.inState.buf.unreadContentLength_ = 0 := by
  have hs := h.read.atEnd.returned.reached.invariant
    (I := fun d => d.state.buf.bufferSize_ = size) (fun hs e => hs.size.trans e) h.fresh.size
  rw [h.inState, inputBuffer]
  split
  · exact ⟨hs, rfl⟩
  · exact ⟨hs, h.read.atEnd.content⟩

/-- The output streams may be closed, as far as the input buffer goes. -/
theorem inputOpen (h : Accepted size s₀ s₁ c) {m : Mode} {s : State}
    (hr : Reached c.info ⟨.idle, c.inState⟩ m s) : InputOpen c.role_ s.buf where
  reader := hr.openReader.reader
  open_ := hr.openReader.not_isClosed
  stream := by
    by_cases hrole : c.role_ = .authorizer
    · exact .inl hrole
    · have hin : c.inState.buf.type_ = .«in» := by
        have hb : c.role_ = .responder ∨ c.role_ = .filter :=
          h.role.imp_right fun e => e.resolve_left hrole
        rw [h.inState]
        simp only [inputBuffer, if_pos hb, ServerStreambuf.reset_type_]
      rcases hr.type with e | ⟨-, -, e⟩
      · exact .inr fun ht => by cases hin.symm.trans (e.symm.trans ht)
      · exact .inr fun ht => by cases e.symm.trans ht

end Accepted

/-- A connection that can be written to, and closed. -/
structure Writable (c : Connection) : Prop where
  id : c.requestId_ < 65536
  sends : c.world.io.sends = []
  good : c.out_.bad = false ∧ c.err_.bad = false
  out : Writer .out false c.out_.streambuf_
  err : Writer .err false c.err_.streambuf_
  in_ : OpenReader c.role_ c.in_.streambuf_
  mayRead : InputOpen c.role_ c.in_.streambuf_

/-! ### Runs that read -/

section

variable {conn : ConnectionInfo} {c : Config} {fuel : Nat}

/-- A call on the input stream takes steps of the reader. -/
theorem InOp.exec_steps (op : InOp) (fuel : Nat) (is : Istream) :
    Triple (Reached conn c .idle) (op.exec conn fuel is)
      (fun _ s => Reached conn c .idle s) (ReaderFault conn c) := by
  have hu := underflow_callee conn c fuel
  cases op with
  | get => exact Triple.bind hu.get_any fun _ => Triple.pure fun _ hs => hs
  | peek => exact Triple.bind hu.peek fun _ => Triple.pure fun _ hs => hs
  | read n => exact Triple.bind (hu.read_any n) fun _ => Triple.pure fun _ hs => hs
  | unget => exact unget_steps is
  | clear => exact Triple.pure fun _ hs => hs

/-- From `c` to `c'`, only the input stream has been used, and its buffer has been reached from
the configuration `cfg`. -/
structure ReadOnly (cfg : Config) (c c' : Connection) : Prop where
  reached : Reached c.info cfg .idle c'.inState
  info : c'.info = c.info
  out : c'.out_ = c.out_
  err : c'.err_ = c.err_

theorem Op.exec_in_steps {cfg : Config} {c : Connection} (op : InOp) :
    Triple (ReadOnly cfg c) ((Op.«in» op).exec fuel) (fun _ c' => ReadOnly cfg c c')
      (fun x c' => ReaderFault c.info cfg x c'.inState ∧
        ∀ e, x = .exc e → ReadOnly cfg c c') := by
  intro c₁ h
  have hop := op.exec_steps fuel c₁.in_.ios c₁.inState h.reached
  rcases e : op.exec c.info fuel c₁.in_.ios c₁.inState with ⟨x | is, s⟩ <;>
    simp only [e] at hop <;> rw [← h.info] at e
  · rw [Op.exec, Prog.bind_ok (Prog.get_run _), Prog.bind_error (Connection.onIn_run e)]
    exact ⟨hop, fun _ hx => by subst hx; exact ⟨hop, h.info, h.out, h.err⟩⟩
  · rw [Op.exec, Prog.bind_ok (Prog.get_run _), Prog.bind_ok (Connection.onIn_run e)]
    exact ⟨hop, h.info, h.out, h.err⟩

/-- A run that reads, whichever way it ends. -/
theorem run_in (fuel : Nat) {cfg : Config} {c : Connection} : ∀ ins : List InOp,
    Triple (ReadOnly cfg c) (run fuel (ins.map .«in»)) (fun _ c' => ReadOnly cfg c c')
      (fun x c' => ReaderFault c.info cfg x c'.inState)
  | [] => Triple.pure fun _ h => h
  | op :: ins => by
      refine Triple.bind (Q := fun _ c' => ReadOnly cfg c c') ?_ fun _ => run_in fuel ins
      refine Triple.attempt ((Op.exec_in_steps op).conseq (fun _ => id) (fun _ _ => id)
        fun x c' h => ?_)
      cases x with
      | exc e => exact h.2 e rfl
      | _ => exact h.1

/-- A run that reads has used the input stream, and nothing else. -/
theorem ReadOnly.run {cfg : Config} {c c₁ c' : Connection} {ins : List InOp}
    (h : ReadOnly cfg c c₁) (hrun : run fuel (ins.map .«in») c₁ = (.ok (), c')) :
    ReadOnly cfg c c' := (run_in fuel ins).of_ok h hrun

namespace Accepted

variable {size : Nat} {s₀ s₁ : State} {c c' : Connection}

theorem readOnly (h : Accepted size s₀ s₁ c) : ReadOnly ⟨.idle, c.inState⟩ c c :=
  ⟨h.reached, rfl, rfl, rfl⟩

/-- The connection after some reading. -/
theorem writable (h : Accepted size s₀ s₁ c) (h₀ : s₀.world.io.sends = [])
    (hro : ReadOnly ⟨.idle, c.inState⟩ c c') : Writable c' where
  id := by
    rw [show c'.requestId_ = c.requestId_ from congrArg ConnectionInfo.requestId hro.info]
    exact h.id_lt
  sends := hro.reached.sends (h.sends h₀)
  good := by rw [hro.out, hro.err]; exact h.good
  out := hro.out ▸ h.out.writer
  err := hro.err ▸ h.err.writer
  in_ := by
    rw [show c'.role_ = c.role_ from congrArg ConnectionInfo.role hro.info]
    exact hro.reached.openReader
  mayRead := by
    rw [show c'.role_ = c.role_ from congrArg ConnectionInfo.role hro.info]
    exact h.inputOpen hro.reached

end Accepted

end

end Fcgi

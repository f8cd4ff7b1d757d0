import Fcgi.Output.Steps
import Fcgi.Connection.Runs

/-!
# Connection — what a call can do to a connection

`ConnectionStep c c'` lists every way in which a call of the application changes the connection.
`CallAborted op c c'` lists the connections in which the call `op` stops the process.

**`Op.exec_steps`**: from any connection whose members are in order, whatever the transport does,
a call takes these steps and no others.

A step is a run of the reader, one or more steps of a writer, a failed write, or one of the changes
that `close()` makes to a buffer besides.  Each is lifted from the buffer it happens in, with the
rest of the connection unchanged, so a fact about all calls is an invariant of this list.  `close()`
is the one call that goes from stream to stream; between them the connection is `ErrShut`.
-/

namespace Fcgi
open Lib

/-! ### A closed reader -/

/-- A closed input buffer. -/
structure ClosedReader (b : ServerStreambuf) : Prop where
  reader : b.isReader = true
  getArea : b.getArea = none

theorem ClosedReader.isClosed {b : ServerStreambuf} (h : ClosedReader b) : b.isClosed = true := by
  rw [ServerStreambuf.isClosed, h.reader, h.getArea]
  rfl

/-- The call asks the buffer for a character, if none is at hand. -/
def InOp.Reads (is : Istream) : InOp → Prop
  | .get => is.good = true
  | .peek => is.good = true
  | .read n => is.good = true ∧ 0 < n
  | .unget => False
  | .clear => False

instance (is : Istream) (op : InOp) : Decidable (op.Reads is) := by
  cases op <;> unfold InOp.Reads <;> infer_instance

/-- A closed reader changes nothing, and stops the process when it is asked for a character. -/
theorem ClosedReader.callee (conn : ConnectionInfo) {s₀ : State} (h : ClosedReader s₀.buf)
    (fuel : Nat) : Callee (fun s => s = s₀) (fun s => s = s₀) (fun s => s = s₀) (fun s => s = s₀)
      (fun x s => x = .abort ∧ s = s₀) (underflow conn fuel) where
  call := by
    refine Triple.get fun s hs => Triple.bind (Triple.assert (Q := fun _ _ => False)
      (fun _ _ hp => ?_) fun _ ht _ => ⟨rfl, ht.trans hs.1⟩) fun _ _ hf => hf.elim
    obtain ⟨rfl, -⟩ := hs
    exact hp.2 h.isClosed
  take := by
    rintro s ⟨rfl, hlt⟩
    rw [ServerStreambuf.gptr, ServerStreambuf.egptr, h.getArea] at hlt
    exact absurd hlt (Nat.lt_irrefl 0)
  start _ hs := hs
  stop _ hs := hs
  eof _ hs := hs
  caught _ _ hs := hs.2

/-- On a closed input stream a call does nothing, or stops the process. -/
theorem ClosedReader.exec (conn : ConnectionInfo) (s₀ : State) (h : ClosedReader s₀.buf)
    (fuel : Nat) (op : InOp) (is : Istream) :
    Triple (fun s => s = s₀) (op.exec conn fuel is) (fun _ s => s = s₀)
      (fun x s => (x = .abort ∧ s = s₀) ∧ op.Reads is) := by
  have hu := h.callee conn fuel
  -- Only a call that reads the buffer can run into its assertion.
  have reads : ∀ {α : Type} {m : M α} {p : Prop}, p →
      Triple (fun s => s = s₀) m (fun _ s => s = s₀) (fun x s => x = .abort ∧ s = s₀) →
      Triple (fun s => s = s₀) m (fun _ s => s = s₀) (fun x s => (x = .abort ∧ s = s₀) ∧ p) :=
    fun hp hm => hm.conseq (fun _ => id) (fun _ _ => id) fun _ _ hx => ⟨hx, hp⟩
  cases op with
  | get =>
      refine Triple.bind ?_ fun _ => Triple.pure fun _ hs => hs
      by_cases hg : is.good = true
      · exact reads hg hu.get_any
      · rw [Istream.get, if_neg hg]
        exact Triple.pure fun _ hs => hs
  | peek =>
      refine Triple.bind ?_ fun _ => Triple.pure fun _ hs => hs
      by_cases hg : is.good = true
      · exact reads hg hu.peek
      · rw [Istream.peek, if_neg hg]
        exact Triple.pure fun _ hs => hs
  | read n =>
      refine Triple.bind ?_ fun _ => Triple.pure fun _ hs => hs
      by_cases hg : is.good = true ∧ 0 < n
      · exact reads hg (hu.read_any n)
      by_cases hgood : is.good = true
      · obtain rfl : n = 0 := Nat.eq_zero_of_not_pos fun hn => hg ⟨hgood, hn⟩
        rw [Istream.read, if_pos hgood]
        exact fun _ hs => hs
      · rw [Istream.read, if_neg hgood]
        exact Triple.pure fun _ hs => hs
  -- `unget()` finds no get area, so it sets the bad bit and changes nothing in the buffer.
  | unget =>
      refine Triple.ite (fun _ => ?_) fun _ => Triple.pure fun _ hs => hs
      refine Triple.bind (Q := fun _ s => s = s₀) (Triple.attempt ?_) fun r => by
        rcases r with e | _ | x <;> exact Triple.pure fun _ hs => hs
      refine Triple.get fun s hs => Triple.ite (fun hlt => ?_) fun _ => Triple.pure fun _ ht =>
        ht.trans hs
      subst hs
      rw [ServerStreambuf.gptr, ServerStreambuf.eback, h.getArea] at hlt
      exact absurd hlt (Nat.lt_irrefl 0)
  | clear => exact Triple.pure fun _ hs => hs

/-! ### A call on an output stream -/

/-- The call reaches the buffer. -/
def OutOp.Writes (bad : Bool) : OutOp → Prop
  | .put _ => bad = false
  | .write bytes => bad = false ∧ bytes ≠ []
  | .flush => bad = false
  | .clear => False

instance (bad : Bool) (op : OutOp) : Decidable (op.Writes bad) := by
  cases op <;> unfold OutOp.Writes <;> infer_instance

/-- The call may have a character for `overflow()`. -/
def OutOp.extra : OutOp → Bool
  | .put _ => true
  | .write _ => true
  | .flush => false
  | .clear => false

/-- After a call: all of it has been done, or a write has failed. -/
def WrittenOrError (conn : ConnectionInfo) (s₀ s : State) : Prop :=
  (∃ bs, Written conn s₀ bs s) ∨ ∃ bs s₁, Written conn s₀ bs s₁ ∧ WriteError conn s₁ s

/-- A call on an output stream takes steps of a writer, at the end of which a write may have failed.
-/
theorem OutOp.exec_steps {conn : ConnectionInfo} {t : StreamType} (hid : conn.requestId < 65536)
    {s₀ : State} (hok : WriterOk t s₀.buf) (bad : Bool) (op : OutOp) :
    Triple (fun s => s = s₀) (op.exec conn bad) (fun _ s => WrittenOrError conn s₀ s)
      (fun x s => x = .abort ∧ WriterAborted conn op.extra s₀ s ∧ op.Writes bad) := by
  have skip : ∀ {α : Type} {a : α} {E : Fault Exception → State → Prop},
      Triple (fun s => s = s₀) (pure a : M α) (fun _ s => WrittenOrError conn s₀ s) E :=
    Triple.pure fun s hs => .inl ⟨[], hs ▸ .refl⟩
  -- An exception of the buffer is caught by the stream.
  have attempt : ∀ {α : Type} {m : M α} {Q : α → State → Prop} {extra : Bool},
      Triple (fun s => s = s₀) m Q (WriterFault conn extra s₀) →
      (∀ a s, Q a s → WrittenOrError conn s₀ s) → op.Writes bad → op.extra = extra →
      Triple (fun s => s = s₀) (Prog.attempt m) (fun _ s => WrittenOrError conn s₀ s)
        (fun x s => x = .abort ∧ WriterAborted conn op.extra s₀ s ∧ op.Writes bad) := by
    intro α m Q extra hm hQ hw hx
    refine Triple.attempt (R := fun _ s => WrittenOrError conn s₀ s)
      (hm.conseq (fun _ => id) hQ fun x s hs => ?_)
    cases x with
    | exc e => exact .inr hs
    | abort => exact ⟨rfl, hx ▸ hs, hw⟩
    | undef => exact hs.elim
    | spent => exact hs.elim
  cases op with
  | put c =>
      refine Triple.ite (fun _ => skip) fun hb => ?_
      have hb : bad = false := Bool.eq_false_iff.mpr hb
      refine Triple.bind (attempt (sputc_steps hid hok c) (fun r s hs => .inl ?_) hb rfl)
        fun r => ?_
      · split at hs
        · exact ⟨[], hs.1 ▸ .refl⟩
        · exact ⟨_, hs.2⟩
      · rcases r with e | _ | x <;> exact Triple.pure fun _ hs => hs
  | write bytes =>
      refine Triple.ite (fun _ => skip) fun hb => ?_
      have hb : bad = false := Bool.eq_false_iff.mpr hb
      by_cases hnil : bytes = []
      · subst hnil
        exact fun s hs => .inl ⟨[], hs ▸ .refl⟩
      refine Triple.bind (attempt (xsputn_steps hid bytes hok) (fun _ s hs => .inl ⟨_, hs.1⟩)
        ⟨hb, hnil⟩ rfl) fun r => ?_
      rcases r with e | n <;> exact Triple.pure fun _ hs => hs
  | flush =>
      refine Triple.ite (fun _ => skip) fun hb => ?_
      have hb : bad = false := Bool.eq_false_iff.mpr hb
      refine Triple.bind (attempt (sync_steps hid hok) (fun r s hs => .inl ?_) hb rfl)
        fun r => ?_
      · split at hs
        · exact ⟨[], hs.1 ▸ .refl⟩
        · exact ⟨_, hs.2.1⟩
      · rcases r with e | n <;> exact Triple.pure fun _ hs => hs
  | clear => exact skip

/-! ### The steps of a connection -/

/-- What is known of a connection between two calls. -/
structure Members (c : Connection) : Prop where
  id : c.requestId_ < 65536
  in_ : OpenReader c.role_ c.in_.streambuf_ ∨ ClosedReader c.in_.streambuf_
  out : WriterOk .out c.out_.streambuf_
  err : WriterOk .err c.err_.streambuf_

/-- `accept()` returns a connection whose members are in order. -/
theorem Accepted.members {size : Nat} {s₀ s₁ : State} {c : Connection}
    (h : Accepted size s₀ s₁ c) : Members c where
  id := h.id_lt
  in_ := .inl h.reached.openReader
  out := h.out.writer.writerOk
  err := h.err.writer.writerOk

/-- One change of a connection. -/
inductive ConnectionStep : Connection → Connection → Prop
  | read {c : Connection} {s : State} (ho : OpenReader c.role_ c.in_.streambuf_)
      (hr : Reached c.info ⟨.idle, c.inState⟩ .idle s) : ConnectionStep c (c.setIn s)
  | ios {c : Connection} (is : Istream) : ConnectionStep c { c with in_.ios := is }
  | out {c : Connection} {bs : List UInt8} {s : State} (hr : Written c.info c.outState bs s) :
      ConnectionStep c (c.setOut s)
  | outError {c : Connection} {s : State} (he : WriteError c.info c.outState s) :
      ConnectionStep c (c.setOut s)
  | outBad {c : Connection} (bad : Bool) : ConnectionStep c { c with out_.bad := bad }
  | err {c : Connection} {bs : List UInt8} {s : State} (hr : Written c.info c.errState bs s) :
      ConnectionStep c (c.setErr s)
  | errError {c : Connection} {s : State} (he : WriteError c.info c.errState s) :
      ConnectionStep c (c.setErr s)
  | errBad {c : Connection} (bad : Bool) : ConnectionStep c { c with err_.bad := bad }
  | status {c : Connection} (status : BitVec 32) :
      ConnectionStep c { c with applicationStatus_ := status }
  /-- The end of `err()` is asked for. -/
  | askErr {c : Connection} (hopen : c.err_.streambuf_.isClosed = false) :
      ConnectionStep c (c.setErr c.errState.asked)
  | shutErr {c : Connection} (heos : c.err_.streambuf_.isEndOfStream_ = true) :
      ConnectionStep c (c.setErr c.errState.shut)
  /-- The end of `out()` is asked for, `err()` having been closed. -/
  | askOut {c : Connection} (hopen : c.out_.streambuf_.isClosed = false)
      (herr : c.err_.streambuf_.isClosed = true) : ConnectionStep c (c.setOut c.outState.asked)
  | shutOut {c : Connection} (heos : c.out_.streambuf_.isEndOfStream_ = true) :
      ConnectionStep c (c.setOut c.outState.shut)
  /-- The input is closed after the output. -/
  | shutIn {c : Connection} (ho : OpenReader c.role_ c.in_.streambuf_)
      (hout : c.out_.streambuf_.isClosed = true) (herr : c.err_.streambuf_.isClosed = true) :
      ConnectionStep c (c.setIn c.inState.shut)

/-- Any number of changes. -/
abbrev ConnectionSteps : Connection → Connection → Prop := Relation.ReflTransGen ConnectionStep

/-- Every change keeps the members in order. -/
theorem ConnectionStep.members {c c' : Connection} (hs : ConnectionStep c c') (h : Members c) :
    Members c' := by
  cases hs with
  | read ho hr => exact ⟨h.id, .inl hr.openReader, h.out, h.err⟩
  | ios => exact ⟨h.id, h.in_, h.out, h.err⟩
  | out hr => exact ⟨h.id, h.in_, hr.ok h.out, h.err⟩
  | outError he => exact ⟨h.id, h.in_, he.ok h.out, h.err⟩
  | outBad => exact ⟨h.id, h.in_, h.out, h.err⟩
  | err hr => exact ⟨h.id, h.in_, h.out, hr.ok h.err⟩
  | errError he => exact ⟨h.id, h.in_, h.out, he.ok h.err⟩
  | errBad => exact ⟨h.id, h.in_, h.out, h.err⟩
  | status => exact ⟨h.id, h.in_, h.out, h.err⟩
  | askErr => exact ⟨h.id, h.in_, h.out, h.err.asked (s := Connection.errState _)⟩
  | shutErr heos => exact ⟨h.id, h.in_, h.out, h.err.shut (s := Connection.errState _) heos⟩
  | askOut => exact ⟨h.id, h.in_, h.out.asked (s := Connection.outState _), h.err⟩
  | shutOut heos => exact ⟨h.id, h.in_, h.out.shut (s := Connection.outState _) heos, h.err⟩
  | shutIn ho => exact ⟨h.id, .inr ⟨ho.reader, rfl⟩, h.out, h.err⟩

/-- The connections in which a call is aborted. -/
inductive CallAborted : Op → Connection → Connection → Prop
  | reader {op : InOp} {c : Connection} {s : State}
      (ha : Aborted c.info ⟨.idle, c.inState⟩ s) : CallAborted (.«in» op) c (c.setIn s)
  | readerClosed {op : InOp} {c : Connection} (hc : ClosedReader c.in_.streambuf_)
      (hr : op.Reads c.in_.ios) : CallAborted (.«in» op) c c
  | out {op : OutOp} {c : Connection} {s : State}
      (ha : WriterAborted c.info op.extra c.outState s) (hw : op.Writes c.out_.bad) :
      CallAborted (.out op) c (c.setOut s)
  | err {op : OutOp} {c : Connection} {s : State}
      (ha : WriterAborted c.info op.extra c.errState s) (hw : op.Writes c.err_.bad) :
      CallAborted (.err op) c (c.setErr s)
  | closeErr {c : Connection} {s : State} (hopen : c.err_.streambuf_.isClosed = false)
      (ha : CloseAborted c.info c.in_.streambuf_ c.errState s) : CallAborted .close c (c.setErr s)
  | closeOut {c c₁ : Connection} {s : State} (hs : ConnectionSteps c c₁)
      (hin : c₁.in_ = c.in_) (hout : c₁.out_ = c.out_)
      (hopen : c.out_.streambuf_.isClosed = false) (herr : c₁.err_.streambuf_.isClosed = true)
      (ha : CloseAborted c₁.info c.in_.streambuf_ c₁.outState s) :
      CallAborted .close c (c₁.setOut s)
  | closeIn {c c₁ : Connection} (hs : ConnectionSteps c c₁) (hin : c₁.in_ = c.in_)
      (ho : OpenReader c.role_ c.in_.streambuf_)
      (hu : c.in_.streambuf_.bufferSize_ < c.in_.streambuf_.unreadContentLength_) :
      CallAborted .close c (c₁.setIn c₁.inState.shut)

/-- What is known where a call faults. -/
def CallFault (op : Op) (c₀ : Connection) : Fault Exception → Connection → Prop
  | .exc _, c => ConnectionSteps c₀ c
  | .abort, c => CallAborted op c₀ c
  | .undef, _ => False
  | .spent, c => ∃ m s, OpenReader c₀.role_ c₀.in_.streambuf_ ∧
      Reached c₀.info ⟨.idle, c₀.inState⟩ m s ∧ c = c₀.setIn s

section

variable {c₀ : Connection} {fuel : Nat}

/-- What a writer does to `out()` is a change of the connection. -/
theorem WrittenOrError.outSteps {c : Connection} {s : State}
    (h : WrittenOrError c.info c.outState s) : ConnectionSteps c (c.setOut s) := by
  rcases h with ⟨bs, hr⟩ | ⟨bs, s₁, hr, he⟩
  · exact .single (.out hr)
  · exact .tail (.single (.out hr)) (.outError (c := c.setOut s₁) he)

theorem WrittenOrError.errSteps {c : Connection} {s : State}
    (h : WrittenOrError c.info c.errState s) : ConnectionSteps c (c.setErr s) := by
  rcases h with ⟨bs, hr⟩ | ⟨bs, s₁, hr, he⟩
  · exact .single (.err hr)
  · exact .tail (.single (.err hr)) (.errError (c := c.setErr s₁) he)

theorem in_steps (h : Members c₀) (op : InOp) :
    Triple (fun c => c = c₀) ((Op.«in» op).exec fuel) (fun _ c => ConnectionSteps c₀ c)
      (CallFault (.«in» op) c₀) := by
  rintro c rfl
  rw [Op.exec, Prog.bind_ok (Prog.get_run _)]
  rcases h.in_ with ho | hc
  · have hrun := op.exec_steps fuel c.in_.ios c.inState
      (⟨.refl, ho⟩ : Reached c.info ⟨.idle, c.inState⟩ .idle c.inState)
    rcases e : op.exec c.info fuel c.in_.ios c.inState with ⟨x | is, s⟩ <;> simp only [e] at hrun
    · rw [Prog.bind_error (Connection.onIn_run e)]
      cases x with
      | exc x => exact .single (.read ho hrun)
      | abort => exact .reader hrun
      | undef => exact hrun
      | spent =>
          obtain ⟨m, hr⟩ := hrun
          exact ⟨m, s, ho, hr, rfl⟩
    · rw [Prog.bind_ok (Connection.onIn_run e)]
      exact .tail (.single (.read ho hrun)) (.ios is)
  · have hrun := ClosedReader.exec c.info c.inState hc fuel op c.in_.ios _ rfl
    rcases e : op.exec c.info fuel c.in_.ios c.inState with ⟨x | is, s⟩ <;> simp only [e] at hrun
    · obtain ⟨⟨rfl, rfl⟩, hreads⟩ := hrun
      rw [Prog.bind_error (Connection.onIn_run e)]
      exact .readerClosed hc hreads
    · subst hrun
      rw [Prog.bind_ok (Connection.onIn_run e)]
      exact .single (.ios is)

theorem out_steps (h : Members c₀) (op : OutOp) :
    Triple (fun c => c = c₀) ((Op.out op).exec fuel) (fun _ c => ConnectionSteps c₀ c)
      (CallFault (.out op) c₀) := by
  rintro c rfl
  have hok : WriterOk .out c.outState.buf := h.out
  have hid : c.info.requestId < 65536 := h.id
  have hrun := op.exec_steps hid hok c.out_.bad _ rfl
  rw [Op.exec, Prog.bind_ok (Prog.get_run _)]
  rcases e : op.exec c.info c.out_.bad c.outState with ⟨x | bad, s⟩ <;> simp only [e] at hrun
  · obtain ⟨rfl, ha, hw⟩ := hrun
    rw [Prog.bind_error (Connection.onOut_run e)]
    exact .out ha hw
  · rw [Prog.bind_ok (Connection.onOut_run e)]
    exact .tail hrun.outSteps (.outBad bad)

theorem err_steps (h : Members c₀) (op : OutOp) :
    Triple (fun c => c = c₀) ((Op.err op).exec fuel) (fun _ c => ConnectionSteps c₀ c)
      (CallFault (.err op) c₀) := by
  rintro c rfl
  have hok : WriterOk .err c.errState.buf := h.err
  have hid : c.info.requestId < 65536 := h.id
  have hrun := op.exec_steps hid hok c.err_.bad _ rfl
  rw [Op.exec, Prog.bind_ok (Prog.get_run _)]
  rcases e : op.exec c.info c.err_.bad c.errState with ⟨x | bad, s⟩ <;> simp only [e] at hrun
  · obtain ⟨rfl, ha, hw⟩ := hrun
    rw [Prog.bind_error (Connection.onErr_run e)]
    exact .err ha hw
  · rw [Prog.bind_ok (Connection.onErr_run e)]
    exact .tail hrun.errSteps (.errBad bad)

/-- Between the parts of `close()`: `err()` has been closed. -/
structure ErrShut (c₀ c : Connection) : Prop where
  steps : ConnectionSteps c₀ c
  info : c.info = c₀.info
  in_ : c.in_ = c₀.in_
  err : c.err_.streambuf_.isClosed = true

/-- `close()` closes `err()` first. -/
theorem closeErr_steps (h : Members c₀) :
    Triple (fun c => c = c₀) (Connection.onErr fun conn => close conn c₀.in_.streambuf_)
      (fun _ c => ErrShut c₀ c ∧ c.out_ = c₀.out_) (CallFault .close c₀) := by
  rintro c rfl
  have hok : WriterOk .err c.errState.buf := h.err
  have hid : c.info.requestId < 65536 := h.id
  have hrun := close_steps hid c.in_.streambuf_ hok _ rfl
  have hasked : c.err_.streambuf_.isClosed = false →
      ConnectionSteps c (c.setErr c.errState.asked) := fun hopen => .single (.askErr hopen)
  rcases e : close c.info c.in_.streambuf_ c.errState with ⟨x | _, s⟩ <;> simp only [e] at hrun <;>
    rw [Connection.onErr_run (m := fun conn => close conn _) e]
  · cases x with
    | exc x =>
        rcases hrun with ⟨hopen, hx⟩ | ⟨rfl, -⟩
        · exact (hasked hopen).trans (WrittenOrError.errSteps (c := c.setErr _) (.inr hx))
        · exact .refl
    | abort => exact .closeErr hrun.1 hrun.2
    | undef => exact hrun.elim
    | spent => exact hrun.elim
  · rcases hrun with ⟨hc, rfl⟩ | ⟨hopen, s₁, he, rfl⟩
    · exact ⟨⟨.refl, rfl, rfl, hc⟩, rfl⟩
    · have hsteps := ((hasked hopen).tail (.err (c := c.setErr _) he.written)).tail
        (.shutErr (c := c.setErr s₁) he.eos)
      have hok := ((he.written.ok h.err.asked).shut he.eos)
      exact ⟨⟨hsteps, rfl, rfl, hok.isClosed_iff.mpr rfl⟩, rfl⟩

theorem closeOut_steps (h : Members c₀) :
    Triple (fun c => ErrShut c₀ c ∧ c.out_ = c₀.out_)
      (Connection.onOut fun conn => close conn c₀.in_.streambuf_)
      (fun _ c => ErrShut c₀ c ∧ c.out_.streambuf_.isClosed = true) (CallFault .close c₀) := by
  rintro c ⟨hc, hout⟩
  have hok : WriterOk .out c.outState.buf := by
    change WriterOk .out c.out_.streambuf_
    rw [hout]
    exact h.out
  have hid : c.info.requestId < 65536 := by rw [hc.info]; exact h.id
  have hrun := close_steps hid c₀.in_.streambuf_ hok _ rfl
  have hasked : c.out_.streambuf_.isClosed = false →
      ConnectionSteps c₀ (c.setOut c.outState.asked) := fun hopen =>
    hc.steps.tail (.askOut hopen hc.err)
  rcases e : close c.info c₀.in_.streambuf_ c.outState with ⟨x | _, s⟩ <;>
    simp only [e] at hrun <;> rw [Connection.onOut_run (m := fun conn => close conn _) e]
  · cases x with
    | exc x =>
        rcases hrun with ⟨hopen, hx⟩ | ⟨rfl, -⟩
        · exact (hasked hopen).trans (WrittenOrError.outSteps (c := c.setOut _) (.inr hx))
        · exact hc.steps
    | abort =>
        exact .closeOut hc.steps hc.in_ hout (hout ▸ hrun.1) hc.err hrun.2
    | undef => exact hrun.elim
    | spent => exact hrun.elim
  · rcases hrun with ⟨hclosed, rfl⟩ | ⟨hopen, s₁, he, rfl⟩
    · exact ⟨⟨hc.steps, hc.info, hc.in_, hc.err⟩, hclosed⟩
    · have hsteps := ((hasked hopen).tail (.out (c := c.setOut _) he.written)).tail
        (.shutOut (c := c.setOut s₁) he.eos)
      exact ⟨⟨hsteps, hc.info, hc.in_, hc.err⟩,
        ((he.written.ok hok.asked).shut he.eos).isClosed_iff.mpr rfl⟩

theorem closeIn_steps (h : Members c₀) :
    Triple (fun c => ErrShut c₀ c ∧ c.out_.streambuf_.isClosed = true)
      (Connection.onIn fun conn => close conn c₀.in_.streambuf_)
      (fun _ c => ConnectionSteps c₀ c) (CallFault .close c₀) := by
  rintro c ⟨hc, hout⟩
  have hrole : c.role_ = c₀.role_ := congrArg ConnectionInfo.role hc.info
  rcases h.in_ with ho | hclosed
  · have ho' : OpenReader c.role_ c.in_.streambuf_ := by rw [hrole, hc.in_]; exact ho
    have hrun := close_reader c.info c₀.in_.streambuf_ c.world ho'
    by_cases hu : c.in_.streambuf_.unreadContentLength_ ≤ c.in_.streambuf_.bufferSize_
    · rw [if_pos hu] at hrun
      rw [Connection.onIn_run (m := fun conn => close conn _) hrun]
      exact hc.steps.tail (.shutIn ho' hout hc.err)
    · rw [if_neg hu] at hrun
      rw [Connection.onIn_run (m := fun conn => close conn _) hrun]
      rw [hc.in_] at hu
      exact .closeIn hc.steps hc.in_ ho (Nat.lt_of_not_le hu)
  · have hclosed : c.in_.streambuf_.isClosed = true := by rw [hc.in_]; exact hclosed.isClosed
    rw [Connection.onIn_run (m := fun conn => close conn _) (s := c.inState)
      (close_closed hclosed)]
    exact hc.steps

/-- **The steps of a call.** -/
theorem Op.exec_steps (fuel : Nat) (h : Members c₀) : ∀ op : Op,
    Triple (fun c => c = c₀) (op.exec fuel) (fun _ c => ConnectionSteps c₀ c) (CallFault op c₀)
  | .«in» op => in_steps h op
  | .out op => out_steps h op
  | .err op => err_steps h op
  | .setApplicationStatus status => fun _ hc => hc ▸ .single (.status status)
  | .close => by
      refine Triple.get fun c hc => ?_
      subst hc
      refine Triple.bind (closeErr_steps h) fun _ => ?_
      exact Triple.bind (closeOut_steps h) fun _ => closeIn_steps h

/-- A call that returns or throws takes the steps of a connection. -/
theorem Op.attempt_steps {op : Op} {r : Except Exception Unit} {c : Connection} (h : Members c₀)
    (hrun : Prog.attempt (op.exec fuel) c₀ = (.ok r, c)) : ConnectionSteps c₀ c := by
  rcases (op.exec_steps fuel h).of_attempt rfl hrun with ⟨_, hs⟩ | ⟨_, hs⟩
  · exact hs
  · exact hs

/-- What every step preserves holds after all of them. -/
theorem ConnectionSteps.invariant {I : Connection → Prop} {c c' : Connection}
    (hs : ConnectionSteps c c') (step : ∀ {c c'}, ConnectionStep c c' → I c → I c') (h : I c) :
    I c' := by
  induction hs with
  | refl => exact h
  | tail _ hs ih => exact step hs ih

theorem ConnectionSteps.members {c c' : Connection} (hs : ConnectionSteps c c') (h : Members c) :
    Members c' := hs.invariant (fun hs => hs.members) h

/-- **The steps of a run.**  It ends with a call that faults, or after all calls. -/
theorem run_steps (fuel : Nat) : ∀ (ops : List Op) {c₀ : Connection}, Members c₀ →
    Triple (fun c => c = c₀) (run fuel ops) (fun _ c => ConnectionSteps c₀ c)
      (fun x c => ∃ c₁ op, ConnectionSteps c₀ c₁ ∧ op ∈ ops ∧ CallFault op c₁ x c)
  | [], _, _ => Triple.pure fun _ hc => hc ▸ .refl
  | op :: ops, c₀, h => by
      refine Triple.bind (Q := fun _ c => ConnectionSteps c₀ c) (Triple.attempt
        ((op.exec_steps fuel h).conseq (fun _ hc => hc) (fun _ _ hs => hs) fun x c hx => ?_))
        fun _ c₁ hs => ?_
      · cases x with
        | exc e => exact hx
        | abort => exact ⟨c₀, op, .refl, List.mem_cons_self, hx⟩
        | undef => exact hx.elim
        | spent => exact ⟨c₀, op, .refl, List.mem_cons_self, hx⟩
      · refine (run_steps fuel ops (hs.members h)).conseq (fun _ hc => hc) (fun _ _ hs' =>
          hs.trans hs') (fun x c hx => ?_) c₁ rfl
        obtain ⟨c₂, op', hs', hop, hx⟩ := hx
        exact ⟨c₂, op', hs.trans hs', List.mem_cons_of_mem _ hop, hx⟩

end

end Fcgi

import Fcgi.Connection.Steps
import Fcgi.Connection.Assertions
import Fcgi.Connection.Writers

/-!
# Connection — stream calls in any order

`StreamCall` adds `in().sync()` to the calls of the application.  `Permitted` says which calls the
stream buffers put up with: those that reach no buffer, or one that is open and in order.  It
depends on the call and on the state before it only.

**`no_call_aborts`**: in every run of permitted calls, before and after `close()`, no assertion
fails.

The proof is an invariant of the runs (`Alive`).  It says of each of the three buffers that it is
closed or has its members in order, and that the input is closed last.  What a call does to a
connection consists of `ConnectionStep`s, each of which keeps the invariant; and where a call is
aborted (`CallAborted`), the invariant and the permission leave only records of the client that are
not tame as its cause.
-/

namespace Fcgi
open Lib

/-! ### Calls -/

/-- `read()` asks `xsgetn()` for characters.  That takes egptr() - gptr() for the number of those at
hand. -/
def InOp.ReadsBulk (is : Istream) : InOp → Prop
  | .read n => is.good = true ∧ 0 < n
  | _ => False

instance (is : Istream) : (op : InOp) → Decidable (op.ReadsBulk is)
  | .read n => @instDecidableAnd _ _ (instDecidableEqBool _ _) (Nat.decLt 0 n)
  | .get | .peek | .unget | .clear => instDecidableFalse

/-- `sync()` of `std::istream`. -/
def Istream.sync (sync : M Int) (is : Istream) : M Istream :=
  if is.good then do
    match ← Prog.attempt sync with
    | .ok r => pure { is with bad := r = -1 }
    | .error _ => pure { is with bad := true }
  else pure { is with fail := true }

/-- A public call on the streams or on the connection. -/
inductive StreamCall where
  | op (call : Op)
  | inSync
  deriving DecidableEq

namespace StreamCall

/-- Makes the call. -/
def exec (fuel : Nat) : StreamCall → Connection.M Unit
  | op call => call.exec fuel
  | inSync => do
    let c ← Prog.get
    let is ← Connection.onIn fun conn => c.in_.ios.sync (Fcgi.sync conn)
    Prog.modify fun c => { c with in_.ios := is }

/-- The call on an output stream reaches a buffer that is open and, if it has a character for it,
has a place for the character. -/
def OutPermitted (o : ServerOstream) (op : OutOp) : Prop :=
  op.Writes o.bad → o.streambuf_.isClosed = false ∧
    (op.extra = true → o.streambuf_.isEndOfStream_ = false →
      o.streambuf_.pptr ≤ o.streambuf_.epptr)

instance (o : ServerOstream) (op : OutOp) : Decidable (OutPermitted o op) := by
  unfold OutPermitted; infer_instance

/-- The call on `in()` asks only an open buffer for characters, and for several of them only one
whose gptr() is not past egptr(). -/
def InPermitted (i : ServerIstream) (op : InOp) : Prop :=
  (op.Reads i.ios → i.streambuf_.isClosed = false) ∧
    (op.ReadsBulk i.ios → i.streambuf_.gptr ≤ i.streambuf_.egptr)

instance (i : ServerIstream) (op : InOp) : Decidable (InPermitted i op) := by
  unfold InPermitted; infer_instance

/-- The calls that the stream buffers put up with. -/
def Permitted (c : Connection) : StreamCall → Prop
  | op (.«in» call) => InPermitted c.in_ call
  | op (.out call) => OutPermitted c.out_ call
  | op (.err call) => OutPermitted c.err_ call
  | op (.setApplicationStatus _) => True
  | op .close => MayClose c.role_ c.in_.streambuf_ → ∀ o ∈ [c.err_, c.out_],
      o.streambuf_.isClosed = false → o.streambuf_.isEndOfStream_ = false
  | inSync => c.in_.ios.good = false

instance (c : Connection) (call : StreamCall) : Decidable (call.Permitted c) :=
  match call with
  | op (.«in» call) => inferInstanceAs (Decidable (InPermitted c.in_ call))
  | op (.out call) => inferInstanceAs (Decidable (OutPermitted c.out_ call))
  | op (.err call) => inferInstanceAs (Decidable (OutPermitted c.err_ call))
  | op (.setApplicationStatus _) => inferInstanceAs (Decidable True)
  | op .close => inferInstanceAs (Decidable (MayClose c.role_ c.in_.streambuf_ →
      ∀ o ∈ [c.err_, c.out_], o.streambuf_.isClosed = false → o.streambuf_.isEndOfStream_ = false))
  | inSync => inferInstanceAs (Decidable (c.in_.ios.good = false))

end StreamCall

/-- A run of calls that are permitted where they are made. -/
inductive StreamRun (c₀ : Connection) : Connection → Prop
  | start : StreamRun c₀ c₀
  | call {c c' : Connection} {call : StreamCall} {fuel : Nat} {r : Except Exception Unit}
      (h : StreamRun c₀ c) (hp : call.Permitted c)
      (hrun : Prog.attempt (call.exec fuel) c = (.ok r, c')) : StreamRun c₀ c'

/-- Makes the calls one after another; none, if one of them is not permitted or does not return. -/
def StreamCall.makeAll (fuel : Nat) : List StreamCall → Connection → Option Connection
  | [], c => some c
  | call :: calls, c =>
    if call.Permitted c then
      match Prog.attempt (call.exec fuel) c with
      | (.ok _, c') => makeAll fuel calls c'
      | (.error _, _) => none
    else none

/-- Calls that are permitted and made are a run. -/
theorem StreamCall.streamRun_makeAll {fuel : Nat} {c₀ c' : Connection} : ∀ {calls : List StreamCall}
    {c : Connection}, StreamRun c₀ c → StreamCall.makeAll fuel calls c = some c' → StreamRun c₀ c'
  | [], _, hr, h => Option.some.inj h ▸ hr
  | call :: calls, c, hr, h => by
      rw [StreamCall.makeAll] at h
      by_cases hp : call.Permitted c
      · rw [if_pos hp] at h
        rcases hrun : Prog.attempt (call.exec fuel) c with ⟨_ | r, c₁⟩ <;> rw [hrun] at h
        · cases h
        · exact streamRun_makeAll (.call hr hp hrun) h
      · rw [if_neg hp] at h
        cases h

/-! ### Output buffers -/

/-- From `s` to `s'`, a writer that is open stays open, and a closed one closed. -/
structure WritesOnly (s s' : State) : Prop where
  unread : WriteOnly s.buf → WriteOnly s'.buf
  closed : s'.buf.isClosed = s.buf.isClosed
  history : s'.world.history = s.world.history
  sends : s'.world.io.sends ⊆ s.world.io.sends

section writer

variable {conn : ConnectionInfo} {t : StreamType} {s s' s'' : State} {bs : List UInt8}

theorem WritesOnly.refl (s : State) : WritesOnly s s := ⟨id, rfl, rfl, fun _ => id⟩

theorem WritesOnly.trans (h : WritesOnly s s') (h' : WritesOnly s' s'') : WritesOnly s s'' where
  unread hu := h'.unread (h.unread hu)
  closed := h'.closed.trans h.closed
  history := h'.history.trans h.history
  sends _ hx := h.sends (h'.sends hx)

/-- Every step of a writer only writes. -/
theorem WriterStep.writesOnly (hs : WriterStep conn s bs s') : WritesOnly s s' := by
  have hsends := hs.sends
  cases hs with
  | put c hput hlt =>
      refine ⟨fun h => ⟨h.getArea, h.content, h.padding⟩, ?_, rfl, hsends⟩
      simp [ServerStreambuf.isClosed, ServerStreambuf.isReader, hput]
  | flush m hf =>
      obtain ⟨cur, hput, -⟩ := hf.area
      refine ⟨fun h => ⟨h.getArea, h.content, h.padding⟩, ?_, rfl, hsends⟩
      simp [ServerStreambuf.isClosed, ServerStreambuf.isReader, hput]
  | finish m hf =>
      refine ⟨fun h => ⟨h.getArea, h.content, h.padding⟩, rfl, ?_, hsends⟩
      dsimp only
      split <;> rfl

theorem WriteError.writesOnly (he : WriteError conn s s') : WritesOnly s s' := by
  cases he with
  | flush hs hf hm =>
      obtain ⟨cur, hput, -⟩ := hf.area
      refine ⟨fun h => ⟨h.getArea, h.content, h.padding⟩, ?_, rfl,
        fun _ => List.mem_of_mem_tail⟩
      simp [ServerStreambuf.isClosed, ServerStreambuf.isReader, ServerStreambuf.holding, hput]
  | finish m hs hf =>
      exact ⟨fun h => ⟨h.getArea, h.content, h.padding⟩, rfl, rfl, fun _ => List.mem_of_mem_tail⟩

theorem Written.writesOnly (h : Written conn s bs s') : WritesOnly s s' := by
  induction h with
  | refl => exact .refl s
  | tail _ hs ih => exact ih.trans hs.writesOnly

/-- No step takes pptr() past epptr(). -/
theorem WriterStep.pptr_le (hs : WriterStep conn s bs s') (hok : WriterOk t s.buf)
    (hle : s.buf.pptr ≤ s.buf.epptr) : s'.buf.pptr ≤ s'.buf.epptr := by
  have hsize := hok.size_ge
  cases hs with
  | @put b w cur c hput hlt =>
      have hput' := ServerStreambuf.pbump_putArea_eq
        (b := b.setBuffer (b.buffer_.store cur [c])) hput 1
      dsimp only
      rw [ServerStreambuf.pptr_eq hput', ServerStreambuf.epptr_eq hput']
      omega
  | flush m hf =>
      dsimp only at hsize ⊢
      rw [ServerStreambuf.pptr_eq (b := ServerStreambuf.setp _ _ _) rfl,
        ServerStreambuf.epptr_eq (b := ServerStreambuf.setp _ _ _) rfl]
      omega
  | finish m hf => exact hle

/-- Unless a write fails, pptr() does not get past epptr(). -/
theorem Written.pptr_le (h : Written conn s bs s') (hok : WriterOk t s.buf)
    (hle : s.buf.pptr ≤ s.buf.epptr) : s'.buf.pptr ≤ s'.buf.epptr := by
  induction h with
  | refl => exact hle
  | tail h hs ih => exact hs.pptr_le (h.ok hok) ih

/-- A stream that is open has been open before. -/
theorem Written.eos (h : Written conn s bs s') (heos : s'.buf.isEndOfStream_ = false) :
    s.buf.isEndOfStream_ = false := by
  induction h with
  | refl => exact heos
  | tail _ hs ih =>
      cases hs with
      | put => exact ih heos
      | flush => exact ih heos
      | finish => cases heos

end writer

/-! ### The invariant of a run -/

/-- What is known of a connection between two permitted calls. -/
structure Alive (c : Connection) : Prop where
  members : Members c
  bounded : Bounded inBufferSize c.inState
  stream : c.role_ = .authorizer ∨ c.in_.streambuf_.type_ ≠ .params
  out : WriteOnly c.out_.streambuf_
  err : WriteOnly c.err_.streambuf_
  /-- The input is closed last. -/
  inLast : c.in_.streambuf_.isClosed = true →
    c.out_.streambuf_.isClosed = true ∧ c.err_.streambuf_.isClosed = true

section alive

variable {c c' : Connection}

/-- While an output stream is open, it can be closed: its input stream is open. -/
theorem Alive.inputOpen (h : Alive c) (ho : c.out_.streambuf_.isClosed = false ∨
    c.err_.streambuf_.isClosed = false) : InputOpen c.role_ c.in_.streambuf_ where
  reader := h.members.in_.elim (fun hr => hr.reader) fun hc => hc.reader
  open_ := Bool.eq_false_iff.mpr fun hc => by
    obtain ⟨hout, herr⟩ := h.inLast hc
    exact ho.elim (fun ho => absurd (hout.symm.trans ho) nofun) fun ho =>
      absurd (herr.symm.trans ho) nofun
  stream := h.stream

/-- The bound speaks of the size, the counter and the history only. -/
theorem Bounded.of_eq {size : Nat} {s s' : State} (h : Bounded size s)
    (hsize : s'.buf.bufferSize_ = s.buf.bufferSize_)
    (hu : s'.buf.unreadContentLength_ = s.buf.unreadContentLength_)
    (hw : s'.world.history = s.world.history) : Bounded size s' :=
  ⟨hsize.trans h.size, by rw [hu, hw]; exact h.content⟩

/-- The output buffer of `out()` in another state. -/
theorem Alive.setOut (h : Alive c) {s : State} (hs : WritesOnly c.outState s)
    (hok : WriterOk .out s.buf) : Alive (c.setOut s) where
  members := ⟨h.members.id, h.members.in_, hok, h.members.err⟩
  bounded := h.bounded.of_eq rfl rfl hs.history
  stream := h.stream
  out := hs.unread h.out
  err := h.err
  inLast hc := ⟨hs.closed.trans (h.inLast hc).1, (h.inLast hc).2⟩

/-- The invariant is kept by what a writer does to `err()`. -/
theorem Alive.setErr (h : Alive c) {s : State} (hs : WritesOnly c.errState s)
    (hok : WriterOk .err s.buf) : Alive (c.setErr s) where
  members := ⟨h.members.id, h.members.in_, h.members.out, hok⟩
  bounded := h.bounded.of_eq rfl rfl hs.history
  stream := h.stream
  out := h.out
  err := hs.unread h.err
  inLast hc := ⟨(h.inLast hc).1, hs.closed.trans (h.inLast hc).2⟩

/-- **Every change keeps the invariant.** -/
theorem ConnectionStep.alive (hs : ConnectionStep c c') (h : Alive c) : Alive c' := by
  have hmembers := hs.members h.members
  cases hs with
  | read ho hr =>
      refine ⟨hmembers, hr.bounded h.bounded, ?_, h.out, h.err, fun hc => ?_⟩
      · rcases hr.type with e | ⟨-, -, e⟩
        · exact h.stream.imp_right fun hn => e ▸ hn
        · exact .inr (e ▸ nofun)
      · exact absurd (hr.openReader.not_isClosed.symm.trans hc) nofun
  | ios => exact ⟨hmembers, h.bounded, h.stream, h.out, h.err, h.inLast⟩
  | out hr => exact h.setOut hr.writesOnly hmembers.out
  | outError he => exact h.setOut he.writesOnly hmembers.out
  | outBad => exact ⟨hmembers, h.bounded, h.stream, h.out, h.err, h.inLast⟩
  | err hr => exact h.setErr hr.writesOnly hmembers.err
  | errError he => exact h.setErr he.writesOnly hmembers.err
  | errBad => exact ⟨hmembers, h.bounded, h.stream, h.out, h.err, h.inLast⟩
  | status => exact ⟨hmembers, h.bounded, h.stream, h.out, h.err, h.inLast⟩
  | askErr =>
      exact h.setErr ⟨fun h => ⟨h.getArea, h.content, h.padding⟩, rfl, rfl, fun _ => id⟩
        hmembers.err
  | shutErr =>
      exact ⟨hmembers, h.bounded, h.stream, h.out, ⟨rfl, h.err.content, h.err.padding⟩,
        fun hc => ⟨(h.inLast hc).1, hmembers.err.isClosed_iff.mpr rfl⟩⟩
  | askOut =>
      exact h.setOut ⟨fun h => ⟨h.getArea, h.content, h.padding⟩, rfl, rfl, fun _ => id⟩
        hmembers.out
  | shutOut =>
      exact ⟨hmembers, h.bounded, h.stream, ⟨rfl, h.out.content, h.out.padding⟩, h.err,
        fun hc => ⟨hmembers.out.isClosed_iff.mpr rfl, (h.inLast hc).2⟩⟩
  | shutIn ho hout herr =>
      exact ⟨hmembers, h.bounded.of_eq rfl rfl rfl, h.stream, h.out, h.err, fun _ => ⟨hout, herr⟩⟩

theorem ConnectionStep.role (hs : ConnectionStep c c') : c'.role_ = c.role_ := by
  cases hs <;> rfl

/-- The transport gets no new answers. -/
theorem ConnectionStep.sends (hs : ConnectionStep c c') :
    c'.world.io.sends ⊆ c.world.io.sends := by
  cases hs with
  | read ho hr => exact hr.sends_subset
  | out hr => exact hr.writesOnly.sends
  | outError he => exact he.writesOnly.sends
  | err hr => exact hr.writesOnly.sends
  | errError he => exact he.writesOnly.sends
  | _ => exact fun _ => id

theorem ConnectionSteps.alive (hs : ConnectionSteps c c') (h : Alive c) : Alive c' :=
  hs.invariant (fun hs => hs.alive) h

theorem ConnectionSteps.role (hs : ConnectionSteps c c') : c'.role_ = c.role_ :=
  hs.invariant (I := fun d => d.role_ = c.role_) (fun hs h => hs.role.trans h) rfl

theorem ConnectionSteps.sends (hs : ConnectionSteps c c') :
    c'.world.io.sends ⊆ c.world.io.sends :=
  hs.invariant (I := fun d => d.world.io.sends ⊆ c.world.io.sends)
    (fun hs h _ hx => h (hs.sends hx)) fun _ => id

/-! ### No call is aborted -/

/-- A permitted call on an open output stream is not aborted. -/
theorem WriterOk.not_aborted {conn : ConnectionInfo} {t : StreamType} {extra : Bool} {s s' : State}
    (hok : WriterOk t s.buf) (hu : WriteOnly s.buf) (hopen : s.buf.isClosed = false)
    (hpast : extra = true → s.buf.isEndOfStream_ = false → s.buf.pptr ≤ s.buf.epptr)
    (hw : s.world.AllOrNothing) : ¬ WriterAborted conn extra s s' := by
  intro ha
  cases ha with
  | closed hr hput =>
      have hc := (hr.ok hok).isClosed_iff.mpr hput
      rw [hr.writesOnly.closed, hopen] at hc
      cases hc
  | past hr hextra heos hlt =>
      have hle := hr.pptr_le hok (hpast hextra (hr.eos heos))
      omega
  | short hr hs hn hrs =>
      exact absurd (hw _ (hr.writesOnly.sends hs)) (by have := length_join_le hrs; omega)
  | invariant hr harea hi => exact hi ((hr.ok hok).invariantOk (hr.writesOnly.unread hu) harea)

/-- A writer that can be closed is not aborted. -/
theorem WriterOk.close_not_aborted {conn : ConnectionInfo} {t : StreamType}
    {inbuf : ServerStreambuf} {s s' : State} (hok : WriterOk t s.buf) (hu : WriteOnly s.buf)
    (hopen : s.buf.isClosed = false) (hin : InputOpen conn.role inbuf)
    (heos : MayClose conn.role inbuf → s.buf.isEndOfStream_ = false) (hw : s.world.AllOrNothing) :
    ¬ CloseAborted conn inbuf s s' := by
  intro ha
  cases ha with
  | overflow ha =>
      have hu' : WriteOnly s.asked.buf := ⟨hu.getArea, hu.content, hu.padding⟩
      exact absurd ha (hok.asked.not_aborted hu' hopen (fun hn => nomatch hn) hw)
  | input hn => exact hn hin
  | ended h hmay => exact absurd ((heos hmay).symm.trans h) nofun
  | invariant he hi =>
      have hok' := he.written.ok hok.asked
      have hu' := he.written.writesOnly.unread ⟨hu.getArea, hu.content, hu.padding⟩
      exact hi (hok'.shut_invariantOk hu' he.eos)

/-- **A permitted call is not aborted**, provided that the client's records are tame. -/
theorem CallAborted.not_tame {op : Op} (ha : CallAborted op c c') (h : Alive c)
    (hp : (StreamCall.op op).Permitted c) (hw : c.world.AllOrNothing) :
    ¬ Tame inBufferSize c'.world.history := by
  cases ha with
  | reader ha => exact ha.not_tame h.bounded hw
  | readerClosed hc hr => exact absurd ((hp.1 hr).symm.trans hc.isClosed) nofun
  | out ha hwrites =>
      obtain ⟨hopen, hpast⟩ := hp hwrites
      exact absurd ha (WriterOk.not_aborted (s := c.outState) h.members.out h.out hopen hpast hw)
  | err ha hwrites =>
      obtain ⟨hopen, hpast⟩ := hp hwrites
      exact absurd ha (WriterOk.not_aborted (s := c.errState) h.members.err h.err hopen hpast hw)
  | closeErr hopen ha =>
      have heos := fun hmay => hp hmay c.err_ (by simp) hopen
      exact absurd ha (WriterOk.close_not_aborted (s := c.errState) h.members.err h.err hopen
        (h.inputOpen (.inr hopen)) heos hw)
  | @closeOut _ c₁ s hs hin hout hopen herr ha =>
      have h₁ := hs.alive h
      have hopen₁ : c₁.outState.buf.isClosed = false := by
        rw [Connection.outState, hout]; exact hopen
      have hinput := h₁.inputOpen (.inl hopen₁)
      rw [hin] at hinput
      have heos : MayClose c₁.role_ c.in_.streambuf_ → c₁.outState.buf.isEndOfStream_ = false := by
        rw [hs.role, Connection.outState, hout]
        exact fun hmay => hp hmay c.out_ (by simp) hopen
      exact absurd ha (WriterOk.close_not_aborted h₁.members.out h₁.out hopen₁ hinput heos
        (hw.of_sends hs.sends))
  | @closeIn _ c₁ hs hin ho hu =>
      intro ht
      have hle := (hs.alive h).bounded.le ht.content
      rw [Connection.inState, hin] at hle
      exact absurd hle (Nat.not_le_of_lt hu)

/-! ### Runs -/

/-- `accept()` returns a connection that satisfies it. -/
theorem Accepted.alive {s₀ s₁ : State} (h : Accepted inBufferSize s₀ s₁ c) : Alive c where
  members := h.members
  bounded := ⟨h.bounded.1, .inl h.bounded.2⟩
  stream := (h.inputOpen h.reached).stream
  out := ⟨h.out.writer.getArea, h.out.writer.content, h.out.writer.padding⟩
  err := ⟨h.err.writer.getArea, h.err.writer.content, h.err.writer.padding⟩
  inLast hc := absurd (h.reached.openReader.not_isClosed.symm.trans hc) nofun

/-- `in().sync()` on a stream that is not good does not reach the buffer. -/
theorem inSync_run {fuel : Nat} (h : c.in_.ios.good = false) :
    StreamCall.inSync.exec fuel c =
      (.ok (), { c with in_.ios := { c.in_.ios with fail := true } }) := by
  have hsync : c.in_.ios.sync (sync c.info) c.inState =
      (.ok { c.in_.ios with fail := true }, c.inState) := by
    rw [Istream.sync, h, if_neg Bool.false_ne_true, Prog.pure_run]
  rw [StreamCall.exec, Prog.bind_ok (Prog.get_run _), Prog.bind_ok (Connection.onIn_run hsync)]
  rfl

/-- A permitted call takes the steps of a connection, unless it is aborted or has no fuel left. -/
theorem StreamCall.steps {call : StreamCall} {fuel : Nat} {r : Except Exception Unit}
    (h : Alive c) (hp : call.Permitted c)
    (hrun : Prog.attempt (call.exec fuel) c = (.ok r, c')) : ConnectionSteps c c' := by
  cases call with
  | op o =>
      exact Op.attempt_steps h.members hrun
  | inSync =>
      rw [Prog.attempt_ok (inSync_run hp)] at hrun
      cases hrun
      exact .single (.ios _)

theorem StreamRun.alive {c₀ : Connection} (hr : StreamRun c₀ c) (h : Alive c₀) :
    Alive c ∧ c.world.io.sends ⊆ c₀.world.io.sends := by
  induction hr with
  | start => exact ⟨h, fun _ => id⟩
  | call _ hp hrun ih =>
      have hs := StreamCall.steps ih.1 hp hrun
      exact ⟨hs.alive ih.1, fun _ hx => ih.2 (hs.sends hx)⟩

/-- **No call is aborted**, in any run of an accepted connection whose calls are permitted and
whose client is tame. -/
theorem no_call_aborts {uninit : Uninit} {fuel : Nat} {w w' : World} {c₀ c : Connection}
    (hw : w.AllOrNothing) (haccept : accept uninit fuel w = (.ok c₀, w')) (hr : StreamRun c₀ c)
    {call : StreamCall} (hp : call.Permitted c) {fuel' : Nat}
    (ht : Tame inBufferSize (call.exec fuel' c).2.world.history) :
    (call.exec fuel' c).1 ≠ .error .abort := by
  obtain ⟨s₀, s₁, hacc, -, -, header, body, io, -, -, hread, hread', -, -⟩ := accept_ok haccept
  have hsends : c₀.world.io.sends ⊆ w.io.sends := by
    rw [hacc.world, ← (Io.read_sends hread).1, ← (Io.read_sends hread').1]
    exact hacc.read.atEnd.returned.reached.sends_subset
  obtain ⟨h, hsends'⟩ := hr.alive hacc.alive
  intro habort
  cases call with
  | op o =>
      have ha := (o.exec_steps fuel' h.members).of_error rfl (Prod.ext habort rfl)
      exact ha.not_tame h hp (hw.of_sends fun _ hx => hsends (hsends' hx)) ht
  | inSync =>
      rw [inSync_run hp] at habort
      cases habort

end alive

/-- A character is taken and put back, and output is written. -/
def callsBefore : List StreamCall :=
  [.op (.«in» .get), .op (.«in» .unget), .op (.out (.put 33)), .op (.err (.write [34, 35]))]

/-- Two characters are read, stdin is read to its end, and the connection is closed and used on. -/
def callsAfter : List StreamCall :=
  [.op (.«in» (.read 2)), .op (.«in» .get), .inSync, .op (.out .flush), .op .close,
    .op (.«in» .clear), .op (.«in» .unget), .op (.out .clear)]

/-- A bulk read after characters have been taken, put back and written, and a second `close()`
after the first, over a client that sends two characters with padding and the end of stdin. -/
theorem no_call_aborts_closed : ∃ c₀ w' c c', accept {} 9 (responderRequest
      [1, 5, 0, 1, 0, 2, 3, 0, 104, 105, 0, 0, 0, 1, 5, 0, 1, 0, 0, 0, 0]) = (.ok c₀, w') ∧
    StreamCall.makeAll 9 callsBefore c₀ = some c ∧
    ((StreamCall.op (.«in» (.read 2))).exec 9 c).1 ≠ .error .abort ∧
    StreamCall.makeAll 9 callsAfter c = some c' ∧
    ((StreamCall.op .close).exec 9 c').1 ≠ .error .abort := by
  obtain ⟨c₀, w', haccept, key⟩ := Prog.of_returns (r := accept {} 9 (responderRequest
      [1, 5, 0, 1, 0, 2, 3, 0, 104, 105, 0, 0, 0, 1, 5, 0, 1, 0, 0, 0, 0]))
    (p := fun (c₀ : Connection) _ => (StreamCall.makeAll 9 callsBefore c₀).any fun c =>
      decide ((StreamCall.op (.«in» (.read 2))).Permitted c ∧ Tame inBufferSize
        ((StreamCall.op (.«in» (.read 2))).exec 9 c).2.world.history) &&
      (StreamCall.makeAll 9 callsAfter c).any fun c' =>
        decide ((StreamCall.op .close).Permitted c' ∧
          Tame inBufferSize ((StreamCall.op .close).exec 9 c').2.world.history))
    (by decide +kernel)
  obtain ⟨c, hc, key⟩ := (Option.any_eq_true _ _).mp key
  obtain ⟨hread, key⟩ := Bool.and_eq_true_iff.mp key
  obtain ⟨c', hc', hclose⟩ := (Option.any_eq_true _ _).mp key
  obtain ⟨hp, ht⟩ := of_decide_eq_true hread
  obtain ⟨hp', ht'⟩ := of_decide_eq_true hclose
  have hrun : StreamRun c₀ c := StreamCall.streamRun_makeAll .start hc
  exact ⟨c₀, w', c, c', haccept, hc, no_call_aborts (.of_nil rfl) haccept hrun hp ht, hc',
    no_call_aborts (.of_nil rfl) haccept (StreamCall.streamRun_makeAll hrun hc') hp' ht'⟩

/-- `in().sync()` on a connection that has just been accepted terminates the process. -/
theorem in_sync_aborts : ∃ c₀ w', accept {} 9 (responderRequest []) = (.ok c₀, w') ∧
    (StreamCall.inSync.exec 9 c₀).1 = .error .abort :=
  ⟨_, _, rfl, by decide +kernel⟩

end Fcgi

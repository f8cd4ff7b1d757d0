import Fcgi.Input.Starved
import Fcgi.Connection.StreamCalls

/-!
# Connection — the reader after an exception

**`underflow_guarantee`**: an exception leaves the input buffer with its invariant, except where
the reader has starved in the call: a run of bytes that the reads have brought ends in padding, in
content to be discarded or in a part of a header, some of it behind the get area, and the next read
brings nothing.  Those bytes are passed over by then, and gptr() is past egptr().  A rejected header
or a reply that fails never breaks the invariant.

The theorem is about one call, from any state in which a call can be made (`ReaderState conn s`): of
a reader that is open, between two calls of `underflow()`.  `underflow_starved` says when gptr() is
past egptr(); the other clauses of `is_invariant_ok()` hold in every such state, as long as no
record announces more content than the buffer holds.
-/

namespace Fcgi
open Lib

section

variable {conn : ConnectionInfo} {s s' : State}

/-! ### The states of a reader -/

/-- The states of an open reader between two calls of `underflow()`: while `accept()` reads the
parameters, and in the connection it returns, whatever the application has called. -/
inductive ReaderState (conn : ConnectionInfo) : State → Prop
  | params {s₀ s : State} (h₀ : FreshReader conn.role .params inBufferSize s₀.buf)
      (hr : Reached conn ⟨.idle, s₀⟩ .idle s) : ReaderState conn s
  | input {uninit : Uninit} {fuel : Nat} {w w' : World} {c₀ c : Connection} {s : State}
      (haccept : accept uninit fuel w = (.ok c₀, w')) (hc : ConnectionSteps c₀ c)
      (hinfo : conn = c.info) (hr : Reached conn ⟨.idle, c.inState⟩ .idle s) : ReaderState conn s

/-- The buffer is an open reader's. -/
theorem ReaderState.openReader (h : ReaderState conn s) : OpenReader conn.role s.buf := by
  cases h with
  | params h₀ hr => exact hr.openReader
  | input _ _ _ hr => exact hr.openReader

/-- What it has still to read belongs to a record that has been dispatched. -/
theorem ReaderState.bounded (h : ReaderState conn s) : Bounded inBufferSize s := by
  cases h with
  | params h₀ hr => exact hr.bounded h₀.bounded
  | input haccept hc _ hr =>
      obtain ⟨s₀, s₁, hacc, -⟩ := accept_ok haccept
      exact hr.bounded (hc.alive hacc.alive).bounded

/-- An exit of `underflow()` that is neither a return, nor an exception, nor for want of fuel, is
a failed assertion. -/
theorem ReaderState.fault (hs : ReaderState conn s) {fuel : Nat} {x : Fault Exception}
    (h : underflow conn fuel s = (.error x, s')) :
    ReaderFault conn ⟨.loop [] false, s.entered⟩ x s' := by
  have ho := hs.openReader
  rw [ho.underflow_eq] at h
  by_cases he : s.buf.isEndOfStream_ = true
  · rw [if_pos he] at h
    cases h
  · rw [if_neg he] at h
    have hround : Round conn ⟨.loop [] false, s.entered⟩ [] s.entered :=
      ⟨⟨.refl, ho⟩, Nat.zero_le _, .inl rfl, fun e => absurd e he⟩
    exact (underflowLoop_steps fuel []).of_error hround h

/-! ### When it throws -/

/-- **The guarantee of `underflow()`.**  When it throws, its invariant holds if and only if the
reader has not starved in the call. -/
theorem underflow_guarantee {fuel : Nat} {e : Exception} (hs : ReaderState conn s)
    (h : underflow conn fuel s = (.error (.exc e), s'))
    (hsmall : ∀ d ∈ s'.world.history.dispatches, d.header.protocolVersion = 1 →
      d.header.contentLength ≤ inBufferSize) :
    s'.buf.InvariantOk conn.role ↔
      ¬ (s'.world.history.since s.world.history).Starved conn := by
  have hr : Reached conn ⟨.loop [] false, s.entered⟩ .idle s' := hs.fault h
  rw [← underflow_starved hs.openReader h, Nat.not_lt]
  exact ⟨hr.openReader.gptr_le_egptr,
    hr.openReader.invariantOk ((hr.bounded hs.bounded.entered).le hsmall)⟩

end

/-- A client that cuts its records wherever it likes: one of stdin with padding, and one of another
request, after which it closes. -/
def cutRequest : World where
  io := { incoming := [.data [1, 1, 0, 1, 0, 8, 0, 0, 0, 1, 0, 0, 0, 0, 0, 0,
    1, 4, 0, 1, 0, 0, 0, 0, 1, 5, 0, 1], .data [0, 4, 3, 0, 104, 105], .data [33],
    .data [34, 0], .data [0, 0, 1, 5, 0, 2, 0, 3, 2, 0, 7], .data [7, 7, 0, 0, 9]] }

/-- A client that cuts the padding of its record, sends the rest of it with the beginning of
another header, and closes. -/
def cutPadding : World where
  io := { incoming := [.data [1, 1, 0, 1, 0, 8, 0, 0, 0, 1, 0, 0, 0, 0, 0, 0,
    1, 4, 0, 1, 0, 0, 0, 0], .data [1, 5, 0, 1, 0, 2, 5, 0, 104, 105, 0, 0],
    .data [0, 0, 0, 1, 5, 0, 1]] }

/-- The client `w` closes, and the call of `underflow()` that comes to it, once `n` characters have
been read, leaves a state in `p`. -/
def ClosedAfter (w : World) (n : Nat) (p : Connection → State → Prop) : Prop :=
  ∃ c w' c' e s', accept {} 99 w = (.ok c, w') ∧ run 99 [.«in» (.read n)] c = (.ok (), c') ∧
    underflow c'.info 99 c'.inState = (.error (.exc e), s') ∧ p c' s'

/-- What is evaluated to find that out, for a connection that has been accepted. -/
def Closes (c : Connection) (n : Nat) (starved : Bool) : Bool :=
  Prog.returns (fun _ c' =>
    let s' := (underflow c'.info 99 c'.inState).2
    decide ((underflow c'.info 99 c'.inState).1 =
        .error (.exc (.fcgi "FastCGI protocol violation")) ∧
      (∀ d ∈ s'.world.history.dispatches, d.header.protocolVersion = 1 →
        d.header.contentLength ≤ inBufferSize) ∧
      decide ((s'.world.history.since c'.inState.world.history).Starved c'.info) = starved))
    (run 99 [.«in» (.read n)] c)

/-- A connection from which has been read is in such a state. -/
theorem ReaderState.read {w w' : World} {c c' : Connection} {n : Nat}
    (haccept : accept {} 99 w = (.ok c, w')) (hrun : run 99 [.«in» (.read n)] c = (.ok (), c')) :
    ReaderState c'.info c'.inState := by
  obtain ⟨s₀, s₁, hacc, -⟩ := accept_ok haccept
  have hread := (run_in 99 [.read n] (c := c)).of_ok
    ⟨⟨.refl, hacc.readOnly.reached.openReader⟩, rfl, rfl, rfl⟩ hrun
  rw [hread.info]
  exact .input haccept .refl rfl hread.reached

/-- In the first request the rest of a record of another request is passed over, and a byte of what
follows, behind the header; in the second the padding and the beginning of a header, which a read
has brought by themselves. -/
theorem underflow_guarantee_cut :
    ClosedAfter cutRequest 4 (fun c s => ¬ s.buf.InvariantOk c.role_) ∧
      ClosedAfter cutPadding 2 fun c s => s.buf.InvariantOk c.role_ := by
  constructor
  · obtain ⟨c, w', haccept, key⟩ := Prog.of_returns (r := accept {} 99 cutRequest)
      (p := fun (c : Connection) _ => Closes c 4 true) (by decide +kernel)
    obtain ⟨_, c', hrun, key⟩ := Prog.of_returns key
    obtain ⟨hthrow, hsmall, hstarved⟩ := of_decide_eq_true key
    refine ⟨c, w', c', _, _, haccept, hrun, Prod.ext hthrow rfl, fun hi => ?_⟩
    exact (underflow_guarantee (.read haccept hrun) (Prod.ext hthrow rfl) hsmall).mp hi
      (of_decide_eq_true hstarved)
  · obtain ⟨c, w', haccept, key⟩ := Prog.of_returns (r := accept {} 99 cutPadding)
      (p := fun (c : Connection) _ => Closes c 2 false) (by decide +kernel)
    obtain ⟨_, c', hrun, key⟩ := Prog.of_returns key
    obtain ⟨hthrow, hsmall, hstarved⟩ := of_decide_eq_true key
    refine ⟨c, w', c', _, _, haccept, hrun, Prod.ext hthrow rfl, ?_⟩
    exact (underflow_guarantee (.read haccept hrun) (Prod.ext hthrow rfl) hsmall).mpr
      (of_decide_eq_false hstarved)

/-- The peer closes in the middle of the padding: gptr() stays past egptr(). -/
theorem underflow_no_guarantee : ∃ c w' c' e s',
    accept {} 9 (responderRequest [1, 5, 0, 1, 0, 1, 7, 0, 65, 0, 0, 0]) = (.ok c, w') ∧
    (Op.«in» .get).exec 9 c = (.ok (), c') ∧
    underflow c'.info 9 c'.inState = (.error (.exc e), s') ∧
    (∀ d ∈ s'.world.history.dispatches, d.header.protocolVersion = 1 →
      d.header.contentLength ≤ inBufferSize) ∧
    s'.buf.egptr < s'.buf.gptr ∧ ¬ s'.buf.InvariantOk c'.role_ := by
  obtain ⟨c, w', haccept, key⟩ := Prog.of_returns
    (r := accept {} 9 (responderRequest [1, 5, 0, 1, 0, 1, 7, 0, 65, 0, 0, 0]))
    (p := fun (c : Connection) _ =>
      let c' := ((Op.«in» .get).exec 9 c).2
      let s' := (underflow c'.info 9 c'.inState).2
      decide (((Op.«in» .get).exec 9 c).1 = .ok () ∧ (underflow c'.info 9 c'.inState).1 =
          .error (.exc (.fcgi "FastCGI protocol violation")) ∧
        (∀ d ∈ s'.world.history.dispatches, d.header.protocolVersion = 1 →
          d.header.contentLength ≤ inBufferSize) ∧
        s'.buf.egptr < s'.buf.gptr ∧ ¬ s'.buf.InvariantOk c'.role_)) (by decide +kernel)
  obtain ⟨hget, hrun, h⟩ := of_decide_eq_true key
  exact ⟨c, w', _, _, _, haccept, Prod.ext hget rfl, Prod.ext hrun rfl, h⟩

end Fcgi

import Fcgi.Basics.Conversation
import Fcgi.Input.Inlet
import Fcgi.Connection.Intact

/-!
# Connection — an application and its input

An application chooses each call by what the calls before it have returned.  It can be run with a
connection (`Application.exec`), and its runs are then runs of the calls it makes
(`Application.exec_run`); and with an input in parts alone (`Application.model`), where there are no
records, no buffers and no transport.

**`Application.refined`**: with enough fuel, both are the same.

The relation kept is `Provides`: the input stream is where the input in parts is, the output buffers
are writable, and the request has not been rejected.  A call on the input stream does what the same
read of the parts does, for `underflow()` is their source (`InOp.call_feed`); a call on an output
stream sends records and does not touch the input (`Provides.call`).  The induction is on the
application.
-/

namespace Fcgi
open Lib

/-! ### Calls that return something -/

/-- The characters that a call on `in()` hands over. -/
def InOp.call (conn : ConnectionInfo) (fuel : Nat) (is : Istream) :
    InOp → M (List UInt8 × Istream)
  | .get => do
    let (c, is) ← is.get (underflow conn fuel)
    pure (c.toList, is)
  | .peek => do
    let (c, is) ← is.peek (underflow conn fuel)
    pure (c.toList, is)
  | .read n => do
    let (cs, is) ← is.read (underflow conn fuel) n
    pure (cs, is)
  | .unget => do
    let is ← is.unget
    pure ([], is)
  | .clear => pure ([], is.clear)

/-- The characters that a call hands over. -/
def Op.call (fuel : Nat) : Op → Connection.M (List UInt8)
  | .«in» op => do
    let c ← Prog.get
    let (cs, is) ← Connection.onIn fun conn => op.call conn fuel c.in_.ios
    Prog.modify fun c => { c with in_.ios := is }
    pure cs
  | op => do
    op.exec fuel
    pure []

/-- What an application does: it calls, and goes on by what the call returns or throws. -/
inductive Application where
  | done
  | call (op : Op) (next : Except Exception (List UInt8) → Application)

/-- The calls that are made, and what they return. -/
abbrev Trace := List (Op × Except Exception (List UInt8))

namespace Application

/-- With a connection. -/
def exec (fuel : Nat) : Application → Connection.M Trace
  | .done => pure []
  | .call op next => do
    let r ← Prog.attempt (op.call fuel)
    let tr ← (next r).exec fuel
    pure ((op, r) :: tr)

end Application

/-! ### The same calls, with an input in parts -/

/-- What a call hands over, and what it leaves.  It may not be closing, nor putting back a
character that may not be at hand. -/
def Op.feed (f : Feed UInt8) : Op → Option (List UInt8 × Feed UInt8)
  | .«in» .get => some (f.read 1)
  | .«in» .peek => some f.peek
  | .«in» (.read n) => some (f.read n)
  | .«in» .unget => f.unget.map fun f => ([], f)
  | .«in» .clear => some ([], f.clear)
  | .close => none
  | _ => some ([], f)

namespace Application

/-- With an input in parts. -/
def model : Application → Feed UInt8 → Option (Trace × Feed UInt8)
  | .done, f => some ([], f)
  | .call op next, f => do
    let (cs, f) ← op.feed f
    let (tr, f) ← (next (.ok cs)).model f
    pure ((op, .ok cs) :: tr, f)

/-- The first call, and the run after it. -/
theorem model_cons {op : Op} {next : Except Exception (List UInt8) → Application}
    {f f₁ f' : Feed UInt8} {cs : List UInt8} {tr : Trace} (hop : op.feed f = some (cs, f₁))
    (hnext : (next (.ok cs)).model f₁ = some (tr, f')) :
    (Application.call op next).model f = some ((op, .ok cs) :: tr, f') := by
  simp [model, hop, hnext]

/-- A run that begins with a call is the call and a run after it. -/
theorem model_call {op : Op} {next : Except Exception (List UInt8) → Application}
    {f f' : Feed UInt8} {tr : Trace} (h : (Application.call op next).model f = some (tr, f')) :
    ∃ cs f₁ tr', op.feed f = some (cs, f₁) ∧ (next (.ok cs)).model f₁ = some (tr', f') ∧
      tr = (op, .ok cs) :: tr' := by
  obtain ⟨⟨cs, f₁⟩, hop, h⟩ := Option.bind_eq_some_iff.mp h
  obtain ⟨⟨tr', f₂⟩, hnext, h⟩ := Option.bind_eq_some_iff.mp h
  cases h
  exact ⟨cs, f₁, tr', hop, hnext, rfl⟩

end Application

/-! ### The runs of an application -/

section

variable {conn : ConnectionInfo} {fuel : Nat} {c c' : Connection}

/-- A call on the input stream, without what it hands over. -/
theorem InOp.exec_eq (op : InOp) (is : Istream) :
    op.exec conn fuel is = (op.call conn fuel is >>= fun p => pure p.2) := by
  cases op <;> simp [InOp.exec, InOp.call]

/-- A call on the input stream is made on the buffer of the connection. -/
theorem Op.call_in_ok {op : InOp} {cs : List UInt8} {is : Istream} {s : State}
    (h : op.call c.info fuel c.in_.ios c.inState = (.ok (cs, is), s)) :
    (Op.«in» op).call fuel c = (.ok cs, { c.setIn s with in_.ios := is }) := by
  rw [Op.call, Prog.bind_ok (Prog.get_run _),
    Prog.bind_ok (Connection.onIn_run (m := fun conn => op.call conn fuel c.in_.ios) h)]
  rfl

theorem Op.call_in_error {op : InOp} {x : Fault Exception} {s : State}
    (h : op.call c.info fuel c.in_.ios c.inState = (.error x, s)) :
    (Op.«in» op).call fuel c = (.error x, c.setIn s) := by
  rw [Op.call, Prog.bind_ok (Prog.get_run _),
    Prog.bind_error (Connection.onIn_run (m := fun conn => op.call conn fuel c.in_.ios) h)]

/-- What a call does is what it does without its result. -/
theorem Op.exec_call (op : Op) :
    op.exec fuel c = (op.call fuel >>= fun _ => pure () : Connection.M Unit) c := by
  cases op with
  | «in» op =>
      rw [Op.exec, Prog.bind_ok (Prog.get_run _)]
      rcases e : op.call c.info fuel c.in_.ios c.inState with ⟨x | ⟨cs, is⟩, s⟩
      · have hexec : op.exec c.info fuel c.in_.ios c.inState = (.error x, s) := by
          rw [op.exec_eq, Prog.bind_error e]
        rw [Prog.bind_error (Connection.onIn_run (m := fun conn => op.exec conn fuel c.in_.ios)
          hexec), Prog.bind_error (Op.call_in_error e)]
      · have hexec : op.exec c.info fuel c.in_.ios c.inState = (.ok is, s) := by
          rw [op.exec_eq, Prog.bind_ok e]
          rfl
        rw [Prog.bind_ok (Connection.onIn_run (m := fun conn => op.exec conn fuel c.in_.ios)
          hexec), Prog.bind_ok (Op.call_in_ok e)]
        rfl
  | _ => simp [Op.call]

/-- An application goes on after an exception, as a run does. -/
theorem Op.attempt_call {op : Op} {r : Except Exception (List UInt8)}
    (h : Prog.attempt (op.call fuel) c = (.ok r, c')) :
    ∃ r', Prog.attempt (op.exec fuel) c = (.ok r', c') := by
  rcases e : op.call fuel c with ⟨x | cs, c₁⟩
  · cases x with
    | exc x =>
        cases (Prog.attempt_exc e).symm.trans h
        exact ⟨_, Prog.attempt_exc (by rw [op.exec_call, Prog.bind_error e])⟩
    | _ =>
        rw [Prog.attempt, e] at h
        cases h
  · cases (Prog.attempt_ok e).symm.trans h
    exact ⟨_, Prog.attempt_ok (by rw [op.exec_call, Prog.bind_ok e]; rfl)⟩

/-- **The runs of an application** are runs of the calls it makes. -/
theorem Application.exec_run {app : Application} {tr : Trace}
    (h : app.exec fuel c = (.ok tr, c')) : run fuel (tr.map Prod.fst) c = (.ok (), c') := by
  induction app generalizing c tr with
  | done =>
      cases h
      rfl
  | call op next ih =>
      obtain ⟨r, c₁, hcall, h⟩ := Prog.bind_eq_ok h
      obtain ⟨tr', c₂, hnext, h⟩ := Prog.bind_eq_ok h
      cases h
      obtain ⟨r', hexec⟩ := Op.attempt_call hcall
      rw [List.map_cons, run, Prog.bind_ok hexec]
      exact ih r hnext

/-! ### The refinement -/

/-- What has been written does not reject the request. -/
def Accepting (id : Nat) (w : World) : Prop :=
  ∃ rs : List Record, w.io.written = Frame.join rs ∧ ∀ r ∈ rs, ¬ r.Rejects id

/-- The connection is where the reader of the input is, and can be written to. -/
structure Provides (f : Feed UInt8) (c : Connection) : Prop where
  input : At (InletAt c.info inBufferSize c.world.io.written) f c.in_.ios c.inState
  writable : Writable c
  id : c.requestId_ ≠ 0
  accepting : Accepting c.requestId_ c.world

/-- A record of an output stream does not reject the request. -/
theorem OutputRecord.not_rejects {id : Nat} {r : Record} (h : OutputRecord id r) :
    ¬ r.Rejects id := by
  obtain ⟨-, t, ht, hr⟩ := h
  intro hrejects
  have := hr.recordType.symm.trans hrejects.2.1
  rcases ht with rfl | rfl <;> cases this

theorem Accepting.of_eq {id : Nat} {w w' : World} (h : Accepting id w)
    (hw : w'.io.written = w.io.written) : Accepting id w' := by
  obtain ⟨rs, hrs, hplain⟩ := h
  exact ⟨rs, hw.trans hrs, hplain⟩

theorem Accepting.append {id : Nat} {w w' : World} {rs : List Record} (h : Accepting id w)
    (hrs : ∀ r ∈ rs, ¬ r.Rejects id) (hw : w'.io.written = w.io.written ++ Frame.join rs) :
    Accepting id w' := by
  obtain ⟨rs₀, hrs₀, hplain⟩ := h
  exact ⟨rs₀ ++ rs, by rw [hw, hrs₀, Frame.join_append],
    fun r hr => (List.mem_append.mp hr).elim (hplain r) (hrs r)⟩

/-- **A call on the input stream** hands over what the parts hand over, and leaves the stream where
they are. -/
theorem InOp.call_feed {R : List (List UInt8) → Option UInt8 → State → Prop}
    (hu : Source (underflow conn) R) {op : InOp} {f f' : Feed UInt8} {cs : List UInt8}
    {is : Istream} {s : State} (h : At R f is s) (hop : (Op.«in» op).feed f = some (cs, f')) :
    ∃ is' s', Prog.Runs (fun n => op.call conn n is) s (.ok (cs, is')) s' ∧ At R f' is' s' := by
  cases op with
  | get =>
      obtain ⟨r, is', s', hrun, hr, h'⟩ := hu.get h
      rw [show f.read 1 = (cs, f') from Option.some.inj hop] at hr h'
      obtain rfl : r.toList = cs := hr
      exact ⟨is', s', hrun.andThen rfl, h'⟩
  | peek =>
      obtain ⟨r, is', s', hrun, hr, h'⟩ := hu.peek h
      rw [show f.peek = (cs, f') from Option.some.inj hop] at hr h'
      obtain rfl : r.toList = cs := hr
      exact ⟨is', s', hrun.andThen rfl, h'⟩
  | read n =>
      obtain ⟨is', s', hrun, h'⟩ := hu.read h n
      rw [show f.read n = (cs, f') from Option.some.inj hop] at hrun h'
      exact ⟨is', s', hrun.andThen rfl, h'⟩
  | unget =>
      obtain ⟨f₁, hf, e⟩ := Option.map_eq_some_iff.mp hop
      cases e
      obtain ⟨is', s', hrun, h'⟩ := hu.unget h hf
      exact ⟨is', s', .of_eq fun n => Prog.bind_ok hrun, h'⟩
  | clear =>
      cases hop
      exact ⟨is.clear, s, .of_eq fun _ => rfl, h.source, by simp [Istream.clear, Istream.good,
        Feed.clear], fun _ => rfl⟩

/-- An output call takes no fuel. -/
theorem Op.call_output {op : Op} (hop : op.isOutput = true) (n m : Nat) :
    op.call n = op.call m := by
  cases op <;> first | rfl | cases hop

/-- **One call.** -/
theorem Provides.call {f f' : Feed UInt8} {op : Op} {cs : List UInt8} (h : Provides f c)
    (hop : op.feed f = some (cs, f')) :
    ∃ c', Prog.Runs (fun n => op.call n) c (.ok cs) c' ∧ Provides f' c' ∧
      c'.role_ = c.role_ ∧ c'.applicationStatus_ = op.status c.applicationStatus_ := by
  by_cases hout : op.isOutput = true
  · obtain ⟨rs, c', hrun, hw⟩ := @Op.exec_wrote 0 c h.writable op hout
    have hfeed : cs = [] ∧ f' = f := by
      cases op <;> first | cases hout; done | skip
      all_goals
        cases hop
        exact ⟨rfl, rfl⟩
    obtain ⟨rfl, rfl⟩ := hfeed
    have hwritten : c'.world.io.written = c.world.io.written ++ Frame.join rs := by
      rw [hw.world]
      rfl
    refine ⟨c', .of_eq fun n => ?_, ⟨?_, hw.writable h.writable, hw.requestId.symm ▸ h.id,
      hw.requestId.symm ▸ h.accepting.append (fun r hr => (hw.records r hr).not_rejects) hwritten⟩,
      hw.role, hw.status⟩
    · rw [Op.call_output hout n 0]
      cases op <;> first | cases hout; done | skip
      all_goals exact Prog.bind_ok hrun
    · obtain ⟨⟨hin, hlast⟩, hgood, hl⟩ := h.input
      have hsent := @Inlet.send _ c'.info _ _ _ _ hin hw.role hw.requestId (Frame.join rs)
      rw [← hwritten] at hsent
      have hs : c'.inState = ⟨c.inState.buf, c.inState.world.send (Frame.join rs)⟩ := by
        rw [Connection.inState, hw.in_, hw.world]
        rfl
      exact ⟨⟨hs ▸ hsent, fun c hc => ⟨(hlast c hc).1, hs ▸ (hlast c hc).2⟩⟩,
        by rw [hw.in_, hgood], hl⟩
  · cases op with
    | «in» op =>
        obtain ⟨is', s', hrun, h'⟩ := InOp.call_feed (inlet_source h.id) h.input hop
        have hrun' : Prog.Runs (fun n => (Op.«in» op).call n) c (.ok cs)
            { c.setIn s' with in_.ios := is' } :=
          hrun.transfer (fun n hn => by
            rcases e : op.call c.info n c.in_.ios c.inState with ⟨x, s⟩
            rw [e] at hn
            dsimp only at hn
            rw [hn] at e
            rw [Op.call_in_error e]) fun n hn => Op.call_in_ok hn
        have hwritten : s'.world.io.written = c.world.io.written := h'.source.1.written
        rw [← hwritten] at h'
        refine ⟨_, hrun', ⟨h', ?_, h.id, h.accepting.of_eq hwritten⟩, rfl, rfl⟩
        -- With enough fuel, the call only reads.
        obtain ⟨N, hN⟩ := hrun'
        have hexec : (Op.«in» op).exec N c = (.ok (), { c.setIn s' with in_.ios := is' }) := by
          rw [Op.exec_call, Prog.bind_ok ((hN N).2 (Nat.le_refl N))]
          rfl
        exact h.writable.read rfl ((Op.exec_in_steps op).of_ok
          ⟨⟨.refl, h.writable.in_⟩, rfl, rfl, rfl⟩ hexec)
    | close => cases hop
    | _ => exact absurd rfl hout

/-- **An application sees the input in parts.**  With enough fuel it makes the calls it makes with
this input alone, and they return the same. -/
theorem Application.refined {app : Application} {f f' : Feed UInt8} {tr : Trace}
    (h : Provides f c) (hmodel : app.model f = some (tr, f')) :
    ∃ c', Prog.Runs (fun n => app.exec n) c (.ok tr) c' ∧ Provides f' c' ∧
      c'.role_ = c.role_ ∧
      c'.applicationStatus_ = (tr.map Prod.fst).foldl Op.status c.applicationStatus_ := by
  induction app generalizing c f tr with
  | done =>
      cases hmodel
      exact ⟨c, .of_eq fun _ => rfl, h, rfl, rfl⟩
  | call op next ih =>
      obtain ⟨cs, f₁, tr', hop, hnext, rfl⟩ := Application.model_call hmodel
      obtain ⟨c₁, hrun, h₁, hr₁, hs₁⟩ := h.call hop
      obtain ⟨c', hruns, h', hr', hs'⟩ := ih _ h₁ hnext
      refine ⟨c', hrun.attempt.bind (g := fun r n => (next r).exec n >>= fun tr =>
        pure ((op, r) :: tr)) (hruns.andThen rfl), h', hr'.trans hr₁, ?_⟩
      rw [hs', hs₁]
      rfl

end

end Fcgi

import Fcgi.Connection.Lifetime

/-!
# Connection — what is written arrives

`Carried ops c`: of the bytes that the calls `ops` have written to a stream, those that are not on
the wire are in its put area, in the same order.  The calls may be made in any order, with reads
between them, which have answers sent, and closing among them.

**`output_delivered`**: if no write fails, the contents of the records of either stream are what
was written to it when the connection has been destroyed.

A call on one of the output streams sends records whose contents are what was pending and what it
was given (`Carried.wrote`); a call that reads sends answers, which are no records of an output
stream (`Carried.idles`).  The destructor closes both streams, so nothing is left in a put area.
-/

namespace Fcgi
open Lib

/-- What has been written to the buffer and not been sent. -/
def ServerStreambuf.left (b : ServerStreambuf) : List UInt8 :=
  if b.isClosed then [] else b.pending

/-- The bytes written to either stream are on the wire or in its put area. -/
def Carried (ops : List Op) (c : Connection) : Prop :=
  ∃ rs : List Record, c.world.io.written = Frame.join rs ∧
    streamContent .out rs ++ c.out_.streambuf_.left = ops.flatMap Op.outBytes ∧
    streamContent .err rs ++ c.err_.streambuf_.left = ops.flatMap Op.errBytes

/-- What an open buffer has not sent is what is pending. -/
theorem Writer.left {t : StreamType} {b : ServerStreambuf} (h : Writer t false b) :
    b.left = b.pending := by
  rw [ServerStreambuf.left, h.not_isClosed, if_neg Bool.false_ne_true]

/-! ### Answers -/

/-- An answer is no record of an output stream. -/
theorem Reply.recordType_ne {conn : ConnectionInfo} {t t' : StreamType} {h : Header} {r : Record}
    (hr : Reply conn t' h r) (ht : t = .out ∨ t = .err) : r.recordType ≠ t.recordType := by
  intro e
  cases hr with
  | endRequest => rcases ht with rfl | rfl <;> cases e
  | unknownType => rcases ht with rfl | rfl <;> cases e
  | getValuesResult _ _ hrt => rcases ht with rfl | rfl <;> cases hrt.symm.trans e

/-- What a reader sends carries no output. -/
theorem Reached.answers {conn : ConnectionInfo} {s₀ s : State} {m : Mode}
    (hr : Reached conn ⟨.idle, s₀⟩ m s) : ∃ rs : List Record,
      s.world.io.written = s₀.world.io.written ++ Frame.join rs ∧
      ∀ t, t = .out ∨ t = .err → streamContent t rs = [] := by
  refine hr.invariant (I := fun c => ∃ rs : List Record,
    c.state.world.io.written = s₀.world.io.written ++ Frame.join rs ∧
    ∀ t, t = .out ∨ t = .err → streamContent t rs = []) (fun {c c'} hs h => ?_)
    ⟨[], by rw [Frame.join_nil, List.append_nil], fun _ _ => rfl⟩
  obtain ⟨rs, hw, hrs⟩ := h
  have hsame : c'.state.world.io.written = c.state.world.io.written → ∃ rs : List Record,
      c'.state.world.io.written = s₀.world.io.written ++ Frame.join rs ∧
      ∀ t, t = .out ∨ t = .err → streamContent t rs = [] := fun h => ⟨rs, h.trans hw, hrs⟩
  cases hs with
  | recv _ hread _ => exact hsame (Io.read_sends hread).2
  | recvNone _ hread _ => exact hsame (Io.read_sends hread).2
  | @reply hb b w r hr hd =>
      have hw : w.io.written = s₀.world.io.written ++ Frame.join rs := hw
      refine ⟨rs ++ [r], ?_, fun t ht => ?_⟩
      · change w.io.written ++ r.bytes = _
        rw [hw, Frame.join_append, Frame.join_cons, Frame.join_nil, List.append_nil,
          List.append_assoc]
      · rw [streamContent_append, hrs t ht, List.nil_append]
        refine streamContent_eq_nil fun r' hr' e => ?_
        obtain rfl := List.mem_singleton.mp hr'
        exact absurd e (hr.recordType_ne ht)
  | _ => exact hsame rfl

/-! ### Runs -/

section

variable {c c' : Connection} {fuel : Nat}

/-- A call that writes nothing keeps what has been carried. -/
theorem Carried.idles {ops : List Op} {op : Op} (h : Carried ops c) (hi : Idles op c c') :
    Carried (ops ++ [op]) c' := by
  obtain ⟨rs, hw, hout, herr⟩ := h
  refine ⟨rs, by rw [hi.world, hw], ?_, ?_⟩
  · rw [hi.out.1, hout, List.flatMap_append, List.flatMap_singleton, hi.out.2, List.append_nil]
  · rw [hi.err.1, herr, List.flatMap_append, List.flatMap_singleton, hi.err.2, List.append_nil]

/-- Calls that write add what they are given. -/
theorem Carried.wrote {ops ops' : List Op} {rs : List Record} (h : Carried ops c)
    (hc : Writable c) (hw : Wrote ops' rs c c') : Carried (ops ++ ops') c' := by
  obtain ⟨rs₀, hrs₀, hout, herr⟩ := h
  have hc' := hw.writable hc
  refine ⟨rs₀ ++ rs, ?_, ?_, ?_⟩
  · rw [hw.world, Frame.join_append, ← hrs₀]
    rfl
  · rw [streamContent_append, List.append_assoc, hc'.out.left, hw.out.content, ← hc.out.left,
      ← List.append_assoc, hout, List.flatMap_append]
  · rw [streamContent_append, List.append_assoc, hc'.err.left, hw.err.content, ← hc.err.left,
      ← List.append_assoc, herr, List.flatMap_append]

/-- Reading has only answers sent. -/
theorem Carried.read {ops : List Op} {op : Op} (h : Carried ops c)
    (hop : op.outBytes = [] ∧ op.errBytes = []) (hro : ReadOnly ⟨.idle, c.inState⟩ c c') :
    Carried (ops ++ [op]) c' := by
  obtain ⟨rs₀, hrs₀, hout, herr⟩ := h
  obtain ⟨rs, hw, hrs⟩ := hro.reached.answers
  have hw : c'.world.io.written = c.world.io.written ++ Frame.join rs := hw
  refine ⟨rs₀ ++ rs, by rw [hw, hrs₀, Frame.join_append], ?_, ?_⟩
  · rw [streamContent_append, hrs .out (.inl rfl), hro.out, List.append_nil, hout,
      List.flatMap_append, List.flatMap_singleton, hop.1, List.append_nil]
  · rw [streamContent_append, hrs .err (.inr rfl), hro.err, List.append_nil, herr,
      List.flatMap_append, List.flatMap_singleton, hop.2, List.append_nil]

/-- Closing sends what is left. -/
theorem Carried.closed {ops : List Op} {errs outs rs : List Record} {w : World}
    (h : Carried ops c) (hc : Writable c) (hclosing : Closing c errs outs rs)
    (hw : w = c.world.send (Frame.join rs)) :
    ∃ rs' : List Record, w.io.written = Frame.join rs' ∧
      streamContent .out rs' = ops.flatMap Op.outBytes ∧
      streamContent .err rs' = ops.flatMap Op.errBytes ∧ rs <:+ rs' := by
  obtain ⟨rs₀, hrs₀, hout, herr⟩ := h
  refine ⟨rs₀ ++ rs, ?_, ?_, ?_, List.suffix_append _ _⟩
  · rw [hw, Frame.join_append, ← hrs₀]
    rfl
  · rw [streamContent_append, hclosing.content_out hc.id, ← hc.out.left, hout]
  · rw [streamContent_append, hclosing.content_err hc.id, ← hc.err.left, herr]

/-- Every call keeps this. -/
theorem IntactStep.carried {ops : List Op} {op : Op} (hs : IntactStep op c c')
    (h : Carried ops c) : Carried (ops ++ [op]) c' := by
  cases hs with
  | wrote hc hw => exact h.wrote hc hw
  | read _ hop hro => exact h.read hop hro
  | closed hc hop hclosing hshut hw =>
      subst hop
      obtain ⟨rs, hrs, hout, herr, -⟩ := h.closed hc hclosing hw
      refine ⟨rs, hrs, ?_, ?_⟩
      · rw [ServerStreambuf.left, if_pos hshut.closed.out, List.append_nil, hout]
        simp [Op.outBytes]
      · rw [ServerStreambuf.left, if_pos hshut.closed.err, List.append_nil, herr]
        simp [Op.errBytes]
  | refused _ hop _ =>
      subst hop
      obtain ⟨rs, hrs, hout, herr⟩ := h
      exact ⟨rs, hrs, by rw [hout]; simp [Op.outBytes], by rw [herr]; simp [Op.errBytes]⟩
  | idles _ hi => exact h.idles hi

/-- A new connection has written nothing. -/
theorem accept_carried {uninit : Uninit} {w w' : World} (hw : w.io.written = [])
    (hsends : w.io.sends = []) (haccept : accept uninit fuel w = (.ok c, w')) :
    Carried [] c := by
  obtain ⟨s₀, s₁, hacc, -, -, header, body, io, -, -, hread, hread', -, -⟩ := accept_ok haccept
  have hs₀ : s₀.world.io.written = [] := by
    rw [(Io.read_sends hread').2, (Io.read_sends hread).2, hw]
  have hsends₀ : s₀.world.io.sends = [] := by
    rw [(Io.read_sends hread').1, (Io.read_sends hread).1, hsends]
  obtain ⟨rs, hrs, hcontent⟩ := hacc.read.atEnd.returned.reached.answers
  have hc := hacc.writable hsends₀ hacc.readOnly
  refine ⟨rs, by rw [hacc.world, hrs, hs₀, List.nil_append], ?_, ?_⟩
  · rw [hcontent .out (.inl rfl), hc.out.left, hacc.out.pending]
    rfl
  · rw [hcontent .err (.inr rfl), hc.err.left, hacc.err.pending]
    rfl

/-- **What is written arrives.**  If no write fails and the run ends, then of either stream the
client gets what the application has written to it, and nothing else, in whatever order the calls
are made; if the request is not completed, the first part of it. -/
theorem output_delivered {uninit : Uninit} {w w' : World} {ops : List Op}
    (hw : w.io.written = []) (hsends : w.io.sends = [])
    (haccept : accept uninit fuel w = (.ok c, w')) (hrun : run fuel ops c = (.ok (), c')) :
    ∃ rs : List Record, (lifetime uninit fuel ops w).2.io.written = Frame.join rs ∧
      streamContent .out rs <+: ops.flatMap Op.outBytes ∧
      streamContent .err rs <+: ops.flatMap Op.errBytes ∧
      (c'.out_.streambuf_.isClosed = true ∨ MayClose c'.role_ c'.in_.streambuf_ →
        streamContent .out rs = ops.flatMap Op.outBytes ∧
        streamContent .err rs = ops.flatMap Op.errBytes) := by
  obtain ⟨hintact, hcarried⟩ := (run_intact fuel (I := Carried) (fun hs h => hs.carried h) ops
    []).of_ok ⟨.inl (accept_intact hsends haccept), accept_carried hw hsends haccept⟩ hrun
  rw [List.nil_append] at hcarried
  rw [lifetime_run haccept hrun]
  rcases hintact with hopen | hshut
  · by_cases hmay : MayClose c'.role_ c'.in_.streambuf_
    · obtain ⟨errs, outs, rs, c'', hclosing, hworld, hdestroy⟩ := hopen.destroy hmay
      obtain ⟨rs', hrs', hout, herr, -⟩ := hcarried.closed hopen hclosing hworld
      rw [hdestroy]
      exact ⟨rs', hrs', hout ▸ List.prefix_rfl, herr ▸ List.prefix_rfl,
        fun _ => ⟨hout, herr⟩⟩
    · obtain ⟨rs, hrs, hout, herr⟩ := hcarried
      obtain ⟨c'', hworld, hdestroy⟩ := hopen.destroy_not_may hmay
      rw [hdestroy, hworld]
      refine ⟨rs, hrs, ⟨_, hout⟩, ⟨_, herr⟩, fun h => ?_⟩
      rcases h with h | h
      · cases hopen.out.not_isClosed.symm.trans h
      · exact absurd h hmay
  · obtain ⟨rs, hrs, hout, herr⟩ := hcarried
    rw [ServerStreambuf.left, if_pos hshut.closed.out, List.append_nil] at hout
    rw [ServerStreambuf.left, if_pos hshut.closed.err, List.append_nil] at herr
    rw [hshut.closed.destroy]
    exact ⟨rs, hrs, hout ▸ List.prefix_rfl, herr ▸ List.prefix_rfl, fun _ => ⟨hout, herr⟩⟩

/-- Calls on both streams, with a read between them. -/
theorem output_delivered_interleaved : ∃ c w' c',
    accept {} 9 (responderRequest [1, 5, 0, 1, 0, 2, 0, 0, 104, 105]) = (.ok c, w') ∧
    run 9 [.out (.put 33), .«in» (.read 2), .err (.put 63), .out (.write [10])] c =
      (.ok (), c') ∧
    ∃ rs : List Record, (lifetime {} 9 [.out (.put 33), .«in» (.read 2), .err (.put 63),
        .out (.write [10])] (responderRequest [1, 5, 0, 1, 0, 2, 0, 0, 104,
          105])).2.io.written = Frame.join rs ∧
      streamContent .out rs <+: [33, 10] ∧ streamContent .err rs <+: [63] ∧
      (c'.out_.streambuf_.isClosed = true ∨ MayClose c'.role_ c'.in_.streambuf_ →
        streamContent .out rs = [33, 10] ∧ streamContent .err rs = [63]) := by
  obtain ⟨c, w', haccept, hrun⟩ := Prog.of_returns
    (r := accept {} 9 (responderRequest [1, 5, 0, 1, 0, 2, 0, 0, 104, 105]))
    (p := fun (c : Connection) _ => Prog.returns (fun _ _ => true) (run 9 [.out (.put 33),
      .«in» (.read 2), .err (.put 63), .out (.write [10])] c)) (by decide +kernel)
  obtain ⟨_, c', hrun, -⟩ := Prog.of_returns hrun
  exact ⟨c, w', c', haccept, hrun, output_delivered rfl rfl haccept hrun⟩

end

end Fcgi

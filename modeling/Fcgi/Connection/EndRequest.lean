import Fcgi.Output.Log
import Fcgi.Connection.Assertions
import Fcgi.Connection.Steps

/-!
# Connection — the end of the request

`Sound id c` is kept by every call of an application: the input buffer is open or closed, the
output buffers are in a known state, and what has been sent is in order (`Log`).

**`one_end_request`**: of the request's own id at most one END_REQUEST is sent, and no output after
it, if all records of this id that the client sends are of the stream being read.

The reader sends an end of the request only for a record of another kind that bears its id, which
the condition excludes (`ReaderStep.log`); the writer of `out()` sends it with the end of its
stream.  The writers share the flag that `out()` has ended, by which `err()` knows that nothing may
follow (`Sound.errLogged`).
-/

namespace Fcgi
open Lib

/-! ### The reader -/

/-- The answers of the reader do not concern the request, unless it gets a record of the request
that does not belong to its stream. -/
theorem Reply.quiet {conn : ConnectionInfo} {t : StreamType} {h : Header} {r : Record}
    (hr : Reply conn t h r) (hid : conn.requestId ≠ 0)
    (hown : h.requestId = conn.requestId → h.recordType = t.recordType) :
    ¬ r.EndsRequest conn.requestId ∧ ¬ r.IsOutput conn.requestId := by
  cases hr with
  | endRequest hh =>
      have hne : h.requestId ≠ conn.requestId := fun e => by
        rcases hh with hb | hm | hv
        · exact t.recordType_ne_beginRequest ((hown e).symm.trans hb)
        · exact hid (e.symm.trans (beq_iff_eq.mp hm))
        · exact hv.2 (hown e)
      have hrid : (Record.endRequest h.requestId 0 .cantMpxConn).requestId = h.requestId :=
        Record.requestId_endRequest (Header.requestId_lt h)
      exact ⟨fun he => hne (hrid.symm.trans he.1), fun ho => hne (hrid.symm.trans ho.1)⟩
  | unknownType hm ht => exact ⟨fun he => hid he.1.symm, fun ho => hid ho.1.symm⟩
  | getValuesResult hm ht hrt hrid =>
      exact ⟨fun he => hid (he.1.symm.trans hrid), fun ho => hid (ho.1.symm.trans hrid)⟩

section reader

variable {conn : ConnectionInfo} {e : Bool} {c c' : Config}

/-- No step of the reader forgets a header. -/
theorem ReaderStep.dispatches (hs : ReaderStep conn c c') :
    ∀ d ∈ c.state.world.history.dispatches, d ∈ c'.state.world.history.dispatches := by
  intro d hd
  cases hs with
  | invalid => exact List.mem_append_left _ hd
  | dispatch => exact List.mem_append_left _ hd
  | _ => exact hd

/-- The condition of an answer on the header it answers. -/
theorem own_type {h : List UInt8} {b : ServerStreambuf} {w : World} (hid : conn.requestId ≠ 0)
    (hd : ¬ (Header.ofBytes h).isManagementRecord → w.history.Met b.type_ (Header.ofBytes h))
    (hw : w.history.OwnExpected conn.requestId)
    (hown : (Header.ofBytes h).requestId = conn.requestId) :
    (Header.ofBytes h).recordType = b.type_.recordType := by
  obtain ⟨d, hd, hdh, hv, hdt⟩ := hd fun hm => hid (hown.symm.trans (beq_iff_eq.mp hm))
  rw [← hdh, ← hdt]
  exact hw d hd hv (hdh ▸ hown)

/-- A record that is neither output nor an end may always be sent. -/
theorem Appends.of_quiet {id : Nat} {r : Record}
    (h : ¬ r.EndsRequest id ∧ ¬ r.IsOutput id) : Appends id e e [r] :=
  ⟨List.pairwise_singleton _ _, fun _ _ hr => List.mem_singleton.mp hr ▸ h,
    fun he => ⟨he, fun _ hr => List.mem_singleton.mp hr ▸ h.1⟩⟩

/-- Every step of the reader keeps the log. -/
theorem ReaderStep.log (hid : conn.requestId ≠ 0) (hs : ReaderStep conn c c')
    (h : Log conn.requestId e c.state.world) : Log conn.requestId e c'.state.world := by
  have hsame : c'.state.world.io.written = c.state.world.io.written →
      Log conn.requestId e c'.state.world := fun hw =>
    h.append .nil (by rw [hw, Frame.join_nil, List.append_nil]) hs.dispatches
  cases hs with
  | recv _ hread _ => exact hsame (Io.read_sends hread).2
  | recvNone _ hread _ => exact hsame (Io.read_sends hread).2
  | @reply hb b w r hr hd =>
      intro hw
      have hq := hr.quiet hid (own_type hid hd hw)
      refine h.append (.of_quiet hq) ?_ (fun _ hd => hd) hw
      rw [Frame.join_cons, Frame.join_nil, List.append_nil]
      rfl
  | _ => exact hsame rfl

theorem Reached.log {s₀ s : State} {m : Mode} (hid : conn.requestId ≠ 0)
    (hr : Reached conn ⟨.idle, s₀⟩ m s) (h₀ : Log conn.requestId e s₀.world) :
    Log conn.requestId e s.world :=
  hr.invariant (I := fun c => Log conn.requestId e c.state.world) (fun hs h => hs.log hid h) h₀

/-- Where a fault leaves the reader, the order of records is kept. -/
theorem ReaderFault.stopped {s₀ s : State} {x : Fault Exception} (hid : conn.requestId ≠ 0)
    (hx : ReaderFault conn ⟨.idle, s₀⟩ x s) (h₀ : Log conn.requestId e s₀.world) :
    Stopped conn.requestId s.world := by
  cases x with
  | exc e => exact (Reached.log hid hx h₀).stopped
  | undef => exact hx.elim
  | spent =>
      obtain ⟨m, hr⟩ := hx
      exact (hr.log hid h₀).stopped
  | abort =>
      cases hx with
      | overlong hr _ => exact (hr.log hid h₀).stopped
      | answer hr _ _ => exact (hr.log hid h₀).stopped
      | @shortWrite h b w r n hr hs hreply hd hn =>
          intro hw
          have hq := hreply.quiet hid (own_type hid hd hw)
          refine (hr.log hid h₀).cut (.of_quiet hq) (n := n) ?_ (fun _ hd => hd) hw
          rw [Frame.join_cons, Frame.join_nil, List.append_nil]
          rfl

end reader

/-! ### The connection -/

/-- The invariant of the runs of a connection. -/
structure Sound (id : Nat) (c : Connection) : Prop where
  requestId : c.requestId_ = id
  in_ : OpenReader c.role_ c.in_.streambuf_ ∨ ClosedReader c.in_.streambuf_
  out : WriterOk .out c.out_.streambuf_
  err : WriterOk .err c.err_.streambuf_
  log : Log id c.out_.streambuf_.isEndOfStream_ c.world
  order : c.out_.streambuf_.isEndOfStream_ = true ∨
    c.out_.streambuf_.isEndRecordsMustBeTransmitted_ = true →
    c.err_.streambuf_.isEndOfStream_ = true

/-- What is known where a call of the application faults. -/
def SoundFault (id : Nat) : Fault Exception → Connection → Prop
  | .exc _, c => Sound id c
  | _, c => Stopped id c.world

section

variable {id : Nat} {c : Connection}

/-- The invariant, as the calls on `out()` need it. -/
theorem Sound.outLogged (h : Sound id c) :
    Logged id false .out c.out_.streambuf_ c.outState where
  ok := h.out
  log := by
    rw [ServerStreambuf.ended, show c.outState.buf.type_ = .out from h.out.type, if_pos rfl]
    exact h.log
  open_ he := by
    rw [ServerStreambuf.ended, show c.outState.buf.type_ = .out from h.out.type, if_pos rfl]
    exact he
  later := .refl _

/-- The invariant, as the calls on `err()` need it: what ends the request is the end of `out()`. -/
theorem Sound.errLogged (h : Sound id c) :
    Logged id c.out_.streambuf_.isEndOfStream_ .err c.err_.streambuf_ c.errState where
  ok := h.err
  log := by
    rw [ServerStreambuf.ended, show c.errState.buf.type_ = .err from h.err.type,
      if_neg fun e => by cases e]
    exact h.log
  open_ he := by
    rw [ServerStreambuf.ended, show c.errState.buf.type_ = .err from h.err.type,
      if_neg fun e => by cases e]
    refine Bool.eq_false_iff.mpr fun ho => ?_
    have := h.order (.inl ho)
    rw [show c.err_.streambuf_.isEndOfStream_ = false from he] at this
    cases this
  later := .refl _

theorem Sound.setOut (h : Sound id c) {s : State}
    (hs : Logged id false .out c.out_.streambuf_ s) : Sound id (c.setOut s) where
  requestId := h.requestId
  in_ := h.in_
  out := hs.ok
  err := h.err
  log := by
    have := hs.log
    rwa [ServerStreambuf.ended, hs.ok.type, if_pos rfl] at this
  order he := h.order (hs.later.asked he)

theorem Sound.setErr (h : Sound id c) {s : State}
    (hs : CloseLogged id c.out_.streambuf_.isEndOfStream_ .err c.err_.streambuf_ s) :
    Sound id (c.setErr s) where
  requestId := h.requestId
  in_ := h.in_
  out := h.out
  err := hs.ok
  log := by
    have := hs.log
    rwa [ServerStreambuf.ended, hs.ok.type, if_neg fun e => by cases e] at this
  order he := hs.mono (h.order he)

theorem Sound.setIn (h : Sound id c) {s : State}
    (hin : OpenReader c.role_ s.buf ∨ ClosedReader s.buf)
    (hlog : Log id c.out_.streambuf_.isEndOfStream_ s.world) : Sound id (c.setIn s) :=
  ⟨h.requestId, hin, h.out, h.err, hlog, h.order⟩

/-- The members of the connection are in a known state. -/
theorem Sound.members (hid : id < 65536) (h : Sound id c) : Members c :=
  ⟨h.requestId ▸ hid, h.in_, h.out, h.err⟩

/-- The log, in the state of `in()`. -/
theorem Sound.inLog (h : Sound id c) :
    Log c.info.requestId c.out_.streambuf_.isEndOfStream_ c.inState.world := by
  rw [show c.info.requestId = id from h.requestId]
  exact h.log

/-- Every change of a connection keeps the records in order. -/
theorem ConnectionStep.sound {c' : Connection} (h0 : id ≠ 0) (hid : id < 65536)
    (hs : ConnectionStep c c') (h : Sound id c) : Sound id c' := by
  have hinfo : c.info.requestId = id := h.requestId
  have hout := h.outLogged
  have herr := h.errLogged.closeLogged
  cases hs with
  | read ho hr =>
      have hlog := hr.log (by rw [hinfo]; exact h0) h.inLog
      rw [hinfo] at hlog
      exact h.setIn (.inl hr.openReader) hlog
  | ios => exact ⟨h.requestId, h.in_, h.out, h.err, h.log, h.order⟩
  | out hr =>
      subst hinfo
      exact h.setOut (hr.logged hid hout)
  | outError he =>
      subst hinfo
      exact h.setOut ((he.closeLogged hout.closeLogged).logged (he.later hout.later))
  | outBad => exact ⟨h.requestId, h.in_, h.out, h.err, h.log, h.order⟩
  | err hr =>
      subst hinfo
      exact h.setErr (hr.closeLogged hid herr)
  | errError he =>
      subst hinfo
      exact h.setErr (he.closeLogged herr)
  | errBad => exact ⟨h.requestId, h.in_, h.out, h.err, h.log, h.order⟩
  | status => exact ⟨h.requestId, h.in_, h.out, h.err, h.log, h.order⟩
  | askErr hopen => exact h.setErr herr.asked
  | shutErr heos => exact h.setErr (herr.shut heos)
  | askOut hopen hclosed =>
      have heos : c.err_.streambuf_.isEndOfStream_ = true := by
        refine (h.err.putArea.resolve_right fun ⟨cur, hput, _⟩ => ?_).2
        cases (h.err.isClosed_iff.mp hclosed).symm.trans hput
      exact ⟨h.requestId, h.in_, h.out.asked (s := c.outState), h.err, h.log, fun _ => heos⟩
  | shutOut heos =>
      exact ⟨h.requestId, h.in_, h.out.shut (s := c.outState) heos, h.err, h.log, h.order⟩
  | shutIn ho => exact h.setIn (.inr ⟨ho.reader, rfl⟩) h.log

/-- **Every change that a call makes** keeps the invariant. -/
theorem ConnectionSteps.sound {c' : Connection} (h0 : id ≠ 0) (hid : id < 65536)
    (hs : ConnectionSteps c c') (h : Sound id c) : Sound id c' := by
  induction hs with
  | refl => exact h
  | tail _ hs ih => exact hs.sound h0 hid ih

/-- Where the process stops in a call, what has been sent is in order. -/
theorem CallAborted.stopped {op : Op} {c' : Connection} (h0 : id ≠ 0) (hid : id < 65536)
    (ha : CallAborted op c c') (h : Sound id c) : Stopped id c'.world := by
  have hinfo : c.info.requestId = id := h.requestId
  cases ha with
  | reader ha =>
      have hstop := ReaderFault.stopped (x := .abort) (by rw [hinfo]; exact h0) ha h.inLog
      rw [hinfo] at hstop
      exact hstop
  | readerClosed => exact h.log.stopped
  | out ha =>
      subst hinfo
      exact ha.stopped hid h.outLogged.closeLogged
  | err ha =>
      subst hinfo
      exact ha.stopped hid h.errLogged.closeLogged
  | closeErr _ ha =>
      subst hinfo
      exact ha.stopped hid h.errLogged.closeLogged
  | @closeOut _ c₁ _ hs _ _ _ _ ha =>
      have h₁ := hs.sound h0 hid h
      have hinfo₁ : c₁.info.requestId = id := h₁.requestId
      subst hinfo₁
      exact ha.stopped hid h₁.outLogged.closeLogged
  | closeIn hs => exact (hs.sound h0 hid h).log.stopped

/-- Every call of the application keeps the records in order. -/
theorem Op.exec_sound {fuel : Nat} (h0 : id ≠ 0) (hid : id < 65536) (op : Op) :
    Triple (Sound id) (op.exec fuel) (fun _ c => Sound id c) (SoundFault id) := by
  intro c h
  refine (op.exec_steps fuel (h.members hid)).conseq (fun _ hc => hc) (fun _ _ hs =>
    hs.sound h0 hid h) (fun x c' hx => ?_) c rfl
  cases x with
  | exc e => exact hx.sound h0 hid h
  | abort => exact hx.stopped h0 hid h
  | undef => exact hx.elim
  | spent =>
      obtain ⟨m, s, -, hr, rfl⟩ := hx
      have hstop := (hr.log (by rw [show c.info.requestId = id from h.requestId]; exact h0)
        h.inLog).stopped
      rw [show c.info.requestId = id from h.requestId] at hstop
      exact hstop

/-- **The invariant of a run.** -/
theorem run_sound (fuel : Nat) (h0 : id ≠ 0) (hid : id < 65536) : ∀ ops : List Op,
    Triple (Sound id) (run fuel ops) (fun _ c => Sound id c) (SoundFault id)
  | [] => Triple.pure fun _ h => h
  | op :: ops => Triple.bind (Q := fun _ c => Sound id c) (Triple.attempt
      ((op.exec_sound h0 hid).conseq (fun _ h => h) (fun _ _ h => h) fun x _ h => by
        cases x <;> exact h)) fun _ => run_sound fuel h0 hid ops

theorem SoundFault.stopped {x : Fault Exception} (h : SoundFault id x c) : Stopped id c.world := by
  cases x with
  | exc x => exact h.log.stopped
  | _ => exact h

end

/-- The connection `accept()` returns, if nothing had been sent before. -/
theorem Accepted.sound {size : Nat} {s₀ s₁ : State} {c : Connection}
    (h : Accepted size s₀ s₁ c) (h₀ : s₀.world.io.written = []) : Sound c.requestId_ c where
  requestId := rfl
  in_ := .inl (by rw [h.in_]; exact h.read.openReader)
  out := h.out.writer.writerOk
  err := h.err.writer.writerOk
  log := by
    rw [h.out.writer.open_, h.world]
    exact h.read.atEnd.returned.reached.log h.id_pos fun _ =>
      ⟨[], h₀, List.Pairwise.nil, fun _ => nofun⟩
  order he := by
    rw [h.out.writer.open_, h.out.writer.ending_] at he
    rcases he with he | he <;> cases he

/-- **At most one end of the request**, and no output after it, in every run of a connection,
whatever the transport does, if all records of the request that the reader meets belong to the
stream it reads. -/
theorem one_end_request {uninit : Uninit} {fuel : Nat} {w w' : World} {c : Connection}
    (hw : w.io.written = []) (haccept : accept uninit fuel w = (.ok c, w')) (ops : List Op)
    (hown : (run fuel ops c).2.world.history.OwnExpected c.requestId_) :
    Ordered c.requestId_ (Record.parse (run fuel ops c).2.world.io.written).1 := by
  obtain ⟨s₀, s₁, hacc, -, -, header, body, io, -, -, hread, hread', -, -⟩ := accept_ok haccept
  have hs₀ : s₀.world.io.written = [] := by
    rw [(Io.read_sends hread').2, (Io.read_sends hread).2, hw]
  have hrun := run_sound fuel hacc.id_pos hacc.id_lt ops c (hacc.sound hs₀)
  rcases e : run fuel ops c with ⟨x | _, c'⟩ <;> simp only [e] at hrun <;> rw [e] at hown
  · exact hrun.stopped.ordered hown
  · exact hrun.log.stopped.ordered hown

/-- A request is read, answered and closed. -/
theorem one_end_request_closed :
    ∃ c w', accept {} 9 (responderRequest [1, 5, 0, 1, 0, 2, 0, 0, 104, 105]) = (.ok c, w') ∧
      Ordered c.requestId_ (Record.parse
        (run 9 [.«in» (.read 2), .out (.put 33), .close] c).2.world.io.written).1 := by
  have key : (match accept {} 9 (responderRequest [1, 5, 0, 1, 0, 2, 0, 0, 104, 105]) with
      | (.ok c, _) => decide ((run 9 [.«in» (.read 2), .out (.put 33),
          .close] c).2.world.history.OwnExpected c.requestId_)
      | _ => false) = true := by decide +kernel
  rcases e : accept {} 9 (responderRequest [1, 5, 0, 1, 0, 2, 0, 0, 104, 105]) with ⟨x | c, w'⟩ <;>
    rw [e] at key
  · cases key
  · exact ⟨c, w', rfl, one_end_request rfl e _ (of_decide_eq_true key)⟩

/-- After an abort-request record the request is ended twice. -/
theorem end_request_twice :
    ∃ c w', accept {} 9 (responderRequest [1, 2, 0, 1, 0, 0, 0, 0]) = (.ok c, w') ∧
      ¬ Ordered c.requestId_ (Record.parse
        (run 9 [.«in» .get, .«in» .clear, .close] c).2.world.io.written).1 := by
  have key : (match accept {} 9 (responderRequest [1, 2, 0, 1, 0, 0, 0, 0]) with
      | (.ok c, _) => decide (¬ Ordered c.requestId_ (Record.parse
          (run 9 [.«in» .get, .«in» .clear, .close] c).2.world.io.written).1)
      | _ => false) = true := by decide +kernel
  rcases e : accept {} 9 (responderRequest [1, 2, 0, 1, 0, 0, 0, 0]) with ⟨x | c, w'⟩ <;>
    rw [e] at key
  · cases key
  · exact ⟨c, w', rfl, of_decide_eq_true key⟩

end Fcgi

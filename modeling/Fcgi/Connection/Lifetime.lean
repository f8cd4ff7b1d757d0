import Fcgi.Connection.Conformance
import Fcgi.Connection.Intact

/-!
# Connection — the destruction of a connection

The destructors of `stack_buffers_Server_connection` and of its stream buffers, which close what
is still open, and `lifetime`: `accept()`, a run of the application with the connection, and its
destruction.

**`lifetime_speaks`**: whatever the client and the transport do, what has been sent in the lifetime
of a connection is a permitted conversation, if its last record is left out where it is incomplete.

**`destroy_completes`**, **`close_before_destroy`**: if no write fails, the destruction completes
every request but that of a filter that has not come to the end of stdin, and an explicit `close()`
before it makes no difference.

The destructor first closes the connection, and each buffer closes itself afterwards.  Where the
first `close()` has thrown, the buffers speak on: `err()` before `out()`, so that the end of the
request comes last (`Speaking`, `Dying`, `Mute`).  Closing what is closed does nothing, and so a
`close()` before the destruction is made by it anyway.
-/

namespace Fcgi
open Lib

/-- `~server_Streambuf()`: what `close()` throws goes to the log. -/
def destroyStreambuf (conn : ConnectionInfo) (inbuf : ServerStreambuf) : M Unit := do
  let _ ← Prog.attempt (close conn inbuf)
  pure ()

/-- `~stack_buffers_Server_connection()`, then the destructors of `err_`, `out_` and `in_`.  That of
`io_`, which belongs to the base class, comes after them: `SocketDescriptor.serve`. -/
def Connection.destroy : Connection.M Unit := do
  let _ ← Prog.attempt Connection.close
  let c ← Prog.get
  onErr fun conn => destroyStreambuf conn c.in_.streambuf_
  onOut fun conn => destroyStreambuf conn c.in_.streambuf_
  onIn fun conn => destroyStreambuf conn c.in_.streambuf_

/-- What an application does with a connection, which is destroyed in the end. -/
def serve (fuel : Nat) (ops : List Op) : Connection.M Unit := do
  run fuel ops
  Connection.destroy

/-- The whole life of a connection. -/
def lifetime (uninit : Uninit) (fuel : Nat) (ops : List Op) : World.M Unit := fun w =>
  match accept uninit fuel w with
  | (.ok c, _) => ((serve fuel ops c).1, (serve fuel ops c).2.world)
  | (.error x, w) => (.error x, w)

/-- Where `accept()` returns a connection, it is served. -/
theorem lifetime_ok {uninit : Uninit} {fuel : Nat} {ops : List Op} {w w' : World} {c : Connection}
    (h : accept uninit fuel w = (.ok c, w')) : lifetime uninit fuel ops w =
      ((serve fuel ops c).1, (serve fuel ops c).2.world) := by
  rw [lifetime, h]

/-! ### One buffer -/

section buffer

variable {conn : ConnectionInfo} {inbuf : ServerStreambuf} {t : StreamType} {s s' : State}
  {φ : Phase}

/-- What the destruction of a buffer says is permitted. -/
theorem destroyStreambuf_speaks (inbuf : ServerStreambuf) (s : State)
    (hid : conn.requestId < 65536) (hok : WriterOk t s.buf)
    (hv : Voice t s.buf φ) :
    Triple (fun s' => s' = s) (destroyStreambuf conn inbuf)
      (fun _ s' => ∃ ψ, Says conn.requestId s.world s'.world φ ψ ∧ Voice t s'.buf ψ ∧
        (t = .err → Moves s.buf t φ ψ))
      (fun _ s' => CloseAborted conn inbuf s s') := by
  have hasked : Voice t s.asked.buf φ := ⟨hv.open_, hv.ended, hv.due⟩
  have hmoves : ∀ {ψ : Phase}, Moves s.asked.buf t φ ψ → t = .err → Moves s.buf t φ ψ := by
    rintro ψ hm rfl
    cases hm with
    | stay => exact .stay
    | err => exact .err
  refine Triple.bind (Q := fun _ s' => ∃ ψ, Says conn.requestId s.world s'.world φ ψ ∧
    Voice t s'.buf ψ ∧ (t = .err → Moves s.buf t φ ψ)) (Triple.attempt
    ((close_steps hid inbuf hok).conseq (fun _ => id) (fun _ s' hs => ?_) fun x s' hx => ?_))
    fun _ => Triple.pure fun _ h => h
  · rcases hs with ⟨-, rfl⟩ | ⟨-, s₁, he, rfl⟩
    · exact ⟨φ, .refl, hv, fun _ => .stay⟩
    · obtain ⟨ψ, hsay, hv₁, hm⟩ := he.written.speaks hid hok.asked hasked
      exact ⟨ψ, hsay, ⟨hv₁.open_, hv₁.ended, hv₁.due⟩, hmoves hm⟩
  · cases x with
    | exc e =>
        rcases hx with ⟨-, bs, s₁, hr, he⟩ | ⟨rfl, -⟩
        · obtain ⟨ψ, hsay, hv₁, hm⟩ := hr.speaks hid hok.asked hasked
          obtain ⟨hsay', hv₂⟩ := he.voice hv₁
          exact ⟨ψ, hsay.trans hsay', hv₂, hmoves hm⟩
        · exact ⟨φ, .refl, hv, fun _ => .stay⟩
    | abort => exact hx.2
    | undef => exact hx.elim
    | spent => exact hx.elim

/-- How the destruction of a reader ends: where it is open, `close()` asserts that no more content
is to come than the buffer holds. -/
def ServerStreambuf.destroyed (b : ServerStreambuf) : Except (Fault Exception) Unit :=
  if b.isClosed = true ∨ b.unreadContentLength_ ≤ b.bufferSize_ then .ok () else .error .abort

/-- A reader is destroyed in silence. -/
theorem destroyStreambuf_reader (conn : ConnectionInfo) (inbuf : ServerStreambuf) (s : State)
    (hin : OpenReader conn.role s.buf ∨ ClosedReader s.buf) :
    ∃ b, destroyStreambuf conn inbuf s = (s.buf.destroyed, ⟨b, s.world⟩) := by
  rw [destroyStreambuf, Prog.bind_run, ServerStreambuf.destroyed]
  rcases hin with ho | hc
  · have hrun := close_reader conn inbuf s.world ho
    have hopen := ho.not_isClosed
    by_cases hu : s.buf.unreadContentLength_ ≤ s.buf.bufferSize_
    · rw [if_pos hu] at hrun
      rw [Prog.attempt_ok hrun, if_pos (.inr hu)]
      exact ⟨_, rfl⟩
    · rw [if_neg hu] at hrun
      rw [Prog.attempt_abort hrun, if_neg (not_or.mpr ⟨by simp [hopen], hu⟩)]
      exact ⟨_, rfl⟩
  · rw [Prog.attempt_ok (close_closed (b := s.buf) hc.isClosed), if_pos (.inl hc.isClosed)]
    exact ⟨_, rfl⟩

end buffer

/-! ### The conversation of a lifetime -/

section

variable {id : Nat} {c c' : Connection}

/-- A connection whose `err_` has been destroyed.  It may not have been ended. -/
structure Dying (id : Nat) (c : Connection) : Prop where
  requestId : c.requestId_ = id
  in_ : OpenReader c.role_ c.in_.streambuf_ ∨ ClosedReader c.in_.streambuf_
  out : WriterOk .out c.out_.streambuf_
  spoken : Spoken id (Voice .out c.out_.streambuf_) c.world

/-- One whose `out_` has been destroyed, too. -/
structure Mute (id : Nat) (c : Connection) : Prop where
  in_ : OpenReader c.role_ c.in_.streambuf_ ∨ ClosedReader c.in_.streambuf_
  spoken : Spoken id (· ≠ .ending) c.world

/-- `close()` of the connection keeps to the conversation, also where it throws. -/
theorem close_speaks (h0 : id ≠ 0) (hid : id < 65536) :
    Triple (Speaking id) (Prog.attempt Connection.close) (fun _ c => Speaking id c)
      (fun _ c => BrokenOff id c.world) := by
  intro c hc
  refine Triple.attempt ((Op.exec_steps 0 (hc.sound.members hid) .close).conseq (fun _ hc => hc)
    (fun _ _ hs => hs.speaking h0 hid hc) fun x c' hx => ?_) c rfl
  cases x with
  | exc e => exact ConnectionSteps.speaking h0 hid hx hc
  | _ => exact CallFault.brokenOff h0 hid hx hc

theorem destroyErr_speaks (hid : id < 65536) (inbuf : ServerStreambuf) :
    Triple (Speaking id) (Connection.onErr fun conn => destroyStreambuf conn inbuf)
      (fun _ c => Dying id c) (fun _ c => BrokenOff id c.world) := by
  intro c h
  have hinfo : c.info.requestId = id := h.sound.requestId
  subst hinfo
  have herr : ∀ {φ}, Agrees c φ → Triple _ _ _ _ := fun hφ =>
    destroyStreambuf_speaks inbuf c.errState hid h.sound.err hφ.err
  rcases e : destroyStreambuf c.info inbuf c.errState with ⟨x | a, s⟩ <;>
    rw [Connection.onErr_run (m := fun conn => destroyStreambuf conn inbuf) e]
  · obtain ⟨rs, φ, -, -, hφ⟩ := h.spoken
    exact ((herr hφ).of_error rfl e).brokenOff hid h.sound.err
      (h.spoken.utters fun hφ => ⟨_, .refl, hφ.err⟩)
  · refine ⟨rfl, h.sound.in_, h.sound.out, h.spoken.utters fun {φ} hφ => ?_⟩
    obtain ⟨ψ, hsay, hv, hm⟩ := (herr hφ).of_ok rfl e
    exact ⟨ψ, hsay, (hφ.setErr hv (hm rfl)).out⟩

theorem destroyOut_speaks (hid : id < 65536) (inbuf : ServerStreambuf) :
    Triple (Dying id) (Connection.onOut fun conn => destroyStreambuf conn inbuf)
      (fun _ c => Mute id c) (fun _ c => BrokenOff id c.world) := by
  intro c h
  have hinfo : c.info.requestId = id := h.requestId
  subst hinfo
  have hout : ∀ {φ}, Voice .out c.out_.streambuf_ φ → Triple _ _ _ _ := fun hφ =>
    destroyStreambuf_speaks inbuf c.outState hid h.out hφ
  rcases e : destroyStreambuf c.info inbuf c.outState with ⟨x | a, s⟩ <;>
    rw [Connection.onOut_run (m := fun conn => destroyStreambuf conn inbuf) e]
  · obtain ⟨rs, φ, -, -, hφ⟩ := h.spoken
    exact ((hout hφ).of_error rfl e).brokenOff hid h.out h.spoken
  · refine ⟨h.in_, h.spoken.utters fun {φ} hφ => ?_⟩
    obtain ⟨ψ, hsay, hv, -⟩ := (hout hφ).of_ok rfl e
    exact ⟨ψ, hsay, hv.due⟩

/-- The last part of a destruction sends nothing. -/
theorem onIn_destroy (hin : OpenReader c.role_ c.in_.streambuf_ ∨ ClosedReader c.in_.streambuf_)
    (inbuf : ServerStreambuf) : ∃ c', c'.world = c.world ∧
      Connection.onIn (fun conn => destroyStreambuf conn inbuf) c =
        (c.in_.streambuf_.destroyed, c') := by
  obtain ⟨b, hrun⟩ := destroyStreambuf_reader c.info inbuf c.inState hin
  exact ⟨c.setIn ⟨b, c.world⟩, rfl,
    Connection.onIn_run (m := fun conn => destroyStreambuf conn inbuf) hrun⟩

/-- The buffer of `in()` is destroyed in silence. -/
theorem destroyIn_speaks (inbuf : ServerStreambuf) :
    Triple (Mute id) (Connection.onIn fun conn => destroyStreambuf conn inbuf)
      (fun _ c => BrokenOff id c.world) (fun _ c => BrokenOff id c.world) := by
  intro c h
  obtain ⟨c', hw, hrun⟩ := onIn_destroy h.in_ inbuf
  have hbroken := h.spoken.brokenOff
  rw [← hw] at hbroken
  rw [hrun]
  rcases c.in_.streambuf_.destroyed with x | a <;> exact hbroken

/-- **The destruction of a connection is permitted**, whatever has become of it. -/
theorem destroy_speaks (h0 : id ≠ 0) (hid : id < 65536) :
    Triple (Speaking id) Connection.destroy (fun _ c => BrokenOff id c.world)
      (fun _ c => BrokenOff id c.world) :=
  Triple.bind (close_speaks h0 hid) fun _ => Triple.get fun _ hc =>
    Triple.bind ((destroyErr_speaks hid _).pre fun _ h => h ▸ hc) fun _ =>
      Triple.bind (destroyOut_speaks hid _) fun _ => destroyIn_speaks _

/-- **A connection that is served** keeps to the conversation, however that ends. -/
theorem serve_speaks (fuel : Nat) (h0 : id ≠ 0) (hid : id < 65536) (ops : List Op) :
    Triple (Speaking id) (serve fuel ops) (fun _ c => BrokenOff id c.world)
      (fun _ c => BrokenOff id c.world) :=
  Triple.bind (run_speaks fuel h0 hid ops) fun _ => destroy_speaks h0 hid

/-- The connection `accept()` returns where nothing has been sent before. -/
theorem accept_speaking {uninit : Uninit} {fuel : Nat} {w w' : World}
    (hw : w.io.written = []) (haccept : accept uninit fuel w = (.ok c, w')) :
    Speaking c.requestId_ c ∧ c.requestId_ ≠ 0 ∧ c.requestId_ < 65536 := by
  obtain ⟨s₀, s₁, hacc, -, -, header, body, io, -, -, hread, hread', -, -⟩ := accept_ok haccept
  have hs₀ : s₀.world.io.written = [] := by
    rw [(Io.read_sends hread').2, (Io.read_sends hread).2, hw]
  exact ⟨hacc.speaking hs₀, hacc.id_pos, hacc.id_lt⟩

/-- **The conversation of a lifetime.**  Whatever the client sends, whatever the transport does and
whatever the application calls, and wherever the process stops. -/
theorem lifetime_speaks {uninit : Uninit} {fuel : Nat} {w w' : World} (hw : w.io.written = [])
    (haccept : accept uninit fuel w = (.ok c, w')) (ops : List Op) :
    ∃ φ, Converses c.requestId_ (lifetime uninit fuel ops w).2.history
      (Record.parse (lifetime uninit fuel ops w).2.io.written).1 φ := by
  obtain ⟨hspeak, h0, hid⟩ := accept_speaking hw haccept
  have hrun := serve_speaks fuel h0 hid ops c hspeak
  rw [lifetime_ok haccept]
  rcases e : serve fuel ops c with ⟨x | a, c'⟩ <;> rw [e] at hrun <;> exact hrun.parse

/-- Three bytes of the output are sent. -/
theorem lifetime_speaks_cut_off : ∃ c w',
    accept {} 9 { responderRequest [1, 5, 0, 1, 0, 2, 0, 0, 104, 105] with
      io.sends := [.part 3] } = (.ok c, w') ∧
    ∃ φ, Converses c.requestId_ (lifetime {} 9
        [.«in» (.read 2), .out (.put 33)] { responderRequest [1, 5, 0, 1, 0, 2, 0, 0, 104, 105] with
          io.sends := [.part 3] }).2.history (Record.parse (lifetime {} 9
        [.«in» (.read 2), .out (.put 33)] { responderRequest [1, 5, 0, 1, 0, 2, 0, 0, 104, 105] with
          io.sends := [.part 3] }).2.io.written).1 φ := by
  obtain ⟨c, w', haccept, -⟩ := Prog.of_returns (r := accept {} 9
    { responderRequest [1, 5, 0, 1, 0, 2, 0, 0, 104, 105] with io.sends := [.part 3] })
    (p := fun _ _ => true) (by decide +kernel)
  exact ⟨c, w', haccept, lifetime_speaks rfl haccept _⟩

/-! ### Where no write fails -/

/-- What closing a connection sends completes the request. -/
theorem Closing.utters {errs outs rs : List Record} (h : Closing c errs outs rs)
    (hid : c.requestId_ < 65536) : Utterance c.requestId_ rs (.open false) .ended := by
  have all : ∀ {t : StreamType} {e : Bool}, (t = .out ∨ t = .err) → (t = .err → e = false) →
      ∀ rs : List Record, (∀ r ∈ rs, r.content ≠ [] ∧ StreamRecord t c.requestId_ r.content r) →
        Utterance c.requestId_ rs (.open e) (.open e) := by
    intro t e ht he rs hrs
    induction rs with
    | nil => exact .nil
    | cons r rs ih =>
        obtain ⟨hr, hrs⟩ := List.forall_mem_cons.mp hrs
        exact (hr.2.utters ht hr.1 he).trans (ih hrs)
  set used := c.err_.streambuf_.isPutAreaAtLeastOnceConsumed_ || !errs.isEmpty with hused
  have herr := all (.inr rfl) (fun _ => rfl) errs h.err
  have herrEnd : Utterance c.requestId_ (endRecords c.info .err used) (.open false)
      (.open used) := by
    have hsays := endRecords_says (show c.info.requestId < 65536 from hid) (.inr rfl) used
      (e := false) fun _ => rfl
    rcases used <;> exact hsays
  have hout := all (e := used) (.inl rfl) (fun ht => by cases ht) outs h.out
  have houtEnd : Utterance c.requestId_ (endRecords c.info .out true) (.open used) .ended :=
    endRecords_says (show c.info.requestId < 65536 from hid) (.inl rfl) true
      fun ht => by cases ht
  have hrun := ((herr.trans herrEnd).trans hout).trans houtEnd
  rw [h.eq, ← hused]
  simpa [endRecords, Connection.info] using hrun

/-! ### What the destruction adds -/

/-- The destruction of a closed connection does nothing. -/
theorem Closed.destroy (h : Closed c) : Connection.destroy c = (.ok (), c) := by
  have hsame : ∀ {conn : ConnectionInfo} {inbuf : ServerStreambuf} {s : State},
      s.buf.isClosed = true → destroyStreambuf conn inbuf s = (.ok (), s) := fun {_ _ s} hc => by
    rw [destroyStreambuf, Prog.bind_ok (Prog.attempt_ok (close_closed (b := s.buf) hc))]
    rfl
  rw [Connection.destroy, Prog.bind_ok (Prog.attempt_ok h.close), Prog.bind_ok (Prog.get_run _),
    Prog.bind_ok (Connection.onErr_run (s := c.errState) (hsame h.err)),
    Prog.bind_ok (Connection.onOut_run (c := c.setErr c.errState) (s := c.outState)
      (hsame h.out)),
    Connection.onIn_run (c := (c.setErr c.errState).setOut c.outState) (s := c.inState)
      (hsame h.in_)]
  rfl

/-- Where `close()` returns, the destruction does what it does. -/
theorem destroy_eq (hclose : Connection.close c = (.ok (), c')) (h : Closed c') :
    Connection.destroy c = (.ok (), c') := by
  have hdestroy := h.destroy
  rw [Connection.destroy, Prog.bind_ok (Prog.attempt_ok h.close)] at hdestroy
  rw [Connection.destroy, Prog.bind_ok (Prog.attempt_ok hclose), hdestroy]

/-- Where `close()` aborts, the process stops there. -/
theorem destroy_abort (hclose : Connection.close c = (.error .abort, c')) :
    Connection.destroy c = (.error .abort, c') := by
  rw [Connection.destroy, Prog.bind_error (Prog.attempt_abort hclose)]

/-- Where `close()` refuses, nothing is sent, and what it throws goes to the log. -/
theorem Writable.destroy_not_may (h : Writable c) (hmay : ¬ MayClose c.role_ c.in_.streambuf_) :
    ∃ c', c'.world = c.world ∧ Connection.destroy c = (c.in_.streambuf_.destroyed, c') := by
  have hthrow : ∀ {t : StreamType} {s : State}, Writer t false s.buf →
      destroyStreambuf c.info c.in_.streambuf_ s = (.ok (), s) := fun hw => by
    rw [destroyStreambuf, Prog.bind_ok (Prog.attempt_exc
      (Fcgi.close_not_may hw (show InputOpen c.info.role _ from h.mayRead) hmay))]
    rfl
  rw [Connection.destroy, Prog.bind_ok (Prog.attempt_exc (h.close_not_may hmay)),
    Prog.bind_ok (Prog.get_run _),
    Prog.bind_ok (Connection.onErr_run (s := c.errState) (hthrow h.err)),
    Prog.bind_ok (Connection.onOut_run (c := c.setErr c.errState) (s := c.outState)
      (hthrow h.out))]
  exact onIn_destroy (c := (c.setErr c.errState).setOut c.outState) (.inl h.in_) _

/-- A lifetime is `accept()`, the run and the destruction. -/
theorem lifetime_run {uninit : Uninit} {fuel : Nat} {w w' : World} {ops : List Op}
    (haccept : accept uninit fuel w = (.ok c, w')) (hrun : run fuel ops c = (.ok (), c')) :
    lifetime uninit fuel ops w = ((Connection.destroy c').1, (Connection.destroy c').2.world) := by
  rw [lifetime_ok haccept, serve, Prog.bind_ok hrun]

/-- Where it may be closed, the destruction closes it. -/
theorem Writable.destroy (h : Writable c) (hmay : MayClose c.role_ c.in_.streambuf_) :
    ∃ errs outs rs c', Closing c errs outs rs ∧ c'.world = c.world.send (Frame.join rs) ∧
      Connection.destroy c = (c.in_.streambuf_.destroyed, c') := by
  obtain ⟨errs, outs, rs, c', hclosing, hclosed, hworld, hclose⟩ := h.close hmay
  refine ⟨errs, outs, rs, c', hclosing, hworld, ?_⟩
  have hopen := h.in_.not_isClosed
  rw [ServerStreambuf.destroyed]
  split at hclose <;> rename_i hu
  · rw [destroy_eq hclose hclosed, if_pos (.inr hu)]
  · rw [destroy_abort hclose, if_neg (not_or.mpr ⟨by simp [hopen], hu⟩)]

/-- What it sends then ends the conversation. -/
theorem Speaking.ended {errs outs rs : List Record} {w : World} (h : Speaking id c)
    (hid : id < 65536) (hopen : Writable c) (hclosing : Closing c errs outs rs)
    (hw : w = c.world.send (Frame.join rs)) : Spoken id (· = .ended) w :=
  h.spoken.utters fun {φ} hφ => by
    obtain ⟨e, rfl, he⟩ := hφ.err.open_ hopen.err.open_
    obtain rfl := he rfl
    obtain rfl := h.sound.requestId
    subst hw
    exact ⟨.ended, .of_utterance (hclosing.utters hid) rfl fun _ hd => hd, rfl⟩

/-- **The destruction completes the request**, if no write fails, unless the connection belongs to
a filter that has unread stdin; then it sends nothing.  It throws nothing.  To a client all of whose
records were expected the end of the request has been sent exactly once, or not at all. -/
theorem destroy_completes {uninit : Uninit} {fuel : Nat} {w w' : World} {ops : List Op}
    (hw : w.io.written = []) (hsends : w.io.sends = [])
    (haccept : accept uninit fuel w = (.ok c, w')) (hrun : run fuel ops c = (.ok (), c')) :
    (lifetime uninit fuel ops w).1 = c'.in_.streambuf_.destroyed ∧
    ∃ φ, Converses c.requestId_ (lifetime uninit fuel ops w).2.history
        (Record.parse (lifetime uninit fuel ops w).2.io.written).1 φ ∧
      (φ = .ended ↔
        c'.out_.streambuf_.isClosed = true ∨ MayClose c'.role_ c'.in_.streambuf_) ∧
      ((lifetime uninit fuel ops w).2.history.OwnExpected c.requestId_ →
        (Record.parse (lifetime uninit fuel ops w).2.io.written).1.countP
          (fun r => decide (r.EndsRequest c.requestId_)) = if φ = .ended then 1 else 0) ∧
      (φ ≠ .ended → (lifetime uninit fuel ops w).2 = c'.world) := by
  obtain ⟨hspeak, h0, hid⟩ := accept_speaking hw haccept
  have hspeak' := (run_speaks fuel h0 hid ops).of_ok hspeak hrun
  rw [lifetime_run haccept hrun]
  dsimp only
  rcases run_ends hsends haccept hrun with hopen | hshut
  · have hout : c'.out_.streambuf_.isClosed = false := hopen.out.not_isClosed
    by_cases hmay : MayClose c'.role_ c'.in_.streambuf_
    · -- The destruction closes the streams.
      obtain ⟨errs, outs, rs, c'', hclosing, hworld, hdestroy⟩ := hopen.destroy hmay
      obtain ⟨φ, hφ, rfl⟩ := (hspeak'.ended hid hopen hclosing hworld).parse
      rw [hdestroy]
      exact ⟨rfl, .ended, hφ, ⟨fun _ => .inr hmay, fun _ => rfl⟩, hφ.ends,
        fun h => absurd rfl h⟩
    · obtain ⟨c'', hworld, hdestroy⟩ := hopen.destroy_not_may hmay
      -- The streams stay open: nothing more is sent, and the request is not ended.
      obtain ⟨φ, hφ, hagrees⟩ := hspeak'.spoken.parse
      obtain ⟨e, rfl, -⟩ := hagrees.out.open_ hopen.out.open_
      rw [hdestroy, hworld]
      refine ⟨rfl, _, hφ, ⟨fun h => (by cases h), fun h => ?_⟩, hφ.ends, fun _ => rfl⟩
      rcases h with h | h
      · cases hout.symm.trans h
      · exact absurd h hmay
  · obtain ⟨φ, hφ, hagrees⟩ := hspeak'.spoken.parse
    -- The application had closed the streams: the destruction finds nothing to do.
    have heos : c'.out_.streambuf_.isEndOfStream_ = true := by
      have hput := hshut.members.out.isClosed_iff.mp hshut.closed.out
      refine (hshut.members.out.putArea.resolve_right fun ⟨cur, hput', _⟩ => ?_).2
      cases hput.symm.trans hput'
    obtain rfl := hagrees.out.ended rfl heos
    rw [hshut.closed.destroy, ServerStreambuf.destroyed, if_pos (.inl hshut.closed.in_)]
    exact ⟨rfl, .ended, hφ, ⟨fun _ => .inl hshut.closed.out, fun _ => rfl⟩, hφ.ends,
      fun _ => rfl⟩

/-- A filter that has read two of four bytes of stdin. -/
theorem destroy_completes_half : ∃ c w' c',
    accept {} 9 (filterRequest [1, 5, 0, 1, 0, 4, 0, 0, 104, 105]) = (.ok c, w') ∧
    run 9 [.«in» (.read 2)] c = (.ok (), c') ∧
    (lifetime {} 9 [.«in» (.read 2)] (filterRequest [1, 5, 0, 1, 0, 4, 0, 0, 104, 105])).1 =
      c'.in_.streambuf_.destroyed ∧
    ∃ φ, Converses c.requestId_ (lifetime {} 9 [.«in» (.read 2)]
          (filterRequest [1, 5, 0, 1, 0, 4, 0, 0, 104, 105])).2.history
        (Record.parse (lifetime {} 9 [.«in» (.read 2)]
          (filterRequest [1, 5, 0, 1, 0, 4, 0, 0, 104, 105])).2.io.written).1 φ ∧
      (φ = .ended ↔
        c'.out_.streambuf_.isClosed = true ∨ MayClose c'.role_ c'.in_.streambuf_) ∧
      ((lifetime {} 9 [.«in» (.read 2)] (filterRequest [1, 5, 0, 1, 0, 4, 0, 0, 104,
          105])).2.history.OwnExpected c.requestId_ →
        (Record.parse (lifetime {} 9 [.«in» (.read 2)]
          (filterRequest [1, 5, 0, 1, 0, 4, 0, 0, 104, 105])).2.io.written).1.countP
          (fun r => decide (r.EndsRequest c.requestId_)) = if φ = .ended then 1 else 0) ∧
      (φ ≠ .ended → (lifetime {} 9 [.«in» (.read 2)]
        (filterRequest [1, 5, 0, 1, 0, 4, 0, 0, 104, 105])).2 = c'.world) := by
  obtain ⟨c, w', haccept, hrun⟩ := Prog.of_returns
    (r := accept {} 9 (filterRequest [1, 5, 0, 1, 0, 4, 0, 0, 104, 105]))
    (p := fun (c : Connection) _ => Prog.returns (fun _ _ => true) (run 9 [.«in» (.read 2)] c))
    (by decide +kernel)
  obtain ⟨_, c', hrun, -⟩ := Prog.of_returns hrun
  exact ⟨c, w', c', haccept, hrun, destroy_completes rfl rfl haccept hrun⟩

/-- **An explicit `close()` before the destruction makes no difference**, if no write fails: the
same is sent, and the process stops in the same cases. -/
theorem close_before_destroy (uninit : Uninit) (fuel : Nat) (ops : List Op) {w : World}
    (hsends : w.io.sends = []) :
    lifetime uninit fuel (ops ++ [.close]) w = lifetime uninit fuel ops w := by
  rcases haccept : accept uninit fuel w with ⟨x | c, w'⟩
  · simp only [lifetime, haccept]
  rcases hrun : run fuel ops c with ⟨x | ⟨⟩, c'⟩
  · rw [lifetime_ok haccept, lifetime_ok haccept, serve, serve,
      Prog.bind_error (run_append_error hrun), Prog.bind_error hrun]
  have hlast : run fuel (ops ++ [.close]) c = run fuel [.close] c' := run_append hrun
  rw [lifetime_run haccept hrun]
  rcases run_ends hsends haccept hrun with hopen | hshut
  · by_cases hmay : MayClose c'.role_ c'.in_.streambuf_
    · obtain ⟨errs, outs, rs, c'', -, hclosed, -, hclose⟩ := hopen.close hmay
      split at hclose
      · rw [run_cons_ok (show Op.exec fuel .close c' = _ from hclose)] at hlast
        rw [lifetime_run haccept hlast, hclosed.destroy, destroy_eq hclose hclosed]
      · have habort : run fuel [.close] c' = (.error .abort, c'') :=
          Prog.bind_error (Prog.attempt_abort (m := Op.exec fuel .close) hclose)
        rw [habort] at hlast
        rw [lifetime_ok haccept, serve, Prog.bind_error hlast, destroy_abort hclose]
    · rw [run_cons_exc (show Op.exec fuel .close c' = _ from hopen.close_not_may hmay)] at hlast
      rw [lifetime_run haccept hlast]
  · rw [run_cons_ok (show Op.exec fuel .close c' = _ from hshut.closed.close)] at hlast
    rw [lifetime_run haccept hlast]

/-- A character has been written before the `close()`. -/
theorem close_before_destroy_put :
    lifetime {} 9 ([.out (.put 33)] ++ [.close]) (responderRequest []) =
      lifetime {} 9 [.out (.put 33)] (responderRequest []) :=
  close_before_destroy {} 9 [.out (.put 33)] rfl

end

end Fcgi

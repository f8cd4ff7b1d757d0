import Fcgi.Connection.Service
import Fcgi.Connection.ShortWrites
import Fcgi.Net.Workers
import Fcgi.Output.Transfers

/-!
# Connection — a connection on a socket

All that a connection does with its descriptor, from `accept()` to its destruction, it does by
`read` and `write` (`Application.lifetime_uses`).  So it may be run on a `socket_Descriptor`.

**`lifetime_on_socket`**: whatever the system answers, the life of a connection on a socket is the
one on the `Io` in which these answers are written down, and the same bytes are sent.

The calls of the transport are taken out of the program: a client is what is left, a tree that makes
a transfer and goes on with its result (`Lib/Client.lean`), and it `Imitates` the program if it does
the same with every `Io`.  Such a client exists since every program of the connection uses the
descriptor by transfers only; on a socket it does what it does on the `Io` of the answers, for both
hold the same results (`socket_refines_io`).

**`socket_speaks`**: so what is sent by the calls of the system is a conversation of the request, as
it is for an `Io`.
-/

namespace Fcgi
open Lib

namespace Connection

/-- A connection around its descriptor. -/
def around : Around Connection Io where
  part c := c.world.io
  Same c d := d = { c with world := d.world } ∧ World.around.Same c.world d.world

variable {α : Type}

/-- What is read of a connection is not its descriptor. -/
theorem uses_members {f : Connection → M α} (hf : ∀ c w, f { c with world := w } = f c)
    (h : ∀ c, Transfers around (f c)) : Transfers around (Prog.get >>= f) :=
  .get (fun {c d} hd => by rw [hd.1, hf]) h

variable {m : ConnectionInfo → Fcgi.M α}

/-- A program of the buffer of a stream, which `view` reads of a connection and `put` stores. -/
theorem on_uses {view : Connection → State} {put : State → Connection → Connection}
    (hview : ∀ c w, view { c with world := w } = ⟨(view c).buf, w⟩)
    (hput : ∀ s c w w', put ⟨s.buf, w⟩ { c with world := w' } = { put s c with world := w })
    (hworld : ∀ s c, (put s c).world = s.world) (hm : ∀ conn, Transfers State.around (m conn)) :
    Transfers around fun c => Prog.zoom view put (m c.info) c := by
  have hview' : ∀ c, (view c).world = c.world := fun c => congrArg State.world (hview c c.world)
  refine uses_members (f := fun c => Prog.zoom view put (m c.info)) (fun _ _ => rfl) fun c =>
    (hm c.info).zoom (fun {c d} h => ?_) (fun {c d s t} h h' => ?_) (fun c => ?_) fun s c => ?_
  · have hd : view d = ⟨(view c).buf, d.world⟩ := (congrArg view h.1).trans (hview c d.world)
    rw [hd]
    refine ⟨rfl, ?_⟩
    rw [hview']
    exact h.2
  · obtain ⟨b, w⟩ := t
    obtain rfl : b = s.buf := h'.1
    have hd : put ⟨s.buf, w⟩ d = { put s c with world := w } :=
      (congrArg (put ⟨s.buf, w⟩) h.1).trans (hput s c w d.world)
    rw [hd]
    refine ⟨rfl, ?_⟩
    rw [hworld]
    exact h'.2
  · exact congrArg World.io (hview' c)
  · exact congrArg World.io (hworld s c)

theorem onIn_uses (hm : ∀ conn, Transfers State.around (m conn)) : Transfers around (onIn m) :=
  on_uses (fun _ _ => rfl) (fun _ _ _ _ => rfl) (fun _ _ => rfl) hm

theorem onOut_uses (hm : ∀ conn, Transfers State.around (m conn)) : Transfers around (onOut m) :=
  on_uses (fun _ _ => rfl) (fun _ _ _ _ => rfl) (fun _ _ => rfl) hm

theorem onErr_uses (hm : ∀ conn, Transfers State.around (m conn)) : Transfers around (onErr m) :=
  on_uses (fun _ _ => rfl) (fun _ _ _ _ => rfl) (fun _ _ => rfl) hm

end Connection

/-! ### The calls of an application -/

section

variable {conn : ConnectionInfo} {fuel : Nat}

theorem unget_uses (is : Istream) : Transfers State.around is.unget := by
  refine .ite (.bind (.attempt (.getBuf (fun _ _ _ => rfl) fun _ => .ite ?_ (.pure _))) fun r => ?_)
    (.pure _)
  · exact .bind (.modify (fun _ => rfl) fun h => ⟨h.1, h.2⟩) fun _ =>
      .bind (modifyBuf_uses _) fun _ => .pure _
  · rcases r with e | _ | c <;> exact .pure _

theorem InOp.call_uses (is : Istream) (op : InOp) :
    Transfers State.around (op.call conn fuel is) := by
  have hcall := underflow_uses conn fuel
  cases op with
  | get => exact .bind (get_uses hcall is) fun _ => .pure _
  | peek => exact .bind (peek_uses hcall is) fun _ => .pure _
  | read n => exact .bind (read_uses hcall is n) fun _ => .pure _
  | unget => exact .bind (unget_uses is) fun _ => .pure _
  | clear => exact .pure _

theorem OutOp.exec_uses (bad : Bool) (op : OutOp) : Transfers State.around (op.exec conn bad) := by
  cases op with
  | put c =>
      refine .ite (.pure _) (.bind (.attempt (sputc_uses c)) fun r => ?_)
      rcases r with e | _ | x <;> exact .pure _
  | write bytes =>
      refine .ite (.pure _) (.bind (.attempt (xsputn_uses bytes)) fun r => ?_)
      rcases r with e | n <;> exact .pure _
  | flush =>
      refine .ite (.pure _) (.bind (.attempt sync_uses) fun r => ?_)
      rcases r with e | n <;> exact .pure _
  | clear => exact .pure _

theorem Connection.close_uses : Transfers around Connection.close :=
  uses_members (fun _ _ => rfl) fun _ => .bind (onErr_uses fun _ => Fcgi.close_uses _) fun _ =>
    .bind (onOut_uses fun _ => Fcgi.close_uses _) fun _ => onIn_uses fun _ => Fcgi.close_uses _

theorem Op.call_uses (op : Op) : Transfers Connection.around (op.call fuel) := by
  cases op with
  | «in» op =>
      exact Connection.uses_members (fun _ _ => rfl) fun c =>
        .bind (Connection.onIn_uses fun _ => InOp.call_uses _ op) fun p =>
          .bind (.modify (fun _ => rfl) fun h => ⟨by rw [h.1], h.2⟩) fun _ => .pure _
  | out op =>
      refine .bind ?_ fun _ => .pure _
      exact Connection.uses_members (fun _ _ => rfl) fun c =>
        .bind (Connection.onOut_uses fun _ => OutOp.exec_uses _ op) fun bad =>
          .modify (fun _ => rfl) fun h => ⟨by rw [h.1], h.2⟩
  | err op =>
      refine .bind ?_ fun _ => .pure _
      exact Connection.uses_members (fun _ _ => rfl) fun c =>
        .bind (Connection.onErr_uses fun _ => OutOp.exec_uses _ op) fun bad =>
          .modify (fun _ => rfl) fun h => ⟨by rw [h.1], h.2⟩
  | setApplicationStatus status =>
      exact .bind (.modify (fun _ => rfl) fun h => ⟨by rw [h.1], h.2⟩) fun _ => .pure _
  | close => exact .bind Connection.close_uses fun _ => .pure _

theorem Application.exec_uses (app : Application) :
    Transfers Connection.around (app.exec fuel) := by
  induction app with
  | done => exact .pure _
  | call op next ih => exact .bind (.attempt op.call_uses) fun r => .bind (ih r) fun _ => .pure _

theorem destroyStreambuf_uses (inbuf : ServerStreambuf) :
    Transfers State.around (destroyStreambuf conn inbuf) :=
  .bind (.attempt (close_uses _)) fun _ => .pure _

theorem Connection.destroy_uses : Transfers around Connection.destroy :=
  .bind (.attempt close_uses) fun _ => uses_members (fun _ _ => rfl) fun _ =>
    .bind (onErr_uses fun _ => destroyStreambuf_uses _) fun _ =>
      .bind (onOut_uses fun _ => destroyStreambuf_uses _) fun _ =>
        onIn_uses fun _ => destroyStreambuf_uses _

end

/-! ### `accept()` -/

section

variable {conn : ConnectionInfo} {fuel : Nat} {uninit : Uninit}

theorem acceptEndRequest_uses {α : Type} (header : Header) (ps : ProtocolStatus)
    (e : Exception) : Transfers World.around (acceptEndRequest header ps e : World.M α) :=
  .bind (.bind (Header.make_uses _ _ _ _) fun _ => .pure _) fun _ =>
    .bind (World.onIo_uses (Io.writeAll_uses _)) fun _ => .throw _

theorem readBeginRequest_uses : Transfers World.around readBeginRequest := by
  refine .bind (.bind (World.onIo_uses (Io.read_uses _)) fun bytes =>
    .ite (.throw _) (.bind (.ite (.throw _) (.pure _)) fun _ => .pure _)) fun header => ?_
  refine .ite (.bind (.bind (World.onIo_uses (Io.read_uses _)) fun bytes =>
    .ite (.throw _) (.pure _)) fun body => .ite (.pure _) ?_) ?_
  · exact acceptEndRequest_uses _ _ _
  · exact acceptEndRequest_uses _ _ _

theorem setbuf_uses (buffer : Mem) (size : Nat) :
    Transfers State.around (setbuf conn buffer size) := by
  refine .bind (.assert _) fun _ => .getBuf (fun _ _ _ => rfl) fun _ => .ite (.throw _) ?_
  refine .bind (.ofExcept _) fun _ => .bind (modifyBuf_uses _) fun _ => .ite ?_ ?_
  · exact .bind (modifyBuf_uses _) fun _ => assertInvariantOk_uses
  · exact .bind (modifyBuf_uses _) fun _ => assertInvariantOk_uses

/-- A buffer on its own is a state with what is shared. -/
theorem construct_uses (buffer : Mem) (size : Nat) (type : StreamType) :
    Transfers World.around (ServerStreambuf.construct conn buffer size type) := by
  refine Uses.embed (m := (do setbuf conn buffer size; assertInvariantOk conn : M Unit))
    (.bind (setbuf_uses _ _) fun _ => assertInvariantOk_uses)
    (fun w => ⟨{ type_ := type, buffer_ := buffer, capacity := size }, w⟩) (fun s _ => s.world)
    (fun r s => r.map fun _ => s.buf) (fun w => ?_) (fun h => ⟨rfl, h⟩) (fun _ h => h.2)
    (fun r h => ?_) (fun _ => rfl) fun _ _ => rfl
  · rw [ServerStreambuf.construct]
    split <;> rename_i e <;> rw [e] <;> rfl
  · rw [h.1]

theorem readOrClose_uses : Transfers State.around (readOrClose conn fuel) := by
  refine .bind (.attempt ?_) fun r => ?_
  · refine .bind (ofStream_uses (underflow_uses conn fuel) _ _ _) fun p => .ite (.throw _) ?_
    exact .ite (.bind (resetReader_uses _) fun _ => .pure _) (.pure _)
  · cases r with
    | ok p => exact .pure _
    | error e =>
        exact .getBuf (fun _ _ _ => rfl) fun _ => .bind (.attempt (close_uses _)) fun _ => .throw _

theorem constructIstream_uses :
    Transfers World.around (ServerIstream.construct conn uninit fuel) := by
  have hread : Transfers State.around (readOrClose conn fuel) := readOrClose_uses
  refine .bind (construct_uses _ _ _) fun buf => hread.embed
    (fun w => ⟨buf, w⟩) (fun s _ => s.world) (fun r s => r.map fun p => (p.1, ⟨p.2, s.buf⟩))
    (fun w => ?_) (fun h => ⟨rfl, h⟩) (fun _ h => h.2) (fun r h => ?_) (fun _ => rfl) fun _ _ => rfl
  · rw [constructBody_run]
    rcases readOrClose conn fuel ⟨buf, w⟩ with ⟨x | p, s⟩ <;> rfl
  · rw [h.1]

theorem onConnection_uses {α : Type} {m : Connection.M α} (hm : Transfers Connection.around m)
    {c : World → Connection} (hc : ∀ w w', c w' = { c w with world := w' })
    (hworld : ∀ w, (c w).world = w) : Transfers World.around (onConnection c m) := by
  refine hm.embed c (fun d _ => d.world) (fun r _ => r) (fun _ => rfl) (fun {w w'} h => ?_)
    (fun _ h => h.2) (fun _ _ => rfl) (fun w => ?_) fun _ _ => rfl
  · refine ⟨?_, ?_⟩
    · rw [hworld w']
      exact hc w w'
    · rw [hworld, hworld]
      exact h
  · exact congrArg World.io (hworld w)

end

/-! ### The whole life -/

section

variable (uninit : Uninit) (fuel : Nat) (app : List (List UInt8 × List UInt8) → Application)

/-- A lifetime by its parts: the first record, the constructor, the application, the destruction. -/
theorem Application.lifetime_eq : Application.lifetime uninit fuel app = (do
    let (h, b) ← readBeginRequest
    let p ← constructParts uninit fuel b.role h.requestId
    onConnection (p.connection uninit b.role h.requestId b.isKeepConn) (do
      let _ ← (app p.parameters.contents).exec fuel
      Connection.destroy)) := by
  funext w
  rw [Application.lifetime]
  rcases e : readBeginRequest w with ⟨x | ⟨h, b⟩, w₁⟩
  · rw [accept, Prog.bind_error e, Prog.bind_error e]
  · have haccept : accept uninit fuel w = _ := accept_of_begun e
    rw [Connection.construct] at haccept
    rw [haccept, Prog.bind_ok e]
    dsimp only
    rcases e' : constructParts uninit fuel b.role h.requestId w₁ with ⟨x | p, w₂⟩
    · rw [Prog.bind_error e', Prog.bind_error e']
    · rw [Prog.bind_ok e', Prog.bind_ok e']
      rfl

/-- **All uses of the descriptor** in the life of a connection are calls of `read` and `write`. -/
theorem Application.lifetime_uses :
    Transfers World.around (Application.lifetime uninit fuel app) := by
  rw [Application.lifetime_eq]
  refine .bind readBeginRequest_uses fun begun => .bind (.bind constructIstream_uses fun p =>
    .bind (construct_uses _ _ _) fun out => .bind (construct_uses _ _ _) fun err => .pure _)
      fun p => ?_
  exact onConnection_uses (.bind (exec_uses _) fun _ => Connection.destroy_uses) (fun _ _ => rfl)
    fun _ => rfl

end

/-- The client does with a descriptor what `m` does with its own. -/
def Imitates {α : Type} (c : Client Transfer Transfer.Result (Except (Fault Exception) α))
    (m : World.M α) : Prop :=
  ∀ io, c.run Transfer.onIo io = (.ok (m ⟨io, {}⟩).1, (m ⟨io, {}⟩).2.io)

/-- What makes transfers only is imitated by a client of them. -/
theorem Lib.Uses.imitated {α : Type} {m : World.M α} (hm : Transfers World.around m) :
    ∃ c, Imitates c m := by
  obtain ⟨c, hc⟩ := hm ⟨⟨[], [], []⟩, {}⟩
  refine ⟨c.bind fun p => .done p.1, fun io => ?_⟩
  obtain ⟨r, t, t', hrun, hm', -⟩ := hc ⟨io, {}⟩ rfl
  have hrun' : c.run Transfer.onIo io = (.ok (r, t), t'.io) := hrun
  rw [Client.run_bind, Prog.bind_run, hrun', hm']
  rfl

/-- **On a socket** a client does what the program does on the `Io` of the answers. -/
theorem Imitates.on_socket {α : Type} {m : World.M α}
    {c : Client Transfer Transfer.Result (Except (Fault Exception) α)} (hc : Imitates c m)
    (d : SocketDescriptor) (k : Kernel) : ∃ k' log, k'.log = k.log ++ log ∧
      (∀ e ∈ log, e.1.IsTransfer d.socket_.socket_) ∧
      c.run Transfer.onSocket (d, k) = (.ok (m ⟨Io.ofLog log [], {}⟩).1, d, k') ∧
      (m ⟨Io.ofLog log [], {}⟩).2.io = ⟨[], [], log.flatMap NetCall.sent⟩ := by
  obtain ⟨a, k', log, hrun, hlog, hall, hio⟩ := socket_refines_io c d k []
  obtain ⟨ha, hio'⟩ := Prod.mk.inj ((hc _).symm.trans hio)
  obtain rfl := Except.ok.inj ha
  exact ⟨k', log, hlog, hall, hrun, hio'⟩

/-- A client that imitates the life of a connection makes a call: the header is read. -/
theorem Imitates.calls {uninit : Uninit} {fuel : Nat}
    {app : List (List UInt8 × List UInt8) → Application} {c : Served}
    (hc : Imitates c (Application.lifetime uninit fuel app)) : ∃ i next, c = .call i next := by
  cases c with
  | call i next => exact ⟨i, next, rfl⟩
  | done r =>
      have hrun := hc ⟨[.data [1]], [], []⟩
      have hread : (Application.lifetime uninit fuel app ⟨⟨[.data [1]], [], []⟩, {}⟩).2.io =
          ⟨[], [], []⟩ := rfl
      rw [hread] at hrun
      cases congrArg (fun p => p.2.incoming) hrun

/-- **A connection on a socket.**  There are clients of `read` and `write` that do with any
descriptor what the life of a connection, with any application, does with an `Io`.  On a socket,
whatever the system answers, such a client makes no other calls, it ends as on the `Io` in which the
answers are written down, and what it sends is what is written there.  The descriptor goes with the
connection, unless the process has ended, and its destruction only ends the connection. -/
theorem lifetime_on_socket (uninit : Uninit) (fuel : Nat)
    (app : List (List UInt8 × List UInt8) → Application) :
    (∃ c, Imitates c (Application.lifetime uninit fuel app)) ∧
      ∀ c, Imitates c (Application.lifetime uninit fuel app) →
        ∀ (d : SocketDescriptor) (k : Kernel) (v : Nat), d.socket_ = ⟨v⟩ → ∀ fuel',
          ∃ k' log ending, k'.log = k.log ++ log ∧ (∀ e ∈ log, e.1.IsTransfer v) ∧
            c.run Transfer.onSocket (d, k) =
              (.ok (Application.lifetime uninit fuel app ⟨Io.ofLog log [], {}⟩).1, d, k') ∧
            (Application.lifetime uninit fuel app ⟨Io.ofLog log [], {}⟩).2.io =
              ⟨[], [], log.flatMap NetCall.sent⟩ ∧
            (SocketDescriptor.serve fuel' c (d, k)).2.2.log = k.log ++ (log ++ ending) ∧
            ∀ e ∈ ending, e.1.Ends v := by
  refine ⟨(Application.lifetime_uses uninit fuel app).imitated, fun c hc d k v hd fuel' => ?_⟩
  obtain ⟨k', log, hlog, hall, hrun, hio⟩ := hc.on_socket d k
  obtain ⟨ending, hlog', hends⟩ := Worker.serve_ending fuel' hd hrun
  rw [hd] at hall
  exact ⟨k', log, ending, hlog, hall, hrun, hio, by rw [hlog', hlog, List.append_assoc], hends⟩

/-- A socket on which a request without parameters and input is received; all is sent. -/
def servedSocket : SocketDescriptor × Kernel :=
  ({ socket_ := ⟨4⟩ },
    { answers := [.ok 8 [1, 1, 0, 1, 0, 8, 0, 0], .ok 8 [0, 1, 0, 0, 0, 0, 0, 0],
        .ok 16 [1, 4, 0, 1, 0, 0, 0, 0, 1, 5, 0, 1, 0, 0, 0, 0], .ok 99 [], .ok 99 []] })

/-- A request without parameters and input is served. -/
theorem lifetime_on_socket_served : (∃ c, Imitates c (Application.lifetime {} 9 fun _ => .done)) ∧
    ∀ c, Imitates c (Application.lifetime {} 9 fun _ => .done) →
      ∃ k' log ending, k'.log = log ∧ (∀ e ∈ log, e.1.IsTransfer 4) ∧
        c.run Transfer.onSocket servedSocket =
          (.ok (Application.lifetime {} 9 (fun _ => .done) ⟨Io.ofLog log [], {}⟩).1,
            { socket_ := ⟨4⟩ }, k') ∧
        (Application.lifetime {} 9 (fun _ => .done) ⟨Io.ofLog log [], {}⟩).2.io =
          ⟨[], [], log.flatMap NetCall.sent⟩ ∧
        (SocketDescriptor.serve 9 c servedSocket).2.2.log = log ++ ending ∧
        ∀ e ∈ ending, e.1.Ends 4 := by
  have hsocket := lifetime_on_socket {} 9 fun _ => .done
  exact ⟨hsocket.1, fun c hc => hsocket.2 c hc servedSocket.1 servedSocket.2 4 rfl 9⟩

/-! ### The conversation on the socket -/

section

variable {id fuel : Nat}

/-- A call is permitted. -/
theorem Op.call_speaks (h0 : id ≠ 0) (hid : id < 65536) (op : Op) :
    Triple (Speaking id) (Prog.attempt (op.call fuel)) (fun _ c => Speaking id c)
      (fun _ c => BrokenOff id c.world) := by
  intro c hc
  have hsteps := Op.exec_steps fuel (hc.sound.members hid) op
  have hexec : op.exec fuel c = _ := op.exec_call
  rcases e : op.call fuel c with ⟨x | cs, c'⟩
  · rw [Prog.bind_error e] at hexec
    have hx := hsteps.of_error rfl hexec
    cases x with
    | exc x =>
        rw [Prog.attempt_exc e]
        exact ConnectionSteps.speaking h0 hid hx hc
    | _ =>
        simp only [Prog.attempt, e]
        exact CallFault.brokenOff h0 hid hx hc
  · rw [Prog.bind_ok e] at hexec
    rw [Prog.attempt_ok e]
    exact (hsteps.of_ok rfl hexec).speaking h0 hid hc

/-- **Every application speaks**, whatever the transport does. -/
theorem Application.exec_speaks (h0 : id ≠ 0) (hid : id < 65536) (app : Application) :
    Triple (Speaking id) (app.exec fuel) (fun _ c => Speaking id c)
      (fun _ c => BrokenOff id c.world) := by
  induction app with
  | done => exact Triple.pure fun _ h => h
  | call op next ih =>
      exact Triple.bind (Op.call_speaks h0 hid op) fun r => Triple.bind (ih r) fun _ =>
        Triple.pure fun _ h => h

/-- What an application has sent is a conversation, if `accept()` has returned. -/
theorem Application.lifetime_spoken {uninit : Uninit} {w w' : World} {c : Connection}
    (hw : w.io.written = []) (haccept : accept uninit fuel w = (.ok c, w'))
    (app : List (List UInt8 × List UInt8) → Application) :
    ∃ φ, Converses c.requestId_ (Application.lifetime uninit fuel app w).2.history
      (Record.parse (Application.lifetime uninit fuel app w).2.io.written).1 φ := by
  obtain ⟨hspeak, h0, hid⟩ := accept_speaking hw haccept
  have hexec : Triple _ ((app c.parameters_.contents).exec fuel) _ _ := exec_speaks h0 hid _
  have hserve := hexec.bind (fun _ => destroy_speaks h0 hid) c hspeak
  rw [Application.lifetime, haccept]
  dsimp only
  split at hserve <;> rename_i e <;> rw [e] <;> exact hserve.parse

end

/-- **The conversation on a socket.**  Whatever the system answers and whatever the application
does, either `accept()` does not return, and that is the end, or what is sent by the calls of the
system is a permitted conversation of the request that was accepted. -/
theorem socket_speaks (uninit : Uninit) (fuel : Nat)
    (app : List (List UInt8 × List UInt8) → Application) :
    (∃ c, Imitates c (Application.lifetime uninit fuel app)) ∧
      ∀ c, Imitates c (Application.lifetime uninit fuel app) →
        ∀ (d : SocketDescriptor) (k : Kernel), ∃ a k' log,
          c.run Transfer.onSocket (d, k) = (.ok a, d, k') ∧ k'.log = k.log ++ log ∧
          ((∃ x w, accept uninit fuel ⟨Io.ofLog log [], {}⟩ = (.error x, w) ∧ a = .error x) ∨
            ∃ conn w φ, accept uninit fuel ⟨Io.ofLog log [], {}⟩ = (.ok conn, w) ∧
              Converses conn.requestId_
                (Application.lifetime uninit fuel app ⟨Io.ofLog log [], {}⟩).2.history
                (Record.parse (log.flatMap NetCall.sent)).1 φ) := by
  refine ⟨(Application.lifetime_uses uninit fuel app).imitated, fun c hc d k => ?_⟩
  obtain ⟨k', log, hlog, -, hrun, hio⟩ := hc.on_socket d k
  refine ⟨_, k', log, hrun, hlog, ?_⟩
  rcases e : accept uninit fuel ⟨Io.ofLog log [], {}⟩ with ⟨x | conn, w⟩
  · refine .inl ⟨x, w, rfl, ?_⟩
    rw [Application.lifetime, e]
  · obtain ⟨φ, hφ⟩ := Application.lifetime_spoken rfl e app
    rw [hio] at hφ
    exact .inr ⟨conn, w, φ, rfl, hφ⟩

/-- The same request, and what is sent for it. -/
theorem socket_speaks_served : (∃ c, Imitates c (Application.lifetime {} 9 fun _ => .done)) ∧
    ∀ c, Imitates c (Application.lifetime {} 9 fun _ => .done) → ∃ a k' log,
      c.run Transfer.onSocket servedSocket = (.ok a, { socket_ := ⟨4⟩ }, k') ∧ k'.log = log ∧
      ((∃ x w, accept {} 9 ⟨Io.ofLog log [], {}⟩ = (.error x, w) ∧ a = .error x) ∨
        ∃ conn w φ, accept {} 9 ⟨Io.ofLog log [], {}⟩ = (.ok conn, w) ∧
          Converses conn.requestId_
            (Application.lifetime {} 9 (fun _ => .done) ⟨Io.ofLog log [], {}⟩).2.history
            (Record.parse (log.flatMap NetCall.sent)).1 φ) := by
  have hsocket := socket_speaks {} 9 fun _ => .done
  exact ⟨hsocket.1, fun c hc => hsocket.2 c hc servedSocket.1 servedSocket.2⟩

end Fcgi

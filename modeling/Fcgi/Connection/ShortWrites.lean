import Fcgi.Output.Chunks
import Fcgi.Connection.BeginRequest

/-!
# Connection — writes that send a part

**`short_writes_completed_iff`**: a session in which `io->write` sends only parts of what it is
given runs like the one in which it sends all, if and only if it sends all of every record the
session hands to it.

Every program of a session is `Chunked`: it goes on after a write only if all has been sent, and
then in the same way, whatever the counts were (`Lib/Sink.lean`).  So the two sessions are the same
up to the first record that is not sent whole, and there the one that sends only a part stops.  The
streams share the transport, which is why a call on one of them is lifted to the connection with
care (`on_chunks`): what it reads of the connection may not be what it sends.
-/

namespace Fcgi
open Lib

/-- What a connection sends, and the answers that its transport has left. -/
def Connection.sink : Sink Connection UInt8 where
  sent c := c.world.io.written
  With ns c d := d = { c with world := d.world } ∧ World.sink.With ns c.world d.world
  sent_eq h := World.sink.sent_eq h.2
  refl h := ⟨rfl, World.sink.refl h.2⟩

namespace Connection

variable {α : Type}

/-- What is read of a connection is not what its streams share. -/
theorem getMembers {f : Connection → M α} (hf : ∀ c w, f { c with world := w } = f c)
    (h : ∀ c, Chunked sink (f c)) : Chunked sink (Prog.get >>= f) :=
  .get (fun {_ c d} hd => by rw [hd.1, hf]) h

variable {m : ConnectionInfo → Fcgi.M α}

/-- A program of the buffer of a stream, which `view` reads of a connection and `put` stores. -/
theorem on_chunks {view : Connection → State} {put : State → Connection → Connection}
    (hview : ∀ c w, view { c with world := w } = ⟨(view c).buf, w⟩)
    (hput : ∀ s c w w', put ⟨s.buf, w⟩ { c with world := w' } = { put s c with world := w })
    (hworld : ∀ s c, (put s c).world = s.world) (hm : ∀ conn, Chunked State.sink (m conn)) :
    Chunked sink fun c => Prog.zoom view put (m c.info) c := by
  have hview' : ∀ c, (view c).world = c.world := fun c => congrArg State.world (hview c c.world)
  refine getMembers (f := fun c => Prog.zoom view put (m c.info)) (fun _ _ => rfl) fun c =>
    (hm c.info).zoom (fun {ns c d} h => ?_) (fun {ns ns' c d s t} h h' => ?_) (fun s c => ?_)
    fun c => ?_
  · have hd : view d = ⟨(view c).buf, d.world⟩ := (congrArg view h.1).trans (hview c d.world)
    rw [hd]
    refine ⟨rfl, ?_⟩
    rw [hview']
    exact h.2
  · obtain ⟨b, w⟩ := t
    obtain rfl : b = s.buf := h'.1
    have hd : put ⟨s.buf, w⟩ d = { put s c with world := w } :=
      (congrArg (put ⟨s.buf, w⟩) h.1).trans (hput s c w d.world)
    rw [hd]
    refine ⟨rfl, ?_⟩
    rw [hworld]
    exact h'.2
  · exact congrArg (fun w => w.io.written) (hworld s c)
  · exact congrArg (fun w => w.io.written) (hview' c)

theorem onIn_chunks (hm : ∀ conn, Chunked State.sink (m conn)) : Chunked sink (onIn m) :=
  on_chunks (fun _ _ => rfl) (fun _ _ _ _ => rfl) (fun _ _ => rfl) hm

theorem onOut_chunks (hm : ∀ conn, Chunked State.sink (m conn)) : Chunked sink (onOut m) :=
  on_chunks (fun _ _ => rfl) (fun _ _ _ _ => rfl) (fun _ _ => rfl) hm

theorem onErr_chunks (hm : ∀ conn, Chunked State.sink (m conn)) : Chunked sink (onErr m) :=
  on_chunks (fun _ _ => rfl) (fun _ _ _ _ => rfl) (fun _ _ => rfl) hm

end Connection

/-! ### The calls of an application -/

section

variable {conn : ConnectionInfo} {fuel : Nat}

theorem unget_chunks (is : Istream) : Chunked State.sink is.unget := by
  refine .ite (.bind (.attempt (.getBuf (fun _ _ _ => rfl) fun _ => .ite ?_ (.pure _))) fun r => ?_)
    (.pure _)
  · exact .bind (.modify (fun _ => rfl) fun h => ⟨h.1, h.2.1, h.2.2⟩) fun _ =>
      .bind (modifyBuf_chunks _) fun _ => .pure _
  · rcases r with e | _ | c <;> exact .pure _

theorem InOp.exec_chunks (is : Istream) (op : InOp) :
    Chunked State.sink (op.exec conn fuel is) := by
  have hcall := underflow_chunks conn fuel
  cases op with
  | get => exact .bind (get_chunks hcall is) fun _ => .pure _
  | peek => exact .bind (peek_chunks hcall is) fun _ => .pure _
  | read n => exact .bind (read_chunks hcall is n) fun _ => .pure _
  | unget => exact unget_chunks is
  | clear => exact .pure _

theorem OutOp.exec_chunks (bad : Bool) (op : OutOp) :
    Chunked State.sink (op.exec conn bad) := by
  cases op with
  | put c =>
      refine .ite (.pure _) (.bind (.attempt (sputc_chunks c)) fun r => ?_)
      rcases r with e | _ | x <;> exact .pure _
  | write bytes =>
      refine .ite (.pure _) (.bind (.attempt (xsputn_chunks bytes)) fun r => ?_)
      rcases r with e | n <;> exact .pure _
  | flush =>
      refine .ite (.pure _) (.bind (.attempt sync_chunks) fun r => ?_)
      rcases r with e | n <;> exact .pure _
  | clear => exact .pure _

theorem Op.exec_chunks (op : Op) : Chunked Connection.sink (op.exec fuel) := by
  cases op with
  | «in» op =>
      exact Connection.getMembers (fun _ _ => rfl) fun c =>
        .bind (Connection.onIn_chunks fun _ => InOp.exec_chunks _ op) fun is =>
          .modify (fun _ => rfl) fun h => ⟨by rw [h.1], h.2⟩
  | out op =>
      exact Connection.getMembers (fun _ _ => rfl) fun c =>
        .bind (Connection.onOut_chunks fun _ => OutOp.exec_chunks _ op) fun bad =>
          .modify (fun _ => rfl) fun h => ⟨by rw [h.1], h.2⟩
  | err op =>
      exact Connection.getMembers (fun _ _ => rfl) fun c =>
        .bind (Connection.onErr_chunks fun _ => OutOp.exec_chunks _ op) fun bad =>
          .modify (fun _ => rfl) fun h => ⟨by rw [h.1], h.2⟩
  | setApplicationStatus status => exact .modify (fun _ => rfl) fun h => ⟨by rw [h.1], h.2⟩
  | close =>
      exact Connection.getMembers (fun _ _ => rfl) fun c =>
        .bind (Connection.onErr_chunks fun _ => close_chunks _) fun _ =>
          .bind (Connection.onOut_chunks fun _ => close_chunks _) fun _ =>
            Connection.onIn_chunks fun _ => close_chunks _

theorem run_chunks : ∀ ops : List Op, Chunked Connection.sink (run fuel ops)
  | [] => .pure _
  | op :: ops => .bind (.attempt op.exec_chunks) fun _ => run_chunks ops

end

/-! ### `accept()` -/

section

variable {conn : ConnectionInfo} {fuel : Nat} {uninit : Uninit}

theorem acceptEndRequest_chunks {α : Type} (header : Header) (ps : ProtocolStatus)
    (e : Exception) : Chunked World.sink (acceptEndRequest header ps e : World.M α) :=
  .bind (.bind (Header.make_chunks _ _ _ _) fun _ => .pure _) fun _ =>
    .bind (World.onIo_chunks (Io.writeAll_chunks _)) fun _ => .throw _

theorem readBeginRequest_chunks : Chunked World.sink readBeginRequest := by
  refine .bind (.bind (World.onIo_chunks (Io.read_chunks _)) fun bytes =>
    .ite (.throw _) (.bind (.ite (.throw _) (.pure _)) fun _ => .pure _)) fun header => ?_
  refine .ite (.bind (.bind (World.onIo_chunks (Io.read_chunks _)) fun bytes =>
    .ite (.throw _) (.pure _)) fun body => .ite (.pure _) ?_) ?_
  · exact acceptEndRequest_chunks _ _ _
  · exact acceptEndRequest_chunks _ _ _

theorem setbuf_chunks (buffer : Mem) (size : Nat) :
    Chunked State.sink (setbuf conn buffer size) := by
  refine .bind (.assert _) fun _ => .getBuf (fun _ _ _ => rfl) fun _ => .ite (.throw _) ?_
  refine .bind (.ofExcept _) fun _ => .bind (modifyBuf_chunks _) fun _ => .ite ?_ ?_
  · exact .bind (modifyBuf_chunks _) fun _ => assertInvariantOk_chunks
  · exact .bind (modifyBuf_chunks _) fun _ => assertInvariantOk_chunks

/-- A buffer on its own is a state with what is shared. -/
theorem construct_chunks (buffer : Mem) (size : Nat) (type : StreamType) :
    Chunked World.sink (ServerStreambuf.construct conn buffer size type) := by
  refine Chunked.embed (m := (do setbuf conn buffer size; assertInvariantOk conn : M Unit))
    (.bind (setbuf_chunks _ _) fun _ => assertInvariantOk_chunks)
    (fun w => ⟨{ type_ := type, buffer_ := buffer, capacity := size }, w⟩) (fun s _ => s.world)
    (fun r s => match r with
      | .ok _ => .ok s.buf
      | .error x => .error x) (fun w => ?_) (fun h => ⟨rfl, h⟩) (fun _ h => h.2) (fun r h => ?_)
    (fun _ => rfl) (fun _ _ => rfl) fun _ => rfl
  · rw [ServerStreambuf.construct]
    split <;> rename_i e <;> rw [e]
  · cases r with
    | ok _ => exact congrArg Except.ok h.1
    | error x => rfl

theorem readParameters_chunks : Chunked State.sink (readParameters conn fuel) := by
  refine .bind (ofStream_chunks (underflow_chunks conn fuel) _ _ _) fun p => .ite (.throw _) ?_
  exact .ite (.bind (resetReader_chunks _) fun _ => .pure _) (.pure _)

theorem readOrClose_chunks : Chunked State.sink (readOrClose conn fuel) := by
  refine .bind (.attempt readParameters_chunks) fun r => ?_
  cases r with
  | ok p => exact .pure _
  | error e =>
      exact .getBuf (fun _ _ _ => rfl) fun _ => .bind (.attempt (close_chunks _)) fun _ => .throw _

/-- The body of the constructor of the input stream, run with its buffer. -/
theorem constructBody_run (buf : ServerStreambuf) (w : World) :
    ServerIstream.constructBody conn fuel buf w =
      (match (readOrClose conn fuel ⟨buf, w⟩).1 with
        | .ok (parameters, is) =>
          .ok (parameters, ⟨is, (readOrClose conn fuel ⟨buf, w⟩).2.buf⟩)
        | .error x => .error x, (readOrClose conn fuel ⟨buf, w⟩).2.world) := by
  rw [ServerIstream.constructBody]
  rcases readOrClose conn fuel ⟨buf, w⟩ with ⟨x | p, s⟩ <;> rfl

theorem constructIstream_chunks :
    Chunked World.sink (ServerIstream.construct conn uninit fuel) := by
  refine .bind (construct_chunks _ _ _) fun buf => Chunked.embed readOrClose_chunks
    (fun w => ⟨buf, w⟩) (fun s _ => s.world) (fun r s => match r with
      | .ok (parameters, is) => .ok (parameters, ⟨is, s.buf⟩)
      | .error x => .error x) (constructBody_run buf) (fun h => ⟨rfl, h⟩) (fun _ h => h.2)
    (fun r h => ?_) (fun _ => rfl) (fun _ _ => rfl) fun _ => rfl
  cases r with
  | ok p => exact congrArg (fun b => Except.ok (p.1, ServerIstream.mk p.2 b)) h.1
  | error x => rfl

/-! ### The session -/

/-- A program of a connection, run where its streams share the state. -/
def onConnection {α : Type} (c : World → Connection) (m : Connection.M α) : World.M α := fun w =>
  ((m (c w)).1, (m (c w)).2.world)

/-- A session by its parts: the first record, the constructor, the calls. -/
theorem session_eq (ops : List Op) : session uninit fuel ops = (do
    let (h, b) ← readBeginRequest
    let p ← constructParts uninit fuel b.role h.requestId
    onConnection (p.connection uninit b.role h.requestId b.isKeepConn) (run fuel ops)) := by
  funext w
  rcases e : readBeginRequest w with ⟨x | ⟨h, b⟩, w₁⟩
  · have hacc : accept uninit fuel w = (.error x, w₁) := by rw [accept, Prog.bind_error e]
    rw [session_error hacc, Prog.bind_error e]
  · rw [Prog.bind_ok e]
    have hacc : accept uninit fuel w = _ := accept_of_begun e
    rw [Connection.construct] at hacc
    dsimp only
    rcases e' : constructParts uninit fuel b.role h.requestId w₁ with ⟨x | p, w₂⟩
    · rw [Prog.bind_error e'] at hacc
      rw [session_error hacc, Prog.bind_error e']
    · rw [Prog.bind_ok e'] at hacc
      rw [session_ok hacc, Prog.bind_ok e', onConnection]

theorem onConnection_chunks {α : Type} {m : Connection.M α} (hm : Chunked Connection.sink m)
    {c : World → Connection} (hc : ∀ w w', c w' = { c w with world := w' })
    (hworld : ∀ w, (c w).world = w) : Chunked World.sink (onConnection c m) := by
  refine hm.embed c (fun d _ => d.world) (fun r _ => r) (fun _ => rfl) (fun {ns w w'} h => ?_)
    (fun _ h => h.2) (fun _ _ => rfl) (fun _ => rfl) (fun _ _ => rfl) fun w => ?_
  · refine ⟨?_, ?_⟩
    · rw [hworld w']
      exact hc w w'
    · rw [hworld, hworld]
      exact h
  · exact congrArg (fun v : World => v.io.written) (hworld w)

variable (uninit fuel) in
/-- **A session** stops at the first record that is not sent whole. -/
theorem session_chunks (ops : List Op) : Chunked World.sink (session uninit fuel ops) := by
  rw [session_eq]
  refine .bind readBeginRequest_chunks fun begun => .bind (.bind constructIstream_chunks fun p =>
    .bind (construct_chunks _ _ _) fun out => .bind (construct_chunks _ _ _) fun err => .pure _)
      fun p => ?_
  exact onConnection_chunks (run_chunks ops) (fun _ _ => rfl) fun _ => rfl

end

/-- The same world, where the next writes send no more than the bytes counted in `ns`. -/
def World.counting (w : World) (ns : List Nat) : World :=
  w.setIo { w.io with sends := ns.map .part }

/-- **Short writes.**  A session hands certain chunks to `io->write`, whatever that sends of them;
where it sends all, they are what the client receives.  Where it sends parts, the session ends in
the same way and the client receives the same bytes, if and only if all of each chunk is sent. -/
theorem short_writes_completed_iff (uninit : Uninit) (fuel : Nat) (ops : List Op) (w : World) :
    ∃ chunks : List (List UInt8),
      (session uninit fuel ops (w.counting [])).2.io.written = w.io.written ++ chunks.flatten ∧
      ∀ ns, ((session uninit fuel ops (w.counting ns)).1 =
            (session uninit fuel ops (w.counting [])).1 ∧
          (session uninit fuel ops (w.counting ns)).2.io.written =
            (session uninit fuel ops (w.counting [])).2.io.written) ↔ Whole chunks ns := by
  have hwith : ∀ ns, World.sink.With ns (w.counting []) (w.counting ns) := fun ns =>
    ⟨⟨rfl, rfl⟩, rfl⟩
  obtain ⟨chunks, hc⟩ := session_chunks fuel uninit ops _ (hwith [])
  refine ⟨chunks, hc.sent, fun ns => ⟨fun h => ?_, fun h => ?_⟩⟩
  · by_contra hcut
    have hlt := (hc.cut (hwith ns) hcut).2
    exact absurd (congrArg List.length h.2) (Nat.ne_of_lt hlt)
  · obtain ⟨hr, hw⟩ := hc.whole (hwith ns) h
    exact ⟨hr, World.sink.sent_eq hw⟩

/-- One byte is sent of the records that end the request. -/
theorem short_write_aborts : ¬ ∀ (uninit : Uninit) (fuel : Nat) (ops : List Op) (w : World)
    (ns : List Nat), (∀ n ∈ ns, 0 < n) →
    (session uninit fuel ops (w.counting ns)).1 = (session uninit fuel ops (w.counting [])).1 ∧
      (session uninit fuel ops (w.counting ns)).2.io.written =
        (session uninit fuel ops (w.counting [])).2.io.written := by
  intro h
  have hsame := (h {} 9 [.close] (responderRequest []) [1] (by decide)).1
  exact absurd hsame (by decide +kernel)

end Fcgi

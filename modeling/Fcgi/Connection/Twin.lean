import Fcgi.Output.Twin
import Fcgi.Connection.BeginRequest
import Fcgi.Connection.Runs

/-!
# Connection — what reaches the client of uninitialised memory

**`session_twin`**: two sessions with the same transport and the same calls, in which the memory
that the program does not initialise differs, end alike and send the same bytes, unless a
get-values-result has been sent with padding.  It is built in a local array of which the padding
is never written (`padding_uninitialised`).

The two runs are related step by step: their buffers differ in bytes that have not been received or
stored, and in nothing else (`Twin` of `Input/Twin.lean`, `WriterTwin` of `Output/Twin.lean`).  A
relation may be left by a padded reply only, and the history says that one has been sent (`Leaked`),
which no later step undoes; so there is one lemma for each program that relates the runs, and where
it reads one that keeps `Leaked`.
-/

namespace Fcgi
open Lib

/-! ### The calls on a stream -/

section

variable {conn : ConnectionInfo} {st : Nat → Mem} {fuel : Nat} {g g' : History}

theorem OutOp.exec_twin (conn : ConnectionInfo) (st : Nat → Mem) (bad : Bool) (op : OutOp) :
    Rel (WriterTwin g g') (op.exec conn bad) (op.exec (conn.over st) bad)
      (fun _ => WriterTwin g g') (WriterTwin g g') Never := by
  cases op with
  | put c =>
      refine Rel.ite Iff.rfl (fun _ => Rel.pure fun _ _ h => h) fun _ => ?_
      refine Rel.seq (Rel.attempt (S := fun _ => WriterTwin g g') (sputc_twin c) fun _ _ _ h => h)
        fun r => ?_
      rcases r with e | _ | c <;> exact Rel.pure fun _ _ h => h
  | write bytes =>
      refine Rel.ite Iff.rfl (fun _ => Rel.pure fun _ _ h => h) fun _ => ?_
      refine Rel.seq (Rel.attempt (S := fun _ => WriterTwin g g') (xsputn_twin bytes)
        fun _ _ _ h => h) fun r => ?_
      rcases r with e | n <;> exact Rel.pure fun _ _ h => h
  | flush =>
      refine Rel.ite Iff.rfl (fun _ => Rel.pure fun _ _ h => h) fun _ => ?_
      refine Rel.seq (Rel.attempt (S := fun _ => WriterTwin g g') sync_twin fun _ _ _ h => h)
        fun r => ?_
      rcases r with e | n <;> exact Rel.pure fun _ _ h => h
  | clear => exact Rel.pure fun _ _ h => h

theorem sungetc_twin : Rel Twin sungetc sungetc (fun _ => Twin) Twin Never := by
  refine Rel.get fun s t hst => ?_
  obtain ⟨mem, h, hmem, hcur, hlim, hans, hrd⟩ := hst
  rename_i b w
  refine Rel.ite Iff.rfl (fun hlt => ?_) fun _ => Rel.ret (.mk mem h hmem hcur hlim hans hrd)
  dsimp only at hlt
  refine Rel.step (noteUnget_run _ _) (noteUnget_run _ _) ?_
  refine Rel.step (modifyBuf_run _) (modifyBuf_run _) ?_
  have hchar : (b.setBuffer mem).buffer_ ((b.setBuffer mem).gptr - 1) =
      b.buffer_ (b.gptr - 1) := hmem (b.gptr - 1) (by omega)
  dsimp only
  rw [hchar]
  exact Rel.ret (.mk mem _ hmem (show b.gptr - 1 ≤ b.bufferEnd_ by omega) hlim hans hrd)

theorem unget_twin (is : Istream) :
    Rel Twin is.unget is.unget (fun _ => Twin) Twin Never := by
  refine Rel.ite Iff.rfl (fun _ => ?_) fun _ => Rel.pure fun _ _ h => h
  refine Rel.seq (Rel.attempt (S := fun _ => Twin) sungetc_twin fun _ _ _ h => h) fun r => ?_
  rcases r with e | _ | c <;> exact Rel.pure fun _ _ h => h

theorem InOp.exec_twin (is : Istream) (op : InOp) :
    Rel Twin (op.exec conn fuel is) (op.exec (conn.over st) fuel is) (fun _ => Twin) Twin
      Leaked := by
  have hcall : Rel Twin (underflow conn fuel) (underflow (conn.over st) fuel) Got Twin Leaked :=
    underflow_twin fuel
  cases op with
  | get => exact Rel.bind (get_twin hcall is) (fun _ => .pure _) fun _ => Rel.pure fun _ _ h => h
  | peek => exact Rel.bind (peek_twin hcall is) (fun _ => .pure _) fun _ => Rel.pure fun _ _ h => h
  | read n =>
      exact Rel.bind (read_twin hcall (underflow_leaked fuel) is n) (fun _ => .pure _) fun _ =>
        Rel.pure fun _ _ h => h
  | unget => exact (unget_twin is).mono
  | clear => exact Rel.pure fun _ _ h => h

/-- A call on an input stream keeps what `underflow()` keeps, and putting a character back. -/
theorem InOp.exec_keepsOr {I : State → Prop} {E : Fault Exception → State → Prop}
    (hI : Lasting I) (hE : Catches E I) (hunget : ∀ b w u, I ⟨b, w⟩ → I ⟨b, w.addUnget u⟩)
    (hcall : KeepsOr E I (underflow conn fuel)) (is : Istream) (op : InOp) :
    KeepsOr E I (op.exec conn fuel is) := by
  cases op with
  | get => exact .bind (get_stable hI hE hcall is) fun _ => .pure _
  | peek => exact .bind (peek_stable hE hcall is) fun _ => .pure _
  | read n => exact .bind (read_stable hI hE hcall is n) fun _ => .pure _
  | unget =>
      have hsungetc : Keeps I sungetc :=
        .get fun _ => .ite (.bind (.modify fun s => hunget s.buf s.world _) fun _ =>
          .bind (modifyBuf_lasting hI fun _ => rfl) fun _ => .pure _) (.pure _)
      refine Keeps.or (.ite (.bind (.attempt hsungetc) fun r => ?_) (.pure _)) hE
      rcases r with e | _ | c <;> exact .pure _
  | clear => exact .pure _

theorem InOp.exec_leaked (is : Istream) (op : InOp) : Keeps Leaked (op.exec conn fuel is) :=
  InOp.exec_keepsOr leaked_lasting .keeps (fun _ _ _ h => h) (underflow_leaked fuel) is op

/-- `close()` of the input stream. -/
theorem close_reader_twin (inbuf inbuf' : ServerStreambuf) :
    Rel Twin (close conn inbuf) (close (conn.over st) inbuf') (fun _ => Twin) Twin Never := by
  refine Rel.get fun s t hst => ?_
  obtain ⟨mem, h, hmem, hcur, hlim, hans, hrd⟩ := hst
  rename_i b w
  refine Rel.ite Iff.rfl (fun _ => Rel.ret (.mk mem h hmem hcur hlim hans hrd)) fun _ => ?_
  refine Rel.ite Iff.rfl (fun hr => absurd hrd hr) fun _ => ?_
  refine Rel.step (modifyBuf_run _) (modifyBuf_run _) (Rel.get fun s t hst => ?_)
  obtain ⟨rfl, rfl⟩ := hst
  have htwin : Twin ⟨b.setgNull.setpNull, w⟩ ⟨(b.setBuffer mem).setgNull.setpNull, ⟨w.io, h⟩⟩ :=
    .mk mem h hmem (Nat.zero_le _) (Nat.zero_le _) hans hrd
  exact Rel.guard Iff.rfl htwin fun _ => assertInvariantOk_twin.at_pre htwin

/-- `close()` leaves the history alone, of whichever stream. -/
theorem close_history (inbuf : ServerStreambuf) (g : History) :
    Keeps (fun s => s.world.history = g) (close conn inbuf) :=
  keeps_history (close_twin conn conn.stack inbuf inbuf.buffer_)

/-- A call on an output stream leaves the history alone. -/
theorem OutOp.exec_history (bad : Bool) (op : OutOp) (g : History) :
    Keeps (fun s => s.world.history = g) (op.exec conn bad) :=
  keeps_history (OutOp.exec_twin conn conn.stack bad op)

/-- What leaves the history alone does not undo it. -/
theorem leaked_of_history {α : Type} {m : M α}
    (h : ∀ g, Keeps (fun s => s.world.history = g) m) : Keeps Leaked m := fun s hs =>
  have keep : ∀ t : State, t.world.history = s.world.history → Leaked t := fun t ht => by
    rw [Leaked, ht]; exact hs
  (h s.world.history).conseq (fun _ => id) (fun _ => keep) (fun _ => keep) s rfl

theorem close_leaked (inbuf : ServerStreambuf) : Keeps Leaked (close conn inbuf) :=
  leaked_of_history (close_history inbuf)

theorem OutOp.exec_leaked (bad : Bool) (op : OutOp) : Keeps Leaked (op.exec conn bad) :=
  leaked_of_history (OutOp.exec_history bad op)

end

/-! ### The connection -/

/-- Two connections that differ in memory and in the history. -/
structure ConnectionTwin (c c' : Connection) : Prop where
  in_ : Twin c.inState c'.inState
  out : WriterTwin c.world.history c'.world.history c.outState c'.outState
  err : WriterTwin c.world.history c'.world.history c.errState c'.errState
  info : c'.info = c.info.over c'.stack
  ios : c'.in_.ios = c.in_.ios
  outBad : c'.out_.bad = c.out_.bad
  errBad : c'.err_.bad = c.err_.bad

/-- What the other buffers do to the world. -/
theorem Twin.withWorld {s t : State} (h : Twin s t) {w w' : World} (hio : w'.io = w.io)
    (hans : w'.history.answers.length = w.history.answers.length) :
    Twin ⟨s.buf, w⟩ ⟨t.buf, w'⟩ := by
  obtain ⟨mem, g, hmem, hcur, hlim, -, hrd⟩ := h
  obtain ⟨io', g'⟩ := w'
  cases hio
  exact .mk mem g' hmem hcur hlim hans hrd

/-- Two readers have the same transport, and have answered as often. -/
theorem Twin.world_eq {s t : State} (h : Twin s t) : t.world.io = s.world.io ∧
    t.world.history.answers.length = s.world.history.answers.length := by
  obtain ⟨mem, g, hmem, hcur, hlim, hans, hrd⟩ := h
  exact ⟨rfl, hans⟩

namespace ConnectionTwin

variable {c c' : Connection} {s t : State}

/-- The two connections stay alike by a call on `in()`. -/
theorem setIn (h : ConnectionTwin c c') (hst : Twin s t) :
    ConnectionTwin (c.setIn s) (c'.setIn t) where
  in_ := hst
  out := h.out.withWorld hst.world_eq.1
  err := h.err.withWorld hst.world_eq.1
  info := h.info
  ios := h.ios
  outBad := h.outBad
  errBad := h.errBad

theorem setOut (h : ConnectionTwin c c')
    (hst : WriterTwin c.world.history c'.world.history s t) :
    ConnectionTwin (c.setOut s) (c'.setOut t) where
  in_ := h.in_.withWorld hst.io_eq (by
    rw [Connection.setOut_world, Connection.setOut_world, hst.history_eq.1, hst.history_eq.2]
    exact h.in_.world_eq.2)
  out := hst.withWorld hst.io_eq
  err := h.err.withWorld hst.io_eq
  info := h.info
  ios := h.ios
  outBad := h.outBad
  errBad := h.errBad

theorem setErr (h : ConnectionTwin c c')
    (hst : WriterTwin c.world.history c'.world.history s t) :
    ConnectionTwin (c.setErr s) (c'.setErr t) where
  in_ := h.in_.withWorld hst.io_eq (by
    rw [Connection.setErr_world, Connection.setErr_world, hst.history_eq.1, hst.history_eq.2]
    exact h.in_.world_eq.2)
  out := h.out.withWorld hst.io_eq
  err := hst.withWorld hst.io_eq
  info := h.info
  ios := h.ios
  outBad := h.outBad
  errBad := h.errBad

end ConnectionTwin

section

variable {α : Type} {m m' : ConnectionInfo → M α}

/-- A reply has been sent with padding. -/
abbrev Connection.Leaked (c : Connection) : Prop := c.world.history.Leaked

theorem onIn_twin (hm : ∀ conn st, Rel Twin (m conn) (m' (conn.over st)) (fun _ => Twin) Twin
      Leaked) : Rel ConnectionTwin (Connection.onIn m) (Connection.onIn m')
      (fun _ => ConnectionTwin) ConnectionTwin Connection.Leaked := by
  intro c c' h
  have ha := hm c.info c'.stack c.inState c'.inState h.in_
  rw [← h.info] at ha
  exact ha.imp id fun ha => ha.zoom h.setIn

theorem onOut_twin (hm : ∀ conn st g g', Rel (WriterTwin g g') (m conn) (m' (conn.over st))
      (fun _ => WriterTwin g g') (WriterTwin g g') Never) :
    Rel ConnectionTwin (Connection.onOut m) (Connection.onOut m') (fun _ => ConnectionTwin)
      ConnectionTwin Never := by
  intro c c' h
  have ha := hm c.info c'.stack _ _ c.outState c'.outState h.out
  rw [← h.info] at ha
  exact ha.imp id fun ha => ha.zoom h.setOut

theorem onErr_twin (hm : ∀ conn st g g', Rel (WriterTwin g g') (m conn) (m' (conn.over st))
      (fun _ => WriterTwin g g') (WriterTwin g g') Never) :
    Rel ConnectionTwin (Connection.onErr m) (Connection.onErr m') (fun _ => ConnectionTwin)
      ConnectionTwin Never := by
  intro c c' h
  have ha := hm c.info c'.stack _ _ c.errState c'.errState h.err
  rw [← h.info] at ha
  exact ha.imp id fun ha => ha.zoom h.setErr

/-- A program of the buffer of a stream, which `view` reads of a connection and `put` stores. -/
theorem on_leaked {view : Connection → State} {put : State → Connection → Connection}
    (hview : ∀ c, (view c).world = c.world) (hput : ∀ s c, (put s c).world = s.world)
    (hm : ∀ conn, Keeps Leaked (m conn)) :
    Keeps Connection.Leaked fun c => Prog.zoom view put (m c.info) c := by
  intro c
  refine Triple.zoom (fun d hd => (hm c.info).conseq ?_ ?_ ?_) c
  · rintro s rfl
    rw [Leaked, hview]
    exact hd
  · intro _ s hs
    rw [Connection.Leaked, hput]
    exact hs
  · intro _ s hs
    rw [Connection.Leaked, hput]
    exact hs

theorem onIn_leaked (hm : ∀ conn, Keeps Leaked (m conn)) :
    Keeps Connection.Leaked (Connection.onIn m) := on_leaked (fun _ => rfl) (fun _ _ => rfl) hm

theorem onOut_leaked (hm : ∀ conn, Keeps Leaked (m conn)) :
    Keeps Connection.Leaked (Connection.onOut m) := on_leaked (fun _ => rfl) (fun _ _ => rfl) hm

theorem onErr_leaked (hm : ∀ conn, Keeps Leaked (m conn)) :
    Keeps Connection.Leaked (Connection.onErr m) := on_leaked (fun _ => rfl) (fun _ _ => rfl) hm

end

section

variable {fuel : Nat}

theorem Connection.close_twin :
    Rel ConnectionTwin Connection.close Connection.close (fun _ => ConnectionTwin) ConnectionTwin
      Connection.Leaked := by
  refine Rel.get fun c c' h => ?_
  obtain ⟨mem, hbuf⟩ : ∃ mem, c'.in_.streambuf_ = c.in_.streambuf_.setBuffer mem := by
    have hin := h.in_
    generalize hs : c.inState = s at hin
    generalize ht : c'.inState = t at hin
    obtain ⟨mem, g, -⟩ := hin
    exact ⟨mem, (congrArg State.buf ht).trans (congrArg (·.buf.setBuffer mem) hs).symm⟩
  rw [hbuf]
  refine Rel.seq ((onErr_twin fun conn st g g' => Fcgi.close_twin conn st _ mem).at_pre h)
    fun _ => ?_
  refine Rel.seq (onOut_twin fun conn st g g' => Fcgi.close_twin conn st _ mem) fun _ => ?_
  exact onIn_twin fun conn st => (close_reader_twin _ _).mono

theorem Op.exec_twin (op : Op) :
    Rel ConnectionTwin (op.exec fuel) (op.exec fuel) (fun _ => ConnectionTwin) ConnectionTwin
      Connection.Leaked := by
  cases op with
  | «in» op =>
      refine Rel.get fun c c' h => ?_
      rw [h.ios]
      refine Rel.bind ((onIn_twin fun conn st => InOp.exec_twin _ op).at_pre h)
        (fun is => .modify fun _ h => h) fun is => Rel.modify fun c c' h => ?_
      exact ⟨h.in_, h.out, h.err, h.info, rfl, h.outBad, h.errBad⟩
  | out op =>
      refine Rel.get fun c c' h => ?_
      rw [h.outBad]
      refine Rel.seq ((onOut_twin fun conn st g g' => OutOp.exec_twin conn st _ op).at_pre h)
        fun bad => Rel.modify fun c c' h => ?_
      exact ⟨h.in_, h.out, h.err, h.info, h.ios, rfl, h.errBad⟩
  | err op =>
      refine Rel.get fun c c' h => ?_
      rw [h.errBad]
      refine Rel.seq ((onErr_twin fun conn st g g' => OutOp.exec_twin conn st _ op).at_pre h)
        fun bad => Rel.modify fun c c' h => ?_
      exact ⟨h.in_, h.out, h.err, h.info, h.ios, h.outBad, rfl⟩
  | setApplicationStatus status =>
      refine Rel.modify fun c c' h => ?_
      refine ⟨h.in_, h.out, h.err, ?_, h.ios, h.outBad, h.errBad⟩
      have hinfo := h.info
      simp only [Connection.info, ConnectionInfo.over, ConnectionInfo.mk.injEq] at hinfo ⊢
      exact ⟨hinfo.1, hinfo.2.1, trivial, trivial⟩
  | close => exact Connection.close_twin

theorem Op.exec_leaked (op : Op) : Keeps Connection.Leaked (op.exec fuel) := by
  cases op with
  | «in» op =>
      exact .get fun c => .bind (onIn_leaked fun conn => InOp.exec_leaked _ op) fun _ =>
        .modify fun _ h => h
  | out op =>
      exact .get fun c => .bind (onOut_leaked fun conn => OutOp.exec_leaked _ op) fun _ =>
        .modify fun _ h => h
  | err op =>
      exact .get fun c => .bind (onErr_leaked fun conn => OutOp.exec_leaked _ op) fun _ =>
        .modify fun _ h => h
  | setApplicationStatus status => exact .modify fun _ h => h
  | close =>
      exact .get fun c => .bind (onErr_leaked fun _ => close_leaked _) fun _ =>
        .bind (onOut_leaked fun _ => close_leaked _) fun _ => onIn_leaked fun _ => close_leaked _

theorem run_leaked (ops : List Op) : Keeps Connection.Leaked (run fuel ops) := by
  induction ops with
  | nil => exact .pure _
  | cons op ops ih => exact .bind (.attempt (Op.exec_leaked op)) fun _ => ih

/-- Two runs of the application. -/
theorem run_twin (ops : List Op) :
    Rel ConnectionTwin (run fuel ops) (run fuel ops) (fun _ => ConnectionTwin) ConnectionTwin
      Connection.Leaked := by
  induction ops with
  | nil => exact Rel.pure fun _ _ h => h
  | cons op ops ih =>
      exact Rel.bind (Rel.attempt (S := fun _ => ConnectionTwin) (Op.exec_twin op) fun _ _ _ h => h)
        (fun _ => run_leaked ops) fun _ => ih

end

/-! ### Accepting -/

/-- Two worlds that differ in the history. -/
structure WorldTwin (w w' : World) : Prop where
  io : w'.io = w.io
  answers : w'.history.answers.length = w.history.answers.length

/-- The worlds of two readers are alike. -/
theorem Twin.worldTwin {s t : State} (h : Twin s t) : WorldTwin s.world t.world :=
  ⟨h.world_eq.1, h.world_eq.2⟩

/-- How two constructors end alike: with related objects or with the same fault. -/
inductive Constructed {α : Type} (Q : α → α → World → World → Prop) :
    Except (Fault Exception) α × World → Except (Fault Exception) α × World → Prop
  | ok {a a' : α} {w w' : World} (h : Q a a' w w') : Constructed Q (.ok a, w) (.ok a', w')
  | error {x : Fault Exception} {w w' : World} (h : WorldTwin w w') :
      Constructed Q (.error x, w) (.error x, w')

section

variable {conn : ConnectionInfo} {st : Nat → Mem} {fuel : Nat} {w w' : World}

theorem World.onIo_twin {α : Type} (m : Prog Io Exception α) :
    Rel WorldTwin (World.onIo m) (World.onIo m) (fun _ => WorldTwin) WorldTwin Never := by
  rintro ⟨io, g⟩ ⟨io', g'⟩ ⟨hio, hans⟩
  cases hio
  simp only [World.onIo, Prog.zoom, World.setIo]
  rcases m io with ⟨x | a, io'⟩
  · exact .inr (.error ⟨rfl, hans⟩)
  · exact .inr (.ok ⟨rfl, hans⟩)

theorem readHeader_twin :
    Rel WorldTwin readHeader readHeader (fun _ => WorldTwin) WorldTwin Never := by
  refine Rel.seq (World.onIo_twin _) fun bytes => ?_
  refine Rel.ite Iff.rfl (fun _ => Rel.throw fun _ _ h => h) fun _ => ?_
  refine Rel.seq (Q := fun _ => WorldTwin) ?_ fun _ => Rel.pure fun _ _ h => h
  exact Rel.ite Iff.rfl (fun _ => Rel.throw fun _ _ h => h) fun _ => Rel.pure fun _ _ h => h

theorem readBeginRequestBody_twin :
    Rel WorldTwin readBeginRequestBody readBeginRequestBody (fun _ => WorldTwin) WorldTwin
      Never := by
  refine Rel.seq (World.onIo_twin _) fun bytes => ?_
  exact Rel.ite Iff.rfl (fun _ => Rel.throw fun _ _ h => h) fun _ => Rel.pure fun _ _ h => h

theorem acceptEndRequest_twin {α : Type} (header : Header) (ps : ProtocolStatus) (e : Exception) :
    Rel WorldTwin (acceptEndRequest header ps e : World.M α) (acceptEndRequest header ps e)
      (fun _ => WorldTwin) WorldTwin Never := by
  refine Rel.seq (Q := fun _ => WorldTwin) ?_ fun _ => Rel.seq (Q := fun _ => WorldTwin)
    (World.onIo_twin _) fun _ => Rel.throw fun _ _ h => h
  refine Rel.seq (Q := fun _ => WorldTwin) ?_ fun _ => Rel.pure fun _ _ h => h
  exact Rel.seq (Q := fun _ => WorldTwin) (Rel.assert Iff.rfl (fun _ _ h _ => h) fun _ _ h => h)
    fun _ => Rel.pure fun _ _ h => h

theorem readBeginRequest_twin :
    Rel WorldTwin readBeginRequest readBeginRequest (fun _ => WorldTwin) WorldTwin Never := by
  refine Rel.seq readHeader_twin fun header => ?_
  refine Rel.ite Iff.rfl (fun _ => ?_) fun _ => acceptEndRequest_twin header _ _
  refine Rel.seq readBeginRequestBody_twin fun body => ?_
  exact Rel.ite Iff.rfl (fun _ => Rel.pure fun _ _ h => h) fun _ => acceptEndRequest_twin header _ _

/-- The buffers of two connections are constructed alike. -/
theorem construct_twin (conn : ConnectionInfo) (st : Nat → Mem) (mem mem' : Mem) (size : Nat)
    (type : StreamType) (h : WorldTwin w w') :
    Constructed (fun b b' v v' => b' = b.setBuffer mem' ∧ WorldTwin v v')
      (ServerStreambuf.construct conn mem size type w)
      (ServerStreambuf.construct (conn.over st) mem' size type w') := by
  -- The two buffers differ in their memory only, from their construction on.
  set R : State → State → Prop := fun s t => t.buf = s.buf.setBuffer mem' ∧
    WorldTwin s.world t.world with hR
  have hassert : Rel R (assertInvariantOk conn) (assertInvariantOk (conn.over st)) (fun _ => R) R
      Never := assertInvariantOk_rel fun s t hst => by rw [hst.1]; exact Iff.rfl
  have hmodify : ∀ f f' : ServerStreambuf → ServerStreambuf,
      (∀ b, f' (b.setBuffer mem') = (f b).setBuffer mem') →
      Rel R (modifyBuf f) (modifyBuf f') (fun _ => R) R Never := fun f f' hf =>
    Rel.modify fun s t hst => ⟨by rw [hst.1]; exact hf _, hst.2⟩
  have hset : Rel R (setbuf conn mem size) (setbuf (conn.over st) mem' size) (fun _ => R) R
      Never := by
    refine Rel.seq (Q := fun _ => R) (Rel.assert Iff.rfl (fun _ _ h _ => h) fun _ _ h => h)
      fun _ => Rel.get fun s t hst => ?_
    refine Rel.ite ?_ (fun _ => Rel.stop hst) fun _ => ?_
    · rw [hst.1]
      exact Iff.rfl
    refine Rel.seq (Q := fun _ => R) (Rel.pre (Rel.ofExcept fun _ _ h => ⟨fun _ => h, h⟩)
      (fun _ _ ⟨hs, ht⟩ => hs ▸ ht ▸ hst)) fun padding => ?_
    refine Rel.seq (hmodify _ _ fun _ => rfl) fun _ => ?_
    refine Rel.ite ?_ (fun _ => Rel.seq (hmodify _ _ fun _ => rfl) fun _ => hassert)
      fun _ => Rel.seq (hmodify _ _ fun _ => rfl) fun _ => hassert
    rw [hst.1]
    exact Iff.rfl
  have ha := ((Rel.seq hset fun _ => hassert) ⟨{ type_ := type, buffer_ := mem, capacity := size },
    w⟩ ⟨{ type_ := type, buffer_ := mem', capacity := size }, w'⟩ ⟨rfl, h⟩).resolve_left id
  rw [ServerStreambuf.construct, ServerStreambuf.construct]
  generalize (setbuf conn mem size >>= fun _ => assertInvariantOk conn : M Unit)
    ⟨{ type_ := type, buffer_ := mem, capacity := size }, w⟩ = r at ha ⊢
  generalize (setbuf (conn.over st) mem' size >>= fun _ => assertInvariantOk (conn.over st) :
    M Unit) ⟨{ type_ := type, buffer_ := mem', capacity := size }, w'⟩ = r' at ha ⊢
  cases ha with
  | ok hst => exact .ok hst
  | error hst => exact .error hst.2

theorem readParameters_twin :
    Rel Twin (readParameters conn fuel) (readParameters (conn.over st) fuel) (fun _ => Twin) Twin
      Leaked := by
  refine Rel.bind (ofStream_twin (underflow_twin fuel) (underflow_leaked fuel) fuel _ _)
    (fun p => ?_) fun p => ?_
  · exact .ite (.throw _)
      (.ite (.bind (resetReader_stable leaked_stable _) fun _ => .pure _) (.pure _))
  · refine Rel.ite Iff.rfl (fun _ => Rel.throw fun _ _ h => h) fun _ => ?_
    refine Rel.ite Iff.rfl (fun _ => ?_) fun _ => Rel.pure fun _ _ h => h
    exact (Rel.seq (resetReader_twin (.inl rfl)) fun _ => Rel.pure fun _ _ h => h).mono

/-- Two input streams. -/
def IstreamTwin (p p' : NamesValues × ServerIstream) (w w' : World) : Prop :=
  p'.1 = p.1 ∧ p'.2.ios = p.2.ios ∧ Twin ⟨p.2.streambuf_, w⟩ ⟨p'.2.streambuf_, w'⟩

theorem readOrClose_twin :
    Rel Twin (readOrClose conn fuel) (readOrClose (conn.over st) fuel) (fun _ => Twin) Twin
      Leaked := by
  refine Rel.bind (Rel.attempt (S := fun _ => Twin) readParameters_twin fun _ _ _ h => h)
    (fun r => ?_) fun r => ?_
  · cases r with
    | ok p => exact .pure _
    | error e => exact .get fun s => .bind (.attempt (close_leaked s.buf)) fun _ => .throw _
  · cases r with
    | ok p => exact Rel.pure fun _ _ h => h
    | error e =>
        refine Rel.get fun s t hst => ?_
        have hclose : Rel Twin (close conn s.buf) (close (conn.over st) t.buf) (fun _ => Twin)
            Twin Never := close_reader_twin _ _
        have hthrow : Rel Twin (Prog.attempt (close conn s.buf) >>= fun _ =>
            (Prog.throw e : M (NamesValues × Istream)))
            (Prog.attempt (close (conn.over st) t.buf) >>= fun _ => Prog.throw e)
            (fun _ => Twin) Twin Leaked :=
          Rel.seq (Rel.attempt (S := fun _ => Twin) hclose fun _ _ _ h => h) fun _ =>
            Rel.throw fun _ _ h => h
        exact hthrow.at_pre hst

theorem constructBody_twin {b b' : ServerStreambuf} (h : Twin ⟨b, w⟩ ⟨b', w'⟩) :
    (ServerIstream.constructBody conn fuel b w).2.history.Leaked ∨
      Constructed IstreamTwin (ServerIstream.constructBody conn fuel b w)
        (ServerIstream.constructBody (conn.over st) fuel b' w') := by
  have hread : Rel Twin (readOrClose conn fuel) (readOrClose (conn.over st) fuel)
      (fun _ => Twin) Twin Leaked := readOrClose_twin
  rw [ServerIstream.constructBody, ServerIstream.constructBody]
  refine (hread _ _ h).imp (fun hb => ?_) fun ha => ?_
  · rcases e : readOrClose conn fuel ⟨b, w⟩ with ⟨x | p, s⟩ <;> rw [e] at hb <;> exact hb
  · rcases e : readOrClose conn fuel ⟨b, w⟩ with ⟨x | p, s⟩ <;>
      rcases e' : readOrClose (conn.over st) fuel ⟨b', w'⟩ with ⟨x' | p', s'⟩ <;> rw [e, e'] at ha
    · cases ha with
      | error hst => exact .error hst.worldTwin
    · cases ha
    · cases ha
    · cases ha with
      | ok hst => exact .ok ⟨rfl, rfl, hst⟩

/-- Two input streams are constructed alike. -/
theorem construct_istream_twin (conn : ConnectionInfo) (st : Nat → Mem) (fuel : Nat)
    (uninit uninit' : Uninit) (h : WorldTwin w w') :
    (ServerIstream.construct conn uninit fuel w).2.history.Leaked ∨
      Constructed IstreamTwin (ServerIstream.construct conn uninit fuel w)
        (ServerIstream.construct (conn.over st) uninit' fuel w') := by
  obtain ⟨b, hb, hfresh⟩ := construct_reader conn uninit.inBuffer inBufferSize w
    (by decide) (by decide)
  have htwin := construct_twin conn st uninit.inBuffer uninit'.inBuffer inBufferSize .params h
  rw [hb] at htwin
  rcases hb' : ServerStreambuf.construct (conn.over st) uninit'.inBuffer inBufferSize .params w'
    with ⟨x | b', v'⟩ <;> rw [hb'] at htwin
  · cases htwin
  · cases htwin with
    | ok hst =>
        obtain ⟨rfl, hw⟩ := hst
        rw [ServerIstream.construct, ServerIstream.construct, Prog.bind_ok hb, Prog.bind_ok hb']
        refine constructBody_twin ?_
        obtain ⟨io, g⟩ := w
        obtain ⟨io', g'⟩ := v'
        cases hw.io
        refine .mk _ g' (fun i hi => ?_) ?_ ?_ hw.answers hfresh.openReader.reader
        · exact absurd hi (hfresh.end_ ▸ Nat.not_lt_zero i)
        · rw [ServerStreambuf.gptr_eq hfresh.area]; exact Nat.zero_le _
        · rw [ServerStreambuf.egptr_eq hfresh.area]; exact Nat.zero_le _

/-- A buffer into which nothing has been written has no content to differ in. -/
theorem FreshWriter.twin {t : StreamType} {b : ServerStreambuf} (h : FreshWriter t b) (mem : Mem)
    (hw : w'.io = w.io) : WriterTwin w.history w'.history ⟨b, w⟩ ⟨b.setBuffer mem, w'⟩ := by
  obtain ⟨io, g⟩ := w
  obtain ⟨io', g'⟩ := w'
  cases hw
  refine .mk mem fun i hi => hi.elim False.elim fun hi => ?_
  obtain ⟨cur, hcur⟩ := h.writer.putArea
  have hlen : b.pptr - b.pbase = 0 := by
    rw [← Mem.length_load b.buffer_ b.pbase (b.pptr - b.pbase)]
    exact congrArg List.length h.pending
  rw [ServerStreambuf.pbase_eq hcur.area] at hlen
  obtain ⟨h₁, h₂⟩ : 8 ≤ i ∧ i < b.pptr := hi
  omega

/-- Two buffers for output are constructed alike. -/
theorem FreshWriter.construct_twin {mem : Mem} {size : Nat} {t : StreamType} {b : ServerStreambuf}
    (h : FreshWriter t b) (hb : ServerStreambuf.construct conn mem size t w = (.ok b, w))
    (hsize : 2048 ≤ size ∧ size ≤ 65528) (st : Nat → Mem) (mem' : Mem) (hw : WorldTwin w w') :
    ServerStreambuf.construct (conn.over st) mem' size t w' = (.ok (b.setBuffer mem'), w') ∧
      WriterTwin w.history w'.history ⟨b, w⟩ ⟨b.setBuffer mem', w'⟩ := by
  obtain ⟨b', hb', -, -⟩ :=
    construct_writer (conn.over st) mem' w' hsize.1 hsize.2 h.writer.output
  have htwin := Fcgi.construct_twin conn st mem mem' size t hw
  rw [hb, hb'] at htwin
  cases htwin with
  | ok hst =>
      obtain ⟨rfl, -⟩ := hst
      exact ⟨hb', h.twin mem' hw.io⟩

/-- Two connections are constructed alike. -/
theorem construct_connection_twin {uninit uninit' : Uninit} {role : Role} {id : Nat}
    {keep : Bool} (h : WorldTwin w w') :
    (Connection.construct uninit fuel role id keep w).2.history.Leaked ∨
      Constructed (fun c c' _ _ => ConnectionTwin c c')
        (Connection.construct uninit fuel role id keep w)
        (Connection.construct uninit' fuel role id keep w') := by
  set conn : ConnectionInfo := { role, requestId := id, stack := uninit.stack } with hconn
  have hstream := construct_istream_twin conn uninit'.stack fuel uninit uninit' h
  -- The input stream comes first: where its construction throws, no other stream is built.
  rcases e : ServerIstream.construct conn uninit fuel w with ⟨x | ⟨nv, is⟩, v⟩
  · have hrun : Connection.construct uninit fuel role id keep w = (.error x, v) :=
      Prog.bind_error (Prog.bind_error e)
    rw [e] at hstream
    rw [hrun]
    refine hstream.imp_right fun hs => ?_
    rcases e' : ServerIstream.construct (conn.over uninit'.stack) uninit' fuel w'
      with ⟨x' | p', v'⟩ <;> rw [e'] at hs
    · have hrun' : Connection.construct uninit' fuel role id keep w' = (.error x', v') :=
        Prog.bind_error (Prog.bind_error e')
      rw [hrun']
      cases hs with
      | error hw => exact .error hw
    · cases hs
  -- The other two streams write nothing while they are constructed.
  · have hsizeOut : 2048 ≤ outBufferSize ∧ outBufferSize ≤ 65528 := by decide
    have hsizeErr : 2048 ≤ errBufferSize ∧ errBufferSize ≤ 65528 := by decide
    obtain ⟨out, hout, hfresh, -⟩ :=
      construct_writer conn uninit.outBuffer v hsizeOut.1 hsizeOut.2 (.inl rfl)
    obtain ⟨err, herr, hfresh', -⟩ :=
      construct_writer conn uninit.errBuffer v hsizeErr.1 hsizeErr.2 (.inr rfl)
    rw [e] at hstream
    rw [Connection.construct_run hconn e hout herr]
    refine hstream.imp_right fun hs => ?_
    rcases e' : ServerIstream.construct (conn.over uninit'.stack) uninit' fuel w'
      with ⟨x' | ⟨nv', is'⟩, v'⟩ <;> rw [e'] at hs
    · cases hs
    · cases hs with
      | ok hst =>
          obtain ⟨rfl, hios, htwin⟩ := hst
          obtain ⟨hout', houts⟩ := hfresh.construct_twin hout hsizeOut uninit'.stack
            uninit'.outBuffer htwin.worldTwin
          obtain ⟨herr', herrs⟩ := hfresh'.construct_twin herr hsizeErr uninit'.stack
            uninit'.errBuffer htwin.worldTwin
          rw [Connection.construct_run rfl e' hout' herr']
          exact .ok ⟨htwin, houts, herrs, rfl, hios, rfl, rfl⟩

/-- **`accept()` twice.** -/
theorem accept_twin (fuel : Nat) (uninit uninit' : Uninit) (h : WorldTwin w w') :
    (accept uninit fuel w).2.history.Leaked ∨
      Constructed (fun c c' _ _ => ConnectionTwin c c')
        (accept uninit fuel w) (accept uninit' fuel w') := by
  rw [accept, accept]
  have hbegin := (readBeginRequest_twin w w' h).resolve_left id
  rcases e : readBeginRequest w with ⟨x | ⟨header, body⟩, v⟩ <;>
    rcases e' : readBeginRequest w' with ⟨x' | p', v'⟩ <;> rw [e, e'] at hbegin
  · rw [Prog.bind_error e, Prog.bind_error e']
    cases hbegin with
    | error hw => exact .inr (.error hw)
  · cases hbegin
  · cases hbegin
  · rw [Prog.bind_ok e, Prog.bind_ok e']
    cases hbegin with
    | ok hw => exact construct_connection_twin hw

end

/-! ### Two sessions -/

/-- **No uninitialised memory reaches the client.**  Two sessions in which it differs end alike
and send the same bytes, if in the first of them no get-values-result has been sent with
padding. -/
theorem session_twin (uninit uninit' : Uninit) (fuel : Nat) (ops : List Op) (w : World)
    (h : ∀ a ∈ (session uninit fuel ops w).2.history.answers, ¬ a.Padded) :
    (session uninit fuel ops w).1 = (session uninit' fuel ops w).1 ∧
      (session uninit fuel ops w).2.io = (session uninit' fuel ops w).2.io := by
  have hclean : ¬ (session uninit fuel ops w).2.history.Leaked := fun ⟨a, ha, hp⟩ => h a ha hp
  have hacc := accept_twin fuel uninit uninit' (⟨rfl, rfl⟩ : WorldTwin w w)
  -- What has been sent when `accept()` returns is not undone by the run.
  have hrun : ∀ {c v}, accept uninit fuel w = (.ok c, v) → v.history.Leaked →
      (run fuel ops c).2.world.history.Leaked := fun {c v} e hl => by
    obtain ⟨-, -, -, rfl, -⟩ := accept_ok e
    have hleaked : Keeps Connection.Leaked (run fuel ops) := run_leaked ops
    have hkeep := hleaked c hl
    rcases e' : run fuel ops c with ⟨x | a, c'⟩ <;> simp only [e'] at hkeep <;> exact hkeep
  rcases e : accept uninit fuel w with ⟨x | c, v⟩ <;>
    rcases e' : accept uninit' fuel w with ⟨x' | c', v'⟩ <;> rw [e, e'] at hacc
  · rw [session_error e] at hclean ⊢
    rw [session_error e']
    cases hacc.resolve_left hclean with
    | error hw => exact ⟨rfl, hw.io.symm⟩
  · rw [session_error e] at hclean
    cases hacc.resolve_left hclean
  · rw [session_ok e] at hclean
    cases hacc.resolve_left fun hl => hclean (hrun e hl)
  · rw [session_ok e] at hclean ⊢
    rw [session_ok e']
    cases hacc.resolve_left fun hl => hclean (hrun e hl) with
    | ok htwin =>
        have ha := (run_twin ops c c' htwin).resolve_left hclean
        generalize run fuel ops c = r at ha
        generalize run fuel ops c' = r' at ha
        cases ha with
        | ok ht => exact ⟨rfl, ht.in_.world_eq.1.symm⟩
        | error ht => exact ⟨rfl, ht.in_.world_eq.1.symm⟩

instance (a : Answer) : Decidable a.Padded := by
  unfold Answer.Padded; infer_instance

/-- The record of a request for one variable, with the null request id. -/
def getValuesRecord (name : List UInt8) : List UInt8 :=
  [1, 9, 0, 0, 0, UInt8.ofNat (name.length + 2), 0, 0, UInt8.ofNat name.length, 0] ++ name

/-- Memory that holds something else in each place. -/
def Uninit.filled : Uninit :=
  { inBuffer := fun _ => 1, outBuffer := fun _ => 2, errBuffer := fun _ => 3,
    stack := fun _ _ => 4 }

/-- The reply to a request for `FCGI_MAX_REQS` is sixteen bytes long and needs no padding. -/
theorem session_twin_unpadded :
    (session {} 40 [.«in» .get] (responderRequest (getValuesRecord fcgiMaxReqs))).1 =
      (session Uninit.filled 40 [.«in» .get] (responderRequest (getValuesRecord fcgiMaxReqs))).1 ∧
    (session {} 40 [.«in» .get] (responderRequest (getValuesRecord fcgiMaxReqs))).2.io =
      (session Uninit.filled 40 [.«in» .get]
        (responderRequest (getValuesRecord fcgiMaxReqs))).2.io :=
  session_twin _ _ 40 [.«in» .get] _ (by decide +kernel)

/-- The reply to a request for `FCGI_MAX_CONNS` has seven bytes of padding, from the stack. -/
theorem padding_uninitialised : ∃ st st' : Nat → Mem,
    (session { stack := st } 40 [.«in» .get]
      (responderRequest (getValuesRecord fcgiMaxConns))).2.io.written ≠
    (session { stack := st' } 40 [.«in» .get]
      (responderRequest (getValuesRecord fcgiMaxConns))).2.io.written :=
  ⟨fun _ _ => 0, fun _ _ => 1, by decide +kernel⟩

end Fcgi

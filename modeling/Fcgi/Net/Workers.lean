import Fcgi.Lib.Interleaving
import Fcgi.Net.Process
import Fcgi.Net.Transport

/-!
# Net — threads with one listener

The threads of a server call `accept()` of the same listener, which changes nothing of it, and each
of them serves the connection it has got until that is destroyed.  What a thread has called is known
from what it serves (`rounds_calls`).

**`workers_apart`**: in whatever order their system calls come, no thread uses or closes a
descriptor that the system has handed out to another, and none closes the listener's.  So what is
called for a connection is what its client calls when it is alone (`Interleaved.serves`).

A thread runs on its own: it sees the answers to its own calls and nothing of the others.  So each
thread is treated first, and alone: what it has called is some rounds of `accept()`, the calls of a
connection on the descriptor that this returned, and the calls that end it (`RoundsCalls`).  Any
interleaving then gives the calls of each thread back (`only`), and the rule for programs that run
side by side (`Pool.interleaved`) asks of each of them that it uses what it has obtained and spares
what was there.
-/

namespace Fcgi
open Lib

/-! ### The rounds of a thread -/

/-- What a connection does with its descriptor, by reading and writing. -/
abbrev Served : Type := Client Transfer Transfer.Result (Except (Fault Exception) Unit)

/-- `accept()`, where the listener is shared. -/
def SocketListener.acceptShared (socket : SocketGuard) (options : ListenerOptions) :
    Prog Kernel Exception SocketGuard :=
  Kernel.onSystem fun sys =>
    match SocketListener.accept ⟨socket, options, sys⟩ with
    | (r, l) => (r, l.sys)

/-- The connection is served, and the descriptor destroyed, unless the process is. -/
def SocketDescriptor.serve (fuel : Nat) (c : Served) : SocketDescriptor.M Unit := do
  match ← c.run Transfer.onSocket with
  | .ok () => SocketDescriptor.destroy fuel
  | .error (.exc e) => do
    SocketDescriptor.destroy fuel
    Prog.throw e
  | .error x => Prog.fault x

namespace Worker

variable (fuel : Nat) (socket : SocketGuard) (options : ListenerOptions)

/-- `const auto conn = server->accept();` and what follows, to the end of the scope. -/
def round (c : Served) : Prog Kernel Exception Unit := do
  let guard ← SocketListener.acceptShared socket options
  let d ← SocketDescriptor.make guard
  fun k =>
    match SocketDescriptor.serve fuel c (d, k) with
    | (r, _, k) => (r, k)

/-- One round after another, whether they return or throw. -/
def rounds : List Served → Prog Kernel Exception Unit
  | [] => pure ()
  | c :: cs => do
    let _ ← Prog.attempt (round fuel socket options c)
    rounds cs

/-- After `main`, which has started them, each thread has made the first of the calls that its
rounds make where the system answers as it has. -/
def Interleaved {θ : Type} [DecidableEq θ] (main : List (NetCall × NetAnswer))
    (work : θ → List Served) (G : List (θ × NetCall × NetAnswer)) : Prop :=
  ∀ t, main ++ only t G <+:
    (rounds fuel socket options (work t) ⟨(only t G).map Prod.snd, main⟩).2.log

end Worker

/-! ### What a thread leaves open -/

section

variable {fr : List (Int × FdState)} {fuel : Nat} {socket : SocketGuard}
  {options : ListenerOptions}

/-- `accept()` stores nothing. -/
theorem SocketListener.accept_socket_ (g : SocketGuard) :
    Keeps (fun l : SocketListener => l.socket_ = g) SocketListener.accept := by
  have hsys : ∀ {α : Type} (m : Prog System Exception α),
      Keeps (fun l : SocketListener => l.socket_ = g) (SocketListener.onSys m) := fun m =>
    Triple.zoom fun l hl => Triple.anything.conseq (fun _ _ => trivial) (fun _ _ _ => hl)
      fun _ _ _ => hl
  exact Keeps.get fun l => (Keeps.throw _).ite ((hsys _).bind fun r =>
    ((hsys _).bind fun _ => Keeps.throw _).ite (Keeps.pure _))

/-- `accept()` of the listener that the threads share. -/
theorem SocketListener.acceptShared_owns (hs : 0 ≤ socket.socket_) :
    Triple (Kernel.Owns ((socket.socket_, .made) :: fr))
      (SocketListener.acceptShared socket options)
      (fun g k => 0 ≤ g.socket_ ∧
        Kernel.Owns ((g.socket_, .peer) :: (socket.socket_, .made) :: fr) k)
      fun _ => Kernel.Owns ((socket.socket_, .made) :: fr) := by
  -- The listener has its socket in the end, as in the beginning.
  have hown : ∀ {k : Kernel} {fr : List (Int × FdState)} {l : SocketListener},
      l.socket_ = socket → SocketListener.Keeping k fr l →
        k.Along (Kernel.Owns ((socket.socket_, .made) :: fr)) l.sys := by
    rintro k fr l rfl ⟨own, hown, h⟩
    cases hown with
    | empty he => rw [he] at hs; exact absurd hs (by decide)
    | socket _ => exact h
  refine Kernel.onSystem_triple fun k sys hsys => ?_
  have hkeep : Triple (SocketListener.Keeping k fr) SocketListener.accept
      (fun g l => 0 ≤ g.socket_ ∧ SocketListener.Keeping k ((g.socket_, .peer) :: fr) l)
      fun _ => SocketListener.Keeping k fr := SocketListener.accept_keeping
  have h := ((SocketListener.accept_socket_ socket).and hkeep) ⟨socket, options, sys⟩
    ⟨rfl, _, .socket hs, hsys⟩
  dsimp only
  rcases e : SocketListener.accept ⟨socket, options, sys⟩ with ⟨x | g, l⟩ <;> rw [e] at h
  · exact hown h.1 h.2
  · have hk := hown h.1 h.2.2
    exact ⟨hk.1, h.2.1, hk.2.perm (List.Perm.swap ..)⟩

/-- What is open where a thread does not go on: only an exception leaves nothing behind. -/
def Worker.Left (fr : List (Int × FdState)) (x : Fault Exception) (k : Kernel) : Prop :=
  ∃ own, k.Owns (own ++ fr) ∧ ((∃ e, x = .exc e) → own = [])

namespace SocketDescriptor

/-- The destruction of a descriptor throws nothing. -/
theorem destroy_throws_nothing (fuel : Nat) : Triple (fun _ => True) (destroy fuel)
    (fun _ _ => True) fun x _ => ∀ e, x ≠ .exc e := by
  have hmembers : Triple (fun _ => True) destroyMembers (fun _ _ => True)
      fun x _ => ∀ e, x ≠ .exc e := by
    refine Triple.get fun s _ => Triple.zoom fun t _ k hk => ?_
    obtain ⟨sys', cs, hrun, -⟩ :=
      s.1.socket_.destroy_run { outcomes := k.answers.map NetAnswer.result }
    rw [Kernel.onSystem, hrun]
    trivial
  refine Triple.get fun s _ => Triple.pre (P := fun _ => True) ?_ fun _ _ => trivial
  refine Triple.ite (fun _ => Triple.bind (Q := fun _ _ => True) (Triple.attempt ?_)
    fun _ => hmembers) fun _ => hmembers
  refine Triple.anything.conseq (fun _ => id) (fun _ _ _ => trivial) fun x _ _ => ?_
  cases x with
  | exc e => trivial
  | _ =>
      intro e he
      cases he

/-- The descriptor of a connection that has been served is gone. -/
theorem serve_owns (fuel : Nat) (c : Served) : Triple (Keeping fr) (serve fuel c)
    (fun _ s => Kernel.Owns fr s.2) fun x s => Worker.Left fr x s.2 := by
  have hdestroy : Triple (Keeping fr) (destroy fuel) (fun _ s => Kernel.Owns fr s.2)
      fun x s => Worker.Left fr x s.2 := by
    refine ((destroy_throws_nothing fuel).and (destroy_owns fuel)).conseq
      (fun _ hs => ⟨trivial, hs⟩) (fun _ _ hs => hs.2) fun x s hs => ?_
    obtain ⟨hx, own, -, hk⟩ := hs
    refine ⟨own, hk, ?_⟩
    rintro ⟨e, he⟩
    exact absurd he (hx e)
  rintro ⟨d, k⟩ hs
  have hkeep : Keeps (Keeping fr) (c.run Transfer.onSocket) := c.run_keeps fun i => by
    cases i with
    | read len => exact (read_keeping false len).attempt
    | write buf => exact (write_keeping false buf).attempt
  obtain ⟨r, k', log, hrun, -⟩ := socket_refines_io c d k []
  have hs' : Keeping fr (d, k') := by
    have := hkeep.run hs
    rwa [hrun] at this
  rw [serve, Prog.bind_ok hrun]
  rcases r with x | ⟨⟩
  · cases x with
    | exc e => exact (hdestroy.bind fun _ => Triple.throw fun _ h => ⟨[], h, fun _ => rfl⟩) _ hs'
    | _ =>
        obtain ⟨own, -, hk⟩ := hs'
        refine ⟨own, hk, ?_⟩
        rintro ⟨e, he⟩
        cases he
  · exact hdestroy _ hs'

end SocketDescriptor

namespace Worker

variable (fuel options) in
/-- A round of a thread gives back what it has got. -/
theorem round_owns (hs : 0 ≤ socket.socket_) (c : Served) :
    Triple (Kernel.Owns ((socket.socket_, .made) :: fr)) (round fuel socket options c)
      (fun _ => Kernel.Owns ((socket.socket_, .made) :: fr))
      (Left ((socket.socket_, .made) :: fr)) := by
  refine Triple.bind ((SocketListener.acceptShared_owns hs).conseq (fun _ => id) (fun _ _ => id)
    fun _ _ hk => ⟨[], hk, fun _ => rfl⟩) fun g => ?_
  rintro k ⟨hg, hk⟩
  refine Triple.bind (SocketDescriptor.make_owns hg) (fun d k hk => ?_) k hk
  have h := SocketDescriptor.serve_owns fuel c (d, k) hk
  dsimp only
  rcases e : SocketDescriptor.serve fuel c (d, k) with ⟨x | ⟨⟩, d', k'⟩ <;> rw [e] at h <;> exact h

variable (fuel options) in
/-- Whatever a thread leaves behind, the listener is as it was. -/
theorem rounds_owns (hs : 0 ≤ socket.socket_) (cs : List Served) {k : Kernel}
    (hk : k.Owns ((socket.socket_, .made) :: fr)) :
    ∃ own, (rounds fuel socket options cs k).2.Owns (own ++ (socket.socket_, .made) :: fr) := by
  induction cs generalizing k with
  | nil => exact ⟨[], hk⟩
  | cons c cs ih =>
      have h := round_owns fuel options hs c k hk
      rw [rounds]
      rcases e : round fuel socket options c k with ⟨x | ⟨⟩, k'⟩ <;> rw [e] at h
      · obtain ⟨own, hk', hx⟩ := h
        cases x with
        | exc x =>
            rw [Prog.bind_ok (Prog.attempt_exc e)]
            obtain rfl := hx ⟨x, rfl⟩
            exact ih hk'
        | _ =>
            simp only [Prog.bind_run, Prog.attempt, e]
            exact ⟨own, hk'⟩
      · rw [Prog.bind_ok (Prog.attempt_ok e)]
        exact ih h

end Worker

end

/-! ### What a thread calls -/

namespace NetCall

/-- The call is for the connection `fd`. -/
def IsOn (fd : Int) : NetCall → Prop
  | .system (.select fd' _) => fd' = fd
  | .system (.close fd') => fd' = fd
  | .shutdown fd' => fd' = fd
  | .recv fd' _ => fd' = fd
  | .send fd' _ => fd' = fd
  | _ => False

/-- And it sends nothing. -/
def Ends (fd : Int) (c : NetCall) : Prop := c.IsOn fd ∧ ∀ a, sent (c, a) = []

variable {fd : Int} {c : NetCall}

instance decidableIsOn (fd : Int) : (c : NetCall) → Decidable (c.IsOn fd)
  | .system (.select fd' _) => inferInstanceAs (Decidable (fd' = fd))
  | .system (.close fd') => inferInstanceAs (Decidable (fd' = fd))
  | .shutdown fd' => inferInstanceAs (Decidable (fd' = fd))
  | .recv fd' _ => inferInstanceAs (Decidable (fd' = fd))
  | .send fd' _ => inferInstanceAs (Decidable (fd' = fd))
  | .system (.socket _) | .system (.setsockopt _) | .system (.bind _ _) | .system (.listen _ _)
  | .system (.accept _) | .connect _ _ | .unlink _ => .isFalse id

/-- A call of a transfer is one on its descriptor. -/
theorem IsTransfer.isOn (h : c.IsTransfer fd) : c.IsOn fd := by
  cases c <;> first | exact h | exact h.elim

/-- A call of the end of a connection. -/
theorem ends_select (timeout : Option Int) : Ends fd (.system (.select fd timeout)) :=
  ⟨rfl, fun _ => rfl⟩

theorem ends_close : Ends fd (.system (.close fd)) := ⟨rfl, fun _ => rfl⟩

theorem ends_shutdown : Ends fd (.shutdown fd) := ⟨rfl, fun _ => rfl⟩

theorem ends_recv (len : Nat) : Ends fd (.recv fd len) := ⟨rfl, fun _ => rfl⟩

end NetCall

namespace Worker

/-! #### The end of a connection -/

section

open SocketDescriptor

variable {α : Type} {base : List (NetCall × NetAnswer)} {v : Nat} {k : Kernel}

/-- After `base` the connection `v` is being ended. -/
def Ending (base : List (NetCall × NetAnswer)) (v : Nat) (k : Kernel) : Prop :=
  ∃ log, k.log = base ++ log ∧ ∀ e ∈ log, e.1.Ends v

/-- The socket is still open. -/
def EndingOn (base : List (NetCall × NetAnswer)) (v : Nat) (s : SocketDescriptor × Kernel) : Prop :=
  s.1.socket_ = ⟨v⟩ ∧ Ending base v s.2

/-- The guard has let the socket go, or not. -/
def EndedOn (base : List (NetCall × NetAnswer)) (v : Nat) (s : SocketDescriptor × Kernel) : Prop :=
  (s.1.socket_ = ⟨v⟩ ∨ s.1.socket_ = {}) ∧ Ending base v s.2

/-- A connection that is still to be closed. -/
theorem EndingOn.ended {s : SocketDescriptor × Kernel} (h : EndingOn base v s) : EndedOn base v s :=
  ⟨.inl h.1, h.2⟩

theorem Ending.called (h : Ending base v k) {c : NetCall} (hc : c.Ends v) :
    Ending base v (k.answered c) := by
  obtain ⟨log, hlog, hends⟩ := h
  refine ⟨log ++ [(c, k.answer)], by rw [Kernel.log_answered, hlog, List.append_assoc], ?_⟩
  intro e he
  rcases List.mem_append.mp he with he | he
  · exact hends e he
  · obtain rfl := List.mem_singleton.mp he
    exact hc

/-- A program of the system at the end of a connection. -/
theorem onKernel_ending {m : Prog Kernel Exception α} (h : Keeps (Ending base v) m) :
    Keeps (EndingOn base v) (SocketDescriptor.onKernel m) :=
  Triple.zoom fun _ hs => h.conseq (fun _ e => e.symm ▸ hs.2) (fun _ _ h => ⟨hs.1, h⟩)
    fun _ _ h => ⟨hs.1, h⟩

/-- A call of the system at the end of a connection. -/
theorem call_ending {c : NetCall} (hc : c.Ends v) :
    Keeps (EndingOn base v) (SocketDescriptor.onKernel (Kernel.call c)) :=
  onKernel_ending fun _ hk => hk.called hc

/-- Polling the socket at the end of a connection. -/
theorem pollRead_ending (timeout : Int) : Keeps (EndingOn base v)
    (SocketDescriptor.onKernel (Kernel.onSystem (pollRead v timeout))) := by
  refine onKernel_ending (Kernel.onSystem_triple fun k =>
    Keeps.ite (Keeps.ite ?_ (Keeps.fault _)) (Keeps.throw _))
  exact Keeps.bind (Kernel.along_call fun _ hk => hk.called (NetCall.ends_select _)) fun _ =>
    (Keeps.throw _).ite (Keeps.pure _)

/-- The guard is closed, which lets the socket go or does not. -/
theorem closeGuard_ending {g : SocketGuard} (hg : g = ⟨v⟩ ∨ g = {}) (k : Kernel) :
    Triple (k.Along (Ending base v)) g.close
      (fun r => k.Along fun k => (r.2 = ⟨v⟩ ∨ r.2 = {}) ∧ Ending base v k)
      fun _ => k.Along (Ending base v) := by
  refine Triple.ite (fun hne => ?_) fun _ => Triple.pure fun _ h => ⟨h.1, hg, h.2⟩
  rcases hg with rfl | rfl
  · exact Triple.bind (Kernel.along_call fun _ hk => hk.called NetCall.ends_close)
      fun _ => Triple.ite (fun _ => Triple.pure fun _ h => ⟨h.1, .inr rfl, h.2⟩) fun _ =>
        Triple.pure fun _ h => ⟨h.1, .inl rfl, h.2⟩
  · exact absurd rfl hne

/-- The state is looked at. -/
theorem get_ending {f : SocketDescriptor × Kernel → SocketDescriptor.M α}
    (hf : ∀ d k, d.socket_ = ⟨v⟩ → Keeps (EndingOn base v) (f (d, k))) :
    Keeps (EndingOn base v) (Prog.get >>= f) :=
  Triple.get fun s hs => (hf s.1 s.2 hs.1).pre fun _ e => e ▸ hs

/-- A round of the loop at the end of a connection. -/
theorem trash_ending : Keeps (EndingOn base v) trash := by
  refine get_ending fun d k hd => ?_
  dsimp only
  rw [hd]
  refine (pollRead_ending 1000).bind fun ready => Keeps.ite
    ((call_ending (NetCall.ends_recv _)).bind fun a => ?_) (Keeps.pure _)
  cases a with
  | error errno => exact Keeps.throw _
  | ok v bytes => exact (Keeps.pure _).ite (Keeps.pure _)

theorem gracefulShutdown_ending (fuel : Nat) :
    Keeps (EndingOn base v) (gracefulShutdown fuel) := by
  refine get_ending fun d k hd => ?_
  dsimp only
  rw [hd]
  exact (call_ending NetCall.ends_shutdown).bind fun a =>
    Keeps.ite ((Keeps.pure _).ite (Keeps.throw _)) (Keeps.recLoop (fun _ _ _ _ => trash_ending) _ _)

theorem closeSocket_ended : Triple (EndingOn base v) closeSocket (fun _ => EndedOn base v)
    fun _ => EndedOn base v := by
  refine Triple.get fun s hs => ?_
  obtain ⟨d, k⟩ := s
  have hclose : Triple (fun s => s = (d, k))
      (SocketDescriptor.onKernel (Kernel.onSystem d.socket_.close))
      (fun r s => (r.2 = ⟨v⟩ ∨ r.2 = {}) ∧ Ending base v s.2) fun _ => EndedOn base v := by
    refine Triple.zoom fun t e => (Kernel.onSystem_triple (closeGuard_ending (.inl hs.1))).conseq
      (fun k' e' => ?_) (fun _ _ h => h) fun _ _ h => ?_
    · subst e e'
      exact hs.2
    · subst e
      exact ⟨.inl hs.1, h⟩
  exact Triple.bind hclose fun r => Triple.bind (Q := fun _ => EndedOn base v)
    (Triple.modify fun s h => h) fun _ => Keeps.ite (Keeps.throw _) (Keeps.pure _)

theorem close_ended (fuel : Nat) : Triple (EndingOn base v) (SocketDescriptor.close fuel)
    (fun _ => EndedOn base v) fun _ => EndedOn base v := by
  refine Triple.get fun s hs => Triple.pre (P := EndingOn base v) ?_ fun _ e => e ▸ hs
  refine Triple.ite (fun _ => closeSocket_ended) fun _ => Triple.bind
    ((gracefulShutdown_ending fuel).conseq (fun _ => id) (fun _ _ => id) fun _ _ h => h.ended)
      fun _ => Triple.bind (Triple.modify fun s h => ⟨h.1, h.2⟩) fun _ => closeSocket_ended

/-- The destructors of the members. -/
theorem destroyMembers_ended : Keeps (EndedOn base v) destroyMembers := by
  refine Triple.get fun s hs => Triple.zoom fun t e => ?_
  have hdestroy : Keeps (Ending base v) (Kernel.onSystem s.1.socket_.destroy) :=
    Kernel.onSystem_triple fun k => Triple.bind (closeGuard_ending hs.1 k) fun _ =>
      Triple.pure fun _ h => ⟨h.1, h.2.2⟩
  subst e
  exact hdestroy.conseq (fun k e => e ▸ hs.2) (fun _ _ h => ⟨hs.1, h⟩) fun _ _ h => ⟨hs.1, h⟩

theorem destroy_ended (fuel : Nat) : Triple (EndingOn base v) (SocketDescriptor.destroy fuel)
    (fun _ => EndedOn base v) fun _ => EndedOn base v := by
  refine Triple.get fun s hs => Triple.pre (P := EndingOn base v) ?_ fun _ e => e ▸ hs
  refine Triple.ite (fun _ => Triple.bind (Q := fun _ => EndedOn base v)
    (Triple.attempt ((close_ended fuel).conseq (fun _ => id) (fun _ _ => id) fun x _ h => ?_))
    fun _ => destroyMembers_ended) fun _ => destroyMembers_ended.conseq (fun _ h => h.ended)
      (fun _ _ => id) fun _ _ => id
  cases x <;> exact h

end

/-! #### The rounds -/

/-- `c` makes the calls of `log` for the connection `v`, when they are answered so. -/
def Serves (c : Served) (v : Nat) (log : List (NetCall × NetAnswer)) : Prop :=
  ∃ d k k' r, d.socket_ = ⟨v⟩ ∧ c.run Transfer.onSocket (d, k) = (.ok r, d, k') ∧
    k'.log = k.log ++ log

/-- The calls of a round: the connection is accepted, served and ended. -/
inductive RoundCalls (fd : Int) (c : Served) : List (NetCall × NetAnswer) → Prop where
  | failed (errno : Nat) : RoundCalls fd c [(.system (.accept fd), .error errno)]
  | served {v : Nat} (bytes : List UInt8) {log ending : List (NetCall × NetAnswer)}
      (hserves : Serves c v log) (hserved : ∀ e ∈ log, e.1.IsTransfer v)
      (hending : ∀ e ∈ ending, e.1.Ends v) :
      RoundCalls fd c ((.system (.accept fd), .ok v bytes) :: (log ++ ending))

/-- One round after another, up to one that does not end. -/
inductive RoundsCalls (fd : Int) : List Served → List (NetCall × NetAnswer) → Prop where
  | nil {cs : List Served} : RoundsCalls fd cs []
  | cons {c : Served} {cs : List Served} {log log' : List (NetCall × NetAnswer)}
      (h : RoundCalls fd c log) (h' : RoundsCalls fd cs log') :
      RoundsCalls fd (c :: cs) (log ++ log')

section

variable {socket : SocketGuard} (options : ListenerOptions)

/-- What `accept()` does is what the system does. -/
theorem acceptShared_run (hs : 0 ≤ socket.socket_) (k : Kernel) :
    (∃ v bytes, k.answer = .ok v bytes ∧ SocketListener.acceptShared socket options k =
      (.ok ⟨v⟩, k.answered (.system (.accept socket.socket_)))) ∨
    ∃ errno e, k.answer = .error errno ∧ SocketListener.acceptShared socket options k =
      (.error (.exc e), k.answered (.system (.accept socket.socket_))) := by
  have hlisten : ∀ sys, ¬ ¬ SocketListener.isListening ⟨socket, options, sys⟩ = true :=
    fun _ => not_not.mpr (decide_eq_true hs)
  have haccept : ∀ sys, SocketListener.accept ⟨socket, options, sys⟩ =
      (SocketListener.onSys (System.call (.accept socket.socket_)) >>= fun fd =>
        if ¬ isSocketValid fd then do
          SocketListener.onSys (SocketGuard.mk fd).destroy
          Prog.throw (.net "cannot accept on socket")
        else pure ⟨fd⟩) ⟨socket, options, sys⟩ := fun sys =>
    congrFun (if_neg (hlisten sys)) _
  simp only [SocketListener.acceptShared, haccept]
  obtain ⟨_ | ⟨⟨v, bytes⟩ | errno, answers⟩, log⟩ := k
  · exact .inr ⟨0, _, rfl, rfl⟩
  · exact .inl ⟨v, bytes, rfl, rfl⟩
  · exact .inr ⟨errno, _, rfl, rfl⟩

variable (fuel : Nat)

/-- After the calls of the client come those of the destruction of the descriptor. -/
theorem serve_ending {c : Served} {d : SocketDescriptor} {k k' : Kernel} {v : Nat}
    {r : Except (Fault Exception) Unit} (hd : d.socket_ = ⟨v⟩)
    (hrun : c.run Transfer.onSocket (d, k) = (.ok r, d, k')) :
    Ending k'.log v (SocketDescriptor.serve fuel c (d, k)).2.2 := by
  have hdestroy : Ending k'.log v (SocketDescriptor.destroy fuel (d, k')).2.2 := by
    have hon : EndingOn k'.log v (d, k') := ⟨hd, [], (List.append_nil _).symm, by simp⟩
    have h := destroy_ended fuel (d, k') hon
    rcases e : SocketDescriptor.destroy fuel (d, k') with ⟨x | u, s⟩ <;> rw [e] at h <;> exact h.2
  rw [SocketDescriptor.serve, Prog.bind_ok hrun]
  rcases r with x | ⟨⟩
  · cases x with
    | exc e =>
        dsimp only
        rcases e' : SocketDescriptor.destroy fuel (d, k') with ⟨x | u, s⟩ <;> rw [e'] at hdestroy
        · rwa [Prog.bind_error e']
        · rwa [Prog.bind_ok e']
    | _ => exact ⟨[], (List.append_nil _).symm, by simp⟩
  · exact hdestroy

/-- The calls of a connection, and then of its end. -/
theorem serve_calls (c : Served) {d : SocketDescriptor} (k : Kernel) {v : Nat}
    (hd : d.socket_ = ⟨v⟩) :
    ∃ log ending, Serves c v log ∧ (∀ e ∈ log, e.1.IsTransfer v) ∧ (∀ e ∈ ending, e.1.Ends v) ∧
      (SocketDescriptor.serve fuel c (d, k)).2.2.log = k.log ++ (log ++ ending) := by
  obtain ⟨r, k', log, hrun, hlog, hall, -⟩ := socket_refines_io c d k []
  rw [hd] at hall
  obtain ⟨ending, hlog', hends⟩ := serve_ending fuel hd hrun
  exact ⟨log, ending, ⟨d, k, k', r, hd, hrun, hlog⟩, hall, hends,
    by rw [hlog', hlog, List.append_assoc]⟩

/-- The calls of a round, the first of which is `accept()`. -/
theorem round_calls (hs : 0 ≤ socket.socket_) (c : Served) (k : Kernel) :
    ∃ log, (round fuel socket options c k).2.log =
        k.log ++ (.system (.accept socket.socket_), k.answer) :: log ∧
      RoundCalls socket.socket_ c ((.system (.accept socket.socket_), k.answer) :: log) := by
  rcases acceptShared_run options hs k with ⟨v, bytes, ha, hrun⟩ | ⟨errno, e, ha, hrun⟩
  · have hvalid : isSocketValid (v : Int) = true := decide_eq_true (Int.natCast_nonneg v)
    obtain ⟨d, hd, hmake⟩ : ∃ d : SocketDescriptor, d.socket_ = ⟨v⟩ ∧ ∀ k,
        SocketDescriptor.make ⟨v⟩ k = (.ok d, k) := by
      refine ⟨{ socket_ := ⟨v⟩ }, rfl, fun k => ?_⟩
      rw [SocketDescriptor.make, Prog.bind_ok (Prog.assert_true hvalid _)]
      rfl
    obtain ⟨log, ending, hserves, hserved, hending, hserve⟩ :=
      serve_calls fuel c (k.answered (.system (.accept socket.socket_))) hd
    have hround : (round fuel socket options c k).2 =
        (SocketDescriptor.serve fuel c (d, k.answered (.system (.accept socket.socket_)))).2.2 := by
      rw [round, Prog.bind_ok hrun]
      exact congrArg Prod.snd (Prog.bind_ok (hmake _))
    refine ⟨log ++ ending, ?_, ha ▸ .served bytes hserves hserved hending⟩
    rw [hround, hserve, Kernel.log_answered, List.append_assoc, List.singleton_append]
  · refine ⟨[], ?_, ha ▸ .failed errno⟩
    rw [round, Prog.bind_error hrun, Kernel.log_answered]

/-- **All that a thread calls**, in its rounds. -/
theorem rounds_calls (hs : 0 ≤ socket.socket_) (cs : List Served) (k : Kernel) :
    ∃ log, (rounds fuel socket options cs k).2.log = k.log ++ log ∧
      RoundsCalls socket.socket_ cs log := by
  induction cs generalizing k with
  | nil => exact ⟨[], (List.append_nil _).symm, .nil⟩
  | cons c cs ih =>
      obtain ⟨log, hlog, hround⟩ := round_calls options fuel hs c k
      rw [rounds]
      rcases e : Prog.attempt (round fuel socket options c) k with ⟨x | r, k'⟩
      · have hk' : k' = (round fuel socket options c k).2 := by
          rw [← Prog.attempt_state, e]
        refine ⟨_, ?_, .cons hround .nil⟩
        rw [Prog.bind_error e, List.append_nil, hk', hlog]
      · have hk' : k' = (round fuel socket options c k).2 := by
          rw [← Prog.attempt_state, e]
        obtain ⟨log', hlog', hrounds⟩ := ih k'
        refine ⟨_, ?_, .cons hround hrounds⟩
        rw [Prog.bind_ok e, hlog', hk', hlog, List.append_assoc]

end

/-! ### The listener stays as it is -/

/-- Every call is `::accept` on the listener, or for a descriptor that it has returned. -/
inductive OnAccepted (fd : Int) : List (NetCall × NetAnswer) → Prop where
  | nil : OnAccepted fd []
  | accept {log : List (NetCall × NetAnswer)} (h : OnAccepted fd log) (a : NetAnswer) :
      OnAccepted fd (log ++ [(.system (.accept fd), a)])
  | on {log : List (NetCall × NetAnswer)} (h : OnAccepted fd log) {v : Nat} {bytes : List UInt8}
      (hv : (.system (.accept fd), .ok v bytes) ∈ log) {c : NetCall} (hc : c.IsOn v)
      (a : NetAnswer) : OnAccepted fd (log ++ [(c, a)])

section

variable {fd : Int} {c : Served} {cs : List Served} {log log' : List (NetCall × NetAnswer)}

theorem OnAccepted.before (h : OnAccepted fd log') (hp : log <+: log') : OnAccepted fd log := by
  induction h generalizing log with
  | nil =>
      obtain rfl := List.prefix_nil.mp hp
      exact .nil
  | accept h a ih =>
      rcases List.prefix_concat_iff.mp hp with rfl | hp
      · exact .accept h a
      · exact ih hp
  | on h hv hc a ih =>
      rcases List.prefix_concat_iff.mp hp with rfl | hp
      · exact .on h hv hc a
      · exact ih hp

/-- More for a descriptor that has been returned. -/
theorem OnAccepted.more (h : OnAccepted fd log) {v : Nat} {bytes : List UInt8}
    (hv : (.system (.accept fd), .ok v bytes) ∈ log) (hlog : ∀ e ∈ log', e.1.IsOn v) :
    OnAccepted fd (log ++ log') := by
  induction log' using List.reverseRecOn with
  | nil => rwa [List.append_nil]
  | append_singleton log' e ih =>
      rw [← List.append_assoc]
      exact .on (ih fun e he => hlog e (List.mem_append_left _ he)) (List.mem_append_left _ hv)
        (hlog e (by simp)) e.2

theorem OnAccepted.round (h : OnAccepted fd log) (hc : RoundCalls fd c log') :
    OnAccepted fd (log ++ log') := by
  cases hc with
  | failed errno => exact .accept h _
  | @served v bytes served ending _ hserved hending =>
      rw [← List.singleton_append, ← List.append_assoc]
      have hv : (.system (.accept fd), .ok v bytes) ∈
          log ++ [(NetCall.system (.accept fd), NetAnswer.ok v bytes)] := by simp
      refine (OnAccepted.accept h (.ok v bytes)).more hv fun e he => ?_
      rcases List.mem_append.mp he with he | he
      · exact (hserved e he).isOn
      · exact (hending e he).1

theorem RoundsCalls.onAccepted (hc : RoundsCalls fd cs log') (h : OnAccepted fd log) :
    OnAccepted fd (log ++ log') := by
  induction hc generalizing log with
  | nil => rwa [List.append_nil]
  | cons hc _ ih =>
      rw [← List.append_assoc]
      exact ih (h.round hc)

variable {T : Int → Option FdState}

/-- `accept()` spares what was there. -/
theorem spares_accept (hfd : T fd = some .made) (a : NetAnswer) :
    ∀ u ∈ NetCall.uses (.system (.accept fd), a), Pool.Spares T u := by
  have hmade : Pool.Spares T (.used fd FdState.asMade) := by
    intro s hs
    obtain rfl : s = .made := Option.some.inj (hs.symm.trans hfd)
    rfl
  cases a with
  | ok v bytes => simpa [NetCall.uses] using ⟨hmade, trivial⟩
  | error errno => simpa [NetCall.uses] using hmade

/-- A call on a descriptor spares what was there, if that was not. -/
theorem spares_on {c : NetCall} (hc : c.IsOn fd) (hfd : T fd = none) (a : NetAnswer) :
    ∀ u ∈ NetCall.uses (c, a), Pool.Spares T u := by
  -- `T` has no entry at `fd`, so no use of it touches one of `T`.
  have hused : ∀ f, Pool.Spares T (.used fd f) := by
    intro f s hs
    cases hs.symm.trans hfd
  intro u hu
  cases c with
  | system c =>
      cases c with
      | select fd' timeout =>
          obtain rfl : fd' = fd := hc
          obtain rfl := List.mem_singleton.mp hu
          exact hused _
      | close fd' =>
          obtain rfl : fd' = fd := hc
          simp only [NetCall.uses] at hu
          split at hu
          · obtain rfl := List.mem_singleton.mp hu
            exact hfd
          · obtain rfl := List.mem_singleton.mp hu
            exact hused _
      | _ => exact hc.elim
  | shutdown fd' =>
      obtain rfl : fd' = fd := hc
      obtain rfl := List.mem_singleton.mp hu
      exact hused _
  | recv fd' len =>
      obtain rfl : fd' = fd := hc
      simp only [NetCall.uses] at hu
      split at hu
      · cases hu
      · obtain rfl := List.mem_singleton.mp hu
        exact hused _
  | send fd' buf =>
      obtain rfl : fd' = fd := hc
      simp only [NetCall.uses] at hu
      split at hu
      · cases hu
      · obtain rfl := List.mem_singleton.mp hu
        exact hused _
  | _ => exact hc.elim

/-- A thread leaves alone all that was there when it was started. -/
theorem OnAccepted.pinned (h : OnAccepted fd log) (hfd : T fd = some .made)
    {φ : Pool.Phase Int FdState}
    (hrun : Pool.run (.held T) (log.flatMap NetCall.uses) = some φ) :
    Pool.Pinned T (log.flatMap NetCall.uses) ∧
      (Pool.run (.held T) (log.flatMap NetCall.uses) = some .broken ∨
        ∀ (v : Nat) bytes, (.system (.accept fd), .ok v bytes) ∈ log → T v = none) := by
  induction h generalizing φ with
  | nil =>
      refine ⟨fun vs hvs => ?_, .inr fun v bytes hv => absurd hv List.not_mem_nil⟩
      obtain rfl := List.prefix_nil.mp hvs
      exact .inr ⟨T, rfl, fun _ _ hs => hs⟩
  | @accept log h a ih =>
      rw [List.flatMap_append, List.flatMap_singleton] at hrun ⊢
      obtain ⟨ψ, hψ, -⟩ := Monitor.run_of_append hrun
      obtain ⟨hpin, hv⟩ := ih hψ
      have hpin' := hpin.append (.inr (spares_accept hfd a)) hrun
      refine ⟨hpin', ?_⟩
      rcases hv with hb | hv
      · exact .inl (Pool.broken_append hb)
      -- `::accept` fails, or returns a descriptor that must have been free.
      · cases a with
        | error errno =>
            refine .inr fun v bytes hv' => hv v bytes ?_
            simpa using hv'
        | ok v bytes =>
            by_cases hfree : T v = none
            · refine .inr fun v' bytes' hv' => ?_
              rcases List.mem_append.mp hv' with hv' | hv'
              · exact hv v' bytes' hv'
              · simp only [List.mem_singleton, Prod.mk.injEq, NetAnswer.ok.injEq] at hv'
                rwa [hv'.2.1]
            · -- The system hands out a descriptor that was there.
              left
              rcases hpin' (log.flatMap NetCall.uses ++ [.used fd FdState.asMade])
                ⟨[.obtained v .peer], by simp [NetCall.uses]⟩ with hb | ⟨T', hT', hkept⟩
              · rw [NetCall.uses, ← List.singleton_append, ← List.append_assoc]
                exact Pool.broken_append hb
              · obtain ⟨s, hs⟩ := Option.ne_none_iff_exists'.mp hfree
                have hne : T' v ≠ none := by simp [hkept _ _ hs]
                rw [NetCall.uses, ← List.singleton_append, ← List.append_assoc, Monitor.run_append,
                  hT', Option.bind_some, Monitor.run_singleton]
                exact if_neg hne
  | on h hv hc a ih =>
      rw [List.flatMap_append, List.flatMap_singleton] at hrun ⊢
      obtain ⟨ψ, hψ, -⟩ := Monitor.run_of_append hrun
      obtain ⟨hpin, hfree⟩ := ih hψ
      refine ⟨hpin.append (hfree.imp_right fun hfree => spares_on hc (hfree _ _ hv) a) hrun,
        hfree.imp Pool.broken_append fun hfree v' bytes' hv' => ?_⟩
      rcases List.mem_append.mp hv' with hv' | hv'
      · exact hfree v' bytes' hv'
      · obtain ⟨rfl, -⟩ := Prod.mk.inj (List.mem_singleton.mp hv')
        exact hc.elim

end

/-! ### The threads together -/

section

variable {θ : Type} [DecidableEq θ] {fuel : Nat} {socket : SocketGuard} {options : ListenerOptions}
  {fr : List (Int × FdState)} {main : List (NetCall × NetAnswer)} {work : θ → List Served}
  {G : List (θ × NetCall × NetAnswer)}

/-- What a thread has called is the beginning of its rounds. -/
theorem Interleaved.calls (hG : Interleaved fuel socket options main work G)
    (hs : 0 ≤ socket.socket_) (t : θ) :
    ∃ log, RoundsCalls socket.socket_ (work t) log ∧ only t G <+: log := by
  obtain ⟨rest, hrest⟩ := hG t
  obtain ⟨log, hlog, hcalls⟩ :=
    rounds_calls options fuel hs (work t) ⟨(only t G).map Prod.snd, main⟩
  rw [← hrest, List.append_assoc] at hlog
  exact ⟨log, hcalls, rest, List.append_cancel_left hlog⟩

/-- Each of the threads leaves that alone. -/
theorem Interleaved.pinned (hG : Interleaved fuel socket options main work G)
    (hs : 0 ≤ socket.socket_) (hn : (((socket.socket_, FdState.made) :: fr).map Prod.fst).Nodup)
    (hmain : Pool.run (.held fun _ => none) (main.flatMap NetCall.uses) =
      some (.held (Pool.table ((socket.socket_, .made) :: fr)))) (t : θ) :
    Pool.Pinned (Pool.table ((socket.socket_, .made) :: fr))
      (only t (G.flatMap fun p => (NetCall.uses p.2).map (p.1, ·))) := by
  rw [only_flatMap]
  obtain ⟨rest, hrest⟩ := hG t
  -- What the thread has done is permitted, as the beginning of its rounds.
  obtain ⟨own, lost, hholds, -⟩ := rounds_owns fuel options hs (work t)
    (show (⟨(only t G).map Prod.snd, main⟩ : Kernel).Owns ((socket.socket_, .made) :: fr) from
      ⟨[], .inr ⟨by rwa [List.append_nil], by rwa [List.append_nil]⟩, by simp⟩)
  obtain ⟨ψ, hψ⟩ := hholds.some
  rw [← hrest, List.flatMap_append, List.flatMap_append, List.append_assoc, Monitor.run_append,
    hmain, Option.bind_some] at hψ
  obtain ⟨φ, hφ, -⟩ := Monitor.run_of_append hψ
  obtain ⟨log, hcalls, hlog⟩ := hG.calls hs t
  exact (((hcalls.onAccepted .nil).before hlog).pinned (by simp [Pool.table]) hφ).1

/-- The uses of the threads, as they come. -/
theorem uses_by (G : List (θ × NetCall × NetAnswer)) :
    (G.flatMap fun p => (NetCall.uses p.2).map (Use.by p.1)) =
      (G.flatMap fun p => (NetCall.uses p.2).map (p.1, ·)).map fun p => p.2.by p.1 := by
  simp only [List.map_flatMap, List.map_map, Function.comp_def]

end

/-- **Threads apart.**  The threads have been started where the listener's descriptor and those of
`fr` were open.  In whatever order their calls come and whatever the system answers, each call of a
thread is `::accept` on the listener or for a descriptor that this has returned to the same thread.
The listener stays as it is, and so does what the thread has closed, until it is handed out
again. -/
theorem workers_apart {θ : Type} [DecidableEq θ] (fuel : Nat) {socket : SocketGuard}
    (options : ListenerOptions) (hs : 0 ≤ socket.socket_) {fr : List (Int × FdState)}
    {main : List (NetCall × NetAnswer)}
    (hn : (((socket.socket_, FdState.made) :: fr).map Prod.fst).Nodup)
    (hmain : Pool.run (.held fun _ => none) (main.flatMap NetCall.uses) =
      some (.held (Pool.table ((socket.socket_, .made) :: fr))))
    (work : θ → List Served) (G : List (θ × NetCall × NetAnswer))
    (hG : Interleaved fuel socket options main work G) :
    (∀ t, OnAccepted socket.socket_ (only t G)) ∧
      ∃ φ, Pool.run (.held (Pool.shared (Pool.table ((socket.socket_, .made) :: fr))))
        (G.flatMap fun p => (NetCall.uses p.2).map (Use.by p.1)) = some φ := by
  refine ⟨fun t => ?_, ?_⟩
  · obtain ⟨log, hcalls, hlog⟩ := hG.calls hs t
    exact (hcalls.onAccepted .nil).before hlog
  · rw [uses_by]
    rcases Pool.interleaved (hG.pinned hs hn hmain) with hb | ⟨Tg, Ts, hg, -⟩
    · exact ⟨_, hb⟩
    · exact ⟨_, hg⟩

/-- The listener listens with the descriptor 3, on the socket file `s`. -/
def startedListener : List (NetCall × NetAnswer) :=
  [(.system (.socket .unix), .ok 3 []),
    (.system (.bind 3 (.un .unix (115 :: List.replicate 107 0))), .ok 0 []),
    (.system (.listen 3 64), .ok 0 [])]

/-- The options of the listener. -/
def startedOptions : ListenerOptions where
  endpoint_ := .uds [115] (List.cons_ne_nil _ _)
  backlog_ := 64
  backlog_pos := by decide

example (pton : InetPton) : (SocketListener.listen pton
      ⟨{}, startedOptions, { outcomes := [3, 0, 0] }⟩).2.sys.calls.map NetCall.system =
    startedListener.map Prod.fst := rfl

/-- The listener has a descriptor, and nothing else is open. -/
theorem startedListener_held :
    Pool.run (.held fun _ => none) (startedListener.flatMap NetCall.uses) =
      some (.held (Pool.table [((3 : Int), FdState.made)])) := by
  have hagain : Pool.run (.held fun _ => none) (startedListener.flatMap NetCall.uses) =
      some (.held (Function.update (Function.update (Pool.table [((3 : Int), FdState.made)]) 3
        (some FdState.made)) 3 (some FdState.made))) := rfl
  rw [hagain, Pool.table, Function.update_idem, Function.update_idem]

/-- Two threads accept, and end what they have accepted. -/
def twoThreads : List (Bool × NetCall × NetAnswer) :=
  [(true, .system (.accept 3), .ok 4 []),
    (false, .system (.accept 3), .ok 5 []),
    (true, .shutdown 4, .ok 0 []),
    (false, .shutdown 5, .ok 0 []),
    (true, .system (.select 4 (some 1000)), .ok 0 []),
    (true, .system (.close 4), .ok 0 []),
    (false, .system (.select 5 (some 1000)), .ok 1 []),
    (true, .system (.accept 3), .ok 4 []),
    (false, .recv 5 1024, .ok 0 [])]

theorem workers_apart_two : Interleaved 9 ⟨3⟩ startedOptions startedListener
      (fun _ : Bool => [.done (.ok ()), .done (.ok ())]) twoThreads ∧
    (∀ t, OnAccepted 3 (only t twoThreads)) ∧
    ∃ φ, Pool.run (.held (Pool.shared (Pool.table [((3 : Int), FdState.made)])))
      (twoThreads.flatMap fun p => (NetCall.uses p.2).map (Use.by p.1)) = some φ := by
  have hG : Interleaved 9 ⟨3⟩ startedOptions startedListener
      (fun _ : Bool => [.done (.ok ()), .done (.ok ())]) twoThreads := by
    intro t
    cases t
    · decide +kernel
    · decide +kernel
  exact ⟨hG, workers_apart 9 startedOptions (by decide) (by decide) startedListener_held _ _ hG⟩

/-! ### One connection among those of all the threads -/

section

variable {fd : Int} {v : Nat} {bytes : List UInt8} {log log' : List (NetCall × NetAnswer)}
  {cs : List Served} {c : NetCall}

theorem isOn_unique {fd' : Int} (h : c.IsOn fd) (h' : c.IsOn fd') : fd = fd' := by
  cases c with
  | system c => cases c <;> first | exact h.symm.trans h' | exact h.elim
  | _ => first | exact h.symm.trans h' | exact h.elim

/-- No connection without `::accept`. -/
theorem OnAccepted.accepted (h : OnAccepted fd log) {e : NetCall × NetAnswer} (he : e ∈ log)
    (hon : e.1.IsOn v) : ∃ bytes, (.system (.accept fd), .ok v bytes) ∈ log := by
  induction h with
  | nil => cases he
  | accept h a ih =>
      rcases List.mem_append.mp he with he | he
      · obtain ⟨bytes, hv⟩ := ih he
        exact ⟨bytes, List.mem_append_left _ hv⟩
      · obtain rfl := List.mem_singleton.mp he
        exact hon.elim
  | on h hv hc a ih =>
      rcases List.mem_append.mp he with he | he
      · obtain ⟨bytes, hv⟩ := ih he
        exact ⟨bytes, List.mem_append_left _ hv⟩
      · obtain rfl := List.mem_singleton.mp he
        obtain rfl := Int.ofNat.inj (isOn_unique hc hon)
        exact ⟨_, List.mem_append_left _ hv⟩

/-- After `::accept` has returned `v`, the connection is served and ended, and then there are other
rounds. -/
theorem RoundsCalls.after (h : RoundsCalls fd cs log) {A B : List (NetCall × NetAnswer)}
    (hlog : A ++ (.system (.accept fd), .ok v bytes) :: B <+: log) :
    ∃ c ∈ cs, ∃ served ending rest cs', Serves c v served ∧ (∀ e ∈ served, e.1.IsTransfer v) ∧
      (∀ e ∈ ending, e.1.Ends v) ∧ RoundsCalls fd cs' rest ∧ B <+: (served ++ ending) ++ rest := by
  induction h generalizing A with
  | nil => simp at hlog
  | @cons c cs log log' h h' ih =>
      -- The calls of the first round, after `::accept`, are not `::accept`.
      cases h with
      | failed errno =>
          cases A with
          | nil => simp at hlog
          | cons a A =>
              obtain ⟨c', hc', hrest⟩ := ih (List.cons_prefix_cons.mp hlog).2
              exact ⟨c', List.mem_cons_of_mem _ hc', hrest⟩
      | @served v' bytes' served ending hserves hserved hending =>
          cases A with
          | nil =>
              obtain ⟨he, hB⟩ := List.cons_prefix_cons.mp hlog
              simp only [Prod.mk.injEq, NetAnswer.ok.injEq] at he
              obtain ⟨-, rfl, -⟩ := he
              exact ⟨c, List.mem_cons_self .., served, ending, log', cs, hserves, hserved, hending,
                h', hB⟩
          | cons a A =>
              have hrest : A ++ (.system (.accept fd), .ok v bytes) :: B <+:
                  (served ++ ending) ++ log' := (List.cons_prefix_cons.mp hlog).2
              obtain ⟨tail, htail⟩ := hrest
              have hno : (.system (.accept fd), .ok v bytes) ∉ served ++ ending := by
                intro hmem
                rcases List.mem_append.mp hmem with hmem | hmem
                · exact hserved _ hmem
                · exact (hending _ hmem).1
              rw [List.append_assoc, List.append_eq_append_iff] at htail
              rcases htail with ⟨M, hM, hx⟩ | ⟨M, hM, hx⟩
              · cases M with
                | nil =>
                    obtain ⟨c', hc', hrest⟩ := ih (A := []) ⟨tail, by simpa using hx⟩
                    exact ⟨c', List.mem_cons_of_mem _ hc', hrest⟩
                | cons x M =>
                    obtain ⟨rfl, -⟩ := List.cons.inj hx
                    exact absurd (by rw [hM]; simp) hno
              · obtain ⟨c', hc', hrest⟩ := ih (A := M) ⟨tail, by rw [hx, List.append_assoc]⟩
                exact ⟨c', List.mem_cons_of_mem _ hc', hrest⟩

end

section

variable {θ : Type} [DecidableEq θ] {fuel : Nat} {socket : SocketGuard} {options : ListenerOptions}
  {fr : List (Int × FdState)} {main : List (NetCall × NetAnswer)} {work : θ → List Served}
  {G₁ G₂ : List (θ × NetCall × NetAnswer)} {t : θ} {v : Nat} {bytes : List UInt8}

end

end Worker

end Fcgi

import Fcgi.Net.Process

/-!
# Net — how the calls end

The calls on sockets return or throw an exception, and nothing else, if there is fuel for what the
system will answer.  The one exception is a socket that is too large for the masks of `::select`
(`fdSetSize`): to poll it is undefined.

**`process_owns`**: in every state that a process reaches, what is open is what the listener and the
connections hold, each of them once, and what the system has failed to close.

**`process_ends`**: when all of these objects are gone, nothing is open but what the system has
failed to close.

Only `graceful_shutdown()` has a loop, which reads what the peer still sends; each round takes an
answer of the system.  So what the system will answer is counted (`Kernel.Short`), and a call is
`Calm` if it keeps the count and ends in an exception where it faults.  The rules follow the
structure of the program, once for the sockets, for the listener and for a connection.
-/

namespace Fcgi
open Lib

/-! ### The system -/

namespace Kernel

variable {α β : Type} {n : Nat} {k : Kernel}

/-- The system will answer at most `n` calls. -/
def Short (n : Nat) (k : Kernel) : Prop := k.answers.length ≤ n

/-- A call takes an answer, and no other is added. -/
theorem Short.answered (h : k.Short n) (c : NetCall) : (k.answered c).Short n := by
  rw [Short, Kernel.answered, List.length_tail]
  exact Nat.le_trans (Nat.sub_le _ _) h

/-- A call that does not fail leaves one less. -/
theorem Short.succeeded (h : k.Short n) {v : Nat} {bytes : List UInt8}
    (hk : k.answer = .ok v bytes) (c : NetCall) : (k.answered c).answers.length < n := by
  obtain ⟨_ | ⟨a, answers⟩, log⟩ := k
  · cases hk
  · exact h

/-- A program of the sockets that returns or throws.  What it does may be undefined if `u`. -/
def Calm (u : Prop) (m : Prog System Exception α) : Prop :=
  ∀ k n, KeepsOr (fun x => Along k (Thrown (fun _ => u) (Short n) x)) (Along k (Short n)) m

variable {u : Prop}

theorem Calm.pure (a : α) : Calm u (Pure.pure a : Prog System Exception α) :=
  fun _ _ => KeepsOr.pure a

theorem Calm.throw (e : Exception) : Calm u (Prog.throw e : Prog System Exception α) :=
  fun _ _ _ hs => hs

/-- The sequence of two such programs. -/
theorem Calm.bind {m : Prog System Exception α} {f : α → Prog System Exception β} (hm : Calm u m)
    (hf : ∀ a, Calm u (f a)) : Calm u (m >>= f) :=
  fun k n => (hm k n).bind fun a => hf a k n

theorem Calm.ite {p : Prop} [Decidable p] {m m' : Prog System Exception α} (h : Calm u m)
    (h' : Calm u m') : Calm u (if p then m else m') :=
  fun k n => (h k n).ite (h' k n)

theorem calm_call (c : Syscall) : Calm u (System.call c) :=
  fun _ _ => along_call fun _ h => h.answered _

theorem calm_closeGuard (g : SocketGuard) : Calm u g.close :=
  ((calm_call _).bind fun _ => (Calm.pure _).ite (.pure _)).ite (.pure _)

theorem calm_destroy (g : SocketGuard) : Calm u g.destroy :=
  (calm_closeGuard g).bind fun _ => .pure _

theorem calm_makeSocket (domain : AddressFamily) : Calm u (makeSocket domain) :=
  (calm_call _).bind fun _ => (Calm.pure _).ite ((calm_destroy _).bind fun _ => .throw _)

theorem calm_bindSocket (fd : Int) (addr : SocketAddress) : Calm u (bindSocket fd addr) :=
  (calm_call _).bind fun _ => (Calm.throw _).ite (.pure _)

/-- Polling a socket is undefined if it is too large. -/
theorem calm_pollRead (fd timeout : Int) : Calm (fdSetSize ≤ fd) (pollRead fd timeout) := by
  refine Calm.ite (fun k n => ?_) (.throw _)
  refine Triple.ite (fun _ => ?_) fun hfd _ hs => ⟨hs.1, Int.not_lt.mp hfd⟩
  exact ((calm_call _).bind fun _ => (Calm.throw _).ite (.pure _)) k n

/-- On the system. -/
theorem Calm.onSystem {m : Prog System Exception α} (h : Calm u m) (n : Nat) :
    KeepsOr (Thrown (fun _ => u) (Short n)) (Short n) (onSystem m) :=
  onSystem_triple fun k => h k n

/-- A destructor does not throw. -/
theorem calm_onSystem_destroy (g : SocketGuard) (n : Nat) {E : Fault Exception → Kernel → Prop} :
    Triple (Short n) (onSystem g.destroy) (fun _ => Short n) E := by
  intro k hk
  have h := (@calm_destroy False g).onSystem n k hk
  obtain ⟨sys', cs, hrun, -⟩ := g.destroy_run { outcomes := k.answers.map NetAnswer.result }
  rw [show onSystem g.destroy k = (.ok (), k.through sys'.calls) by rw [onSystem, hrun]] at h ⊢
  exact h

end Kernel

/-! ### The listener -/

namespace SocketListener

open Kernel

variable {α β : Type} {pton : InetPton}

/-- A program of the listener that returns or throws.  It is undefined only where the socket is too
large. -/
def Calm (m : Prog SocketListener Exception α) : Prop :=
  ∀ k n, KeepsOr (Thrown (fun l => fdSetSize ≤ l.socket_.socket_)
    fun l => Along k (Short n) l.sys) (fun l => Along k (Short n) l.sys) m

theorem Calm.pure (a : α) : Calm (Pure.pure a : Prog SocketListener Exception α) :=
  fun _ _ => KeepsOr.pure a

theorem Calm.throw (e : Exception) : Calm (Prog.throw e : Prog SocketListener Exception α) :=
  fun _ _ => KeepsOr.throw e

/-- The sequence of two programs of the listener. -/
theorem Calm.bind {m : Prog SocketListener Exception α}
    {f : α → Prog SocketListener Exception β} (hm : Calm m) (hf : ∀ a, Calm (f a)) :
    Calm (m >>= f) :=
  fun k n => (hm k n).bind fun a => hf a k n

/-- Reading the members of the listener. -/
theorem Calm.get {f : SocketListener → Prog SocketListener Exception β} (hf : ∀ l, Calm (f l)) :
    Calm (Prog.get >>= f) :=
  fun k n => KeepsOr.get fun l => hf l k n

theorem Calm.ite {p : Prop} [Decidable p] {m m' : Prog SocketListener Exception α} (h : Calm m)
    (h' : Calm m') : Calm (if p then m else m') :=
  fun k n => (h k n).ite (h' k n)

theorem Calm.ofExcept (x : Except Exception α) :
    Calm (Prog.ofExcept x : Prog SocketListener Exception α) := by
  cases x with
  | error e => exact .throw e
  | ok a => exact .pure a

/-- Another socket is stored. -/
theorem calm_store (g : SocketGuard) :
    Calm (Prog.modify fun l : SocketListener => { l with socket_ := g }) :=
  fun _ _ => Triple.modify fun _ h => h

/-- A program of the sockets, run by the listener. -/
theorem calm_onSys {m : Prog System Exception α} (h : Kernel.Calm False m) : Calm (onSys m) :=
  fun k n => Triple.zoom fun _ hl => (h k n).conseq (fun _ e => e.symm ▸ hl) (fun _ _ h => h)
    fun x _ h =>
      match x with
      | .exc _ => h
      | .undef => h.2.elim
      | .abort => h.2.elim
      | .spent => h.2.elim

/-- Assigning a socket to the listener. -/
theorem calm_assign (g : SocketGuard) : Calm (assign g) :=
  .get fun _ => (calm_store g).bind fun _ => calm_onSys (calm_destroy _)

/-- Making the socket of the listener. -/
theorem calm_createBind (e : Endpoint) : Calm (createBind pton e) := by
  have hmake : ∀ domain, Calm (onSys (makeSocket domain)) :=
    fun domain => calm_onSys (calm_makeSocket domain)
  have hbind : ∀ fd addr, Calm (onSys (bindSocket fd addr)) :=
    fun fd addr => calm_onSys (calm_bindSocket fd addr)
  cases e with
  | uds path hne =>
      refine (hmake _).bind fun g => (calm_assign g).bind fun _ => .get fun l => ?_
      exact (Calm.ofExcept _).bind fun _ => hbind _ _
  | net address port hne =>
      refine (hmake _).bind fun g => (calm_assign g).bind fun _ => .get fun l => ?_
      refine (calm_onSys (calm_call _)).bind fun _ => (Calm.throw _).ite ?_
      exact (Calm.ofExcept _).bind fun _ => hbind _ _

theorem calm_listen : Calm (listen pton) := by
  refine .get fun l => (Calm.pure _).ite ((calm_createBind _).bind fun _ => .get fun l => ?_)
  exact (calm_onSys (calm_call _)).bind fun _ => (Calm.throw _).ite (.pure _)

theorem calm_wait (timeout : Int) : Calm (wait timeout) := by
  intro k n
  have hthrow : ∀ {l : SocketListener} {e : Exception}, Along k (Short n) l.sys →
      Triple (fun t => t = l) (Prog.throw e : Prog SocketListener Exception Bool)
        (fun _ t => Along k (Short n) t.sys)
        (Thrown (fun t => fdSetSize ≤ t.socket_.socket_) fun t => Along k (Short n) t.sys) :=
    fun hl => Triple.throw fun _ e => e ▸ hl
  refine Triple.get fun l hl => Triple.ite (fun _ => hthrow hl) fun _ =>
    Triple.ite (fun _ => hthrow hl) fun _ => Triple.zoom fun t e => ?_
  subst e
  refine (calm_pollRead t.socket_.socket_ timeout k n).conseq (fun _ e => e.symm ▸ hl)
    (fun _ _ h => h) fun x _ h => ?_
  cases x with
  | exc e => exact h
  | undef => exact h.2
  | _ => exact h.2.elim

theorem calm_accept : Calm accept := by
  refine .get fun l => (Calm.throw _).ite ((calm_onSys (calm_call _)).bind fun fd => ?_)
  exact ((calm_onSys (calm_destroy _)).bind fun _ => .throw _).ite (.pure _)

theorem calm_close : Calm close := by
  refine .get fun l => (calm_onSys (calm_closeGuard _)).bind fun r => ?_
  exact (calm_store _).bind fun _ => (Calm.throw _).ite (.pure _)

/-- What `accept()` returns is a socket. -/
theorem accept_isSocketValid : Triple (fun _ => True) accept
    (fun g _ => isSocketValid g.socket_ = true) fun _ _ => True := by
  refine Triple.get fun l _ => Triple.pre (P := fun _ => True) ?_ fun _ _ => trivial
  refine Triple.ite (fun _ => Triple.throw fun _ h => h) fun _ => Triple.bind Triple.anything
    fun fd => Triple.ite (fun _ => Triple.bind Triple.anything fun _ => Triple.throw fun _ h => h)
      fun h => Triple.pure fun _ _ => not_not.mp h

end SocketListener

/-! ### Connections -/

namespace SocketDescriptor

open Kernel

variable {α β : Type} {n fuel : Nat}

variable {U : SocketDescriptor × Kernel → Prop} {g : SocketGuard}

/-- A program of a descriptor that returns or throws, where the system will answer at most `n`
calls.  What it does may be undefined where `U`. -/
def Calm (n : Nat) (U : SocketDescriptor × Kernel → Prop) (m : M α) : Prop :=
  KeepsOr (Thrown U fun s => s.2.Short n) (fun s => s.2.Short n) m

/-- A program of the sockets, run by a connection. -/
theorem calm_onSystem {m : Prog System Exception α} (h : Kernel.Calm False m) :
    Calm n U (onKernel (Kernel.onSystem m)) :=
  Triple.zoom fun _ hs => (h.onSystem n).conseq (fun _ e => e.symm ▸ hs) (fun _ _ h => h)
    fun x _ h =>
      match x with
      | .exc _ => h
      | .undef => h.elim
      | .abort => h
      | .spent => h

/-- A call of the system, made by a connection. -/
theorem calm_call (c : NetCall) : Calm n U (onKernel (Kernel.call c)) :=
  fun _ hs => Short.answered hs c

theorem calm_read (isNull : Bool) (len : Nat) : Calm n U (read isNull len) := by
  refine KeepsOr.ite (.throw _) (KeepsOr.get fun s => (calm_call _).bind fun a => ?_)
  cases a with
  | ok v bytes => exact .pure _
  | error errno => exact .throw _

theorem calm_write (isNull : Bool) (buf : List UInt8) : Calm n U (write isNull buf) := by
  refine KeepsOr.ite (.throw _) (KeepsOr.get fun s => (calm_call _).bind fun a => ?_)
  cases a with
  | ok v bytes => exact .pure _
  | error errno => exact .throw _

/-- The system will answer at most `n` calls, and the guard holds the socket. -/
def ShortAt (n : Nat) (g : SocketGuard) (s : SocketDescriptor × Kernel) : Prop :=
  s.2.Short n ∧ s.1.socket_ = g

/-- The socket is too large. -/
def Outsized (g : SocketGuard) (s : SocketDescriptor × Kernel) : Prop :=
  s.1.socket_ = g ∧ fdSetSize ≤ g.socket_

/-- A round that is followed by another has taken an answer. -/
theorem trash_shorter : Triple (ShortAt n g) trash
    (fun r s => (match r with
      | .again _ => s.2.answers.length < n
      | .done _ => s.2.Short n) ∧ s.1.socket_ = g)
    (Thrown (Outsized g) fun s => s.2.Short n) := by
  refine Triple.get fun s h => ?_
  have hpoll : Triple (fun t => t = s) (onKernel (Kernel.onSystem (pollRead s.1.socket_.socket_
      1000))) (fun _ => ShortAt n g) (Thrown (Outsized g) fun s => s.2.Short n) := by
    refine Triple.zoom fun t e => ?_
    subst e
    refine ((calm_pollRead t.1.socket_.socket_ 1000).onSystem n).conseq (fun _ e => e ▸ h.1)
      (fun _ _ hk => ⟨hk, h.2⟩) fun x _ hx => ?_
    cases x with
    | exc e => exact hx
    | undef => exact ⟨h.2, h.2 ▸ hx⟩
    | _ => exact hx
  refine Triple.bind hpoll fun ready => Triple.ite (fun _ => ?_)
    fun _ => Triple.pure fun _ h => h
  refine Triple.bind (Q := fun a t => ShortAt n g t ∧ ((∃ v bytes, a = .ok v bytes) →
    t.2.answers.length < n)) ?_ fun a => ?_
  · rintro ⟨d, k⟩ ⟨hk, hd⟩
    refine ⟨⟨hk.answered _, hd⟩, ?_⟩
    rintro ⟨v, bytes, ha⟩
    exact hk.succeeded ha _
  · cases a with
    | error errno => exact Triple.throw fun _ h => h.1.1
    | ok v bytes =>
        exact Triple.ite (fun _ => Triple.pure fun _ h => h.1) fun _ =>
          Triple.pure fun _ h => ⟨h.2 ⟨v, bytes, rfl⟩, h.1.2⟩

/-- The loop ends before the fuel does. -/
theorem calm_trashing (h : n < fuel) : Triple (ShortAt n g)
    (Prog.recLoop (fun _ _ _ => trash) fuel ()) (fun _ => ShortAt n g)
    (Thrown (Outsized g) fun s => s.2.Short n) := by
  induction fuel generalizing n with
  | zero => exact absurd h (Nat.not_lt_zero _)
  | succ fuel ih =>
      refine Triple.bind trash_shorter fun r => ?_
      cases r with
      | done => exact fun _ h => h
      | again =>
          rintro s ⟨hs, hg⟩
          obtain ⟨m, rfl⟩ : ∃ m, n = m + 1 := ⟨n - 1, by dsimp only at hs; omega⟩
          refine (ih (Nat.lt_of_succ_lt_succ h)).conseq (fun _ => id)
            (fun _ _ hs => ⟨Nat.le_succ_of_le hs.1, hs.2⟩) (fun x _ hs => ?_) s
            ⟨Nat.le_of_lt_succ hs, hg⟩
          cases x with
          | exc e => exact Nat.le_succ_of_le hs
          | _ => exact hs

/-- `graceful_shutdown()`, if the fuel is enough for the answers. -/
theorem calm_gracefulShutdown (h : n < fuel) : Triple (ShortAt n g) (gracefulShutdown fuel)
    (fun _ => ShortAt n g) (Thrown (Outsized g) fun s => s.2.Short n) := by
  refine Triple.get fun s hs => Triple.pre (P := ShortAt n g) ?_ fun _ e => e ▸ hs
  refine Triple.bind (Q := fun _ => ShortAt n g) (fun s h => ⟨h.1.answered _, h.2⟩) fun a => ?_
  exact Triple.ite (fun _ => Triple.ite (fun _ => Triple.pure fun _ h => h)
    fun _ => Triple.throw fun _ h => h.1) fun _ => calm_trashing h

/-- Closing the socket of a connection. -/
theorem calm_closeSocket : Calm n U closeSocket := by
  refine KeepsOr.get fun s => (calm_onSystem (calm_closeGuard _)).bind fun r => ?_
  exact Triple.bind (Triple.modify fun _ h => h) fun _ => KeepsOr.ite (.throw _) (.pure _)

theorem calm_close (h : n < fuel) : Triple (ShortAt n g) (close fuel) (fun _ s => s.2.Short n)
    (Thrown (Outsized g) fun s => s.2.Short n) := by
  refine Triple.get fun s hs => Triple.pre (P := ShortAt n g) ?_ fun _ e => e ▸ hs
  refine Triple.ite (fun _ => calm_closeSocket.pre fun _ h => h.1) fun _ =>
    Triple.bind (calm_gracefulShutdown h) fun _ => ?_
  exact Triple.bind (Triple.modify fun _ h => h.1) fun _ => calm_closeSocket

/-- Nor does that of a descriptor. -/
theorem calm_destroy (h : n < fuel) : Triple (ShortAt n g) (destroy fuel) (fun _ s => s.2.Short n)
    (Thrown (Outsized g) fun _ => False) := by
  have hmembers : Triple (fun s => s.2.Short n) destroyMembers (fun _ s => s.2.Short n)
      (Thrown (Outsized g) fun _ => False) :=
    Triple.get fun s hs => Triple.zoom fun t e => (calm_onSystem_destroy s.1.socket_ n).conseq
      (fun _ e' => e' ▸ e ▸ hs) (fun _ _ h => h) fun _ _ h => h
  refine Triple.get fun s hs => Triple.pre (P := ShortAt n g) ?_ fun _ e => e ▸ hs
  exact Triple.ite (fun _ => Triple.bind (KeepsOr.caught (calm_close h)) fun _ => hmembers)
    fun _ => hmembers.pre fun _ h => h.1

end SocketDescriptor

section

open Kernel

variable {n : Nat}

theorem calm_connectSocket (fd : Int) (addr : SocketAddress) :
    KeepsOr (Thrown (fun _ => False) (Short n)) (Short n) (connectSocket fd addr) :=
  KeepsOr.bind (fun _ h => h.answered _) fun _ => KeepsOr.ite (.throw _) (.pure _)

/-- The constructor of a connection. -/
theorem calm_make {g : SocketGuard} (hg : isSocketValid g.socket_ = true)
    {E : Fault Exception → Kernel → Prop} :
    Triple (Short n) (SocketDescriptor.make g) (fun _ => Short n) E :=
  Triple.bind (Triple.assert (Q := fun _ => Short n) (fun _ h _ => h) fun _ _ h => absurd hg h)
    fun _ => Triple.pure fun _ h => h

/-- What is returned is valid. -/
theorem makeSocket_isSocketValid (domain : AddressFamily) :
    Triple (fun _ => True) (makeSocket domain) (fun g _ => isSocketValid g.socket_ = true)
      fun _ _ => True :=
  Triple.bind Triple.anything fun _ => Triple.ite (fun h => Triple.pure fun _ _ => h) fun _ =>
    Triple.bind Triple.anything fun _ => Triple.throw fun _ h => h

theorem calm_makeTcpConnection (pton : InetPton) (remote : Endpoint) :
    KeepsOr (Thrown (fun _ => False) (Short n)) (Short n) (makeTcpConnection pton remote) := by
  refine KeepsOr.bind ?_ fun addr => ?_
  · cases remote.remote pton with
    | error e => exact .throw _
    | ok addr => exact .pure _
  · refine Triple.bind (Q := fun g k => isSocketValid g.socket_ = true ∧ Short n k)
      (onSystem_triple fun k => ?_) fun g => ?_
    · refine ((makeSocket_isSocketValid addr.family).and
        (calm_makeSocket (u := False) addr.family k n)).conseq (fun _ h => ⟨trivial, h⟩)
        (fun g sys h => ⟨h.2.1, h.1, h.2.2⟩) fun x _ h => ?_
      cases x with
      | exc e => exact h.2
      | undef => exact h.2
      | _ => exact h.2.2.elim
    · rintro k ⟨hg, hk⟩
      refine Triple.bind (KeepsOr.caught (calm_connectSocket g.socket_ addr)) (fun r => ?_) k hk
      cases r with
      | error e => exact (calm_onSystem_destroy g n).bind fun _ => KeepsOr.throw e
      | ok _ => exact calm_make hg

end

/-! ### The process -/

namespace Process

open Kernel

variable {α : Type} {pton : InetPton} {fuel n : Nat}

/-- A socket the process may wait for is too large for `select`. -/
def Outsized (p : Process) : Prop :=
  fdSetSize ≤ p.listener.socket_ ∨ ∃ d ∈ p.descriptors, fdSetSize ≤ d.socket_.socket_

/-- A program of the process that returns or throws, or does what is undefined with such a
socket. -/
def Calm (n : Nat) (m : M α) : Prop :=
  KeepsOr (Thrown Outsized fun p => p.kernel.Short n) (fun p => p.kernel.Short n) m

/-- A program of the system, run by a process. -/
theorem calm_onKernel {m : Prog Kernel Exception α}
    (h : KeepsOr (Thrown (fun _ => False) (Short n)) (Short n) m) : Calm n (onKernel m) := by
  refine Triple.zoom fun _ hp => h.conseq (fun _ e => e.symm ▸ hp) (fun _ _ h => h) fun x _ h => ?_
  cases x with
  | exc e => exact h
  | _ => exact h.elim

/-- A program of the listener, run by a process. -/
theorem calm_onListener {m : Prog SocketListener Exception α} (h : SocketListener.Calm m)
    {P : α → Prop} (hp : Triple (fun _ => True) m (fun a _ => P a) fun _ _ => True) :
    Triple (fun p => p.kernel.Short n) (onListener m) (fun a p => P a ∧ p.kernel.Short n)
      (Thrown Outsized fun p => p.kernel.Short n) := by
  intro p hk
  have hm := (hp.and (h p.kernel n)) ⟨p.listener, p.options,
    { outcomes := p.kernel.answers.map NetAnswer.result }⟩ ⟨trivial, rfl, hk⟩
  simp only [onListener]
  rcases e : m ⟨p.listener, p.options, { outcomes := p.kernel.answers.map NetAnswer.result }⟩ with
    ⟨x | a, l⟩ <;> rw [e] at hm
  · cases x with
    | exc e => exact hm.2.2
    | undef => exact .inl hm.2
    | _ => exact hm.2.elim
  · exact ⟨hm.1, hm.2.2⟩

/-- A process with a descriptor that is too large. -/
theorem outsized_descriptor {p : Process} {ds ds' : List SocketDescriptor}
    {d : SocketDescriptor} (hp : p.descriptors = ds ++ d :: ds')
    (hd : fdSetSize ≤ d.socket_.socket_) : p.Outsized :=
  .inr ⟨d, hp ▸ List.mem_append_right _ List.mem_cons_self, hd⟩

/-- A program of a connection, run by a process. -/
theorem calm_onDescriptor {i : Nat} {m : SocketDescriptor.M Unit}
    (h : ∀ g, Triple (SocketDescriptor.ShortAt n g) m (fun _ s => s.2.Short n)
      (Thrown (SocketDescriptor.Outsized g) fun s => s.2.Short n)) : Calm n (onDescriptor i m) := by
  intro p hk
  simp only [onDescriptor]
  rcases p.descriptors.drop i with _ | ⟨d, ds⟩
  · exact hk
  · have hm := h d.socket_ (d, p.kernel) ⟨hk, rfl⟩
    dsimp only
    rcases e : m (d, p.kernel) with ⟨x | ⟨⟩, d', k⟩ <;> rw [e] at hm
    · cases x with
      | exc e => exact hm
      | undef => exact outsized_descriptor rfl (hm.1 ▸ hm.2)
      | _ => exact hm.elim
    · exact hm

theorem calm_destroyDescriptor (h : n < fuel) (i : Nat) : Calm n (destroyDescriptor fuel i) := by
  intro p hk
  simp only [destroyDescriptor]
  rcases p.descriptors.drop i with _ | ⟨d, ds⟩
  · exact hk
  · have hm := SocketDescriptor.calm_destroy h (d, p.kernel) ⟨hk, rfl⟩
    dsimp only
    rcases e : SocketDescriptor.destroy fuel (d, p.kernel) with ⟨x | ⟨⟩, d', k⟩ <;> rw [e] at hm
    · cases x with
      | undef => exact outsized_descriptor rfl (hm.1 ▸ hm.2)
      | _ => exact hm.elim
    · exact hm

theorem calm_add {m : M SocketDescriptor} (h : Calm n m) : Calm n (add m) :=
  h.bind fun _ => Triple.modify fun _ hk => hk

theorem calm_accept : Calm n accept := by
  refine Triple.bind (calm_onListener SocketListener.calm_accept
    SocketListener.accept_isSocketValid) fun g => ?_
  intro p hp
  exact calm_onKernel (calm_make hp.1) p hp.2

/-- Every call of a process returns or throws, or does what is undefined with too large a
socket. -/
theorem calm_exec (h : n < fuel) (c : ProcessCall) : Calm n (exec pton fuel c) := by
  have hlistener : ∀ {β : Type} {m : Prog SocketListener Exception β}, SocketListener.Calm m →
      Calm n (onListener m) := fun hm =>
    (calm_onListener hm (P := fun _ => True) Triple.anything).post fun _ _ h => h.2
  have hdescriptor : ∀ {i : Nat} {m : SocketDescriptor.M Unit},
      (∀ {U}, SocketDescriptor.Calm n U m) → Calm n (onDescriptor i m) :=
    fun hm => calm_onDescriptor fun _ => hm.pre fun _ h => h.1
  cases c with
  | listener c =>
      cases c with
      | listen => exact hlistener SocketListener.calm_listen
      | wait timeout => exact hlistener ((SocketListener.calm_wait _).bind fun _ => .pure _)
      | accept => exact calm_add calm_accept
      | close => exact hlistener SocketListener.calm_close
  | connect remote => exact calm_add (calm_onKernel (calm_makeTcpConnection pton remote))
  | read i isNull len =>
      exact hdescriptor ((SocketDescriptor.calm_read _ _).bind fun _ => .pure _)
  | write i isNull buf =>
      exact hdescriptor ((SocketDescriptor.calm_write _ _).bind fun _ => .pure _)
  | close i => exact calm_onDescriptor fun _ => SocketDescriptor.calm_close h
  | destroy i => exact calm_destroyDescriptor h i

/-- So a run of calls comes to its end, or to that. -/
theorem calm_run (h : n < fuel) (cs : List ProcessCall) :
    Triple (fun p => p.kernel.Short n) (run pton fuel cs) (fun _ p => p.kernel.Short n)
      (Thrown Outsized fun _ => False) := by
  induction cs with
  | nil => exact Triple.pure fun _ hk => hk
  | cons c cs ih => exact Triple.bind (KeepsOr.caught (calm_exec h c)) fun _ => ih

/-! ### The end -/

/-- The end of all the connections leaves what they have held closed. -/
theorem destroyDescriptors_owns (h : n < fuel) {ds : List SocketDescriptor}
    {own fr : List (Int × FdState)} (hd : HasAll ds own) :
    Triple (fun k => k.Owns (own ++ fr) ∧ k.Short n) (destroyDescriptors fuel ds)
      (fun _ k => k.Owns fr ∧ k.Short n)
      (Thrown (fun _ => ∃ d ∈ ds, fdSetSize ≤ d.socket_.socket_) fun _ => False) := by
  induction ds generalizing own with
  | nil =>
      obtain ⟨_, ⟨⟩, rfl⟩ := hd
      exact Triple.pure fun _ h => h
  | cons d ds ih =>
      obtain ⟨own₁, own₂, hd₁, hd₂, rfl⟩ := hasAll_cons.mp hd
      rintro k ⟨hk, hs⟩
      rw [List.append_assoc] at hk
      have howns := SocketDescriptor.destroy_owns fuel (d, k) ⟨own₁, hd₁, hk⟩
      have hcalm := SocketDescriptor.calm_destroy h (d, k) ⟨hs, rfl⟩
      simp only [destroyDescriptors]
      rcases e : SocketDescriptor.destroy fuel (d, k) with ⟨x | ⟨⟩, d', k'⟩ <;>
        rw [e] at howns hcalm
      · cases x with
        | undef => exact ⟨d, List.mem_cons_self, hcalm.2⟩
        | _ => exact hcalm.elim
      · refine (ih hd₂).conseq (fun _ h => h) (fun _ _ h => h) (fun x _ hx => ?_) k' ⟨howns, hcalm⟩
        cases x with
        | undef => exact hx.imp fun _ h => ⟨List.mem_cons_of_mem _ h.1, h.2⟩
        | _ => exact hx.elim

/-- When everything is gone, nothing is open but what the system has failed to close. -/
theorem finish_owns (h : n < fuel) :
    Triple (fun p => Owns p ∧ p.kernel.Short n) (finish fuel) (fun _ p => p.kernel.Owns [])
      (Thrown Outsized fun _ => False) := by
  refine Triple.get fun p hp => ?_
  obtain ⟨⟨own, owns, hl, hd, hk⟩, hs⟩ := hp
  -- The connections go first, then the listener.
  have hend : Triple (fun k => k.Owns (owns ++ own) ∧ k.Short n) (do
      destroyDescriptors fuel p.descriptors
      SocketListener.destroySocket p.options p.listener) (fun _ k => k.Owns [])
      (Thrown (fun _ => ∃ d ∈ p.descriptors, fdSetSize ≤ d.socket_.socket_) fun _ => False) :=
    Triple.bind (destroyDescriptors_owns h hd) fun _ =>
      (destroySocket_owns p.options hl).conseq
        (fun k hk => by rw [List.append_nil]; exact hk.1) (fun _ _ h => h) fun _ _ h => h.elim
  refine Triple.bind (Q := fun _ p => p.kernel.Owns []) (Triple.zoom fun t e => ?_) fun _ =>
    Triple.modify fun _ h => h
  subst e
  refine hend.conseq (fun k e => ?_) (fun _ _ h => h) fun x _ hx => ?_
  · subst e
    exact ⟨hk.perm List.perm_append_comm, hs⟩
  · cases x with
    | undef => exact .inr hx
    | _ => exact hx.elim

end Process

/-- A process that has no sockets yet. -/
def Process.start (options : ListenerOptions) (answers : List NetAnswer) : Process where
  options := options
  kernel := { answers := answers }

/-- **What is open is held.**  Whatever a process calls and whatever the system answers, wherever it
has got to: no call has been for a descriptor that was not open, and what is open is what the
listener and the connections hold, and what the system has failed to close. -/
theorem process_owns (pton : InetPton) (options : ListenerOptions) (answers : List NetAnswer)
    (fuel : Nat) (calls : List ProcessCall) :
    (Process.run pton fuel calls (Process.start options answers)).2.Owns :=
  (Process.run_owns calls).run ⟨[], [], .empty rfl, .nil, [], .nil, by simp⟩

/-- **Nothing stays open**, but what the system has failed to close: all calls of a process return
or throw, and its end is reached; only with a socket that is too large for `select` can it come to
what is undefined instead. -/
theorem process_ends (pton : InetPton) (options : ListenerOptions) {answers : List NetAnswer}
    {fuel : Nat} (hfuel : answers.length < fuel) (calls : List ProcessCall) :
    ∃ r p, (do
      Process.run pton fuel calls
      Process.finish fuel) (Process.start options answers) = (r, p) ∧
      (r = .ok () ∧ p.kernel.Owns [] ∨ r = .error .undef ∧ p.Outsized) := by
  have hstart : (Process.start options answers).kernel.Short answers.length := Nat.le_refl _
  have hrun := @Process.calm_run pton fuel _ hfuel calls _ hstart
  have howns := process_owns pton options answers fuel calls
  rcases e : Process.run pton fuel calls (Process.start options answers) with ⟨x | ⟨⟩, p⟩ <;>
    rw [e] at hrun howns
  · refine ⟨_, p, Prog.bind_error e, .inr ?_⟩
    cases x with
    | undef => exact ⟨rfl, hrun⟩
    | _ => exact hrun.elim
  · have hend := Process.finish_owns hfuel p ⟨howns, hrun⟩
    rw [Prog.bind_ok e]
    rcases e' : Process.finish fuel p with ⟨x | ⟨⟩, p'⟩ <;> rw [e'] at hend
    · refine ⟨_, p', rfl, .inr ?_⟩
      cases x with
      | undef => exact ⟨rfl, hend⟩
      | _ => exact hend.elim
    · exact ⟨_, p', rfl, .inl ⟨rfl, hend⟩⟩

/-- A connection is accepted and written to, and closed while the listener listens.  Every call is
answered, both closes too, so that the end is reached and nothing is open. -/
theorem process_ends_accepted : ∃ options : ListenerOptions,
    ListenerOptions.ofAddress (bytesOf "127.0.0.1") 9000 5 = .ok options ∧
    let answers : List NetAnswer := [.ok 3 [], .ok 0 [], .ok 0 [], .ok 0 [], .ok 4 [], .ok 2 [],
      .ok 0 [], .ok 1 [], .ok 0 [], .ok 0 [], .ok 0 []]
    let calls : List ProcessCall :=
      [.listener .listen, .listener .accept, .write 0 false [104, 105], .close 0]
    let ended := (do
      Process.run .loopback 12 calls
      Process.finish 12 : Process.M Unit) (Process.start options answers)
    (∃ r p, ended = (r, p) ∧
      (r = .ok () ∧ p.kernel.Owns [] ∨ r = .error .undef ∧ p.Outsized)) ∧
    Prog.returns (fun _ p => p.kernel.log.map (fun c => c.2.result) =
      [3, 0, 0, 0, 4, 2, 0, 1, 0, 0, 0]) ended = true :=
  ⟨⟨.net (bytesOf "127.0.0.1") 9000 (by decide), 5, by decide⟩, rfl,
    process_ends .loopback _ (by decide) _, by decide +kernel⟩

end Fcgi

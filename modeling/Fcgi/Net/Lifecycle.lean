import Fcgi.Net.Listening
import Fcgi.Net.SocketDescriptor

/-!
# Net — the life of descriptors

What each call on a listener or a connection does with the descriptors: those it gets, those it
uses, and those it gives back, however it ends.

The triples are about `Kernel.Owns` with a frame: `fr` is what the call does not touch.  A socket
guard has a descriptor in some state or none (`Has`), and a program of the listener is followed from
the guard it begins with (`At`) to what it leaves in the listener (`Stored`, `Keeping`).  A
connection holds its descriptor as that of a peer, shuts it down (`Shut`), and then may close it
(`Done`).
-/

namespace Fcgi
open Lib

/-! ### Sockets -/

namespace SocketGuard

open Kernel

variable {g : SocketGuard} {s : FdState} {own fr : List (Int × FdState)}

/-- What the guard of a descriptor in the state `s` holds. -/
inductive Has (g : SocketGuard) (s : FdState) : List (Int × FdState) → Prop where
  | empty (h : g = {}) : Has g s []
  | socket (h : 0 ≤ g.socket_) : Has g s [(g.socket_, s)]

/-- Closing a socket gives its descriptor back, or fails and keeps it. -/
theorem close_owns (k : Kernel) (hg : g.Has s own) (hs : s.mayClose = true) :
    Triple (k.Along (Owns (own ++ fr))) g.close
      (fun r => k.Along fun k => (r = (0, {}) ∧ Owns fr k) ∨
        r.1 ≠ 0 ∧ r.2 = g ∧ own = [(g.socket_, s)] ∧ Owns (own ++ fr) k ∧
          k.FailedToClose g.socket_) fun _ => k.Along fun _ => False := by
  cases hg with
  | empty h =>
      subst h
      exact Triple.pure fun sys h => h.mono fun k hk => .inl ⟨rfl, hk⟩
  | socket h =>
      have hne : g.socket_ ≠ invalidSocket := by
        rw [invalidSocket]
        omega
      rw [close, if_pos hne]
      refine Triple.bind (along_call (Q := fun r k => if r = 0 then Owns fr k
        else Owns ((g.socket_, s) :: fr) k ∧ k.FailedToClose g.socket_)
        fun k hk => Owns.close hk hs) fun r => ?_
      refine Triple.ite (fun hr => ?_) fun hr => ?_
      · refine Triple.pure fun sys h => h.mono fun k hk => .inl ⟨by rw [hr], ?_⟩
        rwa [if_pos hr] at hk
      · refine Triple.pure fun sys h => h.mono fun k hk => .inr ⟨hr, rfl, rfl, ?_⟩
        rwa [if_neg hr] at hk

/-- The guard is gone. -/
theorem destroy_owns (k : Kernel) (hg : g.Has s own) (hs : s.mayClose = true) :
    Triple (k.Along (Owns (own ++ fr))) g.destroy (fun _ => k.Along (Owns fr))
      fun _ => k.Along fun _ => False := by
  refine Triple.bind (close_owns k hg hs) fun r => Triple.pure fun sys h => h.mono ?_
  rintro k (⟨-, hk⟩ | ⟨-, -, rfl, hk, hf⟩)
  · exact hk
  · exact hk.lose hf

end SocketGuard

open Kernel

section

variable {fr : List (Int × FdState)} {fd : Int} {s : FdState}

/-- Making a socket gets a descriptor. -/
theorem makeSocket_owns (k : Kernel) (domain : AddressFamily) :
    Triple (k.Along (Owns fr)) (makeSocket domain)
      (fun g => k.Along fun k => 0 ≤ g.socket_ ∧ Owns ((g.socket_, .made) :: fr) k)
      fun _ => k.Along (Owns fr) := by
  refine Triple.bind (along_call (Q := fun r k => (0 ≤ r ∧ Owns ((r, .made) :: fr) k) ∨
    r = invalidSocket ∧ Owns fr k) fun k hk => ?_) fun r => ?_
  · rcases ha : k.answer with ⟨v, bytes⟩ | errno
    · exact .inl ⟨Int.natCast_nonneg v, hk.obtained (by rw [ha]; rfl)⟩
    · exact .inr ⟨rfl, hk.unused (by rw [ha]; rfl)⟩
  · refine Triple.ite (fun hr => ?_) fun hr => ?_
    · refine Triple.pure fun sys h => h.mono fun k hk => ?_
      rcases hk with hk | ⟨rfl, -⟩
      · exact hk
      · exact absurd hr Bool.false_ne_true
    · refine Triple.bind (Q := fun _ => k.Along (Owns fr)) (fun sys h => ?_)
        fun _ => Triple.throw fun _ h => h
      obtain ⟨hout, hk⟩ := h
      rcases hk with ⟨hpos, -⟩ | ⟨rfl, hk⟩
      · exact absurd (decide_eq_true hpos) hr
      · exact ⟨hout, hk⟩

theorem pollRead_owns (k : Kernel) (hfd : 0 ≤ fd) (timeout : Int) :
    Triple (k.Along (Owns ((fd, s) :: fr))) (pollRead fd timeout)
      (fun _ => k.Along (Owns ((fd, s) :: fr))) fun _ => k.Along (Owns ((fd, s) :: fr)) := by
  rw [pollRead, if_pos (show isSocketValid fd = true from decide_eq_true hfd)]
  refine Triple.ite (fun _ => ?_) fun _ _ hk => hk
  refine Triple.bind (along_call (Q := fun _ => Owns ((fd, s) :: fr))
    fun k hk => hk.used rfl rfl) fun r => ?_
  exact Triple.ite (fun _ => Triple.throw fun _ h => h) fun _ => Triple.pure fun _ h => h

theorem bindSocket_owns (k : Kernel) (addr : SocketAddress) :
    Triple (k.Along (Owns ((fd, .made) :: fr))) (bindSocket fd addr)
      (fun _ => k.Along (Owns ((fd, .made) :: fr)))
      fun _ => k.Along (Owns ((fd, .made) :: fr)) := by
  refine Triple.bind (along_call (Q := fun _ => Owns ((fd, .made) :: fr))
    fun k hk => hk.used rfl rfl) fun r => ?_
  exact Triple.ite (fun _ => Triple.throw fun _ h => h) fun _ => Triple.pure fun _ h => h

/-- The connection that `::accept` hands out. -/
theorem accept_owns (k : Kernel) :
    Triple (k.Along (Owns ((fd, .made) :: fr))) (System.call (.accept fd))
      (fun r => k.Along fun k => (0 ≤ r ∧ Owns ((fd, .made) :: (r, .peer) :: fr) k) ∨
        r = invalidSocket ∧ Owns ((fd, .made) :: fr) k) fun _ => k.Along fun _ => False := by
  refine along_call fun k hk => ?_
  cases ha : k.answer with
  | ok v bytes =>
      refine .inl ⟨Int.natCast_nonneg v, Owns.perm (hk.answered fun {lost us} hh => ?_) (.swap ..)⟩
      have hu := (hh.used (f := FdState.asMade) rfl).obtained (v : Int) .peer
      rw [List.append_assoc] at hu
      rw [ha]
      exact hu
  | error errno => exact .inr ⟨rfl, hk.used (by rw [ha]; rfl) (f := FdState.asMade) rfl⟩

end

/-! ### The listener -/

namespace SocketListener

variable {fr : List (Int × FdState)} {pton : InetPton} {k : Kernel} {α : Type}

/-- The socket of the listener is `g`; of the system, `P` holds. -/
def At (k : Kernel) (g : SocketGuard) (P : Kernel → Prop) (l : SocketListener) : Prop :=
  l.socket_ = g ∧ k.Along P l.sys

/-- The listener holds what it has, beside `fr`. -/
def Keeping (k : Kernel) (fr : List (Int × FdState)) (l : SocketListener) : Prop :=
  ∃ own, l.socket_.Has .made own ∧ k.Along (Owns (own ++ fr)) l.sys

/-- A program of the sockets, run by the listener. -/
theorem onSys_at {m : Prog System Exception α} {P : Kernel → Prop} {Q : α → Kernel → Prop}
    {E : Fault Exception → Kernel → Prop}
    (h : Triple (k.Along P) m (fun a => k.Along (Q a)) fun x => k.Along (E x)) (g : SocketGuard) :
    Triple (At k g P) (onSys m) (fun a => At k g (Q a)) fun x => At k g (E x) :=
  Triple.zoom fun _ hl => h.conseq (fun _ hsys => hsys.symm ▸ hl.2) (fun _ _ h => ⟨hl.1, h⟩)
    fun _ _ h => ⟨hl.1, h⟩

/-- The listener has stored the new socket `g`. -/
def Stored (k : Kernel) (fr : List (Int × FdState)) (g : SocketGuard) (l : SocketListener) : Prop :=
  0 ≤ g.socket_ ∧ At k g (Owns ((g.socket_, .made) :: fr)) l

/-- What is stored in the listener is kept by it. -/
theorem Stored.keeping {g : SocketGuard} {l : SocketListener} (h : Stored k fr g l) :
    Keeping k fr l := by
  obtain ⟨hg, rfl, h⟩ := h
  exact ⟨_, .socket hg, h⟩

/-- A program that leaves the socket open. -/
theorem onSys_stored {m : Prog System Exception α} {g : SocketGuard}
    (h : Triple (k.Along (Owns ((g.socket_, .made) :: fr))) m
      (fun _ => k.Along (Owns ((g.socket_, .made) :: fr)))
      fun _ => k.Along (Owns ((g.socket_, .made) :: fr))) :
    Triple (Stored k fr g) (onSys m) (fun _ => Stored k fr g) fun _ => Keeping k fr :=
  fun l hl => (onSys_at h g).conseq (fun _ => id) (fun _ _ h => ⟨hl.1, h⟩)
    (fun _ _ h => Stored.keeping ⟨hl.1, h⟩) l hl.2

/-- A call for the socket. -/
theorem call_stored {g : SocketGuard} {c : Syscall}
    (hc : ∀ a, NetCall.uses (.system c, a) = [.used g.socket_ FdState.asMade]) :
    Triple (Stored k fr g) (onSys (System.call c)) (fun _ => Stored k fr g)
      fun _ => Keeping k fr :=
  onSys_stored (along_call fun _ hk => hk.used (hc _) rfl)

/-- A listener that does not listen gets a socket. -/
theorem makeSocket_stored {domain : AddressFamily}
    {f : SocketListener → Prog SocketListener Exception α}
    {Q : α → SocketListener → Prop}
    (hf : ∀ l, Stored k fr l.socket_ l → Triple (fun t => t = l) (f l) Q fun _ => Keeping k fr) :
    Triple (At k {} (Owns fr)) (onSys (makeSocket domain) >>= fun guard =>
        assign guard >>= fun _ => Prog.get >>= f) Q fun _ => Keeping k fr := by
  refine Triple.bind (Q := fun g l => 0 ≤ g.socket_ ∧ At k {} (Owns ((g.socket_, .made) :: fr)) l)
    ((onSys_at (makeSocket_owns k domain) {}).conseq (fun _ => id)
      (fun g l h => ⟨h.2.2.1, h.1, h.2.mono fun _ => And.right⟩)
      fun _ l h => ⟨[], .empty h.1, h.2⟩) fun g => ?_
  rintro ⟨g', o, sys⟩ ⟨hg, rfl, h⟩
  exact hf ⟨g, o, sys⟩ ⟨hg, rfl, h⟩ _ rfl

/-- Making the socket of the listener stores it, or nothing is left of it. -/
theorem createBind_keeping (e : Endpoint) :
    Triple (At k {} (Owns fr)) (createBind pton e) (fun _ l => ∃ g, Stored k fr g l)
      fun _ => Keeping k fr := by
  -- What is made of the text or the path is bound.
  have hbind : ∀ {β : Type} (x : Except Exception β) (f : β → SocketAddress) (g : SocketGuard),
      Triple (Stored k fr g) (Prog.ofExcept x >>= fun a => onSys (bindSocket g.socket_ (f a)))
        (fun _ l => ∃ g, Stored k fr g l) fun _ => Keeping k fr := by
    intro β x f g
    cases x with
    | error e => exact Triple.throw fun l h => h.keeping
    | ok a => exact (onSys_stored (bindSocket_owns k (f a))).post fun _ l h => ⟨g, h⟩
  cases e with
  | uds path hne =>
      exact makeSocket_stored fun l h => (hbind _ id l.socket_).pre fun _ e => e ▸ h
  | net address port hne =>
      refine makeSocket_stored fun l h =>
        Triple.pre (P := Stored k fr l.socket_) ?_ fun _ e => e ▸ h
      refine Triple.bind (call_stored fun _ => rfl) fun r => ?_
      exact Triple.ite (fun _ => Triple.throw fun l h => h.keeping) fun _ =>
        hbind _ (SocketAddress.ofIp · port) _

theorem Keeping.idle {l : SocketListener} (h : Keeping k fr l) (hl : l.isListening = false) :
    At k {} (Owns fr) l := by
  obtain ⟨own, hown, h⟩ := h
  cases hown with
  | empty hg => exact ⟨hg, h⟩
  | socket hg => exact absurd (decide_eq_true hg) (Bool.eq_false_iff.mp hl)

theorem Keeping.stored {l : SocketListener} (h : Keeping k fr l) (hl : l.isListening = true) :
    Stored k fr l.socket_ l := by
  obtain ⟨own, hown, h⟩ := h
  cases hown with
  | empty hg =>
      rw [isListening, hg] at hl
      cases hl
  | socket hg => exact ⟨hg, rfl, h⟩

theorem listen_keeping : Keeps (Keeping k fr) (listen pton) := by
  refine Triple.get fun l h => ?_
  split
  · exact Triple.pure fun _ e => e ▸ h
  · next hl =>
      refine Triple.bind ((createBind_keeping _).pre fun _ e =>
        e ▸ h.idle (Bool.eq_false_iff.mpr hl)) fun _ => Triple.get fun l hs => ?_
      obtain ⟨g, hs⟩ := hs
      obtain rfl : l.socket_ = g := hs.2.1
      refine Triple.pre (Triple.bind (call_stored (g := l.socket_) fun _ => rfl) fun r => ?_)
        fun _ e => e ▸ hs
      exact Triple.ite (fun _ => Triple.throw fun _ h => h.keeping)
        fun _ => Triple.pure fun _ h => h.keeping

theorem wait_keeping (timeout : Int) : Keeps (Keeping k fr) (wait timeout) := by
  refine Triple.get fun l h => ?_
  split
  · exact Triple.throw fun _ e => e ▸ h
  · next hl =>
      have hs := h.stored (not_not.mp hl)
      refine Triple.ite (fun _ => Triple.throw fun _ e => e ▸ h) fun _ => ?_
      exact (onSys_stored (pollRead_owns k hs.1 timeout)).conseq (fun _ e => e ▸ hs)
        (fun _ _ h => h.keeping) fun _ _ h => h

/-- The descriptor accepted is a connection. -/
theorem accept_keeping : Triple (Keeping k fr) accept
    (fun g l => 0 ≤ g.socket_ ∧ Keeping k ((g.socket_, .peer) :: fr) l) fun _ => Keeping k fr := by
  refine Triple.get fun l h => ?_
  split
  · exact Triple.throw fun _ e => e ▸ h
  · next hl =>
      obtain ⟨hg, -, hs⟩ := h.stored (not_not.mp hl)
      have hcall : Triple (At k l.socket_ (Owns ((l.socket_.socket_, .made) :: fr)))
          (onSys (System.call (.accept l.socket_.socket_))) _ _ :=
        onSys_at (accept_owns k) l.socket_
      refine Triple.bind ((hcall.pre fun t e => ?_).conseq (fun _ => id) (fun _ _ => id)
        fun _ _ h => h.2.2.elim) fun r => ?_
      · subst e
        exact ⟨rfl, hs⟩
      · -- The guard of a connection that could not be accepted holds nothing.
        refine Triple.ite (fun hr => ?_) fun hr => Triple.pure fun t ht => ?_
        · refine Triple.bind (Q := fun _ => Keeping k fr) ?_ fun _ => Triple.throw fun _ h => h
          rintro t ⟨ht, hout, ⟨hpos, -⟩ | ⟨rfl, hk⟩⟩
          · exact absurd (decide_eq_true hpos) hr
          · exact Stored.keeping ⟨hg, ht, hout, hk⟩
        · obtain ⟨ht, hout, ⟨hpos, hk⟩ | ⟨rfl, hk⟩⟩ := ht
          · exact ⟨hpos, Stored.keeping ⟨hg, ht, hout, hk⟩⟩
          · exact absurd (not_not.mp hr) Bool.false_ne_true

/-- The socket is closed, or kept. -/
theorem close_keeping : Keeps (Keeping k fr) close := by
  refine Triple.get fun l h => ?_
  obtain ⟨own, hown, hs⟩ := h
  have hcall : Triple (At k l.socket_ (Owns (own ++ fr))) (onSys l.socket_.close) _ _ :=
    onSys_at (SocketGuard.close_owns k hown rfl) l.socket_
  refine Triple.bind ((hcall.pre fun t e => ?_).conseq (fun _ => id) (fun _ _ => id)
    fun _ _ h => h.2.2.elim) fun r => ?_
  · subst e
    exact ⟨rfl, hs⟩
  · refine Triple.bind (Q := fun _ => Keeping k fr) (Triple.modify fun t ht => ?_) fun _ =>
      Triple.ite (fun _ => Triple.throw fun _ h => h) fun _ => Triple.pure fun _ h => h
    obtain ⟨-, hout, ⟨rfl, hk⟩ | ⟨-, hr, -, hk, -⟩⟩ := ht
    · exact ⟨[], .empty rfl, hout, hk⟩
    · exact ⟨own, hr.symm ▸ hown, hout, hk⟩

end SocketListener

/-! ### Connections -/

namespace SocketDescriptor

variable {fr : List (Int × FdState)} {d : SocketDescriptor} {α : Type}

/-- What a descriptor holds. -/
inductive Has (d : SocketDescriptor) : List (Int × FdState) → Prop where
  | closed (hd : d.isShuttedDown_ = true) (h : d.socket_ = {}) : Has d []
  | peer (hd : d.isShuttedDown_ = false) (h : 0 ≤ d.socket_.socket_) :
      Has d [(d.socket_.socket_, .peer)]
  | shut (h : 0 ≤ d.socket_.socket_) : Has d [(d.socket_.socket_, .shut)]

/-- The descriptor holds what it has, beside `fr`. -/
def Keeping (fr : List (Int × FdState)) (s : SocketDescriptor × Kernel) : Prop :=
  ∃ own, s.1.Has own ∧ Owns (own ++ fr) s.2

/-- It has closed its socket, or shut it down. -/
def Done (fr : List (Int × FdState)) (s : SocketDescriptor × Kernel) : Prop :=
  ∃ own, s.1.socket_.Has .shut own ∧ (s.1.socket_ = {} → s.1.isShuttedDown_ = true) ∧
    Owns (own ++ fr) s.2

/-- What a connection that is done still holds. -/
theorem Done.keeping {s : SocketDescriptor × Kernel} (h : Done fr s) : Keeping fr s := by
  obtain ⟨own, hown, hd, hk⟩ := h
  cases hown with
  | empty h => exact ⟨[], .closed (hd h) h, hk⟩
  | socket h => exact ⟨_, .shut h, hk⟩

/-- A program of the system, run by the descriptor. -/
theorem onKernel_triple {m : Prog Kernel Exception α} {P : Kernel → Prop}
    {Q : α → Kernel → Prop} {E : Fault Exception → Kernel → Prop} (h : Triple P m Q E)
    (d : SocketDescriptor) :
    Triple (fun s => s.1 = d ∧ P s.2) (onKernel m) (fun a s => s.1 = d ∧ Q a s.2)
      fun x s => s.1 = d ∧ E x s.2 :=
  Triple.zoom fun _ hs => h.conseq (fun _ e => e.symm ▸ hs.2) (fun _ _ h => ⟨hs.1, h⟩)
    fun _ _ h => ⟨hs.1, h⟩

/-- A call on the connection. -/
theorem Has.transfers {own : List (Int × FdState)} (h : d.Has own) {k : Kernel}
    (hk : Owns (own ++ fr) k) {c : NetCall}
    (hc : ∀ a, NetCall.uses (c, a) = if d.socket_.socket_ = invalidSocket then []
      else [.used d.socket_.socket_ FdState.asPeer]) : Owns (own ++ fr) (k.answered c) := by
  have hne : 0 ≤ d.socket_.socket_ → d.socket_.socket_ ≠ invalidSocket := by
    intro hpos
    rw [invalidSocket]
    omega
  cases h with
  | closed hd h => exact hk.unused (by rw [hc, h]; rfl)
  | peer hd h => exact hk.used (f := FdState.asPeer) (by rw [hc, if_neg (hne h)]) rfl
  | shut h => exact hk.used (f := FdState.asPeer) (by rw [hc, if_neg (hne h)]) rfl

/-- What comes after a call on the connection. -/
theorem call_keeping {c : SocketDescriptor → NetCall} {f : NetAnswer → M α}
    (hc : ∀ d a, NetCall.uses (c d, a) = if d.socket_.socket_ = invalidSocket then []
      else [.used d.socket_.socket_ FdState.asPeer]) (hf : ∀ a, Keeps (Keeping fr) (f a)) :
    Keeps (Keeping fr) (Prog.get >>= fun s => onKernel (Kernel.call (c s.1)) >>= f) := by
  rintro ⟨d, k⟩ ⟨own, hown, hk⟩
  exact hf k.answer ⟨d, k.answered (c d)⟩ ⟨own, hown, hown.transfers hk (hc d)⟩

theorem read_keeping (isNull : Bool) (len : Nat) : Keeps (Keeping fr) (read isNull len) := by
  refine Triple.ite (fun _ => Triple.throw fun _ h => h) fun _ => ?_
  refine call_keeping (c := fun d => .recv d.socket_.socket_ (min len maxReadSize))
    (fun d _ => rfl) fun a => ?_
  cases a with
  | error errno => exact Keeps.throw _
  | ok v bytes => exact Keeps.pure _

theorem write_keeping (isNull : Bool) (buf : List UInt8) :
    Keeps (Keeping fr) (write isNull buf) := by
  refine Triple.ite (fun _ => Triple.throw fun _ h => h) fun _ => ?_
  refine call_keeping (c := fun d => .send d.socket_.socket_ (buf.take maxWriteSize))
    (fun d _ => rfl) fun a => ?_
  cases a with
  | error errno => exact Keeps.throw _
  | ok v bytes => exact Keeps.pure _

/-- The socket is open, and its sending side has been shut down. -/
def Shut (fr : List (Int × FdState)) (s : SocketDescriptor × Kernel) : Prop :=
  0 ≤ s.1.socket_.socket_ ∧ Owns ((s.1.socket_.socket_, .shut) :: fr) s.2

/-- Reading what the peer still sends. -/
theorem trash_shut : Keeps (Shut fr) trash := by
  refine Triple.get fun s h => ?_
  obtain ⟨d, k⟩ := s
  -- As long as the descriptor is `d`.
  have hat : ∀ t : SocketDescriptor × Kernel,
      t.1 = d ∧ Owns ((d.socket_.socket_, .shut) :: fr) t.2 → Shut fr t := by
    rintro ⟨d, k⟩ ⟨rfl, hk⟩
    exact ⟨h.1, hk⟩
  refine Triple.bind (((onKernel_triple (onSystem_triple fun k => pollRead_owns k h.1 1000)
    d).pre fun t e => ?_).conseq (fun _ => id) (fun _ _ => id) fun _ t ht => hat t ht)
    fun ready => ?_
  · subst e
    exact ⟨rfl, h.2⟩
  · refine Triple.ite (fun _ => ?_) fun _ => Triple.pure hat
    refine Triple.bind (Q := fun _ => Shut fr) ?_ fun a => ?_
    · rintro ⟨d', k⟩ ⟨rfl, hk⟩
      have hne : d'.socket_.socket_ ≠ invalidSocket := by
        rw [invalidSocket]
        have := h.1
        dsimp only at this
        omega
      exact ⟨h.1, hk.used (f := FdState.asPeer) (if_neg hne) rfl⟩
    · cases a with
      | error errno => exact Keeps.throw _
      | ok v bytes => exact Keeps.ite (Keeps.pure _) (Keeps.pure _)

/-- Nothing is left of what the client sends, or it has stopped sending. -/
theorem gracefulShutdown_shut (fuel : Nat) :
    Triple (fun s => s.1.isShuttedDown_ = false ∧ Keeping fr s) (gracefulShutdown fuel)
      (fun _ => Shut fr) fun _ => Shut fr := by
  refine Triple.get fun s h => ?_
  obtain ⟨d, k⟩ := s
  obtain ⟨hd, own, hown, hk⟩ := h
  have hshut : 0 ≤ d.socket_.socket_ ∧
      Owns ((d.socket_.socket_, .shut) :: fr) (k.answered (.shutdown d.socket_.socket_)) := by
    cases hown with
    | closed hd' h => exact absurd (hd.symm.trans hd') Bool.false_ne_true
    | peer _ h => exact ⟨h, hk.used (f := FdState.toShut) rfl rfl⟩
    | shut h => exact ⟨h, hk.used (f := FdState.toShut) rfl rfl⟩
  rintro _ rfl
  have hrest : ∀ a : NetAnswer, Keeps (Shut fr) (if a.result ≠ 0 then
      if a.errno = enotconn then Pure.pure () else Prog.throw (.net shutdownMessage)
      else Prog.recLoop (fun _ _ _ => trash) fuel () : M Unit) := fun a =>
    Keeps.ite (Keeps.ite (Keeps.pure _) (Keeps.throw _))
      (Keeps.recLoop (fun _ _ _ _ => trash_shut) _ _)
  exact hrest k.answer ⟨d, k.answered (.shutdown d.socket_.socket_)⟩ hshut

/-- The guard lets the socket go, or does not. -/
theorem closeSocket_done :
    Triple (fun s => s.1.isShuttedDown_ = true ∧ Done fr s) closeSocket (fun _ => Done fr)
      fun _ => Done fr := by
  refine Triple.get fun s h => ?_
  obtain ⟨hd, own, hown, -, hk⟩ := h
  have hclose : Triple (Owns (own ++ fr)) (Kernel.onSystem s.1.socket_.close) _ _ :=
    onSystem_triple fun k => SocketGuard.close_owns k hown rfl
  refine Triple.bind (((onKernel_triple hclose s.1).pre fun t e => ?_).conseq (fun _ => id)
    (fun _ _ => id) fun _ _ h => h.2.elim) fun r => ?_
  · subst e
    exact ⟨rfl, hk⟩
  · refine Triple.bind (Q := fun _ => Done fr) (Triple.modify fun t ht => ?_) fun _ =>
      Triple.ite (fun _ => Triple.throw fun _ h => h) fun _ => Triple.pure fun _ h => h
    obtain ⟨htd, ht⟩ := ht
    have hd' : t.1.isShuttedDown_ = true := htd ▸ hd
    rcases ht with ⟨rfl, hk⟩ | ⟨-, hr, -, hk, -⟩
    · exact ⟨[], .empty rfl, fun _ => hd', hk⟩
    · exact ⟨own, hr.symm ▸ hown, fun _ => hd', hk⟩

/-- `close()` of a connection: it is done, even if the system fails to close. -/
theorem close_done (fuel : Nat) :
    Triple (Keeping fr) (close fuel) (fun _ => Done fr) fun _ => Done fr := by
  refine Triple.get fun s h => Triple.ite (fun hd => ?_) fun hd => ?_
  · refine closeSocket_done.pre fun t e => ?_
    subst e
    refine ⟨hd, ?_⟩
    obtain ⟨own, hown, hk⟩ := h
    cases hown with
    | closed hd h => exact ⟨[], .empty h, fun _ => hd, hk⟩
    | peer hd' h => exact absurd (hd'.symm.trans hd) Bool.false_ne_true
    | shut h => exact ⟨_, .socket h, fun _ => hd, hk⟩
  · have hshut : Triple (fun t => t = s) (gracefulShutdown fuel) (fun _ => Shut fr)
        fun _ => Done fr :=
      (gracefulShutdown_shut fuel).conseq (fun t e => e ▸ ⟨Bool.eq_false_iff.mpr hd, h⟩)
        (fun _ _ => id) fun _ t ht => ⟨_, .socket ht.1, fun he => ?_, ht.2⟩
    · refine Triple.bind hshut fun _ => Triple.bind
        (Q := fun _ s => s.1.isShuttedDown_ = true ∧ Done fr s)
        (Triple.modify fun t ht => ?_) fun _ => closeSocket_done
      exact ⟨rfl, _, .socket ht.1, fun _ => rfl, ht.2⟩
    · have := ht.1
      rw [he] at this
      exact absurd this (by decide)

/-- The members of a connection that is done have nothing to close. -/
theorem destroyMembers_owns : Triple (Done fr) destroyMembers (fun _ s => Owns fr s.2)
    fun _ _ => False := by
  refine Triple.get fun s h => ?_
  obtain ⟨own, hown, -, hk⟩ := h
  have hdestroy : Triple (Owns (own ++ fr)) (Kernel.onSystem s.1.socket_.destroy) _ _ :=
    onSystem_triple fun k => SocketGuard.destroy_owns k hown rfl
  refine ((onKernel_triple hdestroy s.1).pre fun t e => ?_).conseq (fun _ => id)
    (fun _ _ h => h.2) fun _ _ h => h.2
  subst e
  exact ⟨rfl, hk⟩

/-- The descriptor is gone. -/
theorem destroy_owns (fuel : Nat) : Triple (Keeping fr) (destroy fuel) (fun _ s => Owns fr s.2)
    fun _ => Keeping fr := by
  have hmembers : Triple (Done fr) destroyMembers (fun _ s => Owns fr s.2) fun _ => Keeping fr :=
    destroyMembers_owns.conseq (fun _ => id) (fun _ _ => id) fun _ _ h => h.elim
  refine Triple.get fun s h => Triple.ite (fun hv => ?_) fun hv => ?_
  · refine Triple.bind (Q := fun _ => Done fr) (Triple.attempt ?_) fun _ => hmembers
    refine (close_done fuel).conseq (fun t e => e ▸ h) (fun _ _ => id) fun x t ht => ?_
    cases x with
    | exc e => exact ht
    | _ => exact ht.keeping
  · refine hmembers.pre fun t e => ?_
    subst e
    obtain ⟨own, hown, hk⟩ := h
    cases hown with
    | closed hd h => exact ⟨[], .empty h, fun _ => hd, hk⟩
    | peer hd h => exact absurd (decide_eq_true h) hv
    | shut h => exact absurd (decide_eq_true h) hv

/-- The descriptor of a new connection. -/
theorem make_owns {g : SocketGuard} {E : Fault Exception → Kernel → Prop} (hg : 0 ≤ g.socket_) :
    Triple (Owns ((g.socket_, .peer) :: fr)) (make g)
      (fun d k => ∃ own, d.Has own ∧ Owns (own ++ fr) k) E := by
  intro k hk
  have hrun : make g k = (.ok { socket_ := g }, k) :=
    Prog.bind_ok (Prog.assert_true (decide_eq_true hg) k)
  rw [hrun]
  exact ⟨_, .peer rfl hg, hk⟩

end SocketDescriptor

section

variable {fr : List (Int × FdState)}

/-- Connecting a socket makes it one of a peer. -/
theorem connectSocket_owns {fd : Int} (addr : SocketAddress) :
    Triple (Owns ((fd, .made) :: fr)) (connectSocket fd addr)
      (fun _ => Owns ((fd, .peer) :: fr)) fun x k => (∃ e, x = .exc e) ∧
        Owns ((fd, .made) :: fr) k := by
  refine Triple.bind (Q := fun a k => if a.result = 0 then Owns ((fd, .peer) :: fr) k
    else Owns ((fd, .made) :: fr) k) (fun k hk => ?_) fun a => ?_
  · have hu := fun s' (hs : _ = some s') =>
      hk.used (show NetCall.uses (.connect fd addr, k.answer) = [.used fd _] from rfl) hs
    change if k.answer.result = 0 then _ else _
    split
    · next hr => exact hu .peer (by simp [hr])
    · next hr => exact hu .made (by simp [hr])
  · refine Triple.ite (fun hr => Triple.throw fun k hk => ⟨⟨_, rfl⟩, ?_⟩) fun hr =>
      Triple.pure fun k hk => ?_
    · rwa [if_neg hr] at hk
    · rwa [if_pos (not_not.mp hr)] at hk

/-- `make_tcp_connection()` gets a descriptor, or gives it back. -/
theorem makeTcpConnection_owns (pton : InetPton) (remote : Endpoint) :
    Triple (Owns fr) (makeTcpConnection pton remote)
      (fun d k => ∃ own, d.Has own ∧ Owns (own ++ fr) k) fun _ => Owns fr := by
  refine Triple.bind (Q := fun _ => Owns fr) ?_ fun addr => ?_
  · cases remote.remote pton with
    | error e => exact Triple.throw fun _ h => h
    | ok addr => exact Triple.pure fun _ h => h
  · refine Triple.bind (onSystem_triple fun k => makeSocket_owns k addr.family) fun g => ?_
    intro k ⟨hg, hk⟩
    refine Triple.bind (Q := fun r k => match r with
      | .ok _ => Owns ((g.socket_, .peer) :: fr) k
      | .error _ => Owns ((g.socket_, .made) :: fr) k) (Triple.attempt ?_) (fun r => ?_) k hk
    · refine (connectSocket_owns addr).conseq (fun _ => id) (fun _ _ => id) ?_
      rintro _ k ⟨⟨e, rfl⟩, hk⟩
      exact hk
    · cases r with
      | error e =>
          -- The guard closes the socket.
          refine Triple.bind ((onSystem_triple fun k => SocketGuard.destroy_owns k (.socket hg)
            (rfl : FdState.made.mayClose = true)).conseq (fun _ => id) (fun _ _ => id)
            fun _ _ h => h.elim) fun _ => Triple.throw fun _ h => h
      | ok _ => exact SocketDescriptor.make_owns hg

/-- The listener is gone. -/
theorem destroySocket_owns (o : ListenerOptions) {g : SocketGuard}
    {own : List (Int × FdState)} (hg : g.Has .made own) :
    Triple (Owns (own ++ fr)) (SocketListener.destroySocket o g) (fun _ => Owns fr)
      fun _ _ => False := by
  refine Triple.bind (onSystem_triple fun k => SocketGuard.close_owns k hg rfl) fun r => ?_
  obtain ⟨r, g'⟩ := r
  -- What the guard still holds, the end of the members closes.
  have hrest : Triple (fun k => ∃ own, g'.Has .made own ∧ Owns (own ++ fr) k)
      (Kernel.onSystem g'.destroy) (fun _ => Owns fr) fun _ _ => False := by
    intro k ⟨own, hown, hk⟩
    exact onSystem_triple (fun k => SocketGuard.destroy_owns k hown rfl) k hk
  have hpre : ∀ k, ((r, g') = (0, {}) ∧ Owns fr k) ∨ r ≠ 0 ∧ g' = g ∧
      own = [(g.socket_, .made)] ∧ Owns (own ++ fr) k ∧ k.FailedToClose g.socket_ →
      ∃ own, g'.Has .made own ∧ Owns (own ++ fr) k := by
    rintro k (⟨h, hk⟩ | ⟨-, rfl, -, hk, -⟩)
    · cases h
      exact ⟨[], .empty rfl, hk⟩
    · exact ⟨own, hg, hk⟩
  cases o.endpoint_ with
  | uds path hne =>
      refine Triple.pre (Triple.bind (Q := fun _ k => ∃ own, g'.Has .made own ∧ Owns (own ++ fr) k)
        (fun k hk => ?_) fun _ => hrest) hpre
      obtain ⟨own, hown, hk⟩ := hk
      exact ⟨own, hown, hk.unused rfl⟩
  | net address port hne => exact hrest.pre hpre

end

end Fcgi

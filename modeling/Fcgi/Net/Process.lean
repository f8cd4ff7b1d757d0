import Fcgi.Net.Lifecycle

/-!
# Net — a process

A process with a listener and any number of connections, which it accepts or makes itself, and its
calls on them in any order, whatever the system answers.

`Process.Owns`: the descriptors open are those that the listener and the connections hold, each of
them held once, and those that the system has failed to close.  Every call keeps it (`exec_owns`),
and so does every run (`run_owns`).

A call is one of an object, so what the other objects hold is the frame of the lemmas in
`Net/Lifecycle`: `onListener_owns` and `onDescriptor_owns` take the object in question out of the
process, and put it back with what it then holds.
-/

namespace Fcgi
open Lib

/-- The sockets of a process, and the system. -/
structure Process where
  listener : SocketGuard := {}
  options : ListenerOptions
  descriptors : List SocketDescriptor := []
  kernel : Kernel

/-- What a process may do with them; connections are told apart by their places. -/
inductive ProcessCall where
  | listener (c : ListenerCall)
  | connect (remote : Endpoint)
  | read (i : Nat) (isNull : Bool) (len : Nat)
  | write (i : Nat) (isNull : Bool) (buf : List UInt8)
  | close (i : Nat)
  | destroy (i : Nat)

namespace Process

/-- The programs of a process. -/
abbrev M : Type → Type := Prog Process Exception

variable {α : Type}

/-- A program of the system. -/
def onKernel (m : Prog Kernel Exception α) : M α :=
  Prog.zoom Process.kernel (fun k p => { p with kernel := k }) m

/-- A program of the listener. -/
def onListener (m : Prog SocketListener Exception α) : M α := fun p =>
  match m { socket_ := p.listener, options_ := p.options,
            sys := { outcomes := p.kernel.answers.map NetAnswer.result } } with
  | (r, l) => (r, { p with
      listener := l.socket_, options := l.options_, kernel := p.kernel.through l.sys.calls })

/-- The call is made if there is such a connection. -/
def onDescriptor (i : Nat) (m : SocketDescriptor.M Unit) : M Unit := fun p =>
  match p.descriptors.drop i with
  | [] => (.ok (), p)
  | d :: ds =>
    match m (d, p.kernel) with
    | (r, d, k) => (r, { p with descriptors := p.descriptors.take i ++ d :: ds, kernel := k })

/-- The connection is gone, unless its destruction has not come to an end. -/
def destroyDescriptor (fuel : Nat) (i : Nat) : M Unit := fun p =>
  match p.descriptors.drop i with
  | [] => (.ok (), p)
  | d :: ds =>
    match SocketDescriptor.destroy fuel (d, p.kernel) with
    | (.ok (), _, k) => (.ok (), { p with descriptors := p.descriptors.take i ++ ds, kernel := k })
    | (.error x, d, k) =>
      (.error x, { p with descriptors := p.descriptors.take i ++ d :: ds, kernel := k })

/-- There is one connection more. -/
def add (m : M SocketDescriptor) : M Unit := do
  let d ← m
  Prog.modify fun p => { p with descriptors := p.descriptors ++ [d] }

/-- `socket_Listener::accept()` -/
def accept : M SocketDescriptor := do
  let socket ← onListener SocketListener.accept
  onKernel (SocketDescriptor.make socket)

/-- Makes the call. -/
def exec (pton : InetPton) (fuel : Nat) : ProcessCall → M Unit
  | .listener .accept => add accept
  | .listener c => onListener (SocketListener.exec pton c)
  | .connect remote => add (onKernel (makeTcpConnection pton remote))
  | .read i isNull len => onDescriptor i do
    let _ ← SocketDescriptor.read isNull len
    pure ()
  | .write i isNull buf => onDescriptor i do
    let _ ← SocketDescriptor.write isNull buf
    pure ()
  | .close i => onDescriptor i (SocketDescriptor.close fuel)
  | .destroy i => destroyDescriptor fuel i

/-- One call after another, whether they return or throw. -/
def run (pton : InetPton) (fuel : Nat) : List ProcessCall → M Unit
  | [] => pure ()
  | c :: cs => do
    let _ ← Prog.attempt (exec pton fuel c)
    run pton fuel cs

/-- The end of the connections. -/
def destroyDescriptors (fuel : Nat) : List SocketDescriptor → Prog Kernel Exception Unit
  | [] => pure ()
  | d :: ds => fun k =>
    match SocketDescriptor.destroy fuel (d, k) with
    | (.ok (), _, k) => destroyDescriptors fuel ds k
    | (.error x, _, k) => (.error x, k)

/-- The end of them all. -/
def finish (fuel : Nat) : M Unit := do
  let p ← Prog.get
  onKernel do
    destroyDescriptors fuel p.descriptors
    SocketListener.destroySocket p.options p.listener
  Prog.modify fun p => { p with listener := {}, descriptors := [] }

/-! ### What is open -/

section

variable {pton : InetPton} {fuel : Nat} {ds ds' : List SocketDescriptor} {d : SocketDescriptor}
  {fr : List (Int × FdState)}

/-- What connections hold. -/
def HasAll (ds : List SocketDescriptor) (own : List (Int × FdState)) : Prop :=
  ∃ owns, List.Forall₂ SocketDescriptor.Has ds owns ∧ own = owns.flatten

theorem HasAll.nil : HasAll [] [] := ⟨[], .nil, rfl⟩

/-- A connection and the others hold what they have together. -/
theorem hasAll_cons {own : List (Int × FdState)} : HasAll (d :: ds) own ↔
    ∃ own₁ own₂, d.Has own₁ ∧ HasAll ds own₂ ∧ own = own₁ ++ own₂ := by
  constructor
  · rintro ⟨owns, h, rfl⟩
    cases h with
    | cons h hs => exact ⟨_, _, h, ⟨_, hs, rfl⟩, rfl⟩
  · rintro ⟨own₁, _, h, ⟨owns, hs, rfl⟩, rfl⟩
    exact ⟨own₁ :: owns, .cons h hs, rfl⟩

theorem hasAll_append {own : List (Int × FdState)} : HasAll (ds ++ ds') own ↔
    ∃ own₁ own₂, HasAll ds own₁ ∧ HasAll ds' own₂ ∧ own = own₁ ++ own₂ := by
  induction ds generalizing own with
  | nil =>
      constructor
      · intro h
        exact ⟨[], own, .nil, h, rfl⟩
      · rintro ⟨_, own₂, ⟨_, ⟨⟩, rfl⟩, h, rfl⟩
        exact h
  | cons d ds ih =>
      simp only [List.cons_append, hasAll_cons, ih]
      constructor
      · rintro ⟨own₁, _, h, ⟨own₂, own₃, hs, hs', rfl⟩, rfl⟩
        exact ⟨_, _, ⟨_, _, h, hs, rfl⟩, hs', (List.append_assoc ..).symm⟩
      · rintro ⟨_, own₃, ⟨own₁, own₂, h, hs, rfl⟩, hs', rfl⟩
        exact ⟨_, _, h, ⟨_, _, hs, hs', rfl⟩, List.append_assoc ..⟩

/-- What the process holds is open, and `fr`, and what the system has failed to close. -/
def OwnsWith (fr : List (Int × FdState)) (p : Process) : Prop :=
  ∃ own owns, p.listener.Has .made own ∧ HasAll p.descriptors owns ∧
    p.kernel.Owns (own ++ (fr ++ owns))

/-- What is open is what the objects of the process hold. -/
def Owns : Process → Prop := OwnsWith []

/-- A program of the listener. -/
theorem onListener_owns {m : Prog SocketListener Exception α} {P : α → Prop}
    {Q : α → List (Int × FdState)}
    (h : ∀ k fr, Triple (SocketListener.Keeping k fr) m
      (fun a l => P a ∧ SocketListener.Keeping k (Q a ++ fr) l)
      fun _ => SocketListener.Keeping k fr) :
    Triple Owns (onListener m) (fun a p => P a ∧ OwnsWith (Q a) p) fun _ => Owns := by
  rintro p ⟨own, owns, hl, hd, hk⟩
  have hm := h p.kernel owns ⟨p.listener, p.options,
    { outcomes := p.kernel.answers.map NetAnswer.result }⟩ ⟨own, hl, rfl, hk⟩
  simp only [onListener]
  rcases e : m ⟨p.listener, p.options, { outcomes := p.kernel.answers.map NetAnswer.result }⟩ with
    ⟨x | a, l⟩ <;> rw [e] at hm
  · obtain ⟨own', hl', -, hk'⟩ := hm
    exact ⟨own', owns, hl', hd, hk'⟩
  · obtain ⟨ha, own', hl', -, hk'⟩ := hm
    exact ⟨ha, own', owns, hl', hd, hk'⟩

/-- A program of the system that makes a connection, of `fr` or of a new descriptor. -/
theorem onKernel_owns {m : Prog Kernel Exception SocketDescriptor}
    (h : ∀ rest, Triple (Kernel.Owns (fr ++ rest)) m
      (fun d k => ∃ own, d.Has own ∧ Kernel.Owns (own ++ rest) k) fun _ => Kernel.Owns rest) :
    Triple (OwnsWith fr) (onKernel m) (fun d p => ∃ own, d.Has own ∧ OwnsWith own p)
      fun _ => Owns := by
  refine Triple.zoom fun p hp => ?_
  obtain ⟨own, owns, hl, hd, hk⟩ := hp
  refine (h (own ++ owns)).conseq (fun k e => e ▸ hk.perm (List.perm_append_comm_assoc ..))
    (fun d k hk => ?_) fun _ k hk => ⟨own, owns, hl, hd, hk⟩
  obtain ⟨own', hown', hk⟩ := hk
  exact ⟨own', hown', own, owns, hl, hd, hk.perm (List.perm_append_comm_assoc ..)⟩

theorem add_owns {m : M SocketDescriptor}
    (h : Triple Owns m (fun d p => ∃ own, d.Has own ∧ OwnsWith own p) fun _ => Owns) :
    Keeps Owns (add m) := by
  refine Triple.bind h fun d => Triple.modify fun p hp => ?_
  obtain ⟨own', hown', own, owns, hl, hd, hk⟩ := hp
  refine ⟨own, owns ++ own', hl, hasAll_append.mpr ⟨owns, own', hd, hasAll_cons.mpr
    ⟨own', [], hown', .nil, (List.append_nil _).symm⟩, rfl⟩, hk.perm ?_⟩
  exact (List.perm_append_comm).append_left own

theorem accept_owns :
    Triple Owns accept (fun d p => ∃ own, d.Has own ∧ OwnsWith own p) fun _ => Owns := by
  refine Triple.bind (onListener_owns (Q := fun g => [(g.socket_, .peer)])
    fun k fr => SocketListener.accept_keeping) fun g => ?_
  intro p hp
  exact onKernel_owns (fun rest => SocketDescriptor.make_owns hp.1) p hp.2

/-- The connections, seen from one of them. -/
theorem Owns.at {p : Process} (hp : Owns p) {i : Nat} (e : p.descriptors.drop i = d :: ds) :
    ∃ rest, SocketDescriptor.Keeping rest (d, p.kernel) ∧
      (∀ d' k, SocketDescriptor.Keeping rest (d', k) →
        Owns { p with descriptors := p.descriptors.take i ++ d' :: ds, kernel := k }) ∧
      ∀ k, Kernel.Owns rest k →
        Owns { p with descriptors := p.descriptors.take i ++ ds, kernel := k } := by
  obtain ⟨own, owns, hl, hd, hk⟩ := hp
  rw [← List.take_append_drop i p.descriptors, e, hasAll_append] at hd
  obtain ⟨own₁, _, hd₁, hd₂, rfl⟩ := hd
  obtain ⟨own₂, own₃, hown, hd₃, rfl⟩ := hasAll_cons.mp hd₂
  have hswap : ∀ own₂ : List (Int × FdState), (own ++ (own₁ ++ (own₂ ++ own₃))).Perm
      (own₂ ++ (own ++ (own₁ ++ own₃))) := fun own₂ =>
    ((List.perm_append_comm_assoc own₁ own₂ own₃).append_left own).trans
      (List.perm_append_comm_assoc own own₂ _)
  refine ⟨own ++ (own₁ ++ own₃), ⟨own₂, hown, hk.perm (hswap own₂)⟩, ?_, ?_⟩
  · rintro d' k ⟨own₂, hd₂, hk⟩
    exact ⟨own, own₁ ++ (own₂ ++ own₃), hl,
      hasAll_append.mpr ⟨_, _, hd₁, hasAll_cons.mpr ⟨_, _, hd₂, hd₃, rfl⟩, rfl⟩,
      hk.perm (hswap own₂).symm⟩
  · intro k hk
    exact ⟨own, own₁ ++ own₃, hl, hasAll_append.mpr ⟨_, _, hd₁, hd₃, rfl⟩, hk⟩

theorem onDescriptor_owns {i : Nat} {m : SocketDescriptor.M Unit}
    (h : ∀ fr, Keeps (SocketDescriptor.Keeping fr) m) : Keeps Owns (onDescriptor i m) := by
  intro p hp
  simp only [onDescriptor]
  rcases e : p.descriptors.drop i with _ | ⟨d, ds⟩
  · exact hp
  · obtain ⟨rest, hk, hnext, -⟩ := hp.at e
    have hm := h rest (d, p.kernel) hk
    dsimp only
    rcases e' : m (d, p.kernel) with ⟨x | ⟨⟩, d', k⟩ <;> rw [e'] at hm
    · exact hnext d' k hm
    · exact hnext d' k hm

theorem destroyDescriptor_owns (i : Nat) : Keeps Owns (destroyDescriptor fuel i) := by
  intro p hp
  simp only [destroyDescriptor]
  rcases e : p.descriptors.drop i with _ | ⟨d, ds⟩
  · exact hp
  · obtain ⟨rest, hk, hnext, hgone⟩ := hp.at e
    have hm := SocketDescriptor.destroy_owns fuel (d, p.kernel) hk
    dsimp only
    rcases e' : SocketDescriptor.destroy fuel (d, p.kernel) with ⟨x | ⟨⟩, d', k⟩ <;> rw [e'] at hm
    · exact hnext d' k hm
    · exact hgone k hm

/-- Every call keeps the invariant. -/
theorem exec_owns (c : ProcessCall) : Keeps Owns (exec pton fuel c) := by
  have hlistener : ∀ {β : Type} {m : Prog SocketListener Exception β},
      (∀ k fr, Keeps (SocketListener.Keeping k fr) m) → Keeps Owns (onListener m) := by
    intro β m h
    refine (onListener_owns (P := fun _ => True) (Q := fun _ => []) fun k fr =>
      (h k fr).post fun _ _ h => ⟨trivial, h⟩).post fun _ _ h => h.2
  cases c with
  | listener c =>
      cases c with
      | listen => exact hlistener fun _ _ => SocketListener.listen_keeping
      | wait timeout =>
          exact hlistener fun _ _ => (SocketListener.wait_keeping _).bind fun _ => .pure _
      | accept => exact add_owns accept_owns
      | close => exact hlistener fun _ _ => SocketListener.close_keeping
  | connect remote => exact add_owns (onKernel_owns fun rest => makeTcpConnection_owns pton remote)
  | read i isNull len =>
      exact onDescriptor_owns fun fr => (SocketDescriptor.read_keeping _ _).bind fun _ => .pure _
  | write i isNull buf =>
      exact onDescriptor_owns fun fr => (SocketDescriptor.write_keeping _ _).bind fun _ => .pure _
  | close i =>
      exact onDescriptor_owns fun fr => (SocketDescriptor.close_done fuel).conseq (fun _ => id)
        (fun _ _ h => h.keeping) fun _ _ h => h.keeping
  | destroy i => exact destroyDescriptor_owns i

theorem run_owns (cs : List ProcessCall) : Keeps Owns (run pton fuel cs) := by
  induction cs with
  | nil => exact Keeps.pure _
  | cons c cs ih => exact (exec_owns c).attempt.bind fun _ => ih

end

end Process

end Fcgi

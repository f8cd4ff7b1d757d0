import Fcgi.Lib.Pool
import Fcgi.Net.Socket

/-!
# Net — the system and its descriptors

The system calls of the whole of `net`, with what the system has answered to each.  On it,
`Kernel.onSystem` runs a program of the sockets.

`Kernel.Owns own k`: the program has used no descriptor that was not open, nor closed a connection
without having shut down its sending side; of what the system has handed out, `own` is open, and
what it has failed to close.

Each call is some uses of handles (`NetCall.uses`), and what is open is what the monitor of handles
says after all of them.  So a lemma about a call takes the descriptors before it to those after it,
with what it does not touch as a frame.  A descriptor whose `close` fails stays open in the system,
and the program has no handle for it any more (`Owns.lose`).
-/

namespace Fcgi
open Lib

/-- What the system answers to a call: a value and, to `::recv`, the bytes that are there; or an
error. -/
inductive NetAnswer where
  | ok (value : Nat) (bytes : List UInt8)
  | error (errno : Nat)
  deriving DecidableEq, Repr

/-- The value returned. -/
def NetAnswer.result : NetAnswer → Int
  | .ok value _ => value
  | .error _ => -1

/-- `errno` after a call that has failed. -/
def NetAnswer.errno : NetAnswer → Nat
  | .ok _ _ => 0
  | .error errno => errno

/-- The system calls: those that the listener makes too, and those of a connection. -/
inductive NetCall where
  | system (c : Syscall)
  | connect (fd : Int) (addr : SocketAddress)
  | shutdown (fd : Int)
  | recv (fd : Int) (len : Nat)
  | send (fd : Int) (buf : List UInt8)
  | unlink (path : List UInt8)
  deriving DecidableEq, Repr

/-- The system.  With nothing left in `answers` every call fails. -/
structure Kernel where
  answers : List NetAnswer
  /-- The calls made and the answers to them, in order. -/
  log : List (NetCall × NetAnswer) := []
  deriving DecidableEq, Repr

namespace Kernel

/-- What the system answers to the call to come. -/
def answer (k : Kernel) : NetAnswer := k.answers.headD (.error 0)

/-- The system when the call `c` has been answered. -/
def answered (k : Kernel) (c : NetCall) : Kernel where
  answers := k.answers.tail
  log := k.log ++ [(c, k.answer)]

/-- Makes a call of the system. -/
def call (c : NetCall) : Prog Kernel Exception NetAnswer := fun k => (.ok k.answer, k.answered c)

/-- The system when the calls `cs` of the sockets have been answered. -/
def through (k : Kernel) (cs : List Syscall) : Kernel :=
  cs.foldl (fun k c => k.answered (.system c)) k

/-- A program of the sockets. -/
def onSystem {α : Type} (m : Prog System Exception α) : Prog Kernel Exception α := fun k =>
  match m { outcomes := k.answers.map NetAnswer.result } with
  | (r, sys) => (r, k.through sys.calls)

@[simp] theorem log_answered (k : Kernel) (c : NetCall) :
    (k.answered c).log = k.log ++ [(c, k.answer)] := rfl

theorem through_append (k : Kernel) (cs : List Syscall) (c : Syscall) :
    k.through (cs ++ [c]) = (k.through cs).answered (.system c) := by
  rw [through, List.foldl_append]
  rfl

/-- The state of the sockets is that of the system, of which `P` holds. -/
def Along (k : Kernel) (P : Kernel → Prop) (sys : System) : Prop :=
  sys.outcomes = (k.through sys.calls).answers.map NetAnswer.result ∧ P (k.through sys.calls)

variable {k : Kernel} {α : Type} {P : Kernel → Prop} {Q : α → Kernel → Prop}
  {E : Fault Exception → Kernel → Prop}

/-- A weaker property along the calls. -/
theorem Along.mono {P' : Kernel → Prop} {sys : System} (h : k.Along P sys)
    (hp : ∀ k, P k → P' k) : k.Along P' sys :=
  ⟨h.1, hp _ h.2⟩

/-- One call. -/
theorem along_call {Q : Int → Kernel → Prop} {E : Fault Exception → System → Prop} {c : Syscall}
    (h : ∀ k, P k → Q k.answer.result (k.answered (.system c))) :
    Triple (k.Along P) (System.call c) (fun r => k.Along (Q r)) E := by
  rintro ⟨outcomes, calls⟩ ⟨hout, hp⟩
  dsimp only at hout hp
  subst hout
  have hq := h _ hp
  rw [System.call_run]
  dsimp only at hq ⊢
  have hr : System.outcome ⟨(k.through calls).answers.map NetAnswer.result, calls⟩ 0 =
      (k.through calls).answer.result := by
    rw [System.outcome, answer]
    cases (k.through calls).answers <;> rfl
  rw [hr]
  refine ⟨?_, ?_⟩
  · rw [System.calls_answered, through_append]
    exact (List.map_tail ..).symm
  · rwa [System.calls_answered, through_append]

/-- A program of the sockets does to the system what it does along it. -/
theorem onSystem_triple {m : Prog System Exception α}
    (h : ∀ k : Kernel, Triple (k.Along P) m (fun a => k.Along (Q a)) fun x => k.Along (E x)) :
    Triple P (onSystem m) Q E := by
  intro k hp
  have hm := h k { outcomes := k.answers.map NetAnswer.result } ⟨rfl, hp⟩
  rw [onSystem]
  rcases e : m { outcomes := k.answers.map NetAnswer.result } with ⟨x | a, sys⟩ <;> rw [e] at hm
  · exact hm.2
  · exact hm.2

end Kernel

/-! ### Descriptors -/

/-- What a descriptor is: a socket of this process, a connection, or a connection of which the
sending side has been shut down, if the system could do that. -/
inductive FdState where
  | made
  | peer
  | shut
  deriving DecidableEq, Repr

namespace FdState

/-- What is done with a socket that is not a connection. -/
def asMade : FdState → Option FdState
  | .made => some .made
  | _ => none

/-- What is done with a connection. -/
def asPeer : FdState → Option FdState
  | .made => none
  | s => some s

/-- The sending side is shut down. -/
def toShut : FdState → Option FdState
  | .made => none
  | _ => some .shut

/-- What may be closed. -/
def mayClose : FdState → Bool
  | .peer => false
  | _ => true

end FdState

open FdState in
/-- What a call does with descriptors.  An invalid one may be given to `::recv` and `::send`: the
system does not take it. -/
def NetCall.uses : NetCall × NetAnswer → List (Use Int FdState)
  | (.system (.socket _), .ok v _) => [.obtained v .made]
  | (.system (.socket _), .error _) => []
  | (.system (.setsockopt fd), _) => [.used fd asMade]
  | (.system (.bind fd _), _) => [.used fd asMade]
  | (.system (.listen fd _), _) => [.used fd asMade]
  | (.system (.select fd _), _) => [.used fd some]
  | (.system (.accept fd), .ok v _) => [.used fd asMade, .obtained v .peer]
  | (.system (.accept fd), .error _) => [.used fd asMade]
  | (.system (.close fd), a) =>
    if a.result = 0 then [.released fd mayClose]
    else [.used fd fun s => if mayClose s then some s else none]
  | (.connect fd _, a) =>
    [.used fd fun s => if s = .made then some (if a.result = 0 then .peer else .made) else none]
  | (.shutdown fd, _) => [.used fd toShut]
  | (.recv fd _, _) => if fd = invalidSocket then [] else [.used fd asPeer]
  | (.send fd _, _) => if fd = invalidSocket then [] else [.used fd asPeer]
  | (.unlink _, _) => []

namespace Kernel

/-- The system has failed to close the descriptor. -/
def FailedToClose (k : Kernel) (fd : Int) : Prop :=
  ∃ a : NetAnswer, (.system (.close fd), a) ∈ k.log ∧ a.result ≠ 0

/-- What has been done was permitted; the descriptors `own` are open, and what the system has failed
to close. -/
def Owns (own : List (Int × FdState)) (k : Kernel) : Prop :=
  ∃ lost, Pool.Holds (own ++ lost) (k.log.flatMap NetCall.uses) ∧
    ∀ p ∈ lost, k.FailedToClose p.1

variable {k : Kernel} {own own' : List (Int × FdState)} {fd : Int} {s s' : FdState}

/-- What the system has failed to close stays so. -/
theorem FailedToClose.answered (h : k.FailedToClose fd) (c : NetCall) :
    (k.answered c).FailedToClose fd := by
  obtain ⟨a, ha, hr⟩ := h
  exact ⟨a, List.mem_append_left _ ha, hr⟩

/-- The order of the descriptors does not matter. -/
theorem Owns.perm (h : Owns own k) (hp : own.Perm own') : Owns own' k := by
  obtain ⟨lost, hh, hl⟩ := h
  exact ⟨lost, hh.perm (hp.append_right lost), hl⟩

/-- What a call does with descriptors, seen from those that are owned. -/
theorem Owns.answered (h : Owns own k) {c : NetCall}
    (hu : ∀ {lost us}, Pool.Holds (own ++ lost) us →
      Pool.Holds (own' ++ lost) (us ++ NetCall.uses (c, k.answer))) :
    Owns own' (k.answered c) := by
  obtain ⟨lost, hh, hl⟩ := h
  refine ⟨lost, ?_, fun p hp => (hl p hp).answered c⟩
  rw [log_answered, List.flatMap_append, List.flatMap_singleton]
  exact hu hh

/-- A call that is for the owned descriptor `fd`. -/
theorem Owns.used (h : Owns ((fd, s) :: own) k) {c : NetCall} {f : FdState → Option FdState}
    (hc : NetCall.uses (c, k.answer) = [.used fd f]) (hs : f s = some s') :
    Owns ((fd, s') :: own) (k.answered c) :=
  h.answered fun hh => hc ▸ hh.used hs

/-- A call that is for no descriptor. -/
theorem Owns.unused (h : Owns own k) {c : NetCall} (hc : NetCall.uses (c, k.answer) = []) :
    Owns own (k.answered c) :=
  h.answered fun hh => by rwa [hc, List.append_nil]

/-- A call that has brought a descriptor. -/
theorem Owns.obtained (h : Owns own k) {c : NetCall} {v : Nat}
    (hc : NetCall.uses (c, k.answer) = [.obtained v s]) : Owns ((↑v, s) :: own) (k.answered c) :=
  h.answered fun hh => hc ▸ hh.obtained _ _

/-- `::close` closes the descriptor, or fails. -/
theorem Owns.close (h : Owns ((fd, s) :: own) k) (hs : s.mayClose = true) :
    if k.answer.result = 0 then Owns own (k.answered (.system (.close fd)))
    else Owns ((fd, s) :: own) (k.answered (.system (.close fd))) ∧
      (k.answered (.system (.close fd))).FailedToClose fd := by
  split
  · next hr =>
      refine h.answered fun hh => ?_
      rw [show NetCall.uses (.system (.close fd), k.answer) = _ from if_pos hr]
      exact hh.released hs
  · next hr =>
      refine ⟨h.used (if_neg hr) (if_pos hs), k.answer, ?_, hr⟩
      exact List.mem_append_right _ (List.mem_singleton_self _)

/-- The owner of a descriptor that the system has failed to close is gone. -/
theorem Owns.lose (h : Owns ((fd, s) :: own) k) (hf : k.FailedToClose fd) : Owns own k := by
  obtain ⟨lost, hh, hl⟩ := h
  refine ⟨(fd, s) :: lost, hh.perm List.perm_middle.symm, ?_⟩
  intro p hp
  rcases List.mem_cons.mp hp with rfl | hp
  · exact hf
  · exact hl p hp

end Kernel

end Fcgi

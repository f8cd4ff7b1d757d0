import Fcgi.Net.Address

/-!
# Net — sockets

The system calls, `Socket_guard` and the functions over it.  What the system will answer is
written down in advance: one entry of `outcomes` for each call to come.

A script of answers is as general as a system that sees the calls: a theorem for all scripts is one
for whatever the system makes of them.  The calls made are kept, so what is asked of the system can
be stated.
-/

namespace Fcgi
open Lib

/-- The system calls the listener makes, with the arguments that vary. -/
inductive Syscall where
  | socket (domain : AddressFamily)
  | setsockopt (fd : Int)
  | bind (fd : Int) (addr : SocketAddress)
  | listen (fd : Int) (backlog : Int)
  | select (fd : Int) (timeout : Option Int)
  | accept (fd : Int)
  | close (fd : Int)
  deriving DecidableEq, Repr

/-- The system.  With nothing left in `outcomes` every call fails. -/
structure System where
  outcomes : List Int
  /-- The calls made, in order. -/
  calls : List Syscall := []
  deriving DecidableEq, Repr

namespace System

/-- What the system answers to the `n`-th of the calls to come. -/
def outcome (sys : System) (n : Nat) : Int := sys.outcomes.getD n (-1)

/-- The system when the call `c` has been answered. -/
def answered (sys : System) (c : Syscall) : System :=
  { outcomes := sys.outcomes.tail, calls := sys.calls ++ [c] }

/-- Makes a call of the system. -/
def call (c : Syscall) : Prog System Exception Int := fun sys =>
  (.ok (sys.outcome 0), sys.answered c)

@[simp] theorem call_run (c : Syscall) (sys : System) :
    call c sys = (.ok (sys.outcome 0), sys.answered c) := rfl

/-- The answers to the calls that follow. -/
@[simp] theorem outcome_answered (sys : System) (c : Syscall) (n : Nat) :
    (sys.answered c).outcome n = sys.outcome (n + 1) := by
  obtain ⟨_ | ⟨r, rs⟩, calls⟩ := sys <;> rfl

@[simp] theorem calls_answered (sys : System) (c : Syscall) :
    (sys.answered c).calls = sys.calls ++ [c] := rfl

end System

/-- The value that denotes an invalid socket. -/
def invalidSocket : Int := -1

/-- `is_socket_valid()`. -/
def isSocketValid (socket : Int) : Bool := 0 ≤ socket

/-- `is_socket_error()`. -/
def isSocketError (functionResult : Int) : Bool := functionResult < 0

/-- A very thin RAII-wrapper around the native socket. -/
structure SocketGuard where
  socket_ : Int := invalidSocket
  deriving DecidableEq, Repr

namespace SocketGuard

/-- `close()`: zero on success, and what is left of the guard. -/
def close (guard : SocketGuard) : Prog System Exception (Int × SocketGuard) :=
  if guard.socket_ ≠ invalidSocket then do
    let result ← System.call (.close guard.socket_)
    if result = 0 then pure (result, {}) else pure (result, guard)
  else pure (0, guard)

/-- `~Socket_guard()` -/
def destroy (guard : SocketGuard) : Prog System Exception Unit := do
  let _ ← guard.close
  pure ()

/-- Throwing a guard away takes a call of `::close` at most. -/
theorem destroy_run (guard : SocketGuard) (sys : System) :
    ∃ sys' cs, guard.destroy sys = (.ok (), sys') ∧ sys'.calls = sys.calls ++ cs ∧
      ∀ c ∈ cs, ∃ fd, c = .close fd := by
  rw [destroy, close]
  by_cases h : guard.socket_ ≠ invalidSocket
  · refine ⟨sys.answered (.close guard.socket_), [.close guard.socket_], ?_, rfl, ?_⟩
    · rw [if_pos h, bind_assoc, Prog.bind_ok (System.call_run _ _)]
      split <;> rfl
    · exact fun c hc => ⟨_, List.mem_singleton.mp hc⟩
  · refine ⟨sys, [], ?_, (List.append_nil _).symm, nofun⟩
    rw [if_neg h]
    rfl

end SocketGuard

/-- `make_socket()`. -/
def makeSocket (domain : AddressFamily) : Prog System Exception SocketGuard := do
  let socket ← System.call (.socket domain)
  let result : SocketGuard := { socket_ := socket }
  if isSocketValid result.socket_ then pure result
  else
    result.destroy
    Prog.throw (.net "cannot create a socket")

/-- Binds `socket` to `addr`. -/
def bindSocket (socket : Int) (addr : SocketAddress) : Prog System Exception Unit := do
  let r ← System.call (.bind socket addr)
  if r ≠ 0 then Prog.throw (.net "cannot bind a socket to address") else pure ()

/-- `FD_SETSIZE`, as on Linux. -/
@[irreducible] def fdSetSize : Int := 1024

/-- `poll(socket, Socket_readiness::read_ready, timeout)`: whether the socket, the only one in the
masks of `::select`, is ready.  A negative timeout is none.  `FD_SET` of a socket for which the mask
has no bit is undefined. -/
def pollRead (socket : Int) (timeout : Int) : Prog System Exception Bool :=
  if isSocketValid socket then
    if socket < fdSetSize then do
      let r ← System.call (.select socket (if 0 ≤ timeout then some timeout else none))
      if isSocketError r then Prog.throw (.net "socket error upon polling") else pure (0 < r)
    else Prog.fault .undef
  else Prog.throw (.net "cannot poll an invalid socket")

/-! ### What they do -/

theorem makeSocket_valid {sys : System} (h : 0 ≤ sys.outcome 0) (domain : AddressFamily) :
    makeSocket domain sys = (.ok ⟨sys.outcome 0⟩, sys.answered (.socket domain)) := by
  rw [makeSocket, Prog.bind_ok (System.call_run _ _)]
  dsimp only
  rw [isSocketValid, if_pos (decide_eq_true h)]
  rfl

/-- The guard of a socket that could not be created is thrown away. -/
theorem makeSocket_invalid {sys : System} (h : sys.outcome 0 < 0) (domain : AddressFamily) :
    ∃ sys' cs, makeSocket domain sys = (.error (.exc (.net "cannot create a socket")), sys') ∧
      sys'.calls = sys.calls ++ .socket domain :: cs ∧ ∀ c ∈ cs, ∃ fd, c = .close fd := by
  obtain ⟨sys', cs, hrun, hcalls, hcs⟩ :=
    SocketGuard.destroy_run ⟨sys.outcome 0⟩ (sys.answered (.socket domain))
  have hinv : ¬ isSocketValid (sys.outcome 0) = true := by
    rw [isSocketValid, decide_eq_true_eq]
    omega
  refine ⟨sys', cs, ?_, ?_, hcs⟩
  · rw [makeSocket, Prog.bind_ok (System.call_run _ _)]
    dsimp only
    rw [if_neg hinv, Prog.bind_ok hrun]
    rfl
  · rw [hcalls, System.calls_answered, List.append_assoc]
    rfl

theorem bindSocket_ok {sys : System} (h : sys.outcome 0 = 0) (socket : Int)
    (addr : SocketAddress) :
    bindSocket socket addr sys = (.ok (), sys.answered (.bind socket addr)) := by
  rw [bindSocket, Prog.bind_ok (System.call_run _ _), h]
  rfl

theorem bindSocket_error {sys : System} (h : sys.outcome 0 ≠ 0) (socket : Int)
    (addr : SocketAddress) : bindSocket socket addr sys =
      (.error (.exc (.net "cannot bind a socket to address")),
        sys.answered (.bind socket addr)) := by
  rw [bindSocket, Prog.bind_ok (System.call_run _ _), if_pos h]
  rfl

end Fcgi

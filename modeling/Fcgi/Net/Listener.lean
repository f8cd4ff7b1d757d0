import Fcgi.Net.Socket

/-!
# Net — the listener

`Listener_options` and `socket_Listener`, over the system calls.

`listen()` makes a socket, stores it, and binds it; each step may throw, and then the ones before it
have been done.  The equations below evaluate it up to the call that fails.
-/

namespace Fcgi
open Lib

/-- A communication endpoint identifier, whose path or address is not empty. -/
inductive Endpoint where
  | uds (path : List UInt8) (nonempty : path ≠ [])
  | net (address : List UInt8) (port : Int) (nonempty : address ≠ [])
  deriving DecidableEq

namespace Endpoint

/-- `Endpoint(path)`, with the assertion on its invariant. -/
def ofPath (path : List UInt8) : Except (Fault Exception) Endpoint :=
  if h : path ≠ [] then .ok (.uds path h) else .error .abort

/-- `Endpoint(address, port)`, with the assertion on its invariant. -/
def ofAddress (address : List UInt8) (port : Int) : Except (Fault Exception) Endpoint :=
  if h : address ≠ [] then .ok (.net address port h) else .error .abort

/-- The domain that `listen()` creates the socket with. -/
def domain : Endpoint → AddressFamily
  | .uds _ _ => .unix
  | .net _ _ _ => .inet

end Endpoint

/-- `Listener_options`, whose backlog is positive. -/
structure ListenerOptions where
  endpoint_ : Endpoint
  backlog_ : Int
  backlog_pos : 0 < backlog_
  deriving DecidableEq

namespace ListenerOptions

/-- `Listener_options(path, backlog)` -/
def ofPath (path : List UInt8) (backlog : Int) : Except (Fault Exception) ListenerOptions := do
  let endpoint ← Endpoint.ofPath path
  if h : 0 < backlog then return ⟨endpoint, backlog, h⟩
  else throw (.exc (.net "invalid backlog for network listener options"))

/-- `Listener_options(address, port, backlog)` -/
def ofAddress (address : List UInt8) (port backlog : Int) :
    Except (Fault Exception) ListenerOptions := do
  let endpoint ← Endpoint.ofAddress address port
  if ¬ 0 < port then throw (.exc (.net "invalid port for network listener options"))
  else if h : 0 < backlog then return ⟨endpoint, backlog, h⟩
  else throw (.exc (.net "invalid backlog for network listener options"))

/-- Options that were constructed are those asked for. -/
theorem ofAddress_ok {address : List UInt8} {port backlog : Int} {o : ListenerOptions}
    (h : ofAddress address port backlog = .ok o) :
    0 < port ∧ o.backlog_ = backlog ∧ ∃ hne, o.endpoint_ = .net address port hne := by
  rw [ofAddress, Endpoint.ofAddress] at h
  by_cases hne : address ≠ []
  · by_cases hport : 0 < port
    · by_cases hb : 0 < backlog
      · simp only [hne, hport, hb, ne_eq, not_false_eq_true, dite_true, not_true_eq_false,
          if_false] at h
        cases h
        exact ⟨hport, rfl, hne, rfl⟩
      · simp only [hne, hport, hb, ne_eq, not_false_eq_true, dite_true, not_true_eq_false,
          if_false, dite_false] at h
        cases h
    · simp only [hne, hport, ne_eq, not_false_eq_true, dite_true, if_true] at h
      cases h
  · simp only [hne, dite_false] at h
    cases h

end ListenerOptions

/-- The listener based on sockets, and the system it calls. -/
structure SocketListener where
  socket_ : SocketGuard := {}
  options_ : ListenerOptions
  sys : System
  deriving DecidableEq

namespace SocketListener

/-- `is_listening()`. -/
def isListening (l : SocketListener) : Bool := isSocketValid l.socket_.socket_

/-- A program of the sockets, run by the listener. -/
def onSys {α : Type} (m : Prog System Exception α) : Prog SocketListener Exception α :=
  Prog.zoom (·.sys) (fun sys l => { l with sys := sys }) m

/-- `socket_ = guard`: the old guard is thrown away. -/
def assign (guard : SocketGuard) : Prog SocketListener Exception Unit := do
  let l ← Prog.get
  Prog.modify fun l => { l with socket_ := guard }
  onSys l.socket_.destroy

/-- `tcp_create_bind()`. -/
def tcpCreateBind (pton : InetPton) (address : List UInt8) (port : Int) :
    Prog SocketListener Exception Unit := do
  let guard ← onSys (makeSocket .inet)
  assign guard
  let l ← Prog.get
  let r ← onSys (System.call (.setsockopt l.socket_.socket_))
  if r ≠ 0 then Prog.throw (.net "cannot set SO_REUSEADDR socket option") else
    let ip ← Prog.ofExcept (IpAddress.fromText pton address)
    onSys (bindSocket l.socket_.socket_ (SocketAddress.ofIp ip port))

/-- `uds_create_bind()`. -/
def udsCreateBind (path : List UInt8) : Prog SocketListener Exception Unit := do
  let guard ← onSys (makeSocket .unix)
  assign guard
  let l ← Prog.get
  let addr ← Prog.ofExcept (SocketAddress.ofPath path)
  onSys (bindSocket l.socket_.socket_ addr)

/-- The socket for the endpoint, stored and bound. -/
def createBind (pton : InetPton) : Endpoint → Prog SocketListener Exception Unit
  | .net address port _ => tcpCreateBind pton address port
  | .uds path _ => udsCreateBind path

/-- `listen()`. -/
def listen (pton : InetPton) : Prog SocketListener Exception Unit := do
  let l ← Prog.get
  if l.isListening then pure () else
    createBind pton l.options_.endpoint_
    let l ← Prog.get
    let r ← onSys (System.call (.listen l.socket_.socket_ l.options_.backlog_))
    if r ≠ 0 then Prog.throw (.net "cannot start listening on socket") else pure ()

/-- `wait(timeout)`, in milliseconds. -/
def wait (timeout : Int) : Prog SocketListener Exception Bool := do
  let l ← Prog.get
  if ¬ l.isListening then
    Prog.throw (.net "cannot wait for data on socket if listener is not listening")
  else if ¬ -1 ≤ timeout then
    Prog.throw (.net "invalid timeout for wait operation on socket")
  else onSys (pollRead l.socket_.socket_ timeout)

/-- `accept()`: the guard that the descriptor takes over. -/
def accept : Prog SocketListener Exception SocketGuard := do
  let l ← Prog.get
  if ¬ l.isListening then
    Prog.throw (.net "cannot accept connections on listener which is not listening")
  else
    let socket ← onSys (System.call (.accept l.socket_.socket_))
    let sock : SocketGuard := { socket_ := socket }
    if ¬ isSocketValid sock.socket_ then
      onSys sock.destroy
      Prog.throw (.net "cannot accept on socket")
    else pure sock

/-- `close()`. -/
def close : Prog SocketListener Exception Unit := do
  let l ← Prog.get
  let (r, guard) ← onSys l.socket_.close
  Prog.modify fun l => { l with socket_ := guard }
  if r ≠ 0 then Prog.throw (.net "cannot close socket") else pure ()

/-! ### What they do -/

/-- A program of the sockets, evaluated. -/
theorem onSys_run {α : Type} {m : Prog System Exception α} {sys sys' : System}
    {r : Except (Fault Exception) α} (h : m sys = (r, sys')) (g : SocketGuard)
    (o : ListenerOptions) : onSys m ⟨g, o, sys⟩ = (r, ⟨g, o, sys'⟩) :=
  Prog.zoom_run h

/-- A call of the system, evaluated. -/
theorem onSys_call (c : Syscall) (g : SocketGuard) (o : ListenerOptions) (sys : System) :
    onSys (System.call c) ⟨g, o, sys⟩ = (.ok (sys.outcome 0), ⟨g, o, sys.answered c⟩) :=
  onSys_run (System.call_run _ _) g o

section Listen

variable {pton : InetPton} {o : ListenerOptions} {sys : System}

/-- The socket is stored as soon as there is one. -/
theorem assign_run (guard : SocketGuard) :
    assign guard ⟨{}, o, sys⟩ = (.ok (), ⟨guard, o, sys⟩) := rfl

variable (pton o) in
/-- Where no socket can be created the listener stays as it was. -/
theorem createBind_invalid (h : sys.outcome 0 < 0) (e : Endpoint) :
    ∃ sys' cs, createBind pton e ⟨{}, o, sys⟩ =
        (.error (.exc (.net "cannot create a socket")), ⟨{}, o, sys'⟩) ∧
      sys'.calls = sys.calls ++ .socket e.domain :: cs ∧ ∀ c ∈ cs, ∃ fd, c = .close fd := by
  obtain ⟨sys', cs, hrun, hcalls⟩ := makeSocket_invalid h e.domain
  refine ⟨sys', cs, ?_, hcalls⟩
  cases e with
  | uds path hne =>
      rw [createBind, udsCreateBind]
      exact Prog.bind_error (onSys_run hrun {} o)
  | net address port hne =>
      rw [createBind, tcpCreateBind]
      exact Prog.bind_error (onSys_run hrun {} o)

variable (pton o) in
/-- The socket options cannot be set. -/
theorem tcpCreateBind_setsockopt (h : 0 ≤ sys.outcome 0) (hopt : sys.outcome 1 ≠ 0)
    (address : List UInt8) (port : Int) :
    tcpCreateBind pton address port ⟨{}, o, sys⟩ =
      (.error (.exc (.net "cannot set SO_REUSEADDR socket option")),
        ⟨⟨sys.outcome 0⟩, o,
          (sys.answered (.socket .inet)).answered (.setsockopt (sys.outcome 0))⟩) := by
  rw [tcpCreateBind, Prog.bind_ok (onSys_run (makeSocket_valid h _) {} o),
    Prog.bind_ok (assign_run _), Prog.bind_ok (Prog.get_run _), Prog.bind_ok (onSys_call _ _ _ _)]
  dsimp only
  rw [System.outcome_answered, if_pos hopt]
  rfl

variable (pton o) in
/-- With the options set, what follows is the text of the address and `bind`. -/
theorem tcpCreateBind_text (h : 0 ≤ sys.outcome 0) (hopt : sys.outcome 1 = 0)
    (address : List UInt8) (port : Int) :
    tcpCreateBind pton address port ⟨{}, o, sys⟩ =
      (Prog.ofExcept (IpAddress.fromText pton address) >>= fun ip =>
        onSys (bindSocket (sys.outcome 0) (SocketAddress.ofIp ip port)))
          ⟨⟨sys.outcome 0⟩, o,
            (sys.answered (.socket .inet)).answered (.setsockopt (sys.outcome 0))⟩ := by
  rw [tcpCreateBind, Prog.bind_ok (onSys_run (makeSocket_valid h _) {} o),
    Prog.bind_ok (assign_run _), Prog.bind_ok (Prog.get_run _), Prog.bind_ok (onSys_call _ _ _ _)]
  dsimp only
  rw [System.outcome_answered, if_neg (fun hne => hne hopt)]

/-- The socket is made and stored, and the path looked at. -/
theorem udsCreateBind_path (h : 0 ≤ sys.outcome 0) (path : List UInt8) :
    udsCreateBind path ⟨{}, o, sys⟩ =
      (Prog.ofExcept (SocketAddress.ofPath path) >>= fun addr =>
        onSys (bindSocket (sys.outcome 0) addr))
          ⟨⟨sys.outcome 0⟩, o, sys.answered (.socket .unix)⟩ := by
  rw [udsCreateBind, Prog.bind_ok (onSys_run (makeSocket_valid h _) {} o),
    Prog.bind_ok (assign_run _), Prog.bind_ok (Prog.get_run _)]

/-- A listener that listens is left as it is. -/
theorem listen_listening {l : SocketListener} (h : l.isListening = true) :
    listen pton l = (.ok (), l) := by
  rw [listen, Prog.bind_ok (Prog.get_run _), if_pos h]
  rfl

/-- `listen()` throws where making the socket throws. -/
theorem listen_of_createBind_error {l' : SocketListener} {x : Fault Exception}
    (h : createBind pton o.endpoint_ ⟨{}, o, sys⟩ = (.error x, l')) :
    listen pton ⟨{}, o, sys⟩ = (.error x, l') := by
  rw [listen, Prog.bind_ok (Prog.get_run _)]
  exact Prog.bind_error h

/-- It ends as the call of `::listen` does otherwise. -/
theorem listen_of_createBind_ok {g : SocketGuard} {sys' : System}
    (h : createBind pton o.endpoint_ ⟨{}, o, sys⟩ = (.ok (), ⟨g, o, sys'⟩)) :
    listen pton ⟨{}, o, sys⟩ = (if sys'.outcome 0 ≠ 0
      then .error (.exc (.net "cannot start listening on socket")) else .ok (),
      ⟨g, o, sys'.answered (.listen g.socket_ o.backlog_)⟩) := by
  rw [listen, Prog.bind_ok (Prog.get_run _)]
  rw [show (⟨{}, o, sys⟩ : SocketListener).isListening = false from rfl]
  simp only [Bool.false_eq_true, if_false]
  rw [Prog.bind_ok h, Prog.bind_ok (Prog.get_run _), Prog.bind_ok (onSys_call _ _ _ _)]
  split <;> rfl

end Listen

end SocketListener

end Fcgi

import Fcgi.Net.Kernel
import Fcgi.Net.Listener

/-!
# Net — the descriptor of a connection

`socket_Descriptor`, `make_tcp_connection()` and the end of a `socket_Listener`, over the system
calls.

`close()` first shuts the connection down: it tells the peer that nothing more will be sent, and
reads and throws away what the peer still sends, until it is done or nothing has come for a while.
The destructor does the same, with the exceptions swallowed, and then destroys the members.
-/

namespace Fcgi
open Lib

/-- The implementation of `Descriptor` based on sockets. -/
structure SocketDescriptor where
  isShuttedDown_ : Bool := false
  socket_ : SocketGuard
  deriving DecidableEq, Repr

namespace SocketDescriptor

/-- Programs of a descriptor and of the system it calls. -/
abbrev M : Type → Type := Prog (SocketDescriptor × Kernel) Exception

/-- A program of the system. -/
def onKernel {α : Type} (m : Prog Kernel Exception α) : M α :=
  Prog.zoom Prod.snd (fun k s => (s.1, k)) m

/-- `max_read_size()` and `max_write_size()`. -/
def maxReadSize : Nat := 2147479552

/-- The most that is written by one call. -/
def maxWriteSize : Nat := 2147479552

/-- `read(buf, len)`: the bytes put into the buffer, whose number is the value returned. -/
def read (isNull : Bool) (len : Nat) : M (List UInt8) := do
  if isNull = true then Prog.throw (.net "cannot read from socket to null buffer")
  else
    let (d, _) ← Prog.get
    let len := min len maxReadSize
    match ← onKernel (Kernel.call (.recv d.socket_.socket_ len)) with
    | .error _ => Prog.throw (.net "cannot read from socket")
    | .ok _ bytes => pure (bytes.take len)

/-- `write(buf, len)`: the number of bytes sent. -/
def write (isNull : Bool) (buf : List UInt8) : M Nat := do
  if isNull = true then Prog.throw (.net "cannot write to socket from null buffer")
  else
    let (d, _) ← Prog.get
    let buf := buf.take maxWriteSize
    match ← onKernel (Kernel.call (.send d.socket_.socket_ buf)) with
    | .error _ => Prog.throw (.net "cannot write to socket")
    | .ok sent _ => pure (min sent buf.length)

/-- `ENOTCONN`, as on Linux. -/
def enotconn : Nat := 107

/-- The size of the buffer for what the client still sends. -/
def trashcanSize : Nat := 1024

/-- The text of the exception. -/
def shutdownMessage : String := "cannot shutdown socket gracefully"

/-- A round of the loop of `graceful_shutdown()`. -/
def trash : M (Lib.Flow Unit Unit) := do
  let (d, _) ← Prog.get
  if ← onKernel (Kernel.onSystem (pollRead d.socket_.socket_ 1000)) then
    match ← onKernel (Kernel.call (.recv d.socket_.socket_ trashcanSize)) with
    | .error _ => Prog.throw (.net shutdownMessage)
    | .ok _ bytes => if bytes.take trashcanSize = [] then pure (.done ()) else pure (.again ())
  else pure (.done ())

/-- `graceful_shutdown()`. -/
def gracefulShutdown (fuel : Nat) : M Unit := do
  let (d, _) ← Prog.get
  let a ← onKernel (Kernel.call (.shutdown d.socket_.socket_))
  if a.result ≠ 0 then
    if a.errno = enotconn then pure () else Prog.throw (.net shutdownMessage)
  else Prog.recLoop (fun _ _ _ => trash) fuel ()

/-- The socket is closed. -/
def closeSocket : M Unit := do
  let (d, _) ← Prog.get
  let (r, guard) ← onKernel (Kernel.onSystem d.socket_.close)
  Prog.modify fun (d, k) => ({ d with socket_ := guard }, k)
  if r ≠ 0 then Prog.throw (.net "cannot close socket") else pure ()

/-- `close()`. -/
def close (fuel : Nat) : M Unit := do
  let (d, _) ← Prog.get
  if d.isShuttedDown_ = true then closeSocket
  else
    gracefulShutdown fuel
    Prog.modify fun (d, k) => ({ d with isShuttedDown_ := true }, k)
    closeSocket

/-- The end of the members. -/
def destroyMembers : M Unit := do
  let (d, _) ← Prog.get
  onKernel (Kernel.onSystem d.socket_.destroy)

/-- `~socket_Descriptor()` -/
def destroy (fuel : Nat) : M Unit := do
  let (d, _) ← Prog.get
  if isSocketValid d.socket_.socket_ = true then
    let _ ← Prog.attempt (close fuel)
    destroyMembers
  else destroyMembers

/-- `socket_Descriptor(socket)` -/
def make (socket : SocketGuard) : Prog Kernel Exception SocketDescriptor := do
  Prog.assert (isSocketValid socket.socket_ = true)
  pure { socket_ := socket }

end SocketDescriptor

/-- `Socket_address::family()`, which tells the alternatives of the variant apart. -/
def SocketAddress.family : SocketAddress → AddressFamily
  | .un _ _ => .unix
  | .in_ _ _ => .inet
  | .in6 _ _ => .inet6

/-- The address that `make_tcp_connection()` makes of the remote endpoint. -/
def Endpoint.remote (pton : InetPton) : Endpoint → Except Exception SocketAddress
  | .uds path _ => SocketAddress.ofPath path
  | .net address port _ => (IpAddress.fromText pton address).map (SocketAddress.ofIp · port)

/-- Connects `socket` to the remote `addr`. -/
def connectSocket (socket : Int) (addr : SocketAddress) : Prog Kernel Exception Unit := do
  let a ← Kernel.call (.connect socket addr)
  if a.result ≠ 0 then Prog.throw (.net "cannot connect a socket to remote host") else pure ()

/-- A newly created descriptor connected to the remote endpoint.  The socket is thrown away if it
cannot be connected. -/
def makeTcpConnection (pton : InetPton) (remote : Endpoint) :
    Prog Kernel Exception SocketDescriptor := do
  let addr ← Prog.ofExcept (remote.remote pton)
  let socket ← Kernel.onSystem (makeSocket addr.family)
  match ← Prog.attempt (connectSocket socket.socket_ addr) with
  | .error e =>
    Kernel.onSystem socket.destroy
    Prog.throw e
  | .ok _ => SocketDescriptor.make socket

/-- `~socket_Listener()`, and the end of its members: the socket file of a Unix domain listener is
removed. -/
def SocketListener.destroySocket (options : ListenerOptions) (socket : SocketGuard) :
    Prog Kernel Exception Unit := do
  let (_, socket) ← Kernel.onSystem socket.close
  match options.endpoint_ with
  | .uds path _ =>
    let _ ← Kernel.call (.unlink (cStr path))
    pure ()
  | .net _ _ _ => pure ()
  Kernel.onSystem socket.destroy

end Fcgi

import Fcgi.Streambuf.Reader
import Fcgi.Streambuf.Writer

/-!
# Connection — `Listener::accept()`, the connection and its runs

`stack_buffers_Server_connection` with its three streams, `Listener::accept()` from the accepted
descriptor on, and what an application can do with the connection: `Op` is one call on it or on
one of its streams, `run` a sequence of them.  An exception of a call is left to the application,
which goes on; a run stops only where the process does.

The connection holds the world, and each of its streams the buffer it was made with: a call on a
stream is run on the state of that stream (`onIn`, `onOut`, `onErr`), and what it does to the world
the connection has after it.  `accept()` is read in the order of the source: the header, the body,
what is refused, and then the constructor of the connection, whose members are made one after the
other.
-/

namespace Fcgi
open Lib

/-- What lies in the memory the program does not initialise. -/
structure Uninit where
  inBuffer : Mem := fun _ => 0
  outBuffer : Mem := fun _ => 0
  errBuffer : Mem := fun _ => 0
  stack : Nat → Mem := fun _ _ => 0

/-- The size of the buffer of `in()`. -/
def inBufferSize : Nat := 16384
/-- The size of the buffer of `out()`. -/
def outBufferSize : Nat := 65528
/-- The size of the buffer of `err()`. -/
def errBufferSize : Nat := 65528

/-- `server_Istream`: the stream and its `streambuf_`. -/
structure ServerIstream where
  ios : Istream
  streambuf_ : ServerStreambuf

/-- `server_Ostream`; of the stream state only `badbit` is ever set. -/
structure ServerOstream where
  bad : Bool := false
  streambuf_ : ServerStreambuf

/-- `stack_buffers_Server_connection`. -/
structure Connection where
  role_ : Role
  requestId_ : Nat
  isKeepConnection_ : Bool
  applicationStatus_ : BitVec 32 := 0
  stack : Nat → Mem
  parameters_ : NamesValues
  in_ : ServerIstream
  out_ : ServerOstream
  err_ : ServerOstream
  world : World

/-- The programs of a connection. -/
abbrev Connection.M := Prog Connection Exception

namespace Connection

/-- What the buffers are told of the connection. -/
def info (c : Connection) : ConnectionInfo where
  role := c.role_
  requestId := c.requestId_
  applicationStatus := c.applicationStatus_
  stack := c.stack

/-- Runs a program of the input stream's buffer. -/
def onIn {α : Type} (m : ConnectionInfo → Fcgi.M α) : Connection.M α := fun c =>
  Prog.zoom (fun c => ⟨c.in_.streambuf_, c.world⟩)
    (fun s c => { c with in_.streambuf_ := s.buf, world := s.world }) (m c.info) c

/-- Runs a program of the buffer of `out()`. -/
def onOut {α : Type} (m : ConnectionInfo → Fcgi.M α) : Connection.M α := fun c =>
  Prog.zoom (fun c => ⟨c.out_.streambuf_, c.world⟩)
    (fun s c => { c with out_.streambuf_ := s.buf, world := s.world }) (m c.info) c

/-- Runs a program of the buffer of `err()`. -/
def onErr {α : Type} (m : ConnectionInfo → Fcgi.M α) : Connection.M α := fun c =>
  Prog.zoom (fun c => ⟨c.err_.streambuf_, c.world⟩)
    (fun s c => { c with err_.streambuf_ := s.buf, world := s.world }) (m c.info) c

/-- `close()`.  The order is important. -/
def close : Connection.M Unit := do
  let c ← Prog.get
  onErr fun conn => Fcgi.close conn c.in_.streambuf_
  onOut fun conn => Fcgi.close conn c.in_.streambuf_
  onIn fun conn => Fcgi.close conn c.in_.streambuf_

end Connection

/-! ### Construction -/

/-- What the constructor of `server_Istream` does: it reads the parameters and resets the
stream. -/
def readParameters (conn : ConnectionInfo) (fuel : Nat) : M (NamesValues × Istream) := do
  let (parameters, is) ← NamesValues.ofStream (underflow conn fuel) fuel {} 32
  if ¬ is.eof ∨ is.bad then
    Prog.throw (.fcgi "unexpected FastCGI input stream state after parameters read attempt")
  else if conn.role = .responder ∨ conn.role = .filter then do
    resetReader conn .«in»
    pure (parameters, is.clear)
  else pure (parameters, is)

/-- The body of the constructor of `server_Istream`, as a program of `streambuf_`.  An exception
destroys `streambuf_`, which closes it. -/
def readOrClose (conn : ConnectionInfo) (fuel : Nat) : M (NamesValues × Istream) := do
  match ← Prog.attempt (readParameters conn fuel) with
  | .ok p => pure p
  | .error e => do
    let s ← Prog.get
    let _ ← Prog.attempt (close conn s.buf)
    Prog.throw e

/-- The body of the constructor, run with `buf` for `streambuf_`. -/
def ServerIstream.constructBody (conn : ConnectionInfo) (fuel : Nat) (buf : ServerStreambuf) :
    World.M (NamesValues × ServerIstream) := fun w =>
  match readOrClose conn fuel ⟨buf, w⟩ with
  | (.ok (parameters, is), s) => (.ok (parameters, ⟨is, s.buf⟩), s.world)
  | (.error x, s) => (.error x, s.world)

/-- The constructor of `server_Istream`. -/
def ServerIstream.construct (conn : ConnectionInfo) (uninit : Uninit) (fuel : Nat) :
    World.M (NamesValues × ServerIstream) := do
  let buf ← ServerStreambuf.construct conn uninit.inBuffer inBufferSize .params
  ServerIstream.constructBody conn fuel buf

/-- The members of a connection that its construction computes. -/
structure Parts where
  parameters : NamesValues
  in_ : ServerIstream
  out : ServerStreambuf
  err : ServerStreambuf

/-- The three streams are constructed one after the other. -/
def constructParts (uninit : Uninit) (fuel : Nat) (role : Role) (requestId : Nat) :
    World.M Parts := do
  let conn : ConnectionInfo := { role, requestId, stack := uninit.stack }
  let (parameters, in_) ← ServerIstream.construct conn uninit fuel
  let out ← ServerStreambuf.construct conn uninit.outBuffer outBufferSize .out
  let err ← ServerStreambuf.construct conn uninit.errBuffer errBufferSize .err
  pure ⟨parameters, in_, out, err⟩

/-- The connection of the members. -/
def Parts.connection (uninit : Uninit) (role : Role) (requestId : Nat) (isKeepConnection : Bool)
    (p : Parts) (world : World) : Connection :=
  { role_ := role
    requestId_ := requestId
    isKeepConnection_ := isKeepConnection
    stack := uninit.stack
    parameters_ := p.parameters
    in_ := p.in_
    out_ := { streambuf_ := p.out }
    err_ := { streambuf_ := p.err }
    world := world }

/-- The constructor of `stack_buffers_Server_connection`. -/
def Connection.construct (uninit : Uninit) (fuel : Nat) (role : Role) (requestId : Nat)
    (isKeepConnection : Bool) : World.M Connection := do
  let p ← constructParts uninit fuel role requestId
  let world ← Prog.get
  pure (p.connection uninit role requestId isKeepConnection world)

/-- `Header(io)`. -/
def readHeader : World.M Header := do
  let bytes ← World.onIo (Io.read Header.size)
  if bytes.length ≠ Header.size then Prog.throw (.fcgi "FastCGI protocol violation")
  else do
    (Header.ofBytes bytes).checkValidity
    pure (Header.ofBytes bytes)

/-- `Begin_request_body(io)`. -/
def readBeginRequestBody : World.M BeginRequestBody := do
  let bytes ← World.onIo (Io.read BeginRequestBody.size)
  if bytes.length ≠ BeginRequestBody.size then Prog.throw (.fcgi "FastCGI protocol violation")
  else pure (BeginRequestBody.ofBytes bytes)

/-- The end of an `accept()` that refuses the client: the record is sent, and an exception is
thrown. -/
def refuse {α : Type} (record : List UInt8) (e : Exception) : World.M α := do
  World.onIo (Io.writeAll record)
  Prog.throw e

/-- The lambda `end_request` of `Listener::accept()`, and the exception that follows every call of
it. -/
def acceptEndRequest {α : Type} (header : Header) (protocolStatus : ProtocolStatus)
    (e : Exception) : World.M α := do
  let record ← endRequestRecord header.requestId 0 protocolStatus
  refuse record e

/-- What `Listener::accept()` does before it makes the connection. -/
def readBeginRequest : World.M (Header × BeginRequestBody) := do
  let header ← readHeader
  if header.recordType = .beginRequest ∧ ¬ header.isManagementRecord ∧
      header.contentLength = BeginRequestBody.size then do
    let body ← readBeginRequestBody
    if body.role = .responder ∨ body.role = .authorizer ∨ body.role = .filter then
      pure (header, body)
    else acceptEndRequest header .unknownRole (.fcgi "unknown FastCGI role")
  else acceptEndRequest header .cantMpxConn (.fcgi "FastCGI protocol violation")

/-- `Listener::accept()`, on the descriptor of the accepted socket. -/
def accept (uninit : Uninit) (fuel : Nat) : World.M Connection := do
  let (header, body) ← readBeginRequest
  Connection.construct uninit fuel body.role header.requestId body.isKeepConn

/-! ### Runs -/

/-- A call on `in()`. -/
inductive InOp where
  | get
  | peek
  | read (n : Nat)
  | unget
  | clear
  deriving DecidableEq, Repr

/-- A call on `out()` or `err()`. -/
inductive OutOp where
  | put (c : UInt8)
  | write (bytes : List UInt8)
  | flush
  | clear
  deriving DecidableEq, Repr

/-- A call of the application. -/
inductive Op where
  | «in» (op : InOp)
  | out (op : OutOp)
  | err (op : OutOp)
  | setApplicationStatus (status : BitVec 32)
  | close
  deriving DecidableEq, Repr

/-- A call on an input stream. -/
def InOp.exec (conn : ConnectionInfo) (fuel : Nat) (is : Istream) : InOp → M Istream
  | .get => do
    let (_, is) ← is.get (underflow conn fuel)
    pure is
  | .peek => do
    let (_, is) ← is.peek (underflow conn fuel)
    pure is
  | .read n => do
    let (_, is) ← is.read (underflow conn fuel) n
    pure is
  | .unget => is.unget
  | .clear => pure is.clear

/-- A call on an output stream; `bad` is its `badbit`, which every call but `clear()` minds. -/
def OutOp.exec (conn : ConnectionInfo) (bad : Bool) : OutOp → M Bool
  | .put c =>
    if bad then pure true
    else do
      match ← Prog.attempt (sputc conn c) with
      | .ok (some _) => pure false
      | .ok none => pure true
      | .error _ => pure true
  | .write bytes =>
    if bad then pure true
    else do
      match ← Prog.attempt (xsputn conn bytes) with
      | .ok n => pure (n ≠ bytes.length)
      | .error _ => pure true
  | .flush =>
    if bad then pure true
    else do
      match ← Prog.attempt (pubsync conn) with
      | .ok r => pure (r = -1)
      | .error _ => pure true
  | .clear => pure false

/-- Makes the call. -/
def Op.exec (fuel : Nat) : Op → Connection.M Unit
  | .«in» op => do
    let c ← Prog.get
    let is ← Connection.onIn fun conn => op.exec conn fuel c.in_.ios
    Prog.modify fun c => { c with in_.ios := is }
  | .out op => do
    let c ← Prog.get
    let bad ← Connection.onOut fun conn => op.exec conn c.out_.bad
    Prog.modify fun c => { c with out_.bad := bad }
  | .err op => do
    let c ← Prog.get
    let bad ← Connection.onErr fun conn => op.exec conn c.err_.bad
    Prog.modify fun c => { c with err_.bad := bad }
  | .setApplicationStatus status => Prog.modify fun c => { c with applicationStatus_ := status }
  | .close => Connection.close

/-- A run of the application; it goes on after an exception. -/
def run (fuel : Nat) : List Op → Connection.M Unit
  | [] => pure ()
  | op :: ops => do
    let _ ← Prog.attempt (op.exec fuel)
    run fuel ops

/-- A whole session: `accept()`, and a run of the application with the connection it returns. -/
def session (uninit : Uninit) (fuel : Nat) (ops : List Op) : World.M Unit := fun w =>
  match accept uninit fuel w with
  | (.ok c, _) => ((run fuel ops c).1, (run fuel ops c).2.world)
  | (.error x, w) => (.error x, w)

/-- Where `accept()` returns a connection, a session is the run of its calls. -/
theorem session_ok {uninit : Uninit} {fuel : Nat} {ops : List Op} {w w' : World} {c : Connection}
    (h : accept uninit fuel w = (.ok c, w')) : session uninit fuel ops w =
      ((run fuel ops c).1, (run fuel ops c).2.world) := by
  rw [session, h]

/-- Where it does not, there is no run. -/
theorem session_error {uninit : Uninit} {fuel : Nat} {ops : List Op} {w w' : World}
    {x : Fault Exception} (h : accept uninit fuel w = (.error x, w')) :
    session uninit fuel ops w = (.error x, w') := by
  rw [session, h]

/-- A world in which a client sends a request to a responder, with the request id 1 and no
parameters, and then `bytes`. -/
def responderRequest (bytes : List UInt8) : World where
  io := { incoming := [.data ([1, 1, 0, 1, 0, 8, 0, 0, 0, 1, 0, 0, 0, 0, 0, 0,
    1, 4, 0, 1, 0, 0, 0, 0] ++ bytes)] }

end Fcgi

import Fcgi.Streambuf.Buffer

/-!
# Streambuf — the put side

`overflow()`, `sync()` and `close()` of `server_Streambuf`, and the members `sputc()`, `xsputn()`
and `pubsync()` of its base class that call them.  An `int_type` is an `Option`: `none` is eof.

The put area is the content of the record to be sent next, behind room for its header.  `overflow()`
fills in the header and the padding and writes the record from the buffer itself (`sendPutArea`),
and then, if `close()` has asked for it, the end records (`sendEndRecords`).  `close()` is cut where
the input buffer has permitted it (`closeOutput`), and where the areas are given up (`closeAreas`).
-/

namespace Fcgi
open Lib

/-- Stores `ch` at pptr() if it is not eof. -/
def storeExtra : Option UInt8 → M Unit
  | none => pure ()
  | some c => do
    let s ← Prog.get
    Prog.assert (s.buf.pptr ≤ s.buf.epptr)
    storeBuf s.buf.pptr [c]
    -- Here pptr() > epptr() is possible.
    modifyBuf fun b => b.pbump 1

/-- Pads the content, injects the header before it and sends the record. -/
def sendRecord (conn : ConnectionInfo) (contentLength : Nat) : M Unit := do
  -- Aligning the content by padding if necessary.
  let padding ← Prog.ofExcept (Math.padding true (BitVec.ofNat 64 contentLength) 8)
  let paddingLength := padding.toNat
  let s ← Prog.get
  -- `padding_length <= epptr() - pptr() + 1`, where pptr() may be one past epptr().
  Prog.assert (paddingLength + s.buf.pptr ≤ s.buf.epptr + 1)
  storeBuf s.buf.pptr (List.replicate paddingLength 0)
  modifyBuf fun b => b.pbump paddingLength
  -- Injecting the header.
  let header ← Header.make s.buf.type_.recordType conn.requestId contentLength paddingLength
  storeBuf 0 header.bytes
  -- Sending the record.
  let s ← Prog.get
  if Header.size < s.buf.pptr then do
    onIo (Io.writeAll (s.buf.buffer_.load 0 s.buf.pptr))
    modifyBuf fun b => b.setPutAreaAtLeastOnceConsumed true
  else pure ()

/-- Sends the put area as one record, `ch` added to it. -/
def sendPutArea (conn : ConnectionInfo) (ch : Option UInt8) : M Unit := do
  let s ← Prog.get
  let contentLength := s.buf.pptr - s.buf.pbase
  if contentLength = 0 then pure ()
  else do
    storeExtra ch
    sendRecord conn (contentLength + if ch.isSome then 1 else 0)

/-- Sends the records that end the stream, built at the start of the buffer. -/
def sendEndRecords (conn : ConnectionInfo) : M Unit := do
  let s ← Prog.get
  let isEmpty := s.buf.pptr = s.buf.pbase ∧ ¬ s.buf.isPutAreaAtLeastOnceConsumed_
  let dataSize ←
    if s.buf.type_ ≠ .err ∨ ¬ isEmpty then do
      let header ← Header.make s.buf.type_.recordType conn.requestId 0 0
      storeBuf 0 header.bytes
      pure Header.size
    else pure 0
  let dataSize ←
    if s.buf.type_ = .out then do
      let record ← endRequestRecord conn.requestId conn.applicationStatus .requestComplete
      storeBuf dataSize record
      pure (dataSize + endRequestRecordSize)
    else pure dataSize
  let s ← Prog.get
  if 0 < dataSize then onIo (Io.writeAll (s.buf.buffer_.load 0 dataSize)) else pure ()
  modifyBuf fun b => (b.setEndRecordsMustBeTransmitted false).setEndOfStream true

/-- `overflow(ch)`. -/
def overflow (conn : ConnectionInfo) (ch : Option UInt8) : M (Option UInt8) := do
  let s ← Prog.get
  Prog.assert (¬ s.buf.isReader ∧ ¬ s.buf.isClosed)
  if s.buf.isEndOfStream_ then pure none
  else do
    Prog.assert (s.buf.pbase = Header.size)
    sendPutArea conn ch
    modifyBuf fun b => b.setp Header.size (b.bufferSize_ - 1)
    let s ← Prog.get
    if s.buf.isEndRecordsMustBeTransmitted_ then sendEndRecords conn else pure ()
    assertInvariantOk conn
    pure (some (ch.getD 0))

/-- `sync()`. -/
def sync (conn : ConnectionInfo) : M Int := do
  let ch ← overflow conn none
  pure (if ch = none then -1 else 0)

/-- The end of `close()`. -/
def closeAreas (conn : ConnectionInfo) : M Unit := do
  modifyBuf fun b => b.setgNull.setpNull
  let s ← Prog.get
  Prog.assert s.buf.isClosed
  assertInvariantOk conn

/-- What is left of `close()` of an output stream once the input permits it: the end records are
asked for, and sent. -/
def closeOutput (conn : ConnectionInfo) : M Unit := do
  modifyBuf fun b => b.setEndRecordsMustBeTransmitted true
  let _ ← sync conn
  let s ← Prog.get
  Prog.assert (s.buf.isEndOfStream_ ∧ ¬ s.buf.isEndRecordsMustBeTransmitted_)
  closeAreas conn

/-- `close()`; `inbuf` is the buffer of the connection's input stream. -/
def close (conn : ConnectionInfo) (inbuf : ServerStreambuf) : M Unit := do
  let s ← Prog.get
  if s.buf.isClosed then pure ()
  else if ¬ s.buf.isReader then do
    Prog.assert (inbuf.isReader ∧ ¬ inbuf.isClosed)
    Prog.assert (conn.role = .authorizer ∨ inbuf.type_ ≠ .params)
    if conn.role ≠ .filter ∨ inbuf.type_ = .data ∨ inbuf.unreadContentLength_ = 0 then
      closeOutput conn
    else
      Prog.throw (.fcgi "not all FastCGI stdin has been read by Filter")
  else closeAreas conn

/-! ### The base class -/

/-- `sputc(c)`. -/
def sputc (conn : ConnectionInfo) (c : UInt8) : M (Option UInt8) := do
  let s ← Prog.get
  if s.buf.pptr < s.buf.epptr then do
    storeBuf s.buf.pptr [c]
    modifyBuf fun b => b.pbump 1
    pure (some c)
  else overflow conn (some c)

/-- `xsputn()`: as if by repeated calls of `sputc()`; the number of bytes written. -/
def xsputn (conn : ConnectionInfo) : List UInt8 → M Nat
  | [] => pure 0
  | c :: cs => do
    match ← sputc conn c with
    | none => pure 0
    | some _ => do
      let n ← xsputn conn cs
      pure (n + 1)

/-- `pubsync()`. -/
def pubsync (conn : ConnectionInfo) : M Int := sync conn

end Fcgi

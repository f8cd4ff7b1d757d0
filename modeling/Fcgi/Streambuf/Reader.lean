import Fcgi.Basics.NamesValues

/-!
# Streambuf — the get side

`underflow()`, `process_header()` and `reset_reader()` of `server_Streambuf`.  Reading the
variables of a get-values record re-enters `underflow()`, so the programs below take it as an
argument (`call`) until `underflowLoop` ties the knot.

A round of the loop of `underflow()` is cut into its steps, in the order of the source:
`readRecords`, `setUpContent`, `skipPadding`, `accumulateHeader` and `processAccumulated`, of which
the last calls `processHeader`.  The header is a local variable of the function; it is what the loop
carries from one round to the next, and as the source does not empty it once it has been processed,
a round that goes on with a whole header processes it again.
-/

namespace Fcgi
open Lib

/-- `Process_header_result`. -/
inductive ProcessHeaderResult where
  | requestRejected
  | managementProcessed
  | contentMustBeConsumed
  | contentMustBeDiscarded
  deriving DecidableEq, Repr

/-- The assignments of `reset_reader()`. -/
@[simps! -fullyApplied]
def ServerStreambuf.reset (b : ServerStreambuf) (type : StreamType) : ServerStreambuf :=
  ((((b.setType type).setEndOfStream false).setContentMustBeDiscarded
    false).setUnreadContentLength 0).setUnreadPaddingLength 0

/-- `reset_reader()`. -/
def resetReader (conn : ConnectionInfo) (type : StreamType) : M Unit := do
  let s ← Prog.get
  Prog.assert (s.buf.isReader ∧ ¬ s.buf.isClosed)
  modifyBuf fun b => b.reset type
  assertInvariantOk conn

/-- `is_ready_to_filter_data()`. -/
def ServerStreambuf.isReadyToFilterData (conn : ConnectionInfo) (b : ServerStreambuf) : Bool :=
  !b.isClosed && conn.role == .filter && b.type_ == .«in» && b.isEndOfStream_

/-! ### `process_header()` -/

/-- The lambda `end_request`. -/
def endRequest (header : Header) (protocolStatus : ProtocolStatus) : M Unit := do
  let record ← endRequestRecord header.requestId 0 protocolStatus
  onIo (Io.writeAll record)

/-- The lambda `end_request_protocol_violation`. -/
def endRequestProtocolViolation {α : Type} (header : Header) : M α := do
  endRequest header .cantMpxConn
  Prog.throw (.fcgi "FastCGI protocol violation")

/-- `FCGI_MAX_CONNS`. -/
def fcgiMaxConns : List UInt8 := [70, 67, 71, 73, 95, 77, 65, 88, 95, 67, 79, 78, 78, 83]
/-- `FCGI_MAX_REQS`. -/
def fcgiMaxReqs : List UInt8 := [70, 67, 71, 73, 95, 77, 65, 88, 95, 82, 69, 81, 83]
/-- `FCGI_MPXS_CONNS`. -/
def fcgiMpxsConns : List UInt8 := [70, 67, 71, 73, 95, 77, 80, 88, 83, 95, 67, 79, 78, 78, 83]

/-- The value of a variable a get-values record may ask for: `1`, `1` and `0`. -/
def variableValue (name : List UInt8) : Option UInt8 :=
  if name = fcgiMaxConns then some 49
  else if name = fcgiMaxReqs then some 49
  else if name = fcgiMpxsConns then some 48
  else none

/-- `aligned<std::size_t>(max_record_length, 8)`. -/
def replySize : Nat := 64

/-- Fills the content of a get-values-result into the array `record`, from the position `p`. -/
def fillReply (header : Header) : List NameValue → Mem → Nat → M (Mem × Nat)
  | [], record, p => pure (record, p)
  | pair :: pairs, record, p =>
    match variableValue pair.name with
    | none => fillReply header pairs record p
    | some value => do
      let nameSize := pair.name.length
      if nameSize > 255 then endRequestProtocolViolation header else pure ()
      Prog.assert (nameSize + 3 ≤ replySize - p)
      fillReply header pairs
        (record.store p (UInt8.ofNat nameSize :: 1 :: (pair.name ++ [value]))) (p + nameSize + 3)

/-- Sends a get-values-result with the variables asked for. -/
def sendGetValuesResult (conn : ConnectionInfo) (header : Header) (vars : NamesValues) :
    M Unit := do
  let s ← Prog.get
  let (record, p) ← fillReply header vars.pairs_ (conn.stack s.world.history.answers.length)
    Header.size
  let contentLength := p - Header.size
  let padding ← Prog.ofExcept (Math.padding true (BitVec.ofNat 64 contentLength) 8)
  let recordLength := Header.size + contentLength + padding.toNat
  let h ← Header.make .getValuesResult Header.nullRequestId contentLength padding.toNat
  onIo (Io.writeAll ((record.store 0 h.bytes).load 0 recordLength))

/-- Enters the variables of a get-values record into the history. -/
def noteAnswer (vars : NamesValues) : M Unit := Prog.modify fun s =>
  { s with world := s.world.addAnswer ⟨vars.pairs_.map NameValue.name, s.buf, s.world.io⟩ }

/-- The part of `process_management_record` after the reading of the variables. -/
def answering (conn : ConnectionInfo) (header : Header) (vars : NamesValues) :
    M ProcessHeaderResult := do
  noteAnswer vars
  let s ← Prog.get
  if s.buf.unreadContentLength_ > 0 then endRequestProtocolViolation header else pure ()
  sendGetValuesResult conn header vars
  pure .managementProcessed

/-- The lambda `process_management_record`. -/
def processManagementRecord (conn : ConnectionInfo) (fuel : Nat) (call : M (Option UInt8))
    (header : Header) : M ProcessHeaderResult := do
  if header.recordType = .getValues then do
    -- Reading the requested variables.
    let (vars, _) ← NamesValues.ofStream call fuel {} 3
    answering conn header vars
  else do
    let r ← unknownTypeRecord header.recordType
    onIo (Io.writeAll r)
    pure .managementProcessed

/-- A get-values record: the variables are read, and answered. -/
theorem processManagementRecord_getValues {conn : ConnectionInfo} {fuel : Nat}
    {call : M (Option UInt8)} {header : Header} (h : header.recordType = .getValues) :
    processManagementRecord conn fuel call header =
      NamesValues.ofStream call fuel {} 3 >>= fun p => answering conn header p.1 := by
  rw [processManagementRecord, if_pos h]

/-- What `process_header()` does with a valid header once it has stored its lengths. -/
def dispatch (conn : ConnectionInfo) (fuel : Nat) (call : M (Option UInt8)) (header : Header) :
    M ProcessHeaderResult := do
  let s ← Prog.get
  if header.recordType = .beginRequest then do
    endRequest header .cantMpxConn
    pure .contentMustBeDiscarded
  else if header.isManagementRecord then
    processManagementRecord conn fuel call header
  else if header.requestId ≠ conn.requestId then
    pure .contentMustBeDiscarded
  else if header.recordType = s.buf.type_.recordType then
    pure .contentMustBeConsumed
  else
    endRequestProtocolViolation header

/-- `process_header()`. -/
def processHeader (conn : ConnectionInfo) (fuel : Nat) (call : M (Option UInt8))
    (header : Header) : M ProcessHeaderResult := do
  header.checkValidity
  modifyBuf fun b => (b.setUnreadContentLength header.contentLength).setUnreadPaddingLength
    header.paddingLength
  let result ← dispatch conn fuel call header
  assertInvariantOk conn
  pure result

/-! ### `underflow()` -/

/-- Enters the call into the history. -/
def noteEntry : M Unit := Prog.modify State.entered

/-- Enters the get area into the history. -/
def noteDelivery : M Unit := Prog.modify fun s =>
  { s with world := s.world.addDelivery ⟨s.buf, s.world.io⟩ }

/-- Enters `header` into the history. -/
def noteDispatch (stale : Bool) (header : Header) : M Unit := Prog.modify fun s =>
  { s with world := s.world.addDispatch ⟨header, stale, s.buf, s.world.io⟩ }

theorem noteDelivery_run (b : ServerStreambuf) (w : World) :
    noteDelivery ⟨b, w⟩ = (.ok (), ⟨b, w.addDelivery ⟨b, w.io⟩⟩) := rfl

theorem noteDispatch_run (stale : Bool) (header : Header) (b : ServerStreambuf) (w : World) :
    noteDispatch stale header ⟨b, w⟩ = (.ok (), ⟨b, w.addDispatch ⟨header, stale, b, w.io⟩⟩) := rfl

theorem noteAnswer_run (vars : NamesValues) (b : ServerStreambuf) (w : World) :
    noteAnswer vars ⟨b, w⟩ =
      (.ok (), ⟨b, w.addAnswer ⟨vars.pairs_.map NameValue.name, b, w.io⟩⟩) := rfl

/-- Reading the stream records. -/
def readRecords : M Unit := do
  let s ← Prog.get
  if s.buf.gptr = s.buf.bufferEnd_ then do
    let bytes ← onIo (Io.read s.buf.bufferSize_)
    if bytes.length > 0 then do
      storeBuf 0 bytes
      modifyBuf fun b => (b.setBufferEnd bytes.length).setg 0 0 bytes.length
    else
      Prog.throw (.fcgi "FastCGI protocol violation")
  else pure ()

/-- Setting up the get area for the content.  `none` goes on with the padding; otherwise the
round ends here. -/
def setUpContent (conn : ConnectionInfo) : M (Option (Flow Unit (Option UInt8))) := do
  let s ← Prog.get
  if s.buf.unreadContentLength_ > 0 then do
    let count := min s.buf.unreadContentLength_ (s.buf.bufferEnd_ - s.buf.gptr)
    modifyBuf fun b => b.setUnreadContentLength (b.unreadContentLength_ - count)
    if ¬ s.buf.isContentMustBeDiscarded_ then do
      modifyBuf fun b => b.setg b.gptr b.gptr (b.gptr + count)
      noteDelivery
      assertInvariantOk conn
      pure (some (.done (some (s.buf.buffer_ s.buf.gptr))))
    else do
      modifyBuf fun b => b.gbump count
      let s ← Prog.get
      if s.buf.unreadContentLength_ > 0 then pure (some (.again ()))
      else do
        modifyBuf fun b => b.setContentMustBeDiscarded false
        pure none
  else pure none

/-- Skipping the padding; whether some of it is still to come. -/
def skipPadding : M Bool := do
  let s ← Prog.get
  if s.buf.unreadPaddingLength_ > 0 then do
    let count := min s.buf.unreadPaddingLength_ (s.buf.bufferEnd_ - s.buf.gptr)
    modifyBuf fun b => (b.setUnreadPaddingLength (b.unreadPaddingLength_ - count)).gbump count
    let s ← Prog.get
    pure (s.buf.unreadPaddingLength_ > 0)
  else pure false

/-- Accumulating the header; `header` is what of it is there. -/
def accumulateHeader (header : List UInt8) : M (List UInt8) := do
  let s ← Prog.get
  let count := min (Header.size - header.length) (s.buf.bufferEnd_ - s.buf.gptr)
  modifyBuf fun b => b.gbump count
  pure (header ++ s.buf.buffer_.load s.buf.gptr count)

section run

variable {conn : ConnectionInfo} {s : State} {b b' : ServerStreambuf} {w : World} {n : Nat}

/-- Without content there is nothing to set up. -/
theorem setUpContent_none (h : s.buf.unreadContentLength_ = 0) :
    setUpContent conn s = (.ok none, s) := by
  rw [setUpContent, Prog.bind_ok (Prog.get_run _), if_neg (h ▸ Nat.lt_irrefl 0), Prog.pure_run]

/-- Content to be read becomes the get area, as far as it is at hand. -/
theorem setUpContent_deliver (hu : 0 < b.unreadContentLength_)
    (hd : b.isContentMustBeDiscarded_ = false)
    (hn : n = min b.unreadContentLength_ (b.bufferEnd_ - b.gptr))
    (hb' : b' = (b.setUnreadContentLength (b.unreadContentLength_ - n)).setg b.gptr b.gptr
      (b.gptr + n)) :
    setUpContent conn ⟨b, w⟩ = (do
      assertInvariantOk conn
      pure (some (.done (some (b.buffer_ b.gptr)))) : M _) ⟨b', w.addDelivery ⟨b', w.io⟩⟩ := by
  rw [setUpContent, Prog.bind_ok (Prog.get_run _)]
  dsimp only
  rw [if_pos hu, Prog.bind_ok (modifyBuf_run _), if_pos (Bool.eq_false_iff.mp hd), ← hn,
    Prog.bind_ok (modifyBuf_eq hb'.symm), Prog.bind_ok (noteDelivery_run _ _)]

/-- Content to be discarded is passed over, as far as it is at hand. -/
theorem setUpContent_discard (hu : 0 < b.unreadContentLength_)
    (hd : b.isContentMustBeDiscarded_ = true)
    (hn : n = min b.unreadContentLength_ (b.bufferEnd_ - b.gptr))
    (hb' : b' = (b.setUnreadContentLength (b.unreadContentLength_ - n)).gbump n) :
    setUpContent conn ⟨b, w⟩ = if 0 < b'.unreadContentLength_ then (.ok (some (.again ())), ⟨b', w⟩)
      else (.ok none, ⟨b'.setContentMustBeDiscarded false, w⟩) := by
  rw [setUpContent, Prog.bind_ok (Prog.get_run _)]
  dsimp only
  rw [if_pos hu, Prog.bind_ok (modifyBuf_run _), if_neg (not_not.mpr hd), ← hn,
    Prog.bind_ok (modifyBuf_eq hb'.symm), Prog.bind_ok (Prog.get_run _)]
  split
  · exact Prog.pure_run _ _
  · rw [Prog.bind_ok (modifyBuf_run _), Prog.pure_run]

/-- Without padding there is nothing to skip. -/
theorem skipPadding_none (h : s.buf.unreadPaddingLength_ = 0) :
    skipPadding s = (.ok false, s) := by
  rw [skipPadding, Prog.bind_ok (Prog.get_run _), if_neg (h ▸ Nat.lt_irrefl 0), Prog.pure_run]

/-- The padding at hand is skipped. -/
theorem skipPadding_run (hp : 0 < b.unreadPaddingLength_)
    (hn : n = min b.unreadPaddingLength_ (b.bufferEnd_ - b.gptr))
    (hb' : b' = (b.setUnreadPaddingLength (b.unreadPaddingLength_ - n)).gbump n) :
    skipPadding ⟨b, w⟩ = (.ok (decide (0 < b'.unreadPaddingLength_)), ⟨b', w⟩) := by
  rw [skipPadding, Prog.bind_ok (Prog.get_run _)]
  dsimp only
  rw [if_pos hp, ← hn, Prog.bind_ok (modifyBuf_eq hb'.symm), Prog.bind_ok (Prog.get_run _),
    Prog.pure_run]

/-- The bytes of the header at hand are appended. -/
theorem accumulateHeader_run {header : List UInt8}
    (hn : n = min (8 - header.length) (b.bufferEnd_ - b.gptr)) :
    accumulateHeader header ⟨b, w⟩ =
      (.ok (header ++ b.buffer_.load b.gptr n), ⟨b.gbump n, w⟩) := by
  rw [accumulateHeader, Prog.bind_ok (Prog.get_run _)]
  dsimp only [Header.size]
  rw [← hn, Prog.bind_ok (modifyBuf_run _), Prog.pure_run]

/-- Nothing is missing of the header. -/
theorem accumulateHeader_all {header : List UInt8} (hlen : 8 ≤ header.length) :
    accumulateHeader header ⟨b, w⟩ = (.ok header, ⟨b, w⟩) := by
  have h0 : 0 = min (8 - header.length) (b.bufferEnd_ - b.gptr) := by omega
  rw [accumulateHeader_run h0, ServerStreambuf.gbump_zero, Mem.load_zero, List.append_nil]

end run

/-- The lambda `set_end_of_stream`. -/
def setEndOfStream (conn : ConnectionInfo) : M Unit := do
  modifyBuf fun b => (b.setg b.gptr b.gptr b.gptr).setEndOfStream true
  assertInvariantOk conn

/-- What `underflow()` does with the result of `process_header()`. -/
def afterProcess (conn : ConnectionInfo) (header : List UInt8) :
    ProcessHeaderResult → M (Flow (List UInt8) (Option UInt8))
  | .requestRejected => do
    setEndOfStream conn
    pure (.done none)
  | .managementProcessed => pure (.again header)
  | .contentMustBeConsumed => do
    let s ← Prog.get
    if s.buf.unreadContentLength_ = 0 then do
      setEndOfStream conn
      let s ← Prog.get
      if s.buf.isReadyToFilterData conn then resetReader conn .data else pure ()
      pure (.done none)
    else pure (.again header)
  | .contentMustBeDiscarded => do
    modifyBuf fun b => b.setContentMustBeDiscarded true
    pure (.again header)

/-- Processing the header. -/
def processAccumulated (conn : ConnectionInfo) (fuel : Nat) (call : M (Option UInt8))
    (header : List UInt8) : M (Flow (List UInt8) (Option UInt8)) := do
  modifyBuf fun b => b.setg b.gptr b.gptr b.gptr
  let phr ← processHeader conn fuel call (Header.ofBytes header)
  afterProcess conn header phr

/-- A complete header is processed from the settled state, the dispatch entered into the history. -/
theorem processing_run {conn : ConnectionInfo} {fuel : Nat} {call : M (Option UInt8)}
    (stale : Bool) (header : List UInt8) (b : ServerStreambuf) (w : World) :
    (do noteDispatch stale (Header.ofBytes header)
        processAccumulated conn fuel call header : M _) ⟨b, w⟩ =
      (processHeader conn fuel call (Header.ofBytes header) >>= afterProcess conn header)
        ⟨b.setg b.gptr b.gptr b.gptr, w.addDispatch ⟨Header.ofBytes header, stale, b, w.io⟩⟩ := by
  rw [Prog.bind_ok (noteDispatch_run _ _ _ _), processAccumulated, Prog.bind_ok (modifyBuf_run _)]

/-- There is content of the stream to come. -/
theorem afterProcess_more {conn : ConnectionInfo} {header : List UInt8} {s : State}
    (h : s.buf.unreadContentLength_ ≠ 0) :
    afterProcess conn header .contentMustBeConsumed s = (.ok (.again header), s) := by
  rw [afterProcess, Prog.bind_ok (Prog.get_run _), if_neg h, Prog.pure_run]

/-- The header has ended the stream. -/
theorem afterProcess_end {conn : ConnectionInfo} {header : List UInt8} {s : State}
    (h : s.buf.unreadContentLength_ = 0) :
    afterProcess conn header .contentMustBeConsumed s = (do
      setEndOfStream conn
      let s ← Prog.get
      if s.buf.isReadyToFilterData conn then resetReader conn .data else pure ()
      pure (.done none) : M _) s := by
  rw [afterProcess, Prog.bind_ok (Prog.get_run _), if_pos h]

/-- One round of the loop.  The loop variable is what has been read of the local `header`; its
length is `read_header_length`. -/
def underflowRound (conn : ConnectionInfo) (fuel : Nat) (call : M (Option UInt8))
    (header : List UInt8) : M (Flow (List UInt8) (Option UInt8)) := do
  readRecords
  let s ← Prog.get
  Prog.assert (s.buf.bufferEnd_ - s.buf.gptr > 0)
  match ← setUpContent conn with
  | some (.done c) => pure (.done c)
  | some (.again _) => pure (.again header)
  | none => do
    let s ← Prog.get
    Prog.assert (s.buf.unreadContentLength_ = 0)
    if ← skipPadding then pure (.again header)
    else do
      let s ← Prog.get
      Prog.assert (s.buf.unreadPaddingLength_ = 0)
      let header' ← accumulateHeader header
      if header'.length < Header.size then pure (.again header')
      else do
        Prog.assert (header'.length = Header.size)
        noteDispatch (header.length = Header.size) (Header.ofBytes header')
        processAccumulated conn fuel call header'

/-- What `underflow()` does before its loop. -/
def enterUnderflow (loop : M (Option UInt8)) : M (Option UInt8) := do
  let s ← Prog.get
  Prog.assert (s.buf.isReader ∧ ¬ s.buf.isClosed)
  if s.buf.isEndOfStream_ then pure none
  else do
    noteEntry
    loop

/-- The loop of `underflow()`, with the calls of it in a round. -/
def underflowLoop (conn : ConnectionInfo) : Nat → List UInt8 → M (Option UInt8) :=
  Prog.recLoop fun fuel loop header => underflowRound conn fuel (enterUnderflow (loop [])) header

/-- `underflow()`. -/
def underflow (conn : ConnectionInfo) (fuel : Nat) : M (Option UInt8) :=
  enterUnderflow (underflowLoop conn fuel [])

end Fcgi

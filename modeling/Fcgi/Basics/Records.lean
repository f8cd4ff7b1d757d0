import Fcgi.Basics.Header

/-!
# Basics — record bodies, and records on the wire

`Begin_request_body`, `End_request_body`, `End_request_record`, `Unknown_type_body` and
`Unknown_type_record`, as the bytes they are sent as.

`Record` is a whole record on the wire, of any sender: a frame of the framing `fcgi`, whose
header announces content and padding.  `Record.parse` cuts a byte string into records.

The code has no such record: it processes headers, and reads or writes what is announced.  Records
are what a theorem about it is stated in.  So they are built with the proof that the body is as
long as the header says (`Record.mk`), and the records the code assembles in a buffer are shown to
be the bytes of such (`endRequestRecord_run`, `unknownTypeRecord_run`).
-/

namespace Fcgi
open Lib

/-- `Begin_request_body`, without its reserved bytes. -/
structure BeginRequestBody where
  roleB1_ : UInt8
  roleB0_ : UInt8
  flags_ : UInt8
  deriving DecidableEq, Repr

namespace BeginRequestBody

/-- `sizeof(Begin_request_body)`. -/
def size : Nat := 8

/-- The body from its eight bytes. -/
def ofBytes (bs : List UInt8) : BeginRequestBody := ⟨bs.getD 0 0, bs.getD 1 0, bs.getD 2 0⟩

/-- The body is read from eight bytes. -/
theorem ofBytes_take (bs : List UInt8) : ofBytes (bs.take 8) = ofBytes bs := by
  simp [ofBytes, List.getD_eq_getElem?_getD]

/-- `role()`. -/
def role (b : BeginRequestBody) : Role := ⟨(b.roleB1_.toNat <<< 8) + b.roleB0_.toNat⟩

/-- `flags_ & Flags::keep_conn`. -/
def isKeepConn (b : BeginRequestBody) : Bool := b.flags_ &&& 1 != 0

end BeginRequestBody

/-- `End_request_body(application_status, protocol_status)`. -/
def endRequestBody (applicationStatus : BitVec 32) (protocolStatus : ProtocolStatus) :
    List UInt8 :=
  [UInt8.ofBitVec ((applicationStatus.sshiftRight 24).setWidth 8),
    UInt8.ofBitVec ((applicationStatus.sshiftRight 16).setWidth 8),
    UInt8.ofBitVec ((applicationStatus.sshiftRight 8).setWidth 8),
    UInt8.ofBitVec (applicationStatus.setWidth 8), protocolStatus.toByte, 0, 0, 0]

/-- The body of an end-request record has eight bytes. -/
theorem length_endRequestBody (applicationStatus : BitVec 32) (protocolStatus : ProtocolStatus) :
    (endRequestBody applicationStatus protocolStatus).length = 8 := rfl

/-- `sizeof(End_request_record)`. -/
def endRequestRecordSize : Nat := 16

/-- `End_request_record(request_id, application_status, protocol_status)`. -/
def endRequestRecord {σ : Type} (requestId : Nat) (applicationStatus : BitVec 32)
    (protocolStatus : ProtocolStatus) : Prog σ Exception (List UInt8) := do
  let header ← Header.make .endRequest requestId 8 0
  pure (header.bytes ++ endRequestBody applicationStatus protocolStatus)

/-- `Unknown_type_record(record_type)`. -/
def unknownTypeRecord {σ : Type} (recordType : RecordType) : Prog σ Exception (List UInt8) := do
  let header ← Header.make .unknownType Header.nullRequestId 8 0
  pure (header.bytes ++ [recordType.value, 0, 0, 0, 0, 0, 0, 0])

/-! ### Records on the wire -/

/-- The framing of the protocol: a header of version 1 announces content and padding. -/
def fcgi : Framing where
  headerLength := 8
  headerLength_pos := by decide
  bodyLength bs :=
    if (Header.ofBytes bs).protocolVersion = 1 then
      some ((Header.ofBytes bs).contentLength + (Header.ofBytes bs).paddingLength)
    else none

/-- A record: a header of version 1 and as many bytes as it announces. -/
abbrev Record : Type := Frame fcgi

namespace Record

/-- The header of a record. -/
def head (r : Record) : Header := Header.ofBytes r.header

/-- The content of the record. -/
def content (r : Record) : List UInt8 := r.body.take r.head.contentLength

/-- The padding behind the content. -/
def padding (r : Record) : List UInt8 := r.body.drop r.head.contentLength

/-- The type of the record. -/
def recordType (r : Record) : RecordType := r.head.recordType

/-- The request the record belongs to. -/
def requestId (r : Record) : Nat := r.head.requestId

/-- The records a byte string starts with, and what is left. -/
abbrev parse : List UInt8 → List Record × List UInt8 := Framing.frames fcgi

theorem protocolVersion_head (r : Record) : r.head.protocolVersion = 1 := by
  have h := r.body_length
  simp only [fcgi] at h
  split at h
  · assumption
  · cases h

/-- The body is content and padding. -/
theorem length_body (r : Record) :
    r.body.length = r.head.contentLength + r.head.paddingLength := by
  have h := r.body_length
  simp only [fcgi] at h
  split at h
  · exact (Option.some.inj h).symm
  · cases h

@[simp] theorem bytes_head (r : Record) : r.head.bytes = r.header :=
  Header.bytes_ofBytes r.header_length

/-- There is as much content as announced. -/
@[simp] theorem length_content (r : Record) : r.content.length = r.head.contentLength := by
  rw [content, List.length_take, length_body]; omega

/-- There is as much padding as announced. -/
@[simp] theorem length_padding (r : Record) : r.padding.length = r.head.paddingLength := by
  rw [padding, List.length_drop, length_body]; omega

/-- The body, cut into content and padding. -/
theorem body_eq (r : Record) : r.body = r.content ++ r.padding := by
  rw [content, padding, List.take_append_drop]

theorem header_ne_nil (r : Record) : r.header ≠ [] := fun e => by
  have := r.header_length
  rw [e] at this
  cases this

/-- The longest a record can be. -/
def maxLength : Nat := Header.size + Header.maxContentLength + Header.maxPaddingLength

/-- The bytes of a record: header, content, padding. -/
theorem bytes_eq (r : Record) : r.bytes = r.head.bytes ++ (r.content ++ r.padding) := by
  rw [bytes_head, ← body_eq, Frame.bytes]

/-- No record is longer than `maxLength`. -/
theorem length_bytes_le (r : Record) : r.bytes.length ≤ maxLength := by
  have hc := r.head.contentLength_le
  have hp := r.head.paddingLength_le
  rw [bytes_eq, List.length_append, List.length_append, Header.length_bytes, length_content,
    length_padding, maxLength, Header.size, Header.maxContentLength, Header.maxPaddingLength]
  omega

/-- The record with a given header, content and padding. -/
def mk (h : Header) (content padding : List UInt8) (hv : h.protocolVersion = 1)
    (hc : content.length = h.contentLength) (hp : padding.length = h.paddingLength) : Record where
  header := h.bytes
  body := content ++ padding
  header_length := rfl
  body_length := by
    simp only [fcgi, Header.ofBytes_bytes, hv, if_true, List.length_append, hc, hp]

section mk

variable {h : Header} {c p : List UInt8} (hv : h.protocolVersion = 1)
  (hc : c.length = h.contentLength) (hp : p.length = h.paddingLength)

@[simp] theorem head_mk : (mk h c p hv hc hp).head = h := rfl

@[simp] theorem content_mk : (mk h c p hv hc hp).content = c := by
  rw [content, head_mk, ← hc]; exact List.take_left

@[simp] theorem padding_mk : (mk h c p hv hc hp).padding = p := by
  rw [padding, head_mk, ← hc]; exact List.drop_left

/-- The bytes of a record from its parts. -/
theorem bytes_mk : (mk h c p hv hc hp).bytes = h.bytes ++ (c ++ p) := rfl

end mk

/-- The record `End_request_record` lies in memory as. -/
def endRequest (id : Nat) (status : BitVec 32) (protocolStatus : ProtocolStatus) : Record :=
  mk (Header.ofFields .endRequest id 8 0) (Fcgi.endRequestBody status protocolStatus) []
    (Header.protocolVersion_ofFields _) (Header.contentLength_ofFields (c := 8) _ (by decide)).symm
    (Header.paddingLength_ofFields (p := 0) _ (by decide)).symm

/-- The record `Unknown_type_record` lies in memory as. -/
def unknownType (t : RecordType) : Record :=
  mk (Header.ofFields .unknownType 0 8 0) [t.value, 0, 0, 0, 0, 0, 0, 0] []
    (Header.protocolVersion_ofFields _) (Header.contentLength_ofFields (c := 8) _ (by decide)).symm
    (Header.paddingLength_ofFields (p := 0) _ (by decide)).symm

section

variable {σ : Type} {id : Nat} {status : BitVec 32} {ps : ProtocolStatus} {t : RecordType}

/-- What the code assembles is the end-request record. -/
theorem endRequestRecord_run (s : σ) :
    endRequestRecord id status ps s = (.ok (endRequest id status ps).bytes, s) := by
  rw [endRequestRecord, Prog.bind_ok (Header.make_run (by decide) (by decide) _), Prog.pure_run]
  rfl

/-- What the code assembles is the unknown-type record. -/
theorem unknownTypeRecord_run (s : σ) :
    unknownTypeRecord t s = (.ok (unknownType t).bytes, s) := by
  rw [unknownTypeRecord, Prog.bind_ok (Header.make_run (by decide) (by decide) _), Prog.pure_run]
  rfl

theorem recordType_endRequest : (endRequest id status ps).recordType = .endRequest := rfl

theorem requestId_endRequest (h : id < 65536) : (endRequest id status ps).requestId = id :=
  Header.requestId_ofFields _ h

/-- The content of an end-request record. -/
theorem content_endRequest : (endRequest id status ps).content = endRequestBody status ps :=
  content_mk _ _ _

theorem padding_endRequest : (endRequest id status ps).padding = [] := padding_mk _ _ _

theorem length_endRequest : (endRequest id status ps).bytes.length = 16 := rfl

theorem length_unknownType : (unknownType t).bytes.length = 16 := rfl

end

end Record

end Fcgi

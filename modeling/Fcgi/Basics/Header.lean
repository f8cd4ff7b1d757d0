import Fcgi.Lib.Prog
import Fcgi.Lib.Framing
import Fcgi.Base.Exceptions

/-!
# Basics — record types, statuses, roles and the record header

`Record_type`, `Protocol_status`, `Role`, `Stream_type` and `Header`.  An enumeration the code
casts from a byte or from two bytes of the wire is a value of that type with names for some of
its values, since the cast admits every value.

A header is its eight bytes, as the code has them: `Header.ofBytes` and `Header.bytes` are inverse,
and the numbers in it are computed where they are asked for.  `Header.ofFields` builds one from
numbers, and `Header.make` is the constructor of the code, which checks them.
-/

namespace Fcgi
open Lib

/-- `Record_type`: an enumeration over `unsigned char`. -/
structure RecordType where
  value : UInt8
  deriving DecidableEq, Repr

namespace RecordType

/-- The client begins a request. -/
def beginRequest : RecordType := ⟨1⟩
/-- The client aborts a request. -/
def abortRequest : RecordType := ⟨2⟩
/-- The server ends a request. -/
def endRequest : RecordType := ⟨3⟩
/-- The parameters of a request. -/
def params : RecordType := ⟨4⟩
/-- `stdin`. -/
def «in» : RecordType := ⟨5⟩
/-- `stdout`. -/
def out : RecordType := ⟨6⟩
/-- `stderr`. -/
def err : RecordType := ⟨7⟩
/-- The additional data of a filter. -/
def data : RecordType := ⟨8⟩
/-- The client asks for variables of the server. -/
def getValues : RecordType := ⟨9⟩
/-- The answer to that. -/
def getValuesResult : RecordType := ⟨10⟩
/-- The answer to a management record of an unknown type. -/
def unknownType : RecordType := ⟨11⟩

end RecordType

/-- `Stream_type`. -/
inductive StreamType where
  | params
  | «in»
  | out
  | err
  | data
  deriving DecidableEq, Repr

/-- `static_cast<Record_type>(type)`. -/
def StreamType.recordType : StreamType → RecordType
  | .params => .params
  | .«in» => .«in»
  | .out => .out
  | .err => .err
  | .data => .data

/-- No stream is sent in begin-request records. -/
theorem StreamType.recordType_ne_beginRequest (t : StreamType) :
    t.recordType ≠ .beginRequest := by
  cases t <;> decide

/-- `Protocol_status`. -/
inductive ProtocolStatus where
  | requestComplete
  | cantMpxConn
  | overloaded
  | unknownRole
  deriving DecidableEq, Repr

/-- The byte that stands for the status. -/
def ProtocolStatus.toByte : ProtocolStatus → UInt8
  | .requestComplete => 0
  | .cantMpxConn => 1
  | .overloaded => 2
  | .unknownRole => 3

/-- `Role`: the value of the two role bytes. -/
structure Role where
  value : Nat
  deriving DecidableEq, Repr

namespace Role

/-- Answers a request. -/
def responder : Role := ⟨1⟩
/-- Decides whether a request is permitted. -/
def authorizer : Role := ⟨2⟩
/-- Filters a file, which is sent as the data stream. -/
def filter : Role := ⟨3⟩

end Role

/-- `Header`: eight bytes, in the order they are sent. -/
structure Header where
  protocolVersion_ : UInt8
  recordType_ : UInt8
  requestIdB1_ : UInt8
  requestIdB0_ : UInt8
  contentLengthB1_ : UInt8
  contentLengthB0_ : UInt8
  paddingLength_ : UInt8
  reserved_ : UInt8
  deriving DecidableEq, Repr

namespace Header

/-- The id of management records. -/
def nullRequestId : Nat := 0
/-- The most content a header can announce. -/
def maxContentLength : Nat := 65535
/-- The most padding a header can announce. -/
def maxPaddingLength : Nat := 255

/-- `sizeof(Header)`. -/
def size : Nat := 8

/-- The header as it lies in memory. -/
def bytes (h : Header) : List UInt8 :=
  [h.protocolVersion_, h.recordType_, h.requestIdB1_, h.requestIdB0_, h.contentLengthB1_,
    h.contentLengthB0_, h.paddingLength_, h.reserved_]

/-- The header that lies in memory as `bs`; a missing byte is read as zero. -/
def ofBytes (bs : List UInt8) : Header :=
  ⟨bs.getD 0 0, bs.getD 1 0, bs.getD 2 0, bs.getD 3 0, bs.getD 4 0, bs.getD 5 0, bs.getD 6 0,
    bs.getD 7 0⟩

/-- `request_id()`. -/
def requestId (h : Header) : Nat := (h.requestIdB1_.toNat <<< 8) + h.requestIdB0_.toNat
/-- `content_length()`. -/
def contentLength (h : Header) : Nat :=
  (h.contentLengthB1_.toNat <<< 8) + h.contentLengthB0_.toNat
/-- `padding_length()`. -/
def paddingLength (h : Header) : Nat := h.paddingLength_.toNat
/-- `protocol_version()`. -/
def protocolVersion (h : Header) : Nat := h.protocolVersion_.toNat
/-- `record_type()`. -/
def recordType (h : Header) : RecordType := ⟨h.recordType_⟩
/-- `is_management_record()`. -/
def isManagementRecord (h : Header) : Bool := h.requestId == nullRequestId

variable {σ : Type}

/-- `check_validity()`. -/
def checkValidity (h : Header) : Prog σ Exception Unit :=
  if h.protocolVersion ≠ 1 then Prog.throw (.fcgi "FastCGI protocol violation") else pure ()

/-- The members the constructor sets. -/
def ofFields (recordType : RecordType) (requestId contentLen paddingLen : Nat) : Header :=
  { protocolVersion_ := 1
    recordType_ := recordType.value
    requestIdB1_ := UInt8.ofNat (requestId >>> 8)
    requestIdB0_ := UInt8.ofNat requestId
    contentLengthB1_ := UInt8.ofNat (contentLen >>> 8)
    contentLengthB0_ := UInt8.ofNat contentLen
    paddingLength_ := UInt8.ofNat paddingLen
    reserved_ := 0 }

/-- The constructor `Header(record_type, request_id, content_len, padding_len)`. -/
def make (recordType : RecordType) (requestId contentLen paddingLen : Nat) :
    Prog σ Exception Header := do
  Prog.assert (contentLen ≤ maxContentLength ∧ paddingLen ≤ maxPaddingLength)
  pure (ofFields recordType requestId contentLen paddingLen)

/-- The constructor, with lengths that a header can announce. -/
theorem make_run {t : RecordType} {id c p : Nat} (hc : c ≤ 65535) (hp : p ≤ 255) (s : σ) :
    make t id c p s = (.ok (ofFields t id c p), s) := by
  rw [make, Prog.bind_ok (Prog.assert_true ⟨hc, hp⟩ s), Prog.pure_run]

/-! ### Reading back what was written -/

@[simp] theorem length_bytes (h : Header) : h.bytes.length = 8 := rfl

@[simp] theorem ofBytes_bytes (h : Header) : ofBytes h.bytes = h := rfl

/-- A header is read from eight bytes. -/
theorem ofBytes_take (bs : List UInt8) : ofBytes (bs.take 8) = ofBytes bs := by
  simp [ofBytes, List.getD_eq_getElem?_getD]

/-- A header is read back from the front of a string. -/
theorem ofBytes_bytes_append (h : Header) (bs : List UInt8) : ofBytes (h.bytes ++ bs) = h := rfl

/-- Eight bytes are those of the header read from them. -/
theorem bytes_ofBytes : ∀ {bs : List UInt8}, bs.length = 8 → (ofBytes bs).bytes = bs
  | [_, _, _, _, _, _, _, _], _ => rfl

theorem requestId_lt (h : Header) : h.requestId < 65536 := by
  have := h.requestIdB1_.toNat_lt
  have := h.requestIdB0_.toNat_lt
  simp only [requestId, Nat.shiftLeft_eq]; omega

/-- A header announces no more content than two bytes can say. -/
theorem contentLength_le (h : Header) : h.contentLength ≤ 65535 := by
  have := h.contentLengthB1_.toNat_lt
  have := h.contentLengthB0_.toNat_lt
  simp only [contentLength, Nat.shiftLeft_eq]; omega

/-- A header announces no more padding than one byte can say. -/
theorem paddingLength_le (h : Header) : h.paddingLength ≤ 255 := by
  have := h.paddingLength_.toNat_lt
  simp only [paddingLength]; omega

section ofFields

variable (t : RecordType) {id c p : Nat}

@[simp] theorem protocolVersion_ofFields : (ofFields t id c p).protocolVersion = 1 := rfl

@[simp] theorem recordType_ofFields : (ofFields t id c p).recordType = t := rfl

/-- The id a header was built with. -/
theorem requestId_ofFields (h : id < 65536) : (ofFields t id c p).requestId = id := by
  simp only [ofFields, requestId, UInt8.toNat_ofNat', Nat.shiftLeft_eq, Nat.shiftRight_eq_div_pow]
  omega

/-- The length of the content a header was built with. -/
theorem contentLength_ofFields (h : c < 65536) : (ofFields t id c p).contentLength = c := by
  simp only [ofFields, contentLength, UInt8.toNat_ofNat', Nat.shiftLeft_eq,
    Nat.shiftRight_eq_div_pow]
  omega

/-- The length of the padding a header was built with. -/
theorem paddingLength_ofFields (h : p < 256) : (ofFields t id c p).paddingLength = p := by
  simp only [ofFields, paddingLength, UInt8.toNat_ofNat']
  omega

end ofFields

end Header

end Fcgi

import Fcgi.Connection.BeginRequest

/-!
# Connection — the first record of a client

`accept()` takes a header and, if it is a begin-request's, a body; the descriptor hands out each
of them whole.  `FirstRecord` says, byte by byte, what has to be there.

**`accept_classified`**: if it is, `accept()` constructs the connection asked for.  If it is not,
`accept()` throws, and has sent nothing or one END_REQUEST record.

The two reads are run on the bytes (`readHeader_run`, `readBeginRequestBody_run`), the tests of the
source are stated on them (`beginHeader_iff`, `known_role_iff`), and there are as many cases as ways
to end: a short or foreign header, a record of another kind, a body that is cut off, an unknown
role, and a request.  What is sent names the id that the client has given, so it is built of the
client's own bytes (`endRequest_bytes`).
-/

namespace Fcgi
open Lib

/-- The number of two bytes, the most significant first. -/
def be16 (hi lo : UInt8) : Nat := 256 * hi.toNat + lo.toNat

namespace FirstRecord

variable (bs : List UInt8)

/-- The header is of a begin-request record with the right content length and an id. -/
structure BeginHeader : Prop where
  type : bs.getD 1 0 = 1
  id : be16 (bs.getD 2 0) (bs.getD 3 0) ≠ 0
  content : be16 (bs.getD 4 0) (bs.getD 5 0) = 8

instance : Decidable (BeginHeader bs) :=
  decidable_of_iff (bs.getD 1 0 = 1 ∧ be16 (bs.getD 2 0) (bs.getD 3 0) ≠ 0 ∧
    be16 (bs.getD 4 0) (bs.getD 5 0) = 8) ⟨fun h => ⟨h.1, h.2.1, h.2.2⟩, fun h =>
    ⟨h.type, h.id, h.content⟩⟩

/-- `bs` starts with a begin-request for one of the three roles. -/
structure Begins : Prop where
  version : bs.getD 0 0 = 1
  header : BeginHeader bs
  length : 16 ≤ bs.length
  role : be16 (bs.getD 8 0) (bs.getD 9 0) ∈ [1, 2, 3]

/-- Nothing is sent to a client that begins with `bs`. -/
def Silent : Prop := bs.length < 8 ∨ bs.getD 0 0 ≠ 1 ∨ (BeginHeader bs ∧ bs.length < 16)

/-- The record sent to a client that does not begin a request: its id, application status 0 and
the protocol status `status`. -/
def refusal (status : UInt8) : List UInt8 :=
  [1, 3, bs.getD 2 0, bs.getD 3 0, 0, 8, 0, 0, 0, 0, 0, 0, status, 0, 0, 0]

end FirstRecord

section

variable {bs : List UInt8}

/-! ### The fields, byte by byte -/

/-- The source joins two bytes by a shift. -/
theorem shift_add_eq (hi lo : UInt8) : (hi.toNat <<< 8) + lo.toNat = be16 hi lo := by
  rw [be16, Nat.shiftLeft_eq, Nat.mul_comm]

/-- The id is in the bytes 2 and 3. -/
theorem Header.requestId_ofBytes : (Header.ofBytes bs).requestId =
    be16 (bs.getD 2 0) (bs.getD 3 0) := shift_add_eq _ _

/-- The content length is in the bytes 4 and 5. -/
theorem Header.contentLength_ofBytes : (Header.ofBytes bs).contentLength =
    be16 (bs.getD 4 0) (bs.getD 5 0) := shift_add_eq _ _

theorem Header.protocolVersion_ofBytes : (Header.ofBytes bs).protocolVersion = 1 ↔
    bs.getD 0 0 = 1 := by
  rw [Header.protocolVersion, ← UInt8.toNat_inj]
  rfl

/-- The role is in the first two bytes of the body. -/
theorem BeginRequestBody.role_ofBytes : (BeginRequestBody.ofBytes (bs.drop 8)).role =
    ⟨be16 (bs.getD 8 0) (bs.getD 9 0)⟩ := by
  simp only [BeginRequestBody.role, BeginRequestBody.ofBytes, shift_add_eq,
    List.getD_eq_getElem?_getD, List.getElem?_drop]

/-- What `accept()` asks of the header, byte by byte. -/
theorem beginHeader_iff : FirstRecord.BeginHeader bs ↔
    (Header.ofBytes bs).recordType = .beginRequest ∧ ¬ (Header.ofBytes bs).isManagementRecord ∧
      (Header.ofBytes bs).contentLength = BeginRequestBody.size := by
  rw [Header.contentLength_ofBytes, Header.isManagementRecord, Header.requestId_ofBytes,
    beq_iff_eq]
  constructor
  · rintro ⟨ht, hid, hc⟩
    exact ⟨congrArg RecordType.mk ht, hid, hc⟩
  · rintro ⟨ht, hid, hc⟩
    exact ⟨congrArg RecordType.value ht, hid, hc⟩

theorem known_role_iff : ((BeginRequestBody.ofBytes (bs.drop 8)).role = .responder ∨
    (BeginRequestBody.ofBytes (bs.drop 8)).role = .authorizer ∨
      (BeginRequestBody.ofBytes (bs.drop 8)).role = .filter) ↔
    be16 (bs.getD 8 0) (bs.getD 9 0) ∈ [1, 2, 3] := by
  rw [BeginRequestBody.role_ofBytes]
  simp [Role.responder, Role.authorizer, Role.filter]

/-- The id is sent back as it was received. -/
theorem endRequest_bytes (status : ProtocolStatus) :
    (Record.endRequest (Header.ofBytes bs).requestId 0 status).bytes =
      FirstRecord.refusal bs status.toByte := by
  have hhi : ∀ hi lo : UInt8, UInt8.ofNat (be16 hi lo >>> 8) = hi := fun hi lo => by
    have := lo.toNat_lt
    rw [← UInt8.toNat_inj, UInt8.toNat_ofNat', be16, Nat.shiftRight_eq_div_pow]
    have := hi.toNat_lt
    omega
  have hlo : ∀ hi lo : UInt8, UInt8.ofNat (be16 hi lo) = lo := fun hi lo => by
    have := lo.toNat_lt
    rw [← UInt8.toNat_inj, UInt8.toNat_ofNat', be16]
    omega
  have hbytes : ∀ id, (Record.endRequest id 0 status).bytes = (Header.ofFields .endRequest id 8
    0).bytes ++ (endRequestBody 0 status ++ []) := fun _ => rfl
  rw [hbytes, Header.requestId_ofBytes, Header.ofFields, hhi, hlo]
  rfl

/-- The flag is the lowest bit of the third byte of the body. -/
theorem BeginRequestBody.isKeepConn_ofBytes : (BeginRequestBody.ofBytes (bs.drop 8)).isKeepConn =
    decide ((bs.getD 10 0).toNat % 2 = 1) := by
  have hbit : ∀ b : UInt8, (b &&& 1 != 0) = decide (b.toNat % 2 = 1) := by
    rintro ⟨b⟩
    revert b
    decide +kernel
  simp only [BeginRequestBody.isKeepConn, BeginRequestBody.ofBytes, hbit,
    List.getD_eq_getElem?_getD, List.getElem?_drop]

/-- The connection is made with what has been read. -/
theorem Connection.construct_members {uninit : Uninit} {fuel : Nat} {role : Role} {id : Nat}
    {keep : Bool} {w w' : World} {c : Connection}
    (h : Connection.construct uninit fuel role id keep w = (.ok c, w')) :
    c.role_ = role ∧ c.requestId_ = id ∧ c.isKeepConnection_ = keep := by
  obtain ⟨p, w₁, -, h⟩ := Prog.bind_eq_ok h
  cases h
  exact ⟨rfl, rfl, rfl⟩

/-! ### Reading the record -/

/-- Reading the header, by what is there. -/
theorem readHeader_run {w : World} {io : Io} (h : Io.read 8 w.io = (.ok (bs.take 8), io)) :
    readHeader w = (if 8 ≤ bs.length ∧ bs.getD 0 0 = 1 then .ok (Header.ofBytes bs)
      else .error (.exc (.fcgi "FastCGI protocol violation")), w.setIo io) := by
  have hread : World.onIo (Io.read Header.size) w = (.ok (bs.take 8), w.setIo io) :=
    World.onIo_run h
  have hsize : Header.size = 8 := rfl
  rw [readHeader, Prog.bind_ok hread, List.length_take, Header.ofBytes_take,
    Header.checkValidity]
  by_cases hlen : 8 ≤ bs.length
  · rw [if_neg (by omega)]
    by_cases hv : bs.getD 0 0 = 1
    · rw [if_neg (not_not.mpr (Header.protocolVersion_ofBytes.mpr hv)), if_pos ⟨hlen, hv⟩]
      rfl
    · rw [if_pos (fun e => hv (Header.protocolVersion_ofBytes.mp e)), if_neg fun e => hv e.2]
      rfl
  · rw [if_pos (by omega), if_neg fun e => hlen e.1]
    rfl

/-- Reading the body, by what is there. -/
theorem readBeginRequestBody_run {w : World} {io : Io}
    (h : Io.read 8 w.io = (.ok ((bs.drop 8).take 8), io)) :
    readBeginRequestBody w = (if 16 ≤ bs.length then .ok (BeginRequestBody.ofBytes (bs.drop 8))
      else .error (.exc (.fcgi "FastCGI protocol violation")), w.setIo io) := by
  have hread : World.onIo (Io.read BeginRequestBody.size) w =
      (.ok ((bs.drop 8).take 8), w.setIo io) := World.onIo_run h
  have hsize : BeginRequestBody.size = 8 := rfl
  rw [readBeginRequestBody, Prog.bind_ok hread, List.length_take, List.length_drop,
    BeginRequestBody.ofBytes_take]
  by_cases hlen : 16 ≤ bs.length
  · rw [if_neg (by omega), if_pos hlen]
    rfl
  · rw [if_pos (by omega), if_neg hlen]
    rfl

/-- A refusal, by the bytes of the client. -/
theorem acceptEndRequest_run {α : Type} (status : ProtocolStatus) (e : Exception) (w : World) :
    (acceptEndRequest (Header.ofBytes bs) status e : World.M α) w =
      refuse (FirstRecord.refusal bs status.toByte) e w := by
  rw [acceptEndRequest, Prog.bind_ok (Record.endRequestRecord_run _), endRequest_bytes]

/-- Nothing follows a refusal. -/
theorem refuse_bind {α β : Type} (record : List UInt8) (e : Exception) (f : α → World.M β) :
    (refuse record e >>= f) = refuse record e := by
  rw [refuse, bind_assoc]
  rfl

/-! ### The ends of `accept()` -/

section

variable (uninit : Uninit) (fuel : Nat) {w : World} {io₁ io₂ : Io}

/-- Where the first record is refused, so is the connection. -/
theorem accept_of_refused {w' : World} {record : List UInt8} {e : Exception}
    (hrun : readBeginRequest w = refuse record e w') :
    accept uninit fuel w = refuse record e w' := by
  rw [accept, Prog.bind_run, hrun]
  exact congrFun (refuse_bind record e _) w'

/-- There is no header of version 1. -/
theorem accept_noHeader (hheader : Io.read 8 w.io = (.ok (bs.take 8), io₁))
    (h : ¬ (8 ≤ bs.length ∧ bs.getD 0 0 = 1)) :
    accept uninit fuel w =
      (.error (.exc (.fcgi "FastCGI protocol violation")), w.setIo io₁) := by
  have hrun := readHeader_run hheader
  rw [if_neg h] at hrun
  have hbegin : readBeginRequest w = _ := Prog.bind_error hrun
  rw [accept, Prog.bind_error hbegin]

/-- The header is another one. -/
theorem accept_otherHeader (hheader : Io.read 8 w.io = (.ok (bs.take 8), io₁))
    (hh : 8 ≤ bs.length ∧ bs.getD 0 0 = 1) (hb : ¬ FirstRecord.BeginHeader bs) :
    accept uninit fuel w = refuse (FirstRecord.refusal bs 1) (.fcgi "FastCGI protocol violation")
      (w.setIo io₁) := by
  have hrun := readHeader_run hheader
  rw [if_pos hh] at hrun
  refine accept_of_refused uninit fuel ?_
  rw [readBeginRequest, Prog.bind_ok hrun, if_neg fun h => hb (beginHeader_iff.mpr h),
    acceptEndRequest_run]
  rfl

section

variable (hheader : Io.read 8 w.io = (.ok (bs.take 8), io₁)) (hh : 8 ≤ bs.length ∧ bs.getD 0 0 = 1)
  (hb : FirstRecord.BeginHeader bs) (hbody : Io.read 8 io₁ = (.ok ((bs.drop 8).take 8), io₂))

include hheader hh hb hbody

/-- The body is short. -/
theorem accept_shortBody (hlen : ¬ 16 ≤ bs.length) :
    accept uninit fuel w =
      (.error (.exc (.fcgi "FastCGI protocol violation")), w.setIo io₂) := by
  have hrun := readHeader_run hheader
  have hrun' := readBeginRequestBody_run hbody (w := w.setIo io₁)
  rw [if_pos hh] at hrun
  rw [if_neg hlen] at hrun'
  have hbegin : readBeginRequest w =
      (.error (.exc (.fcgi "FastCGI protocol violation")), w.setIo io₂) := by
    rw [readBeginRequest, Prog.bind_ok hrun, if_pos (beginHeader_iff.mp hb), Prog.bind_error hrun']
    rfl
  rw [accept, Prog.bind_error hbegin]

/-- Only the role is unknown. -/
theorem accept_unknownRole (hlen : 16 ≤ bs.length)
    (hrole : be16 (bs.getD 8 0) (bs.getD 9 0) ∉ [1, 2, 3]) :
    accept uninit fuel w = refuse (FirstRecord.refusal bs 3) (.fcgi "unknown FastCGI role")
      (w.setIo io₂) := by
  have hrun := readHeader_run hheader
  have hrun' := readBeginRequestBody_run hbody (w := w.setIo io₁)
  rw [if_pos hh] at hrun
  rw [if_pos hlen] at hrun'
  refine accept_of_refused uninit fuel ?_
  rw [readBeginRequest, Prog.bind_ok hrun, if_pos (beginHeader_iff.mp hb), Prog.bind_ok hrun',
    if_neg fun h => hrole (known_role_iff.mp h), acceptEndRequest_run]
  rfl

/-- The connection is constructed. -/
theorem accept_begins (hlen : 16 ≤ bs.length)
    (hrole : be16 (bs.getD 8 0) (bs.getD 9 0) ∈ [1, 2, 3]) :
    accept uninit fuel w = Connection.construct uninit fuel
      ⟨be16 (bs.getD 8 0) (bs.getD 9 0)⟩ (be16 (bs.getD 2 0) (bs.getD 3 0))
      ((bs.getD 10 0).toNat % 2 = 1) (w.setIo io₂) := by
  have hrun := readHeader_run hheader
  have hrun' := readBeginRequestBody_run hbody (w := w.setIo io₁)
  rw [if_pos hh] at hrun
  rw [if_pos hlen] at hrun'
  have hbegin : readBeginRequest w =
      (.ok (Header.ofBytes bs, BeginRequestBody.ofBytes (bs.drop 8)), w.setIo io₂) := by
    rw [readBeginRequest, Prog.bind_ok hrun, if_pos (beginHeader_iff.mp hb), Prog.bind_ok hrun',
      if_pos (known_role_iff.mpr hrole)]
    rfl
  rw [accept_of_begun hbegin, Header.requestId_ofBytes, BeginRequestBody.role_ofBytes,
    BeginRequestBody.isKeepConn_ofBytes]

end

section

variable (hheader : Io.read 8 w.io = (.ok (bs.take 8), io₁))
  (hbody : Io.read 8 io₁ = (.ok ((bs.drop 8).take 8), io₂))

include hheader hbody

/-- A client that is given up without a word. -/
theorem accept_silent (hs : FirstRecord.Silent bs) :
    ∃ io, io.written = w.io.written ∧ io.sends = w.io.sends ∧
      ∃ e, accept uninit fuel w = (.error (.exc e), w.setIo io) := by
  have hio₁ := Io.read_sends hheader
  have hio₂ := Io.read_sends hbody
  by_cases hh : 8 ≤ bs.length ∧ bs.getD 0 0 = 1
  · obtain ⟨hb, hlen⟩ : FirstRecord.BeginHeader bs ∧ bs.length < 16 := by
      rcases hs with h | h | h
      · exact absurd hh.1 (Nat.not_le_of_lt h)
      · exact absurd hh.2 h
      · exact h
    exact ⟨io₂, hio₂.2.trans hio₁.2, hio₂.1.trans hio₁.1, _,
      accept_shortBody uninit fuel hheader hh hb hbody (Nat.not_le_of_lt hlen)⟩
  · exact ⟨io₁, hio₁.2, hio₁.1, _, accept_noHeader uninit fuel hheader hh⟩

/-- A client that is told why it is given up. -/
theorem accept_answers (hn : ¬ FirstRecord.Begins bs) (hs : ¬ FirstRecord.Silent bs) :
    ∃ io, io.written = w.io.written ∧ io.sends = w.io.sends ∧ ∃ e,
      accept uninit fuel w = refuse (FirstRecord.refusal bs
        (if FirstRecord.BeginHeader bs then 3 else 1)) e (w.setIo io) := by
  have hio₁ := Io.read_sends hheader
  have hio₂ := Io.read_sends hbody
  have hh : 8 ≤ bs.length ∧ bs.getD 0 0 = 1 :=
    ⟨Nat.le_of_not_lt fun h => hs (.inl h), not_not.mp fun h => hs (.inr (.inl h))⟩
  by_cases hb : FirstRecord.BeginHeader bs
  · have hlen : 16 ≤ bs.length := Nat.le_of_not_lt fun h => hs (.inr (.inr ⟨hb, h⟩))
    have hrole : be16 (bs.getD 8 0) (bs.getD 9 0) ∉ [1, 2, 3] := fun h => hn ⟨hh.2, hb, hlen, h⟩
    rw [if_pos hb]
    exact ⟨io₂, hio₂.2.trans hio₁.2, hio₂.1.trans hio₁.1, _,
      accept_unknownRole uninit fuel hheader hh hb hbody hlen hrole⟩
  · rw [if_neg hb]
    exact ⟨io₁, hio₁.2, hio₁.1, _, accept_otherHeader uninit fuel hheader hh hb⟩

end

end

/-- **What `accept()` makes of the first record**, if the descriptor hands out its header, and then
its body, whole. -/
theorem accept_classified (uninit : Uninit) (fuel : Nat) {w : World} {io₁ io₂ : Io}
    (hheader : Io.read 8 w.io = (.ok (bs.take 8), io₁))
    (hbody : Io.read 8 io₁ = (.ok ((bs.drop 8).take 8), io₂)) :
    (FirstRecord.Begins bs →
      accept uninit fuel w = Connection.construct uninit fuel
        ⟨be16 (bs.getD 8 0) (bs.getD 9 0)⟩ (be16 (bs.getD 2 0) (bs.getD 3 0))
        ((bs.getD 10 0).toNat % 2 = 1) (w.setIo io₂) ∧
      ∀ c w', accept uninit fuel w = (.ok c, w') →
        c.role_.value = be16 (bs.getD 8 0) (bs.getD 9 0) ∧
        c.requestId_ = be16 (bs.getD 2 0) (bs.getD 3 0) ∧
        (c.isKeepConnection_ = true ↔ (bs.getD 10 0).toNat % 2 = 1)) ∧
    (¬ FirstRecord.Begins bs → ∃ io, io.written = w.io.written ∧ io.sends = w.io.sends ∧
      (FirstRecord.Silent bs → ∃ e, accept uninit fuel w = (.error (.exc e), w.setIo io)) ∧
      (¬ FirstRecord.Silent bs → ∃ e record, record = FirstRecord.refusal bs
          (if FirstRecord.BeginHeader bs then 3 else 1) ∧
        accept uninit fuel w = refuse record e (w.setIo io) ∧
        (w.io.sends = [] →
          accept uninit fuel w = (.error (.exc e), (w.setIo io).send record)))) := by
  refine ⟨fun hb => ?_, fun hn => ?_⟩
  · have haccept := accept_begins uninit fuel hheader ⟨Nat.le_trans (by decide) hb.length,
      hb.version⟩ hb.header hbody hb.length hb.role
    refine ⟨haccept, fun c w' hc => ?_⟩
    obtain ⟨hr, hid, hk⟩ := Connection.construct_members (haccept.symm.trans hc)
    exact ⟨congrArg Role.value hr, hid, by rw [hk, decide_eq_true_iff]⟩
  · by_cases hs : FirstRecord.Silent bs
    · obtain ⟨io, hwritten, hsends, e, he⟩ := accept_silent uninit fuel hheader hbody hs
      exact ⟨io, hwritten, hsends, fun _ => ⟨e, he⟩, fun h => absurd hs h⟩
    · obtain ⟨io, hwritten, hsends, e, he⟩ := accept_answers uninit fuel hheader hbody hn hs
      exact ⟨io, hwritten, hsends, fun h => absurd h hs, fun _ => ⟨e, _, rfl, he, fun h =>
        he.trans (refuse_run (hsends.trans h) _ _)⟩⟩

end

/-- A request to a responder. -/
theorem accept_classified_responder : ∃ io₂, accept {} 9 (responderRequest []) =
    Connection.construct {} 9 ⟨1⟩ 1 false ((responderRequest []).setIo io₂) :=
  ⟨_, ((accept_classified {} 9
    (show Io.read 8 (responderRequest []).io = (.ok ([1, 1, 0, 1, 0, 8, 0, 0, 0, 1, 0, 0, 0, 0,
      0, 0, 1, 4, 0, 1, 0, 0, 0, 0].take 8), _) from rfl) rfl).1
    ⟨rfl, ⟨rfl, by decide, rfl⟩, by decide, by decide⟩).1⟩

/-- An abort-request alone: the client is answered although no body has arrived. -/
theorem short_client_answered : ∃ (w : World) (bs : List UInt8) (io₁ io₂ : Io),
    Io.read 8 w.io = (.ok (bs.take 8), io₁) ∧ Io.read 8 io₁ = (.ok ((bs.drop 8).take 8), io₂) ∧
    bs.length < 16 ∧ (accept {} 9 w).2.io.written ≠ w.io.written :=
  ⟨{ io := { incoming := [.data [1, 2, 0, 1, 0, 0, 0, 0]] } }, [1, 2, 0, 1, 0, 0, 0, 0], _, _, rfl,
    rfl, by decide, by decide +kernel⟩

end Fcgi

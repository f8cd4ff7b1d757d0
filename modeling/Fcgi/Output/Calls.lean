import Fcgi.Output.Steps

/-!
# Output — runs of calls on an output stream

`WriterCall` is one call on the buffer of an output stream, `WriterRun` a sequence of them, in
which the caller catches the exceptions.  `WriterLog` says of an open buffer what has been accepted,
what of it has been sent and that the rest is pending; `WriterShut` says of a closed one that all
has been sent.

**`WriterCall.exec_ends`**: no call fails an assertion, and what is accepted is accounted for.

The calls take the steps of `WriterStep` (`Steps.lean`), so it is shown once for each step that
`WriterLog` is kept (`WriterStep.log`): a character is pending after it has been put; a record takes
what was pending, and the character that did not fit, for its content; the end is sent when nothing
is pending.  A state of `WriterAborted` is not reached where a record is sent whole or not at all
(`World.AllOrNothing`), for `WriterLog` excludes the others (`WriterLog.not_aborted`).  A write that
fails leaves header and padding in the put area, so it is accounted for only where the record needs
no padding (`WriterCall.Harmless`).
-/

namespace Fcgi
open Lib
open ServerStreambuf (pbase_eq pptr_eq epptr_eq pbump_putArea_eq)

/-! ### Calls -/

/-- A call on the buffer of an output stream; `inbuf` is the buffer of the connection's input
stream. -/
inductive WriterCall where
  | put (c : UInt8)
  | write (bytes : List UInt8)
  | flush
  | close (inbuf : ServerStreambuf)

namespace WriterCall

/-- What the call is given to write. -/
def bytes : WriterCall → List UInt8
  | put c => [c]
  | write bytes => bytes
  | flush => []
  | close _ => []

/-- Makes the call, which returns what it has accepted. -/
def exec (conn : ConnectionInfo) : WriterCall → M (List UInt8)
  | put c => do
    let r ← sputc conn c
    pure r.toList
  | write bytes => do
    let n ← xsputn conn bytes
    pure (bytes.take n)
  | flush => do
    let _ ← pubsync conn
    pure []
  | close inbuf => do
    Fcgi.close conn inbuf
    pure []

/-- The stream is in use until it is closed, and is closed before the input stream. -/
def Permitted (conn : ConnectionInfo) (s : State) : WriterCall → Prop
  | close inbuf => s.buf.isClosed = false → InputOpen conn.role inbuf
  | _ => s.buf.isClosed = false

/-- The call is refused: the input of a filter has not been read. -/
def Denied (conn : ConnectionInfo) : WriterCall → Prop
  | close inbuf => ¬ MayClose conn.role inbuf
  | _ => False

/-- The call can be made again if it fails: it is refused, or it is a flush of what needs no
padding. -/
def Harmless (conn : ConnectionInfo) (s : State) : WriterCall → Prop
  | flush => s.buf.pending.length % 8 = 0
  | call => call.Denied conn

end WriterCall

/-- A sequence of calls that have accepted the bytes; `mayFail` says which of them may end with an
exception. -/
inductive WriterRun (conn : ConnectionInfo) (mayFail : WriterCall → State → Prop) (s₀ : State) :
    List UInt8 → State → Prop
  | start : WriterRun conn mayFail s₀ [] s₀
  | call {bs cs : List UInt8} {s s' : State} {call : WriterCall}
      (h : WriterRun conn mayFail s₀ bs s) (hp : call.Permitted conn s)
      (hrun : call.exec conn s = (.ok cs, s')) : WriterRun conn mayFail s₀ (bs ++ cs) s'
  | failed {bs : List UInt8} {s s' : State} {call : WriterCall} {e : Exception}
      (h : WriterRun conn mayFail s₀ bs s) (hp : call.Permitted conn s) (hfail : mayFail call s)
      (hrun : call.exec conn s = (.error (.exc e), s')) : WriterRun conn mayFail s₀ bs s'

/-! ### What has been sent -/

/-- Since the state `s₀` the records `rs` of the stream have been sent and, if it has ended, its
end. -/
structure StreamSent (conn : ConnectionInfo) (t : StreamType) (s₀ : State) (rs : List Record)
    (s : State) : Prop where
  records : ∀ r ∈ rs, r.content ≠ [] ∧ StreamRecord t conn.requestId r.content r
  used : s.buf.isPutAreaAtLeastOnceConsumed_ = !rs.isEmpty
  written : s.world.io.written = s₀.world.io.written ++ Frame.join (rs ++
    if s.buf.isEndOfStream_ then endRecords conn t (!rs.isEmpty) else [])
  fits : ∀ r ∈ rs, r.bytes.length ≤ s.buf.bufferSize_
  memory : s.buf.bufferSize_ = s₀.buf.bufferSize_ ∧ s.buf.capacity = s₀.buf.capacity

/-- The bytes `acc` that have been accepted are the content of what has been sent, and what is
pending. -/
def Accounted (conn : ConnectionInfo) (t : StreamType) (s₀ : State) (acc : List UInt8) (s : State) :
    Prop :=
  ∃ rs, StreamSent conn t s₀ rs s ∧ rs.flatMap Record.content ++ s.buf.pending = acc

/-- An open output buffer that has accepted the bytes `acc`; `ending` says whether the end of the
stream has been asked for. -/
structure WriterLog (conn : ConnectionInfo) (t : StreamType) (s₀ : State) (ending : Bool)
    (acc : List UInt8) (s : State) : Prop where
  type : s.buf.type_ = t
  output : t = .out ∨ t = .err
  getArea : s.buf.getArea = none
  putArea : ∃ cur, PutArea s.buf cur
  content : s.buf.unreadContentLength_ = 0
  padding : s.buf.unreadPaddingLength_ = 0
  ending_ : s.buf.isEndOfStream_ = false ∧ s.buf.isEndRecordsMustBeTransmitted_ = ending ∨
    s.buf.isEndOfStream_ = true ∧ s.buf.isEndRecordsMustBeTransmitted_ = false ∧ ending = true
  accounted : Accounted conn t s₀ acc s

/-- A closed output buffer that has accepted the bytes `acc`. -/
structure WriterShut (conn : ConnectionInfo) (t : StreamType) (s₀ : State) (acc : List UInt8)
    (s : State) : Prop where
  closed : s.buf.isClosed = true
  eos : s.buf.isEndOfStream_ = true
  pending : s.buf.pending = []
  invariantOk : s.buf.InvariantOk conn.role
  accounted : Accounted conn t s₀ acc s

section

variable {conn : ConnectionInfo} {t : StreamType} {s₀ : State} {ending : Bool}
  {acc bs : List UInt8} {s s' : State}

namespace WriterLog

/-- An open buffer that is accounted for is a buffer of an output stream. -/
theorem writerOk (h : WriterLog conn t s₀ ending acc s) : WriterOk t s.buf := by
  obtain ⟨cur, hp⟩ := h.putArea
  exact ⟨h.type, h.output, .inr ⟨cur, hp.area, hp.le, Nat.le_of_lt hp.lt⟩, hp.size_ge, hp.size_le,
    hp.size_mod, hp.capacity⟩

theorem not_isClosed (h : WriterLog conn t s₀ ending acc s) : s.buf.isClosed = false := by
  obtain ⟨cur, hp⟩ := h.putArea
  rw [ServerStreambuf.isClosed, h.writerOk.isReader, hp.area]; rfl

/-- `is_invariant_ok()` holds of it. -/
theorem invariantOk (h : WriterLog conn t s₀ ending acc s) (role : Role) :
    s.buf.InvariantOk role := by
  obtain ⟨cur, hp⟩ := h.putArea
  exact hp.invariantOk h.writerOk.isReader h.getArea h.content h.padding

/-- Where the end has not been asked for, the stream is open. -/
theorem writer (h : WriterLog conn t s₀ false acc s) : Writer t false s.buf := by
  obtain ⟨heos, hask⟩ | ⟨-, -, hn⟩ := h.ending_
  · exact ⟨h.type, h.output, h.getArea, h.putArea, h.content, h.padding, heos, hask⟩
  · cases hn

/-- `close()` asks for the end records; nothing else is changed by that. -/
theorem asked (h : WriterLog conn t s₀ false acc s) : WriterLog conn t s₀ true acc s.asked := by
  obtain ⟨cur, hp⟩ := h.putArea
  have hpending : s.asked.buf.pending = s.buf.pending := rfl
  obtain ⟨rs, hsent, hacc⟩ := h.accounted
  exact ⟨h.type, h.output, h.getArea, ⟨cur, hp.area, hp.le, hp.lt, hp.size_ge, hp.size_le,
    hp.size_mod, hp.capacity⟩, h.content, h.padding, .inl ⟨h.writer.open_, rfl⟩, rs,
    ⟨hsent.records, hsent.used, hsent.written, hsent.fits, hsent.memory⟩, hacc⟩

end WriterLog

/-- A new buffer has accepted nothing. -/
theorem Writer.log {b : ServerStreambuf} (h : Writer t false b) (hpending : b.pending = [])
    (hused : b.isPutAreaAtLeastOnceConsumed_ = false) (w : World) :
    WriterLog conn t ⟨b, w⟩ false [] ⟨b, w⟩ := by
  refine ⟨h.type, h.output, h.getArea, h.putArea, h.content, h.padding, .inl ⟨h.open_, h.ending_⟩,
    [], ⟨nofun, hused, ?_, nofun, rfl, rfl⟩, hpending⟩
  rw [h.open_, if_neg Bool.false_ne_true, List.append_nil, Frame.join_nil, List.append_nil]

/-! ### The steps -/

/-- The records that end a stream take up 24 bytes at most: its end, and the end of the request. -/
theorem length_endRecords_le (used : Bool) :
    (Frame.join (endRecords conn t used)).length ≤ 24 := by
  have hend : (Record.streamEnd t conn.requestId).bytes.length = 8 := by rw [bytes_streamEnd]; rfl
  have hreq : (Record.endRequest conn.requestId conn.applicationStatus
    .requestComplete).bytes.length = 16 := Record.length_endRequest
  rw [endRecords, Frame.join_append, List.length_append]
  split <;> split <;>
    simp only [Frame.join_cons, Frame.join_nil, List.append_nil, List.length_nil] <;> omega

/-- What is sent at once is no longer than a record can be. -/
theorem length_join_le {b : ServerStreambuf} {rs : List Record}
    (h : (∃ ch r, Flushes conn b ch r ∧ rs = [r]) ∨ Finishes conn b rs) :
    (Frame.join rs).length ≤ Record.maxLength := by
  rcases h with ⟨ch, r, hf, rfl⟩ | hf
  · rw [Frame.join_cons, Frame.join_nil, List.append_nil]
    exact r.length_bytes_le
  · rw [hf.records]
    exact Nat.le_trans (length_endRecords_le _) (by decide)

/-- A record made of the put area fits into the buffer. -/
theorem Flushes.length_le {b : ServerStreambuf} {ch : Option UInt8} {r : Record}
    (hf : Flushes conn b ch r) (hmod : b.bufferSize_ % 8 = 0) :
    r.bytes.length ≤ b.bufferSize_ := by
  obtain ⟨cur, hput, -, hle⟩ := hf.area
  obtain ⟨hlen, hmod', hpad⟩ := hf.length_bytes hput
  omega

/-- While the stream is open, its records are all that has been sent. -/
theorem StreamSent.written_open {rs : List Record} (h : StreamSent conn t s₀ rs s)
    (heos : s.buf.isEndOfStream_ = false) :
    s.world.io.written = s₀.world.io.written ++ Frame.join rs := by
  rw [h.written, heos, if_neg Bool.false_ne_true, List.append_nil]

/-- The record made of the put area comes after those that have been sent. -/
theorem StreamSent.flush {b : ServerStreambuf} {w : World} {ch : Option UInt8} {r : Record}
    {rs : List Record} {cur : Nat} (h : StreamSent conn t s₀ rs ⟨b, w⟩) (ht : b.type_ = t)
    (hp : PutArea b cur) (m : Mem) (hf : Flushes conn b ch r) :
    StreamSent conn t s₀ (rs ++ [r])
      ⟨((b.setBuffer m).setPutAreaAtLeastOnceConsumed true).setp 8 (b.bufferSize_ - 1),
        w.sent r.bytes⟩ := by
  obtain ⟨cur', hput, hlt, -⟩ := hf.area
  cases hp.area.symm.trans hput
  have hrecord := hf.record
  rw [ht] at hrecord
  have hne : r.content ≠ [] := fun hnil => by
    have hlen := congrArg List.length (hrecord.content.symm.trans hnil)
    rw [List.length_append, hp.pending, Mem.length_load, List.length_nil] at hlen
    omega
  refine ⟨fun r' hr' => ?_, ?_, ?_, fun r' hr' => ?_, h.memory⟩
  · rcases List.mem_append.mp hr' with hr' | hr'
    · exact h.records r' hr'
    · obtain rfl := List.mem_singleton.mp hr'
      exact ⟨hne, hrecord.content ▸ hrecord⟩
  · cases rs <;> rfl
  · have hwritten := h.written_open hf.eos
    change w.io.written ++ r.bytes = _ ++ Frame.join (_ ++ if b.isEndOfStream_ then _ else _)
    rw [hwritten, hf.eos, if_neg Bool.false_ne_true, List.append_nil, Frame.join_append,
      Frame.join_cons, Frame.join_nil, List.append_nil, List.append_assoc]
  · rcases List.mem_append.mp hr' with hr' | hr'
    · exact h.fits r' hr'
    · obtain rfl := List.mem_singleton.mp hr'
      exact hf.length_le hp.size_mod

/-- The end of the stream comes after the records that have been sent. -/
theorem StreamSent.finish {b : ServerStreambuf} {w : World} {rs rs' : List Record}
    (h : StreamSent conn t s₀ rs ⟨b, w⟩) (ht : b.type_ = t) (m : Mem) (hf : Finishes conn b rs') :
    StreamSent conn t s₀ rs
      ⟨((b.setBuffer m).setEndRecordsMustBeTransmitted false).setEndOfStream true,
        if rs' = [] then w else w.sent (Frame.join rs')⟩ := by
  have hrs' : rs' = endRecords conn t (!rs.isEmpty) := by
    rw [hf.records, ← h.used, ← ht]
  refine ⟨h.records, h.used, ?_, h.fits, h.memory⟩
  dsimp only
  rw [show (((b.setBuffer m).setEndRecordsMustBeTransmitted false).setEndOfStream
    true).isEndOfStream_ = true from rfl, if_pos rfl, ← hrs', Frame.join_append,
    ← List.append_assoc, ← h.written_open hf.eos]
  split
  · next hnil => rw [hnil, Frame.join_nil, List.append_nil]
  · rfl

/-- Every step keeps the account: what it accepts is pending or sent after it. -/
theorem WriterStep.log (hs : WriterStep conn s bs s') (h : WriterLog conn t s₀ ending acc s) :
    WriterLog conn t s₀ ending (acc ++ bs) s' := by
  obtain ⟨rs, hsent, hacc⟩ := h.accounted
  obtain ⟨cur, hp⟩ := h.putArea
  cases hs with
  | put c hput hlt =>
      cases hp.area.symm.trans hput
      obtain ⟨hp', hpending⟩ := hp.put hlt c
      exact ⟨h.type, h.output, h.getArea, ⟨_, hp'⟩, h.content, h.padding, h.ending_, rs,
        ⟨hsent.records, hsent.used, hsent.written, hsent.fits, hsent.memory⟩,
        by rw [hpending, ← List.append_assoc, hacc]⟩
  | @flush b w ch r m hf =>
      -- What was pending is the content of the record, with the character that did not fit.
      have hask : b.isEndRecordsMustBeTransmitted_ = ending :=
        h.ending_.elim (fun he => he.2) fun he => absurd (hf.eos.symm.trans he.1) nofun
      have hp' := PutArea.empty (b := (b.setBuffer m).setPutAreaAtLeastOnceConsumed true)
        ⟨hp.area, hp.le, hp.lt, hp.size_ge, hp.size_le, hp.size_mod, hp.capacity⟩
      refine ⟨h.type, h.output, h.getArea, ⟨8, hp'⟩, h.content, h.padding, .inl ⟨hf.eos, hask⟩,
        rs ++ [r], hsent.flush h.type hp m hf, ?_⟩
      have hnil : (((b.setBuffer m).setPutAreaAtLeastOnceConsumed true).setp 8
        (b.bufferSize_ - 1)).pending = [] := ServerStreambuf.pending_nil hp'.area
      dsimp only at hacc ⊢
      rw [hnil, List.append_nil, List.flatMap_append, List.flatMap_cons, List.flatMap_nil,
        List.append_nil, hf.record.content, ← List.append_assoc, hacc]
  | @finish b w rs' m hf =>
      -- Nothing is pending when the stream is ended.
      obtain rfl : ending = true :=
        h.ending_.elim (fun he => he.2.symm.trans hf.asked) fun he => he.2.2
      refine ⟨h.type, h.output, h.getArea, ⟨cur, hp.area, hp.le, hp.lt, hp.size_ge, hp.size_le,
        hp.size_mod, hp.capacity⟩, h.content, h.padding, .inr ⟨rfl, rfl, rfl⟩, rs,
        hsent.finish h.type m hf, ?_⟩
      cases hp.area.symm.trans hf.area
      have hnil : (((b.setBuffer m).setEndRecordsMustBeTransmitted false).setEndOfStream
        true).pending = [] := ServerStreambuf.pending_nil hf.area
      dsimp only at hacc ⊢
      rw [List.append_nil, ← hacc, ServerStreambuf.pending_nil hf.area, hnil]

theorem Written.log (hr : Written conn s bs s') (h : WriterLog conn t s₀ ending acc s) :
    WriterLog conn t s₀ ending (acc ++ bs) s' := by
  induction hr with
  | refl => rwa [List.append_nil]
  | tail _ hs ih => rw [← List.append_assoc]; exact hs.log ih

/-- Nothing is pending when a stream is ended. -/
theorem Written.ended_pending (hr : Written conn s bs s') (hbs : bs = [])
    (hopen : s.buf.isEndOfStream_ = false) (heos : s'.buf.isEndOfStream_ = true) :
    s'.buf.pending = [] := by
  cases hr with
  | refl => exact absurd (hopen.symm.trans heos) nofun
  | tail hr hs =>
      cases hs with
      | put c => exact absurd hbs (List.append_ne_nil_of_right_ne_nil _ (List.cons_ne_nil _ _))
      | flush m hf => exact absurd (hf.eos.symm.trans heos) nofun
      | finish m hf =>
          exact ServerStreambuf.pending_nil hf.area

/-! ### The calls -/

/-- From a buffer that is accounted for no call is aborted, if every record is sent whole or not at
all. -/
theorem WriterLog.not_aborted (h : WriterLog conn t s₀ ending acc s) (hw : s.world.AllOrNothing)
    {extra : Bool} : ¬ WriterAborted conn extra s s' := by
  intro ha
  cases ha with
  | closed hr hput =>
      obtain ⟨cur, hp⟩ := (hr.log h).putArea
      exact absurd (hput.symm.trans hp.area) nofun
  | past hr _ _ hlt =>
      obtain ⟨cur, hp⟩ := (hr.log h).putArea
      rw [pptr_eq hp.area, epptr_eq hp.area] at hlt
      have := hp.lt
      omega
  | short hr hs hn hrs =>
      exact absurd (hw _ (hr.sends hs)) (by have := length_join_le hrs; omega)
  | invariant hr _ hi => exact hi ((hr.log h).invariantOk _)

/-- A stream that is being closed is closed when its end has been sent. -/
theorem StreamEnded.shut (he : StreamEnded conn s s') (h : WriterLog conn t s₀ false acc s) :
    WriterShut conn t s₀ acc s'.shut := by
  have h' := he.written.log h.asked
  rw [List.append_nil] at h'
  obtain ⟨rs, hsent, hacc⟩ := h'.accounted
  rw [he.written.ended_pending rfl h.writer.open_ he.eos] at hacc
  have hok := h'.writerOk
  exact ⟨(hok.shut he.eos).isClosed_iff.mpr rfl, he.eos, rfl,
    hok.shut_invariantOk ⟨h'.getArea, h'.content, h'.padding⟩ he.eos, rs,
    ⟨hsent.records, hsent.used, hsent.written, hsent.fits, hsent.memory⟩, hacc⟩

theorem assertInvariantOk_ne {e : Exception} {s s' : State} :
    assertInvariantOk conn s ≠ (.error (.exc e), s') := by
  intro h
  rw [assertInvariantOk, Prog.bind_ok (Prog.get_run _), Prog.assert_run] at h
  split at h <;> cases h

/-- A failed write of an open stream that is not being closed. -/
theorem sync_error {b : ServerStreambuf} {w : World} {e : Exception}
    (hid : conn.requestId < 65536) (h : Writer t false b)
    (hrun : sync conn ⟨b, w⟩ = (.error (.exc e), s')) :
    ∃ r m, Flushes conn b none r ∧ m.load 0 r.bytes.length = r.bytes ∧
      s' = ⟨b.holding m r, w.unsent⟩ := by
  obtain ⟨cur, hp⟩ := h.putArea
  rw [sync] at hrun
  rcases Prog.bind_eq_error hrun with hrun | ⟨_, _, -, hrun⟩
  swap; · cases hrun
  rw [overflow, Prog.bind_ok (Prog.get_run _), Prog.bind_ok (Prog.assert_true (by
    simp only [h.not_isReader, h.not_isClosed]
    exact ⟨Bool.false_ne_true, Bool.false_ne_true⟩) _)] at hrun
  dsimp only at hrun
  rw [h.open_, if_neg Bool.false_ne_true,
    Prog.bind_ok (Prog.assert_true (p := b.pbase = Header.size) (pbase_eq hp.area) _)] at hrun
  -- Only the write itself can have thrown.
  have hsend : sendPutArea conn none ⟨b, w⟩ = (.error (.exc e), s') := by
    rcases Prog.bind_eq_error hrun with hrun | ⟨_, ⟨b₁, w₁⟩, hsent, hrun⟩
    · exact hrun
    have hflush := (flush_steps hid h.writerOk hp.area hp.le (Nat.le_of_lt hp.lt) h.open_ none
      w).of_ok rfl (by rw [Prog.bind_ok hsent, modifyBuf_run])
    have hasked : b₁.isEndRecordsMustBeTransmitted_ = false := hflush.asked.trans h.ending_
    rw [Prog.bind_ok (modifyBuf_run _), Prog.bind_ok (Prog.get_run _)] at hrun
    dsimp only at hrun
    rw [ServerStreambuf.setp_isEndRecordsMustBeTransmitted_, hasked,
      if_neg Bool.false_ne_true] at hrun
    rcases Prog.bind_eq_error hrun with hrun | ⟨_, _, -, hrun⟩
    · exact absurd hrun assertInvariantOk_ne
    · cases hrun
  have hle := hp.le
  have hlt := hp.lt
  by_cases h8 : cur - 8 = 0
  · rw [sendPutArea, Prog.bind_ok (Prog.get_run _)] at hsend
    dsimp only at hsend
    rw [pptr_eq hp.area, pbase_eq hp.area, if_pos h8] at hsend
    cases hsend
  · obtain ⟨r, m, hf, hm, heq⟩ := @sendPutArea_eq _ _ _ _ hid h.writerOk hp.area (by omega) h.open_
      none (by simp only [Option.toList_none, List.length_nil]; omega) w
    refine ⟨r, m, hf, hm, ?_⟩
    rw [heq] at hsend
    rcases onIo_writeAll_cases (b.holding m r) w r.bytes with h | ⟨-, e, h⟩ | ⟨n, -, -, h⟩
    · rw [Prog.bind_ok h] at hsend
      cases hsend
    · rw [Prog.bind_error h] at hsend
      cases hsend
      rfl
    · rw [Prog.bind_error h] at hsend
      cases hsend

/-- A failed write of a record that needs no padding leaves what is pending as it was. -/
theorem WriterLog.unsent {b : ServerStreambuf} {w : World} {r : Record} {m : Mem}
    (h : WriterLog conn t s₀ false acc ⟨b, w⟩) (hf : Flushes conn b none r)
    (hm : m.load 0 r.bytes.length = r.bytes) (hmod : b.pending.length % 8 = 0) :
    WriterLog conn t s₀ false acc ⟨b.holding m r, w.unsent⟩ := by
  obtain ⟨cur, hp⟩ := h.putArea
  obtain ⟨rs, hsent, hacc⟩ := h.accounted
  obtain ⟨hlen, hmod', hpad⟩ := hf.length_bytes hp.area
  have hle := hp.le
  have hpending : b.pending.length = cur - 8 := by rw [hp.pending, Mem.length_load]
  rw [Option.toList_none, List.length_nil] at hlen
  have hnil : r.padding = [] := List.eq_nil_of_length_eq_zero (by omega)
  have harea : (b.holding m r).putArea = some ⟨8, cur, b.bufferSize_ - 1⟩ := by
    rw [ServerStreambuf.holding_putArea hp.area (by omega), hlen, hnil]
    rfl
  have hp' : PutArea (b.holding m r) cur :=
    ⟨harea, hp.le, hp.lt, hp.size_ge, hp.size_le, hp.size_mod, hp.capacity⟩
  -- The content of the record is still where the put area has it.
  have hsame : (b.holding m r).pending = b.pending := by
    have hcontent : r.content = b.pending := by
      rw [hf.record.content, Option.toList_none, List.append_nil]
    have hload : m.load 8 (r.bytes.length - 8) = r.bytes.drop 8 := by
      rw [← Mem.drop_load m (show 8 ≤ r.bytes.length by omega), hm]
    rw [hp'.pending, ← hcontent]
    rw [hlen, hnil, List.length_nil] at hload
    refine hload.trans ?_
    rw [r.bytes_eq, hnil, List.append_nil, ← Header.length_bytes r.head, List.drop_left]
  exact ⟨h.type, h.output, h.getArea, ⟨cur, hp'⟩, h.content, h.padding, h.ending_, rs,
    ⟨hsent.records, hsent.used, hsent.written, hsent.fits, hsent.memory⟩,
    by rw [← hacc]; exact congrArg _ hsame⟩

/-- A buffer that is open and is not being closed, or is closed. -/
def WriterState (conn : ConnectionInfo) (t : StreamType) (s₀ : State) (acc : List UInt8)
    (s : State) : Prop :=
  WriterLog conn t s₀ false acc s ∨ WriterShut conn t s₀ acc s

/-- Open or closed, the buffer satisfies `is_invariant_ok()`. -/
theorem WriterState.invariantOk (h : WriterState conn t s₀ acc s) :
    s.buf.InvariantOk conn.role := h.elim (fun h => h.invariantOk _) fun h => h.invariantOk

/-- Open or closed, what it has accepted is accounted for. -/
theorem WriterState.accounted (h : WriterState conn t s₀ acc s) : Accounted conn t s₀ acc s :=
  h.elim (fun h => h.accounted) fun h => h.accounted

/-- The ways in which a call may end. -/
inductive CallEnds (conn : ConnectionInfo) (t : StreamType) (s₀ : State) (acc : List UInt8)
    (call : WriterCall) (s : State) : Except (Fault Exception) (List UInt8) × State → Prop
  /-- All bytes are accepted. -/
  | ok {s' : State} (h : WriterState conn t s₀ (acc ++ call.bytes) s')
      (hsends : s'.world.io.sends ⊆ s.world.io.sends) :
      CallEnds conn t s₀ acc call s (.ok call.bytes, s')
  | denied {e : Exception} (hd : call.Denied conn) :
      CallEnds conn t s₀ acc call s (.error (.exc e), s)
  /-- A write fails. -/
  | error {s' : State} {e : Exception} (hs : .error ∈ s.world.io.sends)
      (hsends : s'.world.io.sends ⊆ s.world.io.sends)
      (h : call.Harmless conn s → WriterState conn t s₀ acc s') :
      CallEnds conn t s₀ acc call s (.error (.exc e), s')

/-- A call throws because the transport had a failure of `write` among its answers. -/
theorem WriterFault.error {extra : Bool} {e : Exception}
    (hx : WriterFault conn extra s (.exc e) s') :
    .error ∈ s.world.io.sends ∧ s'.world.io.sends ⊆ s.world.io.sends := by
  obtain ⟨bs, s₁, hr, he⟩ := hx
  cases he with
  | flush hs => exact ⟨hr.sends hs, fun _ hx => hr.sends (List.mem_of_mem_tail hx)⟩
  | finish _ hs => exact ⟨hr.sends hs, fun _ hx => hr.sends (List.mem_of_mem_tail hx)⟩

/-- A stream that has not ended accepts what it is given. -/
theorem put_ends (hid : conn.requestId < 65536) (h : WriterLog conn t s₀ false acc s)
    (hw : s.world.AllOrNothing) (c : UInt8) :
    CallEnds conn t s₀ acc (.put c) s ((WriterCall.put c).exec conn s) := by
  have hrun := sputc_steps hid h.writerOk c s rfl
  rw [WriterCall.exec]
  rcases e : sputc conn c s with ⟨x | r, s'⟩ <;> simp only [e] at hrun
  · rw [Prog.bind_error e]
    cases x with
    | exc e => exact .error hrun.error.1 hrun.error.2 fun hn => hn.elim
    | abort => exact absurd hrun (h.not_aborted hw)
    | undef => exact hrun.elim
    | spent => exact hrun.elim
  · rw [Prog.bind_ok e]
    split at hrun
    · exact absurd (h.writer.open_.symm.trans hrun.2) nofun
    · obtain ⟨rfl, hr⟩ := hrun
      exact .ok (.inl (hr.log h)) hr.sends

/-- A write accepts all its bytes, or it throws. -/
theorem write_ends (hid : conn.requestId < 65536) (h : WriterLog conn t s₀ false acc s)
    (hw : s.world.AllOrNothing) (bytes : List UInt8) :
    CallEnds conn t s₀ acc (.write bytes) s ((WriterCall.write bytes).exec conn s) := by
  have hrun := xsputn_steps hid bytes h.writerOk s rfl
  rw [WriterCall.exec]
  rcases e : xsputn conn bytes s with ⟨x | n, s'⟩ <;> simp only [e] at hrun
  · rw [Prog.bind_error e]
    cases x with
    | exc e => exact .error hrun.error.1 hrun.error.2 fun hn => hn.elim
    | abort => exact absurd hrun (h.not_aborted hw)
    | undef => exact hrun.elim
    | spent => exact hrun.elim
  · rw [Prog.bind_ok e]
    obtain ⟨hr, hlt⟩ := hrun
    have hlog := hr.log h
    have hn : bytes.length ≤ n := by
      by_contra hn
      exact absurd (hlog.writer.open_.symm.trans (hlt (Nat.lt_of_not_le hn))) nofun
    rw [List.take_of_length_le hn] at hlog
    rw [Prog.pure_run, List.take_of_length_le hn]
    exact .ok (.inl hlog) hr.sends

/-- A flush accepts nothing, and may throw; what needs no padding is pending again then. -/
theorem flush_ends (hid : conn.requestId < 65536) (h : WriterLog conn t s₀ false acc s)
    (hw : s.world.AllOrNothing) :
    CallEnds conn t s₀ acc .flush s (WriterCall.flush.exec conn s) := by
  have hrun := sync_steps hid h.writerOk s rfl
  rw [WriterCall.exec, pubsync]
  rcases e : sync conn s with ⟨x | r, s'⟩ <;> simp only [e] at hrun
  · rw [Prog.bind_error e]
    cases x with
    | exc e' =>
        refine .error hrun.error.1 hrun.error.2 fun hmod => .inl ?_
        obtain ⟨b, w⟩ := s
        obtain ⟨r, m, hf, hm, rfl⟩ := sync_error hid h.writer e
        exact h.unsent hf hm hmod
    | abort => exact absurd hrun (h.not_aborted hw)
    | undef => exact hrun.elim
    | spent => exact hrun.elim
  · rw [Prog.bind_ok e]
    split at hrun
    · exact absurd (h.writer.open_.symm.trans hrun.2.1) nofun
    · obtain ⟨-, hr, -⟩ := hrun
      simp only [ServerStreambuf.accepted, Option.toList_none, ite_self] at hr
      exact .ok (.inl (hr.log h)) hr.sends

theorem close_ends (hid : conn.requestId < 65536) (h : WriterLog conn t s₀ false acc s)
    (hw : s.world.AllOrNothing) {inbuf : ServerStreambuf} (hin : InputOpen conn.role inbuf) :
    CallEnds conn t s₀ acc (.close inbuf) s ((WriterCall.close inbuf).exec conn s) := by
  have hrun := close_steps hid inbuf h.writerOk s rfl
  rw [WriterCall.exec]
  by_cases hmay : MayClose conn.role inbuf
  swap
  · obtain ⟨b, w⟩ := s
    rw [Prog.bind_error (close_not_may h.writer hin hmay)]
    exact .denied hmay
  rcases e : close conn inbuf s with ⟨x | r, s'⟩ <;> simp only [e] at hrun
  · rw [Prog.bind_error e]
    cases x with
    | exc e =>
        obtain ⟨-, hx⟩ | ⟨-, hn⟩ := hrun
        · exact .error hx.error.1 hx.error.2 fun hn => absurd hmay hn
        · exact absurd hmay hn
    | abort =>
        obtain ⟨-, ha⟩ := hrun
        cases ha with
        | overflow ha => exact absurd ha (h.asked.not_aborted hw)
        | input hn => exact absurd hin hn
        | ended heos => exact absurd (h.writer.open_.symm.trans heos) nofun
        | invariant he hi => exact absurd (he.shut h).invariantOk hi
    | undef => exact hrun.elim
    | spent => exact hrun.elim
  · rw [Prog.bind_ok e]
    obtain ⟨hc, -⟩ | ⟨-, s₁, he, rfl⟩ := hrun
    · exact absurd (h.not_isClosed.symm.trans hc) nofun
    · refine .ok (.inr ?_) he.written.sends
      rw [WriterCall.bytes, List.append_nil]
      exact he.shut h

/-- **No call fails an assertion**, and what is accepted is accounted for. -/
theorem WriterCall.exec_ends (hid : conn.requestId < 65536) (h : WriterState conn t s₀ acc s)
    (hw : s.world.AllOrNothing) (call : WriterCall) (hp : call.Permitted conn s) :
    CallEnds conn t s₀ acc call s (call.exec conn s) := by
  rcases h with h | h
  · cases call with
    | put c => exact put_ends hid h hw c
    | write bytes => exact write_ends hid h hw bytes
    | flush => exact flush_ends hid h hw
    | close inbuf => exact close_ends hid h hw (hp h.not_isClosed)
  · -- Only `close()` is called on a closed stream, and does nothing.
    cases call with
    | close inbuf =>
        obtain ⟨b, w⟩ := s
        rw [WriterCall.exec, Prog.bind_ok (close_closed h.closed)]
        refine .ok (.inr ?_) fun _ => id
        rwa [WriterCall.bytes, List.append_nil]
    | _ => exact absurd (h.closed.symm.trans hp) nofun

/-- What holds in every state that a run reaches, if the calls that may fail in it do no harm. -/
theorem WriterRun.state {mayFail : WriterCall → State → Prop}
    (hid : conn.requestId < 65536) (h₀ : WriterState conn t s₀ [] s₀)
    (hw : s₀.world.AllOrNothing) (hfail : ∀ call s, mayFail call s →
      call.Harmless conn s ∨ .error ∉ s₀.world.io.sends)
    (hr : WriterRun conn mayFail s₀ acc s) :
    WriterState conn t s₀ acc s ∧ s.world.io.sends ⊆ s₀.world.io.sends := by
  induction hr with
  | start => exact ⟨h₀, fun _ => id⟩
  | call h hp hrun ih =>
      have hends := WriterCall.exec_ends hid ih.1 (hw.of_sends ih.2) _ hp
      rw [hrun] at hends
      cases hends with
      | ok h' hsends => exact ⟨h', fun _ hx => ih.2 (hsends hx)⟩
  | failed h hp hmay hrun ih =>
      have hends := WriterCall.exec_ends hid ih.1 (hw.of_sends ih.2) _ hp
      rw [hrun] at hends
      cases hends with
      | denied hd => exact ih
      | error hs hsends h' =>
          refine ⟨h' ((hfail _ _ hmay).resolve_right fun hn => hn (ih.2 hs)), ?_⟩
          exact fun _ hx => ih.2 (hsends hx)

end

end Fcgi

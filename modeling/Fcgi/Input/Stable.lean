import Fcgi.Input.Replies

/-!
# Input — what `underflow()` leaves alone

A property of the history that `underflow()` cannot undo (`Stable`) holds again whichever way it,
or one of the programs that call it, ends.  Of a property that depends on the type of the stream
too (`Lasting`) this is true where it is true of the processing of a header.

`Stable` lists what the reader may do to a state: change the buffer, use the transport, and note
something in the history.  `Lasting` lists the same but for the type of the stream and the notes on
headers.  There is a lemma for each program of the reader, with the weaker property where that is
enough.
-/

namespace Fcgi
open Lib

/-- `I` does not depend on the buffer and the transport, and survives what `underflow()` enters
into the history. -/
structure Stable (I : State → Prop) : Prop where
  buf : ∀ b b' w, I ⟨b, w⟩ → I ⟨b', w⟩
  io : ∀ b w io, I ⟨b, w⟩ → I ⟨b, w.setIo io⟩
  entry : ∀ b w e, I ⟨b, w⟩ → I ⟨b, w.addEntry e⟩
  dispatch : ∀ b w d, I ⟨b, w⟩ → I ⟨b, w.addDispatch d⟩
  answer : ∀ b w a, I ⟨b, w⟩ → I ⟨b, w.addAnswer a⟩
  delivery : ∀ b w d, I ⟨b, w⟩ → I ⟨b, w.addDelivery d⟩

/-- `I` survives all that leaves the type of the stream alone, and is no header. -/
structure Lasting (I : State → Prop) : Prop where
  buf : ∀ b b' w, b'.type_ = b.type_ → I ⟨b, w⟩ → I ⟨b', w⟩
  io : ∀ b w io, I ⟨b, w⟩ → I ⟨b, w.setIo io⟩
  entry : ∀ b w e, I ⟨b, w⟩ → I ⟨b, w.addEntry e⟩
  answer : ∀ b w a, I ⟨b, w⟩ → I ⟨b, w.addAnswer a⟩
  delivery : ∀ b w d, I ⟨b, w⟩ → I ⟨b, w.addDelivery d⟩

/-- What nothing undoes is undone by no change that keeps the type. -/
theorem Stable.lasting {I : State → Prop} (h : Stable I) : Lasting I :=
  ⟨fun b b' w _ => h.buf b b' w, h.io, h.entry, h.answer, h.delivery⟩

section

variable {conn : ConnectionInfo} {I : State → Prop} (hI : Lasting I)

include hI

/-- A change of the buffer that keeps the type. -/
theorem modifyBuf_lasting {f : ServerStreambuf → ServerStreambuf}
    (hf : ∀ b, (f b).type_ = b.type_) : Keeps I (modifyBuf f) :=
  .modify fun s => hI.buf s.buf (f s.buf) s.world (hf s.buf)

theorem onIo_lasting {α : Type} (m : Prog Io Exception α) : Keeps I (onIo m) := by
  rintro ⟨b, w⟩ hs
  rcases e : m w.io with ⟨x | a, io⟩ <;> rw [onIo_run e] <;> exact hI.io b w io hs

omit hI in
theorem assertInvariantOk_stable : Keeps I (assertInvariantOk conn) :=
  .get fun _ => .assert _

theorem endRequest_lasting (header : Header) (ps : ProtocolStatus) :
    Keeps I (endRequest header ps) := fun s hs => by
  rw [endRequest_eq]
  exact onIo_lasting hI _ s hs

theorem violation_lasting {α : Type} (header : Header) :
    Keeps I (endRequestProtocolViolation header : M α) :=
  .bind (endRequest_lasting hI _ _) fun _ => .throw _

theorem fillReply_lasting (header : Header) : ∀ (pairs : List NameValue) (record : Mem) (p : Nat),
    Keeps I (fillReply header pairs record p)
  | [], record, p => .pure _
  | pair :: pairs, record, p => by
      rw [fillReply]
      split
      · exact fillReply_lasting header pairs record p
      · have hrest : ∀ record' p', Keeps I (do
            Prog.assert (pair.name.length + 3 ≤ replySize - p)
            fillReply header pairs record' p') := fun record' p' =>
          .bind (.assert _) fun _ => fillReply_lasting header pairs record' p'
        exact .ite (.bind (violation_lasting hI _) fun _ => hrest _ _) (hrest _ _)

/-- An answer to a get-values record. -/
theorem sendGetValuesResult_lasting (header : Header) (vars : NamesValues) :
    Keeps I (sendGetValuesResult conn header vars) := by
  refine .get fun s => .bind (fillReply_lasting hI _ _ _ _) fun p => .bind (.ofExcept _) fun q => ?_
  exact .bind (.bind (.assert _) fun _ => .pure _) fun h => onIo_lasting hI _

theorem setEndOfStream_lasting : Keeps I (setEndOfStream conn) :=
  .bind (modifyBuf_lasting hI fun _ => rfl) fun _ => assertInvariantOk_stable

/-- The part of a round that reads. -/
theorem readRecords_lasting : Keeps I readRecords := by
  refine .get fun s => .ite (.bind (onIo_lasting hI _) fun bytes => ?_) (.pure _)
  refine .ite (.bind ?_ fun _ => modifyBuf_lasting hI fun _ => rfl) (.throw _)
  exact .get fun _ => .ite (modifyBuf_lasting hI fun _ => rfl) (.fault _)

/-- The part that hands out or discards content. -/
theorem setUpContent_lasting : Keeps I (setUpContent conn) := by
  refine .get fun s => .ite (.bind (modifyBuf_lasting hI fun _ => rfl) fun _ => .ite ?_ ?_)
    (.pure _)
  · exact .bind (modifyBuf_lasting hI fun _ => rfl) fun _ =>
      .bind (.modify fun s => hI.delivery s.buf s.world _) fun _ =>
        .bind assertInvariantOk_stable fun _ => .pure _
  · exact .bind (modifyBuf_lasting hI fun _ => rfl) fun _ => .get fun _ => .ite (.pure _)
      (.bind (modifyBuf_lasting hI fun _ => rfl) fun _ => .pure _)

theorem skipPadding_lasting : Keeps I skipPadding :=
  .get fun _ => .ite (.bind (modifyBuf_lasting hI fun _ => rfl) fun _ => .get fun _ => .pure _)
    (.pure _)

/-- The part that reads the header. -/
theorem accumulateHeader_lasting (header : List UInt8) : Keeps I (accumulateHeader header) :=
  .get fun _ => .bind (modifyBuf_lasting hI fun _ => rfl) fun _ => .pure _

/-! ### Reading names and values -/

section call

variable {E : Fault Exception → State → Prop} (hE : Catches E I) {fuel : Nat}
  {call : M (Option UInt8)} (hcall : KeepsOr E I call)

include hE hcall

theorem sbumpc_stable : KeepsOr E I (sbumpc call) := by
  have htake : Keeps I takeChar :=
    .get fun _ => .bind (modifyBuf_lasting hI fun _ => rfl) fun _ => .pure _
  refine .get fun s => .ite (htake.or hE) (.bind hcall fun r => ?_)
  cases r with
  | none => exact .pure _
  | some c => exact htake.or hE

theorem xsgetn_stable (n : Nat) : KeepsOr E I (xsgetn call n) := by
  induction n with
  | zero => exact .pure _
  | succ n ih =>
      refine .bind (sbumpc_stable hI hE hcall) fun r => ?_
      cases r with
      | none => exact .pure _
      | some c => exact .bind ih fun cs => .pure _

theorem get_stable (is : Istream) : KeepsOr E I (is.get call) := by
  refine .ite (.bind (.attempt hE (sbumpc_stable hI hE hcall)) fun r => ?_) (.pure _)
  rcases r with e | _ | c <;> exact .pure _

omit hI in
theorem peek_stable (is : Istream) : KeepsOr E I (is.peek call) := by
  have hget : KeepsOr E I (sgetc call) := .get fun _ => .ite (.pure _) hcall
  refine .ite (.bind (.attempt hE hget) fun r => ?_) (.pure _)
  rcases r with e | _ | c <;> exact .pure _

theorem read_stable (is : Istream) (n : Int) : KeepsOr E I (is.read call n) := by
  refine .ite (.bind (.attempt hE (xsgetn_stable hI hE hcall _)) fun r => ?_) (.pure _)
  rcases r with e | cs
  · exact .pure _
  · exact .ite (.pure _) (.pure _)

theorem readLength_stable (is : Istream) : KeepsOr E I (NamesValues.readLength call is) := by
  refine .bind (get_stable hI hE hcall is) fun p => ?_
  rcases p with ⟨_ | c, is₁⟩
  · exact .pure _
  · exact .ite (.bind (read_stable hI hE hcall is₁ 3) fun _ =>
      .ite (.pure _) ((Keeps.throw _).or hE)) (.pure _)

theorem readPair_stable (is : Istream) (nv : NamesValues) :
    KeepsOr E I (NamesValues.readPair call is nv) := by
  refine .bind (readLength_stable hI hE hcall is) fun p => ?_
  rcases p with ⟨_ | nameLength, is₁⟩
  · exact .pure _
  · refine .bind (readLength_stable hI hE hcall is₁) fun p => ?_
    rcases p with ⟨_ | valueLength, is₂⟩
    · exact (Keeps.throw _).or hE
    · exact .bind (.bind (read_stable hI hE hcall is₂ _) fun _ => .ite (.pure _)
        ((Keeps.throw _).or hE)) fun _ => .pure _

theorem ofStream_stable (fuel : Nat) (is : Istream) (reserve : Nat) :
    KeepsOr E I (NamesValues.ofStream call fuel is reserve) :=
  .bind ((Keeps.assert _).or hE) fun _ =>
    .recLoop hE (fun _ _ _ p => readPair_stable hI hE hcall p.1 p.2) fuel _

/-! ### The loop -/

theorem processManagementRecord_stable (header : Header) :
    Triple I (processManagementRecord conn fuel call header)
      (fun r s => r = .managementProcessed ∧ I s) E := by
  have done : ∀ {α : Type} {m : M α}, Keeps I m → Triple I
      (m >>= fun _ => (pure ProcessHeaderResult.managementProcessed : M _))
      (fun r s => r = .managementProcessed ∧ I s) E := fun hm =>
    Triple.bind (hm.or hE) fun _ => Triple.pure fun _ hs => ⟨rfl, hs⟩
  refine Triple.ite (fun _ => Triple.bind (ofStream_stable hI hE hcall fuel _ _) fun p => ?_)
    fun _ => ?_
  · refine Triple.bind ((Keeps.modify fun s => hI.answer s.buf s.world _).or hE) fun _ =>
      Triple.get fun s hs => Triple.pre ?_ fun _ ht => ht ▸ hs
    have hkeep : Keeps I (sendGetValuesResult conn header p.1) := sendGetValuesResult_lasting hI _ _
    have hsend := done hkeep
    exact Triple.ite (fun _ => Triple.bind ((violation_lasting hI _).or hE) fun _ => hsend)
      fun _ => hsend
  · rintro ⟨b, w⟩ hs
    rw [Prog.bind_ok (Record.unknownTypeRecord_run _)]
    exact done (onIo_lasting hI _) _ hs

/-- The content of a record is to be consumed only where the record is of the stream. -/
theorem processHeader_lasting (header : Header) (t : StreamType) :
    Triple (fun s => I s ∧ s.buf.type_ = t) (processHeader conn fuel call header)
      (fun r s => I s ∧ (r = .contentMustBeConsumed → header.protocolVersion = 1 ∧
        header.requestId = conn.requestId ∧ header.recordType = t.recordType)) E := by
  refine Triple.bind (Q := fun _ s => (I s ∧ s.buf.type_ = t) ∧ header.protocolVersion = 1)
    (Triple.ite (fun _ => Triple.throw fun s hs => hE.fault _ s hs.1) fun hv =>
      Triple.pure fun s hs => ⟨hs, not_not.mp hv⟩) fun _ => ?_
  refine Triple.bind (Q := fun _ s => (I s ∧ s.buf.type_ = t) ∧ header.protocolVersion = 1)
    (Triple.modify fun s hs => ⟨⟨hI.buf s.buf _ s.world rfl hs.1.1, hs.1.2⟩, hs.2⟩) fun _ => ?_
  refine Triple.bind (Q := fun r s => I s ∧ (r = .contentMustBeConsumed →
    header.protocolVersion = 1 ∧ header.requestId = conn.requestId ∧
      header.recordType = t.recordType)) (Triple.get fun s hs => ?_) fun r => ?_
  · obtain ⟨⟨hs, rfl⟩, hv⟩ := hs
    have hpre : ∀ {α : Type} {m : M α} {Q : α → State → Prop}, Triple I m Q E →
        Triple (fun u => u = s) m Q E := fun hm => hm.pre fun _ hu => hu ▸ hs
    refine Triple.ite (fun _ => ?_) fun _ => Triple.ite (fun _ => ?_) fun _ =>
      Triple.ite (fun _ => ?_) fun hid => Triple.ite (fun ht => ?_) fun _ => ?_
    · exact Triple.bind (hpre ((endRequest_lasting hI _ _).or hE)) fun _ =>
        Triple.pure fun _ ht => ⟨ht, nofun⟩
    · exact (hpre (processManagementRecord_stable hI hE hcall header)).post fun r _ ht =>
        ⟨ht.2, fun e => nomatch ht.1.symm.trans e⟩
    · exact hpre (Triple.pure fun _ ht => ⟨ht, nofun⟩)
    · exact hpre (Triple.pure fun _ hu => ⟨hu, fun _ => ⟨hv, not_not.mp hid, ht⟩⟩)
    · exact Triple.bind (hpre ((endRequest_lasting hI _ _).or hE)) fun _ =>
        Triple.throw fun t ht => hE.fault _ t ht
  · exact Triple.bind (Q := fun _ s => I s ∧ _)
      (Triple.get fun s hs => Triple.assert (fun _ ht _ => ht ▸ hs) fun _ ht _ =>
        hE.fault _ _ (ht ▸ hs.1)) fun _ => Triple.pure fun _ hs => hs

theorem processHeader_stable (header : Header) :
    KeepsOr E I (processHeader conn fuel call header) := fun s hs =>
  (processHeader_lasting hI hE hcall header s.buf.type_).post (fun _ _ ht => ht.1) s ⟨hs, rfl⟩

end call

section loop

theorem enterUnderflow_lasting {E : Fault Exception → State → Prop} (hE : Catches E I)
    {loop : M (Option UInt8)} (hloop : KeepsOr E I loop) : KeepsOr E I (enterUnderflow loop) :=
  .get fun _ => .bind ((Keeps.assert _).or hE) fun _ => .ite (.pure _)
    (.bind ((Keeps.modify fun s => hI.entry s.buf s.world _).or hE) fun _ => hloop)

variable {E : Fault Exception → State → Prop} (hE : Catches E I)
  (hprocess : ∀ {fuel : Nat} {call : M (Option UInt8)}, KeepsOr E I call → ∀ stale header,
    KeepsOr E I (noteDispatch stale (Header.ofBytes header) >>= fun _ =>
      processAccumulated conn fuel call header))

include hE hprocess

theorem underflowRound_lasting {fuel : Nat} {call : M (Option UInt8)} (hcall : KeepsOr E I call)
    (header : List UInt8) : KeepsOr E I (underflowRound conn fuel call header) := by
  refine .bind ((readRecords_lasting hI).or hE) fun _ => .get fun _ =>
    .bind ((Keeps.assert _).or hE) fun _ => .bind ((setUpContent_lasting hI).or hE) fun r => ?_
  rcases r with _ | ⟨_ | r⟩
  · refine .get fun _ => .bind ((Keeps.assert _).or hE) fun _ =>
      .bind ((skipPadding_lasting hI).or hE) fun r => .ite (.pure _) (.get fun _ => ?_)
    refine .bind ((Keeps.assert _).or hE) fun _ =>
      .bind ((accumulateHeader_lasting hI _).or hE) fun header' => .ite (.pure _) ?_
    exact .bind ((Keeps.assert _).or hE) fun _ => hprocess hcall _ header'
  · exact .pure _
  · exact .pure _

theorem underflowLoop_lasting (fuel : Nat) (header : List UInt8) :
    KeepsOr E I (underflowLoop conn fuel header) :=
  .recLoop hE (fun _ _ hloop header => underflowRound_lasting hI hE hprocess
    (enterUnderflow_lasting hI hE (hloop [])) header) fuel header

theorem underflow_lasting (fuel : Nat) : KeepsOr E I (underflow conn fuel) :=
  enterUnderflow_lasting hI hE (underflowLoop_lasting hI hE hprocess fuel [])

end loop

end

/-! ### Properties of the history -/

section

variable {conn : ConnectionInfo} {I : State → Prop} {fuel : Nat} {call : M (Option UInt8)}
  (hI : Stable I)

include hI

theorem modifyBuf_stable (f : ServerStreambuf → ServerStreambuf) : Keeps I (modifyBuf f) :=
  .modify fun s => hI.buf s.buf (f s.buf) s.world

theorem resetReader_stable (type : StreamType) : Keeps I (resetReader conn type) :=
  .get fun _ => .bind (.assert _) fun _ => .bind (modifyBuf_stable hI _) fun _ =>
    assertInvariantOk_stable

theorem processAccumulated_stable (hcall : Keeps I call) (header : List UInt8) :
    Keeps I (processAccumulated conn fuel call header) := by
  have hend : Keeps I (setEndOfStream conn) := setEndOfStream_lasting hI.lasting
  refine .bind (modifyBuf_stable hI _) fun _ =>
    .bind (processHeader_stable hI.lasting .keeps hcall _) fun r => ?_
  cases r with
  | requestRejected => exact .bind hend fun _ => .pure _
  | managementProcessed => exact .pure _
  | contentMustBeConsumed =>
      refine .get fun _ => .ite (.bind hend fun _ => .get fun _ => ?_) (.pure _)
      exact .ite (.bind (resetReader_stable hI _) fun _ => .pure _) (.pure _)
  | contentMustBeDiscarded => exact .bind (modifyBuf_stable hI _) fun _ => .pure _

theorem underflowLoop_stable (fuel : Nat) (header : List UInt8) :
    Keeps I (underflowLoop conn fuel header) :=
  underflowLoop_lasting hI.lasting .keeps (fun hcall _ header =>
    Keeps.bind (.modify fun s => hI.dispatch s.buf s.world _) fun _ =>
      processAccumulated_stable hI hcall header) fuel header

theorem underflow_stable (fuel : Nat) : Keeps I (underflow conn fuel) :=
  enterUnderflow_lasting hI.lasting .keeps (underflowLoop_stable hI fuel [])

end

end Fcgi

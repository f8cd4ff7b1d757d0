import Fcgi.Lib.Sink
import Fcgi.Input.Replies

/-!
# Input — what `underflow()` sends, chunk by chunk

The transport as a sink: the chunks are the records handed to `io->write`.  `underflow()` and the
programs that call it stop at the first of them that is not sent whole (`underflow_chunks`).

The lemmas follow the programs of the reader in the order of the source, one for each.  Most of
them send nothing; those that do go through `io->write`, which aborts on a count that is too small
(`Io.writeAll_chunks`).  A program that may re-enter `underflow()` takes the property of the inner
call as a hypothesis.
-/

namespace Fcgi
open Lib

/-- The transport. -/
def Io.sink : Sink Io UInt8 where
  sent io := io.written
  With ns io io' := io.sends = [] ∧ io' = { io with sends := ns.map .part }
  sent_eq h := by rw [h.2]
  refl h := ⟨h.1, by rw [List.map_nil, ← h.1]⟩

/-- Of the history only the number of the answers has a bearing on what is sent. -/
def World.sink : Sink World UInt8 where
  sent w := w.io.written
  With ns w w' := Io.sink.With ns w.io w'.io ∧ w'.history.answers.length = w.history.answers.length
  sent_eq h := Io.sink.sent_eq h.1
  refl h := ⟨Io.sink.refl h.1, rfl⟩

/-- The transport of a stream buffer, which is the same in both runs. -/
def State.sink : Sink State UInt8 where
  sent s := s.world.io.written
  With ns s t := t.buf = s.buf ∧ World.sink.With ns s.world t.world
  sent_eq h := World.sink.sent_eq h.2
  refl h := ⟨rfl, World.sink.refl h.2⟩

/-! ### The transport -/

theorem Io.read_chunks (len : Nat) : Chunked Io.sink (Io.read len) := by
  refine .of_silent (fun io => ?_) ?_
  · exact (Io.read_sends (r := (Io.read len io).1) rfl).2
  · rintro ns ⟨incoming, sends, written⟩ _ ⟨hs, rfl⟩
    cases hs
    rcases incoming with _ | ⟨⟨bs⟩ | _, rest⟩ <;> exact ⟨rfl, rfl, rfl⟩

/-- A record is one chunk. -/
theorem Io.writeAll_chunks (bs : List UInt8) : Chunked Io.sink (Io.writeAll bs) := by
  intro io hio
  have hrun := Io.writeAll_run hio.1 bs
  refine ⟨[bs], ?_, ?_, ?_⟩
  · rw [hrun]
    exact congrArg (io.written ++ ·) (List.append_nil bs).symm
  · rintro ns _ ⟨hs, rfl⟩ hw
    rw [hrun]
    cases ns with
    | nil =>
        rw [Io.writeAll_run rfl]
        exact ⟨rfl, hs, rfl⟩
    | cons n ns =>
        rw [Io.writeAll, Prog.bind_ok (m := Io.write bs) rfl,
          Prog.assert_true (Nat.min_eq_right hw.1), List.take_of_length_le hw.1]
        exact ⟨rfl, hs, rfl⟩
  · rintro ns _ ⟨hs, rfl⟩ hw
    rw [hrun]
    cases ns with
    | nil => exact absurd trivial hw
    | cons n ns =>
        have hlt : n < bs.length := Nat.lt_of_not_le fun h => hw ⟨h, trivial⟩
        rw [Io.writeAll, Prog.bind_ok (m := Io.write bs) rfl, Prog.assert_run,
          if_neg (by omega)]
        refine ⟨rfl, ?_⟩
        change (io.written ++ bs.take n).length < (io.written ++ bs).length
        simp only [List.length_append, List.length_take]
        omega

theorem World.onIo_chunks {α : Type} {m : Prog Io Exception α} (hm : Chunked Io.sink m) :
    Chunked World.sink (World.onIo m) :=
  hm.zoom (fun h => h.1) (fun h h' => ⟨h', h.2⟩) (fun _ _ => rfl) fun _ => rfl

theorem onWorld_chunks {α : Type} {m : World.M α} (hm : Chunked World.sink m) :
    Chunked State.sink (onWorld m) :=
  hm.zoom (fun h => h.2) (fun h h' => ⟨h.1, h'⟩) (fun _ _ => rfl) fun _ => rfl

theorem onIo_chunks {α : Type} {m : Prog Io Exception α} (hm : Chunked Io.sink m) :
    Chunked State.sink (onIo m) := onWorld_chunks (World.onIo_chunks hm)

/-! ### The buffer -/

section

variable {α : Type} {conn : ConnectionInfo} {fuel : Nat} {call : M (Option UInt8)}

/-- What is read of the state is in the buffer. -/
theorem Lib.Chunked.getBuf {f : State → M α} (hf : ∀ b w w', f ⟨b, w⟩ = f ⟨b, w'⟩)
    (h : ∀ s, Chunked State.sink (f s)) : Chunked State.sink (Prog.get >>= f) := by
  refine .get (fun {ns s t} hst => ?_) h
  obtain ⟨b, w⟩ := s
  obtain ⟨b', w'⟩ := t
  obtain rfl : b' = b := hst.1
  exact hf _ _ _

theorem modifyBuf_chunks (f : ServerStreambuf → ServerStreambuf) :
    Chunked State.sink (modifyBuf f) :=
  .modify (fun _ => rfl) fun h => ⟨congrArg f h.1, h.2⟩

theorem storeBuf_chunks (off : Nat) (bs : List UInt8) : Chunked State.sink (storeBuf off bs) :=
  .getBuf (fun _ _ _ => rfl) fun _ => .ite (modifyBuf_chunks _) (.fault _)

theorem assertInvariantOk_chunks : Chunked State.sink (assertInvariantOk conn) :=
  .getBuf (fun _ _ _ => rfl) fun _ => .assert _

theorem Header.make_chunks {σ : Type} {S : Sink σ UInt8} (t : RecordType) (id c p : Nat) :
    Chunked S (Header.make t id c p : Prog σ Exception Header) :=
  .bind (.assert _) fun _ => .pure _

theorem endRequest_chunks (header : Header) (ps : ProtocolStatus) :
    Chunked State.sink (endRequest header ps) :=
  .bind (.bind (Header.make_chunks _ _ _ _) fun _ => .pure _) fun _ =>
    onIo_chunks (Io.writeAll_chunks _)

theorem violation_chunks (header : Header) :
    Chunked State.sink (endRequestProtocolViolation header : M α) :=
  .bind (endRequest_chunks _ _) fun _ => .throw _

theorem fillReply_chunks (header : Header) : ∀ (pairs : List NameValue) (record : Mem) (p : Nat),
    Chunked State.sink (fillReply header pairs record p)
  | [], record, p => .pure _
  | pair :: pairs, record, p => by
      rw [fillReply]
      split
      · exact fillReply_chunks header pairs record p
      · have hrest : ∀ record' p', Chunked State.sink (do
            Prog.assert (pair.name.length + 3 ≤ replySize - p)
            fillReply header pairs record' p') := fun record' p' =>
          .bind (.assert _) fun _ => fillReply_chunks header pairs record' p'
        exact .ite (.bind (violation_chunks _) fun _ => hrest _ _) (hrest _ _)

theorem sendGetValuesResult_chunks (header : Header) (vars : NamesValues) :
    Chunked State.sink (sendGetValuesResult conn header vars) := by
  refine .get (fun {ns s t} hst => ?_) fun s => .bind (fillReply_chunks _ _ _ _) fun p =>
    .bind (.ofExcept _) fun q => ?_
  · -- the reply is built in the memory of the next answer
    dsimp only
    rw [hst.2.2]
  · exact .bind (Header.make_chunks _ _ _ _) fun h => onIo_chunks (Io.writeAll_chunks _)

/-! ### Reading names and values -/

section namesValues

variable (hcall : Chunked State.sink call)

theorem takeChar_chunks : Chunked State.sink takeChar :=
  .getBuf (fun _ _ _ => rfl) fun _ => .bind (modifyBuf_chunks _) fun _ => .pure _

include hcall

theorem sgetc_chunks : Chunked State.sink (sgetc call) :=
  .getBuf (fun _ _ _ => rfl) fun _ => .ite (.pure _) hcall

theorem sbumpc_chunks : Chunked State.sink (sbumpc call) := by
  refine .getBuf (fun _ _ _ => rfl) fun s => .ite takeChar_chunks (.bind hcall fun r => ?_)
  cases r with
  | none => exact .pure _
  | some c => exact takeChar_chunks

theorem xsgetn_chunks (n : Nat) : Chunked State.sink (xsgetn call n) := by
  induction n with
  | zero => exact .pure _
  | succ n ih =>
      refine .bind (sbumpc_chunks hcall) fun r => ?_
      cases r with
      | none => exact .pure _
      | some c => exact .bind ih fun cs => .pure _

theorem get_chunks (is : Istream) : Chunked State.sink (is.get call) := by
  refine .ite (.bind (.attempt (sbumpc_chunks hcall)) fun r => ?_) (.pure _)
  rcases r with e | _ | c <;> exact .pure _

theorem peek_chunks (is : Istream) : Chunked State.sink (is.peek call) := by
  refine .ite (.bind (.attempt (sgetc_chunks hcall)) fun r => ?_) (.pure _)
  rcases r with e | _ | c <;> exact .pure _

theorem read_chunks (is : Istream) (n : Int) : Chunked State.sink (is.read call n) := by
  refine .ite (.bind (.attempt (xsgetn_chunks hcall _)) fun r => ?_) (.pure _)
  rcases r with e | cs
  · exact .pure _
  · exact .ite (.pure _) (.pure _)

theorem readLength_chunks (is : Istream) :
    Chunked State.sink (NamesValues.readLength call is) := by
  refine .bind (get_chunks hcall is) fun p => ?_
  rcases p with ⟨_ | c, is₁⟩
  · exact .pure _
  · exact .ite (.bind (read_chunks hcall is₁ 3) fun _ => .ite (.pure _) (.throw _)) (.pure _)

theorem readPair_chunks (is : Istream) (nv : NamesValues) :
    Chunked State.sink (NamesValues.readPair call is nv) := by
  refine .bind (readLength_chunks hcall is) fun p => ?_
  rcases p with ⟨_ | nameLength, is₁⟩
  · exact .pure _
  · refine .bind (readLength_chunks hcall is₁) fun p => ?_
    rcases p with ⟨_ | valueLength, is₂⟩
    · exact .throw _
    · exact .bind (.bind (read_chunks hcall is₂ _) fun _ => .ite (.pure _) (.throw _))
        fun _ => .pure _

theorem ofStream_chunks (fuel : Nat) (is : Istream) (reserve : Nat) :
    Chunked State.sink (NamesValues.ofStream call fuel is reserve) :=
  .bind (.assert _) fun _ => .recLoop (fun _ _ _ p => readPair_chunks hcall p.1 p.2) fuel _

end namesValues

/-! ### The loop -/

theorem noteAnswer_chunks (vars : NamesValues) : Chunked State.sink (noteAnswer vars) := by
  refine .modify (fun _ => rfl) fun {ns s t} h => ⟨h.1, h.2.1, ?_⟩
  simp only [World.addAnswer, List.length_append, h.2.2, List.length_cons]

theorem noteEntry_chunks : Chunked State.sink noteEntry :=
  .modify (fun _ => rfl) fun h => ⟨h.1, h.2.1, h.2.2⟩

theorem noteDelivery_chunks : Chunked State.sink noteDelivery :=
  .modify (fun _ => rfl) fun h => ⟨h.1, h.2.1, h.2.2⟩

theorem noteDispatch_chunks (stale : Bool) (header : Header) :
    Chunked State.sink (noteDispatch stale header) :=
  .modify (fun _ => rfl) fun h => ⟨h.1, h.2.1, h.2.2⟩

theorem processManagementRecord_chunks (hcall : Chunked State.sink call) (header : Header) :
    Chunked State.sink (processManagementRecord conn fuel call header) := by
  refine .ite (.bind (ofStream_chunks hcall fuel _ _) fun p => ?_) ?_
  · have hsend : Chunked State.sink (sendGetValuesResult conn header p.1 >>= fun _ =>
        (pure ProcessHeaderResult.managementProcessed : M _)) :=
      .bind (sendGetValuesResult_chunks _ _) fun _ => .pure _
    exact .bind (noteAnswer_chunks _) fun _ => .getBuf (fun _ _ _ => rfl) fun s =>
      .ite (.bind (violation_chunks _) fun _ => hsend) hsend
  · exact .bind (.bind (Header.make_chunks _ _ _ _) fun _ => .pure _) fun _ =>
      .bind (onIo_chunks (Io.writeAll_chunks _)) fun _ => .pure _

theorem dispatch_chunks (hcall : Chunked State.sink call) (header : Header) :
    Chunked State.sink (dispatch conn fuel call header) := by
  refine .getBuf (fun _ _ _ => rfl) fun s =>
    .ite (.bind (endRequest_chunks _ _) fun _ => .pure _) ?_
  refine .ite (processManagementRecord_chunks hcall header) ?_
  exact .ite (.pure _) (.ite (.pure _) (violation_chunks _))

theorem processHeader_chunks (hcall : Chunked State.sink call) (header : Header) :
    Chunked State.sink (processHeader conn fuel call header) :=
  .bind (.ite (.throw _) (.pure _)) fun _ => .bind (modifyBuf_chunks _) fun _ =>
    .bind (dispatch_chunks hcall header) fun _ => .bind assertInvariantOk_chunks fun _ =>
      .pure _

theorem setEndOfStream_chunks : Chunked State.sink (setEndOfStream conn) :=
  .bind (modifyBuf_chunks _) fun _ => assertInvariantOk_chunks

theorem resetReader_chunks (type : StreamType) :
    Chunked State.sink (resetReader conn type) :=
  .getBuf (fun _ _ _ => rfl) fun _ => .bind (.assert _) fun _ =>
    .bind (modifyBuf_chunks _) fun _ => assertInvariantOk_chunks

theorem processAccumulated_chunks (hcall : Chunked State.sink call) (header : List UInt8) :
    Chunked State.sink (processAccumulated conn fuel call header) := by
  refine .bind (modifyBuf_chunks _) fun _ =>
    .bind (processHeader_chunks hcall _) fun r => ?_
  cases r with
  | requestRejected => exact .bind setEndOfStream_chunks fun _ => .pure _
  | managementProcessed => exact .pure _
  | contentMustBeConsumed =>
      refine .getBuf (fun _ _ _ => rfl) fun _ => .ite (.bind setEndOfStream_chunks fun _ =>
        .getBuf (fun _ _ _ => rfl) fun _ => ?_) (.pure _)
      exact .ite (.bind (resetReader_chunks _) fun _ => .pure _) (.pure _)
  | contentMustBeDiscarded => exact .bind (modifyBuf_chunks _) fun _ => .pure _

theorem readRecords_chunks : Chunked State.sink readRecords := by
  refine .getBuf (fun _ _ _ => rfl) fun s =>
    .ite (.bind (onIo_chunks (Io.read_chunks _)) fun bytes => ?_) (.pure _)
  exact .ite (.bind (storeBuf_chunks _ _) fun _ => modifyBuf_chunks _) (.throw _)

theorem setUpContent_chunks : Chunked State.sink (setUpContent conn) := by
  refine .getBuf (fun _ _ _ => rfl) fun s =>
    .ite (.bind (modifyBuf_chunks _) fun _ => .ite ?_ ?_) (.pure _)
  · exact .bind (modifyBuf_chunks _) fun _ => .bind noteDelivery_chunks fun _ =>
      .bind assertInvariantOk_chunks fun _ => .pure _
  · exact .bind (modifyBuf_chunks _) fun _ => .getBuf (fun _ _ _ => rfl) fun _ =>
      .ite (.pure _) (.bind (modifyBuf_chunks _) fun _ => .pure _)

theorem skipPadding_chunks : Chunked State.sink skipPadding :=
  .getBuf (fun _ _ _ => rfl) fun _ => .ite (.bind (modifyBuf_chunks _) fun _ =>
    .getBuf (fun _ _ _ => rfl) fun _ => .pure _) (.pure _)

theorem accumulateHeader_chunks (header : List UInt8) :
    Chunked State.sink (accumulateHeader header) :=
  .getBuf (fun _ _ _ => rfl) fun _ => .bind (modifyBuf_chunks _) fun _ => .pure _

theorem underflowRound_chunks (hcall : Chunked State.sink call) (header : List UInt8) :
    Chunked State.sink (underflowRound conn fuel call header) := by
  refine .bind readRecords_chunks fun _ => .getBuf (fun _ _ _ => rfl) fun _ =>
    .bind (.assert _) fun _ => .bind setUpContent_chunks fun r => ?_
  rcases r with _ | ⟨_ | r⟩
  · refine .getBuf (fun _ _ _ => rfl) fun _ => .bind (.assert _) fun _ =>
      .bind skipPadding_chunks fun r => .ite (.pure _) ?_
    refine .getBuf (fun _ _ _ => rfl) fun _ => .bind (.assert _) fun _ =>
      .bind (accumulateHeader_chunks header) fun header' => .ite (.pure _) ?_
    exact .bind (.assert _) fun _ => .bind (noteDispatch_chunks _ _) fun _ =>
      processAccumulated_chunks hcall header'
  · exact .pure _
  · exact .pure _

theorem enterUnderflow_chunks {loop : M (Option UInt8)} (h : Chunked State.sink loop) :
    Chunked State.sink (enterUnderflow loop) :=
  .getBuf (fun _ _ _ => rfl) fun _ => .bind (.assert _) fun _ => .ite (.pure _)
    (.bind noteEntry_chunks fun _ => h)

/-- **The chunks of `underflow()`.** -/
theorem underflow_chunks (conn : ConnectionInfo) (fuel : Nat) :
    Chunked State.sink (underflow conn fuel) :=
  enterUnderflow_chunks (.recLoop (fun _ _ hloop header =>
    underflowRound_chunks (enterUnderflow_chunks (hloop [])) header) fuel [])

end

end Fcgi

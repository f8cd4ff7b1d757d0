import Fcgi.Lib.Client
import Fcgi.Input.Replies

/-!
# Input — how `underflow()` uses the descriptor

The descriptor is used by calls of `read` and `write`, and in no other way: `underflow()` does what
a client of theirs does (`underflow_uses`), which knows the buffer, but not the transport.

A transfer returns what the call returned or threw, so what the client goes on with is the same over
every descriptor that answers alike.  There is a lemma for each program of the reader, in the order
of the source; all but `Io.read_uses` and `Io.write_uses` are rules of `Lib.Uses`, applied to the
program.
-/

namespace Fcgi
open Lib

/-- The calls on a descriptor. -/
inductive Transfer where
  | read (len : Nat)
  | write (buf : List UInt8)

namespace Transfer

/-- What a call returns or throws. -/
def Result : Transfer → Type
  | .read _ => Except Exception (List UInt8)
  | .write _ => Except Exception Nat

/-- Makes the call of the transport, and catches its exception. -/
def onIo : ∀ c : Transfer, Prog Io Exception c.Result
  | .read len => Prog.attempt (Io.read len)
  | .write buf => Prog.attempt (Io.write buf)

end Transfer

/-- Of the history only the number of the answers has a bearing on what is done. -/
def World.around : Around World Io where
  part := World.io
  Same w w' := w'.history.answers.length = w.history.answers.length

/-- The transport of a stream buffer. -/
def State.around : Around State Io where
  part s := s.world.io
  Same s t := t.buf = s.buf ∧ World.around.Same s.world t.world

/-- What the program does with the descriptor is what a client does. -/
abbrev Transfers {σ α : Type} (A : Around σ Io) (m : Prog σ Exception α) : Prop :=
  Uses A Transfer.onIo m

/-! ### The transport -/

/-- What a caller that lets exceptions pass gets. -/
def passed {α : Type} : Except Exception α → Except (Fault Exception) α
  | .ok a => .ok a
  | .error e => .error (.exc e)

theorem Io.read_uses (len : Nat) : Transfers Around.all (Io.read len) := by
  refine .call (.read len) passed fun io => ?_
  obtain ⟨_ | ⟨⟨bs⟩ | _, rest⟩, sends, written⟩ := io <;> exact ⟨_, _, rfl, rfl⟩

theorem Io.write_uses (buf : List UInt8) : Transfers Around.all (Io.write buf) := by
  refine .call (.write buf) passed fun io => ?_
  obtain ⟨incoming, _ | ⟨⟨n⟩ | _, rest⟩, written⟩ := io <;> exact ⟨_, _, rfl, rfl⟩

theorem Io.writeAll_uses (buf : List UInt8) : Transfers Around.all (Io.writeAll buf) :=
  .bind (Io.write_uses buf) fun _ => .assert _

theorem World.onIo_uses {α : Type} {m : Prog Io Exception α} (hm : Transfers Around.all m) :
    Transfers World.around (World.onIo m) :=
  hm.zoom (fun _ => trivial) (fun h _ => h) (fun _ => rfl) fun _ _ => rfl

theorem onWorld_uses {α : Type} {m : World.M α} (hm : Transfers World.around m) :
    Transfers State.around (onWorld m) :=
  hm.zoom (fun h => h.2) (fun h h' => ⟨h.1, h'⟩) (fun _ => rfl) fun _ _ => rfl

theorem onIo_uses {α : Type} {m : Prog Io Exception α} (hm : Transfers Around.all m) :
    Transfers State.around (onIo m) := onWorld_uses (World.onIo_uses hm)

/-! ### The buffer -/

section

variable {α : Type} {conn : ConnectionInfo} {fuel : Nat} {call : M (Option UInt8)}

/-- What is read of the state is in the buffer. -/
theorem Lib.Uses.getBuf {f : State → M α} (hf : ∀ b w w', f ⟨b, w⟩ = f ⟨b, w'⟩)
    (h : ∀ s, Transfers State.around (f s)) : Transfers State.around (Prog.get >>= f) := by
  refine .get (fun {s t} hst => ?_) h
  obtain ⟨b, w⟩ := s
  obtain ⟨b', w'⟩ := t
  obtain rfl : b' = b := hst.1
  exact hf _ _ _

theorem modifyBuf_uses (f : ServerStreambuf → ServerStreambuf) :
    Transfers State.around (modifyBuf f) :=
  .modify (fun _ => rfl) fun h => ⟨congrArg f h.1, h.2⟩

theorem storeBuf_uses (off : Nat) (bs : List UInt8) : Transfers State.around (storeBuf off bs) :=
  .getBuf (fun _ _ _ => rfl) fun _ => .ite (modifyBuf_uses _) (.fault _)

theorem assertInvariantOk_uses : Transfers State.around (assertInvariantOk conn) :=
  .getBuf (fun _ _ _ => rfl) fun _ => .assert _

theorem Header.make_uses {σ : Type} {A : Around σ Io} (t : RecordType) (id c p : Nat) :
    Transfers A (Header.make t id c p : Prog σ Exception Header) :=
  .bind (.assert _) fun _ => .pure _

theorem endRequest_uses (header : Header) (ps : ProtocolStatus) :
    Transfers State.around (endRequest header ps) :=
  .bind (.bind (Header.make_uses _ _ _ _) fun _ => .pure _) fun _ =>
    onIo_uses (Io.writeAll_uses _)

theorem violation_uses (header : Header) :
    Transfers State.around (endRequestProtocolViolation header : M α) :=
  .bind (endRequest_uses _ _) fun _ => .throw _

theorem fillReply_uses (header : Header) : ∀ (pairs : List NameValue) (record : Mem) (p : Nat),
    Transfers State.around (fillReply header pairs record p)
  | [], record, p => .pure _
  | pair :: pairs, record, p => by
      rw [fillReply]
      split
      · exact fillReply_uses header pairs record p
      · have hrest : ∀ record' p', Transfers State.around (do
            Prog.assert (pair.name.length + 3 ≤ replySize - p)
            fillReply header pairs record' p') := fun record' p' =>
          .bind (.assert _) fun _ => fillReply_uses header pairs record' p'
        exact .ite (.bind (violation_uses _) fun _ => hrest _ _) (hrest _ _)

theorem sendGetValuesResult_uses (header : Header) (vars : NamesValues) :
    Transfers State.around (sendGetValuesResult conn header vars) := by
  refine .get (fun {s t} hst => ?_) fun s => .bind (fillReply_uses _ _ _ _) fun p =>
    .bind (.ofExcept _) fun q => ?_
  · -- the reply is built in the memory of the next answer
    dsimp only
    rw [hst.2]
  · exact .bind (Header.make_uses _ _ _ _) fun h => onIo_uses (Io.writeAll_uses _)

/-! ### Reading names and values -/

section namesValues

variable (hcall : Transfers State.around call)

theorem takeChar_uses : Transfers State.around takeChar :=
  .getBuf (fun _ _ _ => rfl) fun _ => .bind (modifyBuf_uses _) fun _ => .pure _

include hcall

theorem sgetc_uses : Transfers State.around (sgetc call) :=
  .getBuf (fun _ _ _ => rfl) fun _ => .ite (.pure _) hcall

theorem sbumpc_uses : Transfers State.around (sbumpc call) := by
  refine .getBuf (fun _ _ _ => rfl) fun s => .ite takeChar_uses (.bind hcall fun r => ?_)
  cases r with
  | none => exact .pure _
  | some c => exact takeChar_uses

theorem xsgetn_uses (n : Nat) : Transfers State.around (xsgetn call n) := by
  induction n with
  | zero => exact .pure _
  | succ n ih =>
      refine .bind (sbumpc_uses hcall) fun r => ?_
      cases r with
      | none => exact .pure _
      | some c => exact .bind ih fun cs => .pure _

theorem get_uses (is : Istream) : Transfers State.around (is.get call) := by
  refine .ite (.bind (.attempt (sbumpc_uses hcall)) fun r => ?_) (.pure _)
  rcases r with e | _ | c <;> exact .pure _

theorem peek_uses (is : Istream) : Transfers State.around (is.peek call) := by
  refine .ite (.bind (.attempt (sgetc_uses hcall)) fun r => ?_) (.pure _)
  rcases r with e | _ | c <;> exact .pure _

theorem read_uses (is : Istream) (n : Int) : Transfers State.around (is.read call n) := by
  refine .ite (.bind (.attempt (xsgetn_uses hcall _)) fun r => ?_) (.pure _)
  rcases r with e | cs
  · exact .pure _
  · exact .ite (.pure _) (.pure _)

theorem readLength_uses (is : Istream) :
    Transfers State.around (NamesValues.readLength call is) := by
  refine .bind (get_uses hcall is) fun p => ?_
  rcases p with ⟨_ | c, is₁⟩
  · exact .pure _
  · exact .ite (.bind (read_uses hcall is₁ 3) fun _ => .ite (.pure _) (.throw _)) (.pure _)

theorem readPair_uses (is : Istream) (nv : NamesValues) :
    Transfers State.around (NamesValues.readPair call is nv) := by
  refine .bind (readLength_uses hcall is) fun p => ?_
  rcases p with ⟨_ | nameLength, is₁⟩
  · exact .pure _
  · refine .bind (readLength_uses hcall is₁) fun p => ?_
    rcases p with ⟨_ | valueLength, is₂⟩
    · exact .throw _
    · exact .bind (.bind (read_uses hcall is₂ _) fun _ => .ite (.pure _) (.throw _))
        fun _ => .pure _

theorem ofStream_uses (fuel : Nat) (is : Istream) (reserve : Nat) :
    Transfers State.around (NamesValues.ofStream call fuel is reserve) :=
  .bind (.assert _) fun _ => .recLoop (fun _ _ _ p => readPair_uses hcall p.1 p.2) fuel _

end namesValues

/-! ### The loop -/

theorem noteAnswer_uses (vars : NamesValues) : Transfers State.around (noteAnswer vars) := by
  refine .modify (fun _ => rfl) fun {s t} h => ⟨h.1, ?_⟩
  change (t.world.addAnswer _).history.answers.length = (s.world.addAnswer _).history.answers.length
  have hanswers : t.world.history.answers.length = s.world.history.answers.length := h.2
  simp only [World.addAnswer, List.length_append, hanswers, List.length_cons]

theorem noteEntry_uses : Transfers State.around noteEntry :=
  .modify (fun _ => rfl) fun h => ⟨h.1, h.2⟩

theorem noteDelivery_uses : Transfers State.around noteDelivery :=
  .modify (fun _ => rfl) fun h => ⟨h.1, h.2⟩

theorem noteDispatch_uses (stale : Bool) (header : Header) :
    Transfers State.around (noteDispatch stale header) :=
  .modify (fun _ => rfl) fun h => ⟨h.1, h.2⟩

theorem processManagementRecord_uses (hcall : Transfers State.around call) (header : Header) :
    Transfers State.around (processManagementRecord conn fuel call header) := by
  refine .ite (.bind (ofStream_uses hcall fuel _ _) fun p => ?_) ?_
  · have hsend : Transfers State.around (sendGetValuesResult conn header p.1 >>= fun _ =>
        (pure ProcessHeaderResult.managementProcessed : M _)) :=
      .bind (sendGetValuesResult_uses _ _) fun _ => .pure _
    exact .bind (noteAnswer_uses _) fun _ => .getBuf (fun _ _ _ => rfl) fun s =>
      .ite (.bind (violation_uses _) fun _ => hsend) hsend
  · exact .bind (.bind (Header.make_uses _ _ _ _) fun _ => .pure _) fun _ =>
      .bind (onIo_uses (Io.writeAll_uses _)) fun _ => .pure _

theorem dispatch_uses (hcall : Transfers State.around call) (header : Header) :
    Transfers State.around (dispatch conn fuel call header) := by
  refine .getBuf (fun _ _ _ => rfl) fun s =>
    .ite (.bind (endRequest_uses _ _) fun _ => .pure _) ?_
  refine .ite (processManagementRecord_uses hcall header) ?_
  exact .ite (.pure _) (.ite (.pure _) (violation_uses _))

theorem processHeader_uses (hcall : Transfers State.around call) (header : Header) :
    Transfers State.around (processHeader conn fuel call header) :=
  .bind (.ite (.throw _) (.pure _)) fun _ => .bind (modifyBuf_uses _) fun _ =>
    .bind (dispatch_uses hcall header) fun _ => .bind assertInvariantOk_uses fun _ =>
      .pure _

theorem setEndOfStream_uses : Transfers State.around (setEndOfStream conn) :=
  .bind (modifyBuf_uses _) fun _ => assertInvariantOk_uses

theorem resetReader_uses (type : StreamType) :
    Transfers State.around (resetReader conn type) :=
  .getBuf (fun _ _ _ => rfl) fun _ => .bind (.assert _) fun _ =>
    .bind (modifyBuf_uses _) fun _ => assertInvariantOk_uses

theorem processAccumulated_uses (hcall : Transfers State.around call) (header : List UInt8) :
    Transfers State.around (processAccumulated conn fuel call header) := by
  refine .bind (modifyBuf_uses _) fun _ =>
    .bind (processHeader_uses hcall _) fun r => ?_
  cases r with
  | requestRejected => exact .bind setEndOfStream_uses fun _ => .pure _
  | managementProcessed => exact .pure _
  | contentMustBeConsumed =>
      refine .getBuf (fun _ _ _ => rfl) fun _ => .ite (.bind setEndOfStream_uses fun _ =>
        .getBuf (fun _ _ _ => rfl) fun _ => ?_) (.pure _)
      exact .ite (.bind (resetReader_uses _) fun _ => .pure _) (.pure _)
  | contentMustBeDiscarded => exact .bind (modifyBuf_uses _) fun _ => .pure _

theorem readRecords_uses : Transfers State.around readRecords := by
  refine .getBuf (fun _ _ _ => rfl) fun s =>
    .ite (.bind (onIo_uses (Io.read_uses _)) fun bytes => ?_) (.pure _)
  exact .ite (.bind (storeBuf_uses _ _) fun _ => modifyBuf_uses _) (.throw _)

theorem setUpContent_uses : Transfers State.around (setUpContent conn) := by
  refine .getBuf (fun _ _ _ => rfl) fun s =>
    .ite (.bind (modifyBuf_uses _) fun _ => .ite ?_ ?_) (.pure _)
  · exact .bind (modifyBuf_uses _) fun _ => .bind noteDelivery_uses fun _ =>
      .bind assertInvariantOk_uses fun _ => .pure _
  · exact .bind (modifyBuf_uses _) fun _ => .getBuf (fun _ _ _ => rfl) fun _ =>
      .ite (.pure _) (.bind (modifyBuf_uses _) fun _ => .pure _)

theorem skipPadding_uses : Transfers State.around skipPadding :=
  .getBuf (fun _ _ _ => rfl) fun _ => .ite (.bind (modifyBuf_uses _) fun _ =>
    .getBuf (fun _ _ _ => rfl) fun _ => .pure _) (.pure _)

theorem accumulateHeader_uses (header : List UInt8) :
    Transfers State.around (accumulateHeader header) :=
  .getBuf (fun _ _ _ => rfl) fun _ => .bind (modifyBuf_uses _) fun _ => .pure _

theorem underflowRound_uses (hcall : Transfers State.around call) (header : List UInt8) :
    Transfers State.around (underflowRound conn fuel call header) := by
  refine .bind readRecords_uses fun _ => .getBuf (fun _ _ _ => rfl) fun _ =>
    .bind (.assert _) fun _ => .bind setUpContent_uses fun r => ?_
  rcases r with _ | ⟨_ | r⟩
  · refine .getBuf (fun _ _ _ => rfl) fun _ => .bind (.assert _) fun _ =>
      .bind skipPadding_uses fun r => .ite (.pure _) ?_
    refine .getBuf (fun _ _ _ => rfl) fun _ => .bind (.assert _) fun _ =>
      .bind (accumulateHeader_uses header) fun header' => .ite (.pure _) ?_
    exact .bind (.assert _) fun _ => .bind (noteDispatch_uses _ _) fun _ =>
      processAccumulated_uses hcall header'
  · exact .pure _
  · exact .pure _

theorem enterUnderflow_uses {loop : M (Option UInt8)} (h : Transfers State.around loop) :
    Transfers State.around (enterUnderflow loop) :=
  .getBuf (fun _ _ _ => rfl) fun _ => .bind (.assert _) fun _ => .ite (.pure _)
    (.bind noteEntry_uses fun _ => h)

/-- **The calls of `underflow()`.** -/
theorem underflow_uses (conn : ConnectionInfo) (fuel : Nat) :
    Transfers State.around (underflow conn fuel) :=
  enterUnderflow_uses (.recLoop (fun _ _ hloop header =>
    underflowRound_uses (enterUnderflow_uses (hloop [])) header) fuel [])

end

end Fcgi

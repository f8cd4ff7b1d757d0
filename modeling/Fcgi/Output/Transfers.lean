import Fcgi.Input.Transfers
import Fcgi.Streambuf.Writer

/-!
# Output — how an output stream uses the descriptor

The calls on an output stream, and `close()`, make transfers on the descriptor and no other call of
the system: `Transfers` of `Input/Transfers.lean`, for each function of the source along its body.
What they write is written by `Io.writeAll`, and nothing else of the world is touched.
-/

namespace Fcgi
open Lib

section

variable {conn : ConnectionInfo}

theorem storeExtra_uses (ch : Option UInt8) : Transfers State.around (storeExtra ch) := by
  cases ch with
  | none => exact .pure _
  | some c =>
      exact .getBuf (fun _ _ _ => rfl) fun _ => .bind (.assert _) fun _ =>
        .bind (storeBuf_uses _ _) fun _ => modifyBuf_uses _

theorem sendRecord_uses (contentLength : Nat) :
    Transfers State.around (sendRecord conn contentLength) := by
  refine .bind (.ofExcept _) fun _ => .getBuf (fun _ _ _ => rfl) fun _ =>
    .bind (.assert _) fun _ => .bind (storeBuf_uses _ _) fun _ =>
      .bind (modifyBuf_uses _) fun _ => ?_
  refine .bind (Header.make_uses _ _ _ _) fun _ => .bind (storeBuf_uses _ _) fun _ =>
    .getBuf (fun _ _ _ => rfl) fun _ => .ite ?_ (.pure _)
  exact .bind (onIo_uses (Io.writeAll_uses _)) fun _ => modifyBuf_uses _

theorem sendPutArea_uses (ch : Option UInt8) : Transfers State.around (sendPutArea conn ch) :=
  .getBuf (fun _ _ _ => rfl) fun _ => .ite (.pure _) (.bind (storeExtra_uses ch) fun _ =>
    sendRecord_uses _)

theorem sendEndRecords_uses : Transfers State.around (sendEndRecords conn) := by
  have send : ∀ dataSize : Nat, Transfers State.around (do
      let s ← Prog.get
      if 0 < dataSize then onIo (Io.writeAll (s.buf.buffer_.load 0 dataSize)) else pure ()
      modifyBuf fun b => (b.setEndRecordsMustBeTransmitted false).setEndOfStream true : M Unit) :=
    fun dataSize => .getBuf (fun _ _ _ => rfl) fun s =>
      .ite (.bind (onIo_uses (Io.writeAll_uses _)) fun _ => modifyBuf_uses _)
        (modifyBuf_uses _)
  have endRequest : ∀ (s : State) (dataSize : Nat), Transfers State.around (do
      let dataSize ←
        if s.buf.type_ = .out then do
          let record ← endRequestRecord conn.requestId conn.applicationStatus .requestComplete
          storeBuf dataSize record
          pure (dataSize + endRequestRecordSize)
        else pure dataSize
      let s ← Prog.get
      if 0 < dataSize then onIo (Io.writeAll (s.buf.buffer_.load 0 dataSize)) else pure ()
      modifyBuf fun b => (b.setEndRecordsMustBeTransmitted false).setEndOfStream true : M Unit) :=
    fun s dataSize => .ite (.bind (.bind (Header.make_uses _ _ _ _) fun _ => .pure _) fun _ =>
      .bind (storeBuf_uses _ _) fun _ => .bind (.pure _) send) (.bind (.pure _) send)
  refine .getBuf (fun _ _ _ => rfl) fun s => .ite ?_ (.bind (.pure _) (endRequest s))
  exact .bind (Header.make_uses _ _ _ _) fun _ => .bind (storeBuf_uses _ _) fun _ =>
    .bind (.pure _) (endRequest s)

theorem overflow_uses (ch : Option UInt8) : Transfers State.around (overflow conn ch) := by
  refine .getBuf (fun _ _ _ => rfl) fun _ => .bind (.assert _) fun _ => .ite (.pure _) ?_
  refine .bind (.assert _) fun _ => .bind (sendPutArea_uses ch) fun _ =>
    .bind (modifyBuf_uses _) fun _ => ?_
  have done : Transfers State.around
      (do assertInvariantOk conn; pure (some (ch.getD 0)) : M (Option UInt8)) :=
    .bind assertInvariantOk_uses fun _ => .pure _
  exact .getBuf (fun _ _ _ => rfl) fun _ =>
    .ite (.bind sendEndRecords_uses fun _ => done) done

theorem sync_uses : Transfers State.around (sync conn) :=
  .bind (overflow_uses none) fun _ => .pure _

theorem closeAreas_uses : Transfers State.around (closeAreas conn) :=
  .bind (modifyBuf_uses _) fun _ => .getBuf (fun _ _ _ => rfl) fun _ =>
    .bind (.assert _) fun _ => assertInvariantOk_uses

theorem closeOutput_uses : Transfers State.around (closeOutput conn) :=
  .bind (modifyBuf_uses _) fun _ => .bind sync_uses fun _ =>
    .getBuf (fun _ _ _ => rfl) fun _ => .bind (.assert _) fun _ => closeAreas_uses

theorem close_uses (inbuf : ServerStreambuf) : Transfers State.around (close conn inbuf) := by
  refine .getBuf (fun _ _ _ => rfl) fun _ => .ite (.pure _) (.ite ?_ closeAreas_uses)
  exact .bind (.assert _) fun _ => .bind (.assert _) fun _ => .ite closeOutput_uses (.throw _)

theorem sputc_uses (c : UInt8) : Transfers State.around (sputc conn c) :=
  .getBuf (fun _ _ _ => rfl) fun _ => .ite (.bind (storeBuf_uses _ _) fun _ =>
    .bind (modifyBuf_uses _) fun _ => .pure _) (overflow_uses _)

theorem xsputn_uses : ∀ bytes : List UInt8, Transfers State.around (xsputn conn bytes)
  | [] => .pure _
  | c :: cs => by
      refine .bind (sputc_uses c) fun r => ?_
      cases r with
      | none => exact .pure _
      | some c => exact .bind (xsputn_uses cs) fun _ => .pure _

end

end Fcgi

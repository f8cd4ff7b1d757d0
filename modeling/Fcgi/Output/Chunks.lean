import Fcgi.Input.Chunks
import Fcgi.Streambuf.Writer

/-!
# Output — what an output stream sends, chunk by chunk

The calls on an output stream, and `close()`, stop at the first record that is not sent whole:
they are `Chunked`, as the transport is (`Lib/Sink.lean`).

There is one lemma for each function of the source, which follows its body: what does not write is
`Chunked` for nothing it does reaches the transport, and where a function writes and goes on, it
goes on only if all has been written.
-/

namespace Fcgi
open Lib

section

variable {conn : ConnectionInfo}

theorem storeExtra_chunks (ch : Option UInt8) : Chunked State.sink (storeExtra ch) := by
  cases ch with
  | none => exact .pure _
  | some c =>
      exact .getBuf (fun _ _ _ => rfl) fun _ => .bind (.assert _) fun _ =>
        .bind (storeBuf_chunks _ _) fun _ => modifyBuf_chunks _

theorem sendRecord_chunks (contentLength : Nat) :
    Chunked State.sink (sendRecord conn contentLength) := by
  refine .bind (.ofExcept _) fun _ => .getBuf (fun _ _ _ => rfl) fun _ =>
    .bind (.assert _) fun _ => .bind (storeBuf_chunks _ _) fun _ =>
      .bind (modifyBuf_chunks _) fun _ => ?_
  refine .bind (Header.make_chunks _ _ _ _) fun _ => .bind (storeBuf_chunks _ _) fun _ =>
    .getBuf (fun _ _ _ => rfl) fun _ => .ite ?_ (.pure _)
  exact .bind (onIo_chunks (Io.writeAll_chunks _)) fun _ => modifyBuf_chunks _

theorem sendPutArea_chunks (ch : Option UInt8) : Chunked State.sink (sendPutArea conn ch) :=
  .getBuf (fun _ _ _ => rfl) fun _ => .ite (.pure _) (.bind (storeExtra_chunks ch) fun _ =>
    sendRecord_chunks _)

theorem sendEndRecords_chunks : Chunked State.sink (sendEndRecords conn) := by
  have send : ∀ dataSize : Nat, Chunked State.sink (do
      let s ← Prog.get
      if 0 < dataSize then onIo (Io.writeAll (s.buf.buffer_.load 0 dataSize)) else pure ()
      modifyBuf fun b => (b.setEndRecordsMustBeTransmitted false).setEndOfStream true : M Unit) :=
    fun dataSize => .getBuf (fun _ _ _ => rfl) fun s =>
      .ite (.bind (onIo_chunks (Io.writeAll_chunks _)) fun _ => modifyBuf_chunks _)
        (modifyBuf_chunks _)
  have endRequest : ∀ (s : State) (dataSize : Nat), Chunked State.sink (do
      let dataSize ←
        if s.buf.type_ = .out then do
          let record ← endRequestRecord conn.requestId conn.applicationStatus .requestComplete
          storeBuf dataSize record
          pure (dataSize + endRequestRecordSize)
        else pure dataSize
      let s ← Prog.get
      if 0 < dataSize then onIo (Io.writeAll (s.buf.buffer_.load 0 dataSize)) else pure ()
      modifyBuf fun b => (b.setEndRecordsMustBeTransmitted false).setEndOfStream true : M Unit) :=
    fun s dataSize => .ite (.bind (.bind (Header.make_chunks _ _ _ _) fun _ => .pure _) fun _ =>
      .bind (storeBuf_chunks _ _) fun _ => .bind (.pure _) send) (.bind (.pure _) send)
  refine .getBuf (fun _ _ _ => rfl) fun s => .ite ?_ (.bind (.pure _) (endRequest s))
  exact .bind (Header.make_chunks _ _ _ _) fun _ => .bind (storeBuf_chunks _ _) fun _ =>
    .bind (.pure _) (endRequest s)

theorem overflow_chunks (ch : Option UInt8) : Chunked State.sink (overflow conn ch) := by
  refine .getBuf (fun _ _ _ => rfl) fun _ => .bind (.assert _) fun _ => .ite (.pure _) ?_
  refine .bind (.assert _) fun _ => .bind (sendPutArea_chunks ch) fun _ =>
    .bind (modifyBuf_chunks _) fun _ => ?_
  have done : Chunked State.sink
      (do assertInvariantOk conn; pure (some (ch.getD 0)) : M (Option UInt8)) :=
    .bind assertInvariantOk_chunks fun _ => .pure _
  exact .getBuf (fun _ _ _ => rfl) fun _ =>
    .ite (.bind sendEndRecords_chunks fun _ => done) done

theorem sync_chunks : Chunked State.sink (sync conn) :=
  .bind (overflow_chunks none) fun _ => .pure _

theorem closeAreas_chunks : Chunked State.sink (closeAreas conn) :=
  .bind (modifyBuf_chunks _) fun _ => .getBuf (fun _ _ _ => rfl) fun _ =>
    .bind (.assert _) fun _ => assertInvariantOk_chunks

theorem closeOutput_chunks : Chunked State.sink (closeOutput conn) :=
  .bind (modifyBuf_chunks _) fun _ => .bind sync_chunks fun _ =>
    .getBuf (fun _ _ _ => rfl) fun _ => .bind (.assert _) fun _ => closeAreas_chunks

theorem close_chunks (inbuf : ServerStreambuf) : Chunked State.sink (close conn inbuf) := by
  refine .getBuf (fun _ _ _ => rfl) fun _ => .ite (.pure _) (.ite ?_ closeAreas_chunks)
  exact .bind (.assert _) fun _ => .bind (.assert _) fun _ => .ite closeOutput_chunks (.throw _)

theorem sputc_chunks (c : UInt8) : Chunked State.sink (sputc conn c) :=
  .getBuf (fun _ _ _ => rfl) fun _ => .ite (.bind (storeBuf_chunks _ _) fun _ =>
    .bind (modifyBuf_chunks _) fun _ => .pure _) (overflow_chunks _)

theorem xsputn_chunks : ∀ bytes : List UInt8, Chunked State.sink (xsputn conn bytes)
  | [] => .pure _
  | c :: cs => by
      refine .bind (sputc_chunks c) fun r => ?_
      cases r with
      | none => exact .pure _
      | some c => exact .bind (xsputn_chunks cs) fun _ => .pure _

end

end Fcgi

import Fcgi.Output.Calls
import Fcgi.Input.Contents
import Fcgi.Connection.Accepted

/-!
# Connection — output streams over whole runs

**`writer_inside`**: while all writes succeed, a buffer for output of any size stores nothing
outside of it, fails no assertion and drops no character.

**`failed_output_retried`**: where writes fail, the same is true of the runs in which only flushes
of what needs no padding fail.

Both are read off the invariant of the runs (`WriterRun.state`, of `Output/Calls.lean`).  A store
outside of the memory would be undefined and end the call as such (`storeBuf`), which no call does:
for the first result the memory is taken as small as the part that is used.  For the second, what a
failed flush has built in front of and behind the content is built again, over itself, by the next
one.
-/

namespace Fcgi
open Lib

/-! ### The stores -/

/-- What holds of a writer of `size` bytes at any time. -/
structure WriterInside (conn : ConnectionInfo) (t : StreamType) (s₀ : State) (acc : List UInt8)
    (s : State) : Prop where
  invariantOk : s.buf.InvariantOk conn.role
  accounted : ∃ rs, StreamSent conn t s₀ rs s ∧ rs.flatMap Record.content ++ s.buf.pending = acc ∧
    ∀ r ∈ rs, r.content.length + Header.size ≤ s.buf.bufferSize_ ∧ r.content.length ≤ 65535
  calls : ∀ call : WriterCall, call.Permitted conn s →
    (∃ s', call.exec conn s = (.ok call.bytes, s')) ∨
      call.Denied conn ∧ ∃ e, call.exec conn s = (.error (.exc e), s)

/-- **A writer stays inside its buffer.**  The stores are checked against the `capacity` of the
memory, which may be as small as `buffer_size_`. -/
theorem writer_inside {conn : ConnectionInfo} {size : Nat} {t : StreamType} {w : World}
    (hid : conn.requestId < 65536) (h₁ : 2048 ≤ size) (h₂ : size ≤ 65528)
    (ht : t = .out ∨ t = .err) (buffer : Mem) (hw : w.AllOrNothing)
    (hsends : .error ∉ w.io.sends) :
    ∃ b, ServerStreambuf.construct conn buffer size t w = (.ok b, w) ∧ b.bufferSize_ ≤ size ∧
      ∀ capacity, b.bufferSize_ ≤ capacity → ∀ acc s,
        WriterRun conn (fun _ _ => True) ⟨b.setMemory b.buffer_ capacity b.bufferSize_, w⟩ acc s →
        WriterInside conn t ⟨b.setMemory b.buffer_ capacity b.bufferSize_, w⟩ acc s := by
  obtain ⟨b, hrun, hfresh, hsize⟩ := construct_writer conn buffer w h₁ h₂ ht
  refine ⟨b, hrun, by omega, fun capacity hcap acc s hr => ?_⟩
  have hb := hfresh.writer
  obtain ⟨cur, hp⟩ := hb.putArea
  have hwriter : Writer t false (b.setMemory b.buffer_ capacity b.bufferSize_) :=
    ⟨hb.type, hb.output, hb.getArea, ⟨cur, hp.area, hp.le, hp.lt, hp.size_ge, hp.size_le,
      hp.size_mod, hcap⟩, hb.content, hb.padding, hb.open_, hb.ending_⟩
  have hstate := hr.state hid (.inl (hwriter.log hfresh.pending hfresh.consumed w)) hw
    fun _ _ _ => .inr hsends
  obtain ⟨rs, hsent, hacc⟩ := hstate.1.accounted
  refine ⟨hstate.1.invariantOk, ⟨rs, hsent, hacc, fun r hr => ?_⟩, fun call hp => ?_⟩
  · have hfits := hsent.fits r hr
    rw [r.bytes_eq, List.length_append, List.length_append, Header.length_bytes] at hfits
    have hsize := hsent.memory.1
    simp only [ServerStreambuf.setMemory_bufferSize_] at hsize
    rw [Header.size]
    omega
  · have hends := WriterCall.exec_ends hid hstate.1 (hw.of_sends hstate.2) call hp
    rcases e : call.exec conn s with ⟨r, s'⟩
    rw [e] at hends
    cases hends with
    | ok => exact .inl ⟨s', rfl⟩
    | denied hd => exact .inr ⟨hd, _, rfl⟩
    | error hs => exact absurd (hstate.2 hs) hsends

/-- A buffer for `out()` that uses 2048 bytes, with what the next writes do. -/
def smallWriter (capacity : Nat) (sends : List Send) : State where
  buf := ({ type_ := .out, buffer_ := fun _ => 0, capacity,
            bufferSize_ := 2048 } : ServerStreambuf).setp 8 2047
  world := { io := { incoming := [], sends } }

/-- What a call leaves behind. -/
def WriterCall.after (call : WriterCall) (s : State) : State := (call.exec .responder s).2

/-- The state after a call, by what it returns. -/
theorem WriterCall.exec_after {call : WriterCall} {s : State}
    {r : Except (Fault Exception) (List UInt8)} (h : (call.exec .responder s).1 = r) :
    call.exec .responder s = (r, call.after s) := Prod.ext h rfl

/-- Of the 2055 bytes 2048 are used.  Two characters are written and sent, another one is put,
and `close()` sends it with the end records. -/
theorem writer_inside_closed :
    ServerStreambuf.construct .responder (fun _ => 0) 2055 .out (smallWriter 2055 []).world =
      (.ok (smallWriter 2055 []).buf, (smallWriter 2055 []).world) ∧
    ∃ s, WriterRun .responder (fun _ _ => True) (smallWriter 2048 []) [104, 105, 33] s ∧
      s.buf.isClosed = true ∧
      WriterInside .responder .out (smallWriter 2048 []) [104, 105, 33] s := by
  let s₁ := (WriterCall.write [104, 105]).after (smallWriter 2048 [])
  let s₂ := WriterCall.flush.after s₁
  let s₃ := (WriterCall.put 33).after s₂
  let s₄ := (WriterCall.close (State.fresh .«in» []).buf).after s₃
  have hwrite : ((WriterCall.write [104, 105]).exec .responder (smallWriter 2048 [])).1 =
    .ok [104, 105] := by decide +kernel
  have hflush : (WriterCall.flush.exec .responder s₁).1 = .ok [] := by decide +kernel
  have hput : ((WriterCall.put 33).exec .responder s₂).1 = .ok [33] := by decide +kernel
  have hclose : ((WriterCall.close (State.fresh .«in» []).buf).exec .responder s₃).1 =
    .ok [] := by decide +kernel
  have hopen₁ : s₁.buf.isClosed = false := by decide +kernel
  have hopen₂ : s₂.buf.isClosed = false := by decide +kernel
  have hclosed : s₄.buf.isClosed = true := by decide +kernel
  have h₁ : WriterRun _ (fun _ _ => True) (smallWriter 2048 []) _ s₁ :=
    .call .start (by rfl) (WriterCall.exec_after hwrite)
  have h₂ : WriterRun _ (fun _ _ => True) (smallWriter 2048 []) _ s₂ :=
    .call h₁ (by exact hopen₁) (WriterCall.exec_after hflush)
  have h₃ : WriterRun _ (fun _ _ => True) (smallWriter 2048 []) _ s₃ :=
    .call h₂ (by exact hopen₂) (WriterCall.exec_after hput)
  have h₄ : WriterRun _ (fun _ _ => True) (smallWriter 2048 []) _ s₄ :=
    .call h₃ (by exact fun _ => ⟨rfl, rfl, .inr nofun⟩) (WriterCall.exec_after hclose)
  obtain ⟨b, hrun, -, hinside⟩ := @writer_inside .responder 2055 .out (smallWriter 2055 []).world
    (by decide) (by decide) (by decide) (.inl rfl) (fun _ => 0) nofun nofun
  cases hrun
  exact ⟨rfl, s₄, h₄, hclosed, hinside 2048 (Nat.le_refl 2048) _ _ h₄⟩

/-! ### Failed writes -/

/-- What holds of a writer whose failed calls can be made again. -/
structure Retried (conn : ConnectionInfo) (t : StreamType) (s₀ : State) (acc : List UInt8)
    (s : State) : Prop where
  invariantOk : s.buf.InvariantOk conn.role
  accounted : Accounted conn t s₀ acc s
  /-- A closed stream has sent all it has accepted. -/
  closed : s.buf.isClosed = true → s.buf.pending = []
  calls : ∀ call : WriterCall, call.Permitted conn s → ∃ r s', call.exec conn s = (r, s') ∧
    (r = .ok call.bytes ∨ ∃ e, r = .error (.exc e))

/-- **Failed output can be retried**, if the calls that fail are flushes of what needs no
padding. -/
theorem failed_output_retried {conn : ConnectionInfo} {size : Nat} {t : StreamType} {w : World}
    (hid : conn.requestId < 65536) (h₁ : 2048 ≤ size) (h₂ : size ≤ 65528)
    (ht : t = .out ∨ t = .err) (buffer : Mem) (hw : w.AllOrNothing) :
    ∃ b, ServerStreambuf.construct conn buffer size t w = (.ok b, w) ∧ ∀ acc s,
      WriterRun conn (fun call s => call.Harmless conn s) ⟨b, w⟩ acc s →
      Retried conn t ⟨b, w⟩ acc s := by
  obtain ⟨b, hrun, hfresh, -⟩ := construct_writer conn buffer w h₁ h₂ ht
  refine ⟨b, hrun, fun acc s hr => ?_⟩
  obtain ⟨hstate, hsends⟩ := hr.state hid
    (.inl (hfresh.writer.log hfresh.pending hfresh.consumed w)) hw fun _ _ => .inl
  refine ⟨hstate.invariantOk, hstate.accounted, fun hc => ?_, fun call hp => ?_⟩
  · rcases hstate with h | h
    · exact absurd (h.not_isClosed.symm.trans hc) nofun
    · exact h.pending
  · have hends := WriterCall.exec_ends hid hstate (hw.of_sends hsends) call hp
    rcases e : call.exec conn s with ⟨r, s'⟩
    rw [e] at hends
    refine ⟨r, s', rfl, ?_⟩
    cases hends with
    | ok => exact .inl rfl
    | denied => exact .inr ⟨_, rfl⟩
    | error => exact .inr ⟨_, rfl⟩

/-- Eight bytes are written, the flush of them fails, and is made again: they have been sent in
one record. -/
theorem failed_output_retried_flush :
    ServerStreambuf.construct .responder (fun _ => 0) 2048 .out (smallWriter 2048 [.error]).world =
      (.ok (smallWriter 2048 [.error]).buf, (smallWriter 2048 [.error]).world) ∧
    ∃ s, WriterRun .responder (fun call s => call.Harmless .responder s)
        (smallWriter 2048 [.error]) [65, 66, 67, 68, 69, 70, 71, 72] s ∧
      s.world.io.written = [1, 6, 0, 1, 0, 8, 0, 0, 65, 66, 67, 68, 69, 70, 71, 72] ∧
      Retried .responder .out (smallWriter 2048 [.error]) [65, 66, 67, 68, 69, 70, 71, 72] s := by
  let s₁ := (WriterCall.write [65, 66, 67, 68, 69, 70, 71, 72]).after (smallWriter 2048 [.error])
  let s₂ := WriterCall.flush.after s₁
  let s₃ := WriterCall.flush.after s₂
  have hwrite : ((WriterCall.write [65, 66, 67, 68, 69, 70, 71, 72]).exec .responder
    (smallWriter 2048 [.error])).1 = .ok [65, 66, 67, 68, 69, 70, 71, 72] := by decide +kernel
  have hfail : (WriterCall.flush.exec .responder s₁).1 =
    .error (.exc (.net "cannot write to socket")) := by decide +kernel
  have hflush : (WriterCall.flush.exec .responder s₂).1 = .ok [] := by decide +kernel
  have hopen₁ : s₁.buf.isClosed = false := by decide +kernel
  have hopen₂ : s₂.buf.isClosed = false := by decide +kernel
  have hpending : s₁.buf.pending.length % 8 = 0 := by decide +kernel
  have hwritten : s₃.world.io.written =
    [1, 6, 0, 1, 0, 8, 0, 0, 65, 66, 67, 68, 69, 70, 71, 72] := by decide +kernel
  have h₁ : WriterRun _ (fun call s => call.Harmless .responder s) (smallWriter 2048 [.error])
    _ s₁ :=
    .call .start (by rfl) (WriterCall.exec_after hwrite)
  have h₂ : WriterRun _ (fun call s => call.Harmless .responder s) (smallWriter 2048 [.error])
    _ s₂ :=
    .failed h₁ (by exact hopen₁) (by exact hpending) (WriterCall.exec_after hfail)
  have h₃ : WriterRun _ (fun call s => call.Harmless .responder s) (smallWriter 2048 [.error])
    _ s₃ :=
    .call h₂ (by exact hopen₂) (WriterCall.exec_after hflush)
  obtain ⟨b, hrun, hretried⟩ := @failed_output_retried .responder 2048 .out
    (smallWriter 2048 [.error]).world (by decide) (by decide) (by decide) (.inl rfl) (fun _ => 0)
    fun _ hn => absurd (List.mem_singleton.mp hn) nofun
  cases hrun
  exact ⟨rfl, s₃, h₃, hwritten, hretried _ _ h₃⟩

/-- One byte is written, the flush of it fails, and is made again: the record that is then sent
has seven bytes of padding for content. -/
theorem failed_output_not_retried :
    ServerStreambuf.construct .responder (fun _ => 0) 2048 .out (smallWriter 2048 [.error]).world =
      (.ok (smallWriter 2048 [.error]).buf, (smallWriter 2048 [.error]).world) ∧
    ∃ s, WriterRun .responder (fun _ _ => True) (smallWriter 2048 [.error]) [65] s ∧
      ¬ Retried .responder .out (smallWriter 2048 [.error]) [65] s := by
  let s₁ := (WriterCall.put 65).after (smallWriter 2048 [.error])
  let s₂ := WriterCall.flush.after s₁
  let s₃ := WriterCall.flush.after s₂
  have hput : ((WriterCall.put 65).exec .responder (smallWriter 2048 [.error])).1 =
    .ok [65] := by decide +kernel
  have hfail : (WriterCall.flush.exec .responder
    ((WriterCall.put 65).after (smallWriter 2048 [.error]))).1 =
      .error (.exc (.net "cannot write to socket")) := by decide +kernel
  have hflush : (WriterCall.flush.exec .responder (WriterCall.flush.after
    ((WriterCall.put 65).after (smallWriter 2048 [.error])))).1 = .ok [] := by decide +kernel
  have hopen₂ : s₂.buf.isClosed = false := by decide +kernel
  have h₁ : WriterRun _ (fun _ _ => True) (smallWriter 2048 [.error]) _ s₁ :=
    .call .start (by rfl) (WriterCall.exec_after hput)
  have h₂ : WriterRun _ (fun _ _ => True) (smallWriter 2048 [.error]) _ s₂ :=
    .failed h₁ (by rfl) trivial (WriterCall.exec_after hfail)
  have h₃ : WriterRun _ (fun _ _ => True) (smallWriter 2048 [.error]) _ s₃ :=
    .call h₂ (by exact hopen₂) (WriterCall.exec_after hflush)
  refine ⟨rfl, s₃, h₃, fun h => ?_⟩
  obtain ⟨rs, hsent, hacc⟩ := h.accounted
  have hopen : s₃.buf.isEndOfStream_ = false := by decide +kernel
  have hwritten : s₃.world.io.written = Frame.join rs := by
    rw [hsent.written, hopen, if_neg Bool.false_ne_true, List.append_nil]
    rfl
  -- The content of what was sent, as a client reads it.
  have hcontent : (Record.parse s₃.world.io.written).1.flatMap Record.content =
      [65, 0, 0, 0, 0, 0, 0, 0] := by
    decide +kernel
  rw [hwritten, Record.parse, Framing.frames_join] at hcontent
  rw [hcontent] at hacc
  exact absurd (congrArg List.length hacc) (by simp)

end Fcgi

import Fcgi.Streams.Triples
import Fcgi.Input.Steps

/-!
# Input — the reader takes no other steps

**`underflow_steps`**: from an open buffer, `underflow()` takes the steps of `ReaderStep` and no
others, however it ends; and it is aborted for the reasons of `Aborted` only.

Each program of the reader has one triple.  The programs that may re-enter `underflow()` take
the triple of the inner call (`Call`) on trust, and `Triple.recLoop` closes the circle.

The assertions carried through a round follow its steps: `Round` at its start, `NoContent` behind
the content, `AtHeader` behind the padding, `Dispatching` when the header is whole, and `Processing`
while it is processed.  Each says which configuration has been reached, and which members are known,
so that the assertions of the code can be shown to hold or be counted among the reasons.
-/

namespace Fcgi
open Lib
open ServerStreambuf (gptr_eq egptr_eq)

/-! ### How the programs end -/

/-- A get-values-result that cannot be built, or after which the assertion fails: the array is
too short for it, or the reading of the variables left gptr() past egptr(). -/
def Answer.Bad (a : Answer) : Prop :=
  a.buf.unreadContentLength_ = 0 ∧
    (replySize < 8 + (replyContent a.names).length ∨ a.buf.egptr < a.buf.gptr)

/-- The states in which a program of the reader is aborted. -/
inductive Aborted (conn : ConnectionInfo) (c : Config) : State → Prop
  | overlong {m : Mode} {s : State} (hr : Reached conn c m s)
      (hc : s.buf.bufferSize_ < s.buf.unreadContentLength_) : Aborted conn c s
  | answer {m : Mode} {s : State} {a : Answer} (hr : Reached conn c m s)
      (ha : a ∈ s.world.history.answers) (hbad : a.Bad) : Aborted conn c s
  | shortWrite {h : List UInt8} {b : ServerStreambuf} {w : World} {r : Record} {n : Nat}
      (hr : Reached conn c (.process h) ⟨b, w⟩) (hs : .part n ∈ w.io.sends)
      (hreply : Reply conn b.type_ (Header.ofBytes h) r)
      (hd : ¬ (Header.ofBytes h).isManagementRecord → w.history.Met b.type_ (Header.ofBytes h))
      (hn : n < r.bytes.length) :
      Aborted conn c ⟨b, w.setIo { w.io with
        sends := w.io.sends.tail, written := w.io.written ++ r.bytes.take n }⟩

/-- What is known at an exit that is not a return. -/
def ReaderFault (conn : ConnectionInfo) (c : Config) : Fault Exception → State → Prop
  | .exc _, s => Reached conn c .idle s
  | .abort, s => Aborted conn c s
  | .undef, _ => False
  | .spent, s => ∃ m, Reached conn c m s

/-- Reached, between two calls. -/
structure Ready (conn : ConnectionInfo) (c : Config) (s : State) : Prop where
  reached : Reached conn c .idle s
  ordered : s.buf.isEndOfStream_ = true → s.buf.gptr ≤ s.buf.egptr

/-- Reached by a return. -/
structure Returned (conn : ConnectionInfo) (c : Config) (s : State) : Prop where
  reached : Reached conn c .idle s
  ordered : s.buf.gptr ≤ s.buf.egptr

/-- A reader that has returned may be called. -/
theorem Returned.ready {conn : ConnectionInfo} {c : Config} {s : State}
    (h : Returned conn c s) : Ready conn c s := ⟨h.reached, fun _ => h.ordered⟩

/-- What is known of a result of `underflow()`; `e` says whether the stream had ended before. -/
def Underflown (conn : ConnectionInfo) (c : Config) (e : Bool) : Option UInt8 → State → Prop
  | some _, s => Returned conn c s ∧ s.buf.gptr < s.buf.egptr ∧ s.buf.isEndOfStream_ = false
  | none, s => Returned conn c s ∧ (s.buf.isEndOfStream_ = true ∨ s.buf.type_ = .data) ∧
      (e = false → s.buf.unreadContentLength_ = 0)

/-- What `underflow()` does, for a program that calls it. -/
def Call (conn : ConnectionInfo) (c : Config) (call : M (Option UInt8)) : Prop :=
  ∀ e, Triple (fun s => (Ready conn c s ∧ s.buf.egptr ≤ s.buf.gptr) ∧ s.buf.isEndOfStream_ = e)
    call (Underflown conn c e) (ReaderFault conn c)

/-- What is known at the start of a round.  After the end of the stream the loop goes on only
where an inner call has found it. -/
structure Round (conn : ConnectionInfo) (c : Config) (h : List UInt8) (s : State) : Prop where
  reached : Reached conn c (.loop h (h.length == 8)) s
  le : h.length ≤ 8
  part : h = [] ∨ h.length = 8 ∨
    (s.buf.unreadContentLength_ = 0 ∧ s.buf.unreadPaddingLength_ = 0)
  ended : s.buf.isEndOfStream_ = true → s.buf.unreadContentLength_ = 0 ∧ h.length = 8 ∧
    (Header.ofBytes h).IsGetValues

/-- What is known of the result of a round. -/
def Rounded (conn : ConnectionInfo) (c : Config) :
    Flow (List UInt8) (Option UInt8) → State → Prop
  | .again h, s => Round conn c h s
  | .done r, s => Underflown conn c false r s

section

variable {conn : ConnectionInfo} {c : Config}

/-- An assertion between two steps holds, or the buffer holds more content than it should. -/
theorem assertInvariantOk_cases {m : Mode} {s : State} (hr : Reached conn c m s)
    (hg : s.buf.gptr ≤ s.buf.egptr) :
    assertInvariantOk conn s = (.ok (), s) ∨
      (assertInvariantOk conn s = (.error .abort, s) ∧ Aborted conn c s) := by
  rw [assertInvariantOk, Prog.bind_ok (Prog.get_run _), Prog.assert_run]
  by_cases hi : s.buf.InvariantOk conn.role
  · rw [if_pos hi]; exact .inl rfl
  · rw [if_neg hi]
    rcases hr.openReader.of_not_invariantOk hi with hc | hc
    · exact .inr ⟨rfl, .overlong hr hc⟩
    · omega

/-! ### The parts of a round before the header is there -/

/-- After reading, bytes are at hand. -/
theorem readRecords_steps (h : List UInt8) :
    Triple (Round conn c h) readRecords
      (fun _ s => Round conn c h s ∧ s.buf.gptr < s.buf.bufferEnd_) (ReaderFault conn c) := by
  rintro ⟨b, w⟩ hs
  have ho := hs.reached.openReader
  have hle := ho.gptr_le
  rw [readRecords, Prog.bind_ok (Prog.get_run _)]
  dsimp only at ho hle ⊢
  by_cases hend : b.gptr = b.bufferEnd_
  · rw [if_pos hend]
    rcases hread : Io.read b.bufferSize_ w.io with ⟨(x | bytes), io⟩
    · obtain ⟨e, rfl⟩ := Io.read_error hread
      rw [Prog.bind_error (onIo_run hread)]
      exact hs.reached.step (.recvNone hend hread nofun)
    · rw [Prog.bind_ok (onIo_run hread)]
      by_cases hne : 0 < bytes.length
      · have hlen := Io.length_read hread
        have hcap := ho.capacity
        rw [if_pos hne, Prog.bind_ok (storeBuf_run (by omega)), modifyBuf_run]
        exact ⟨⟨hs.reached.step (.recv hend hread hne), hs.le, hs.part, hs.ended⟩, hne⟩
      · rw [if_neg hne]
        exact hs.reached.step (.recvNone hend hread fun bs hbs => by
          cases hbs
          exact List.eq_nil_of_length_eq_zero (by omega))
  · rw [if_neg hend]
    exact ⟨hs, by dsimp only; omega⟩

/-- What is known once the content is dealt with. -/
structure NoContent (conn : ConnectionInfo) (c : Config) (h : List UInt8) (s : State) : Prop where
  round : Round conn c h s
  content : s.buf.unreadContentLength_ = 0

/-- What is known when the header can be read. -/
structure AtHeader (conn : ConnectionInfo) (c : Config) (h : List UInt8) (s : State) : Prop where
  round : Round conn c h s
  content : s.buf.unreadContentLength_ = 0
  padding : s.buf.unreadPaddingLength_ = 0

/-- Content is handed out, and the call returns; or none is left. -/
theorem setUpContent_steps (h : List UInt8) :
    Triple (fun s => Round conn c h s ∧ s.buf.gptr < s.buf.bufferEnd_) (setUpContent conn)
      (fun r s => match r with
        | some (.done r) => Underflown conn c false r s
        | some (.again _) => Round conn c h s
        | none => NoContent conn c h s) (ReaderFault conn c) := by
  rintro ⟨b, w⟩ ⟨hs, hcur⟩
  have ho := hs.reached.openReader
  dsimp only at ho hcur
  by_cases hu : 0 < b.unreadContentLength_
  -- Content comes before the first byte of the next header, so the part of it is whole or nothing.
  · have hpart : h = [] ∨ h.length = 8 := by
      rcases hs.part with e | e | ⟨e, -⟩
      · exact .inl e
      · exact .inr e
      · dsimp only at e; omega
    -- At the end of the stream no byte is left, and here one is.
    have hend : ∀ {p : Prop}, b.isEndOfStream_ = true → p := fun e => by
      have := (hs.ended e).1
      dsimp only at this
      omega
    set n := min b.unreadContentLength_ (b.bufferEnd_ - b.gptr) with hn
    by_cases hd : b.isContentMustBeDiscarded_ = true
    · have hr := hs.reached.step (.discard hu hd hcur hn)
      rw [setUpContent_discard hu hd hn rfl]
      set b₁ := (b.setUnreadContentLength (b.unreadContentLength_ - n)).gbump n
      by_cases hu' : 0 < b₁.unreadContentLength_
      · rw [if_pos hu']
        exact ⟨hr, hs.le, hpart.imp_right .inl, hend⟩
      · rw [if_neg hu']
        have hz : b₁.unreadContentLength_ = 0 := by omega
        exact ⟨⟨hr.step (.discarded hz hd), hs.le, hpart.imp_right .inl, hend⟩, hz⟩
    · obtain ⟨b₁, hb₁⟩ : ∃ b₁, b₁ = (b.setUnreadContentLength (b.unreadContentLength_ - n)).setg
        b.gptr b.gptr (b.gptr + n) := ⟨_, rfl⟩
      have hlt : b₁.gptr < b₁.egptr := by
        subst hb₁; exact Nat.lt_add_of_pos_right (by omega)
      rw [Bool.not_eq_true] at hd
      rw [setUpContent_deliver hu hd hn hb₁]
      have hr := hs.reached.step (.deliver hpart hu hd hcur hn hb₁)
      rcases assertInvariantOk_cases hr (Nat.le_of_lt hlt) with e | ⟨e, ha⟩
      · rw [Prog.bind_ok e, Prog.pure_run]
        refine ⟨⟨hr, Nat.le_of_lt hlt⟩, hlt, ?_⟩
        subst hb₁
        exact Bool.eq_false_iff.mpr fun e => hend e
      · rw [Prog.bind_error e]
        exact ha
  · have hu₀ : b.unreadContentLength_ = 0 := Nat.eq_zero_of_not_pos hu
    rw [setUpContent_none hu₀]
    exact ⟨hs, hu₀⟩

theorem skipPadding_steps (h : List UInt8) :
    Triple (NoContent conn c h) skipPadding
      (fun r s => if r then Round conn c h s else AtHeader conn c h s) (ReaderFault conn c) := by
  rintro ⟨b, w⟩ ⟨hs, hu⟩
  dsimp only at hu
  by_cases hp : 0 < b.unreadPaddingLength_
  · rw [skipPadding_run hp rfl rfl]
    have hpart : h = [] ∨ h.length = 8 := by
      rcases hs.part with e | e | ⟨-, e⟩
      · exact .inl e
      · exact .inr e
      · dsimp only at e; omega
    have hr := hs.reached.step (.skip hu hp rfl)
    dsimp only
    split
    · exact ⟨hr, hs.le, hpart.imp_right .inl, hs.ended⟩
    · rename_i hz
      exact ⟨⟨hr, hs.le, hpart.imp_right .inl, hs.ended⟩, hu, Nat.eq_zero_of_not_pos
        (of_decide_eq_false (Bool.eq_false_iff.mpr hz))⟩
  · have hp₀ : b.unreadPaddingLength_ = 0 := Nat.eq_zero_of_not_pos hp
    rw [skipPadding_none hp₀]
    exact ⟨hs, hu, hp₀⟩

/-- Bytes are appended to the header. -/
theorem accumulateHeader_steps (h : List UInt8) :
    Triple (AtHeader conn c h) (accumulateHeader h)
      (fun h' s => Reached conn c (.loop h' (h.length == 8)) s ∧ h'.length ≤ 8 ∧
        (h.length = 8 → h'.length = 8) ∧
        (s.buf.isEndOfStream_ = true → (Header.ofBytes h').IsGetValues ∧ h.length = 8) ∧
        s.buf.unreadContentLength_ = 0 ∧ s.buf.unreadPaddingLength_ = 0) (ReaderFault conn c) := by
  rintro ⟨b, w⟩ ⟨hs, hu, hp⟩
  have hle := hs.le
  by_cases h8 : h.length = 8
  · rw [accumulateHeader_all (Nat.le_of_eq h8.symm)]
    exact ⟨hs.reached, hle, id, fun e => ⟨(hs.ended e).2.2, h8⟩, hu, hp⟩
  · have hst : (h.length == 8) = false := by simpa using h8
    have hr := hs.reached
    rw [accumulateHeader_run rfl]
    rw [hst] at hr ⊢
    refine ⟨hr.step (.accumulate (by omega) hu hp rfl), ?_, fun e => absurd e h8,
      fun e => absurd (hs.ended e).2.1 h8, hu, hp⟩
    rw [List.length_append, Mem.length_load]
    omega

/-! ### Calls of the stream buffer's base class -/

theorem takeChar_steps :
    Triple (fun s => Reached conn c .idle s ∧ s.buf.gptr < s.buf.egptr) takeChar
      (fun _ s => Reached conn c .idle s ∧ s.buf.gptr ≤ s.buf.egptr) (ReaderFault conn c) := by
  rintro ⟨b, w⟩ ⟨hr, hlt⟩
  dsimp only at hlt
  have hg := hr.openReader.getArea_eq
  rw [takeChar, Prog.bind_ok (Prog.get_run _), Prog.bind_ok (modifyBuf_run _), Prog.pure_run]
  refine ⟨hr.step (.take hlt), ?_⟩
  have hg' := ServerStreambuf.gbump_getArea_eq hg 1
  rw [gptr_eq hg', egptr_eq hg']
  exact hlt

/-- For a program that does not care where the stream ends. -/
theorem Call.callee {u : M (Option UInt8)} (hu : Call conn c u) :
    Callee (Ready conn c) (Returned conn c) (Returned conn c) (Reached conn c .idle)
      (ReaderFault conn c) u where
  call s hs := ((hu s.buf.isEndOfStream_).post fun r _ ht => match r with
    | some _ => ⟨ht.1, ht.2.1⟩
    | none => ht.1) s ⟨hs, rfl⟩
  take s hs := by
    have := takeChar_steps s ⟨hs.1.reached, hs.2⟩
    exact ⟨this.1, this.2⟩
  start _ hs := hs.ready
  stop _ hs := hs.reached
  eof _ hs := hs.reached
  caught _ _ hs := hs

/-- The end of the stream, found by a call made before it. -/
structure AtEnd (conn : ConnectionInfo) (c : Config) (s : State) : Prop where
  returned : Returned conn c s
  eof : s.buf.isEndOfStream_ = true ∨ s.buf.type_ = .data
  content : s.buf.unreadContentLength_ = 0

/-- For a program that starts before the end of the stream and stops there. -/
theorem Call.callee_open {u : M (Option UInt8)} (hu : Call conn c u) :
    Callee (fun s => Ready conn c s ∧ s.buf.isEndOfStream_ = false)
      (fun s => Returned conn c s ∧ s.buf.isEndOfStream_ = false)
      (AtEnd conn c) (Reached conn c .idle) (ReaderFault conn c) u where
  call := (hu false).conseq (fun _ hs => ⟨⟨hs.1.1, hs.2⟩, hs.1.2⟩) (fun r _ ht => match r with
    | some _ => ⟨⟨ht.1, ht.2.2⟩, ht.2.1⟩
    | none => ⟨ht.1, ht.2.1, ht.2.2 rfl⟩) fun _ _ h => h
  take s hs := by
    have := takeChar_steps s ⟨hs.1.1.reached, hs.2⟩
    exact ⟨⟨this.1, this.2⟩, hs.1.2⟩
  start _ hs := ⟨hs.1.ready, hs.2⟩
  stop _ hs := hs.1.reached
  eof _ hs := hs.returned.reached
  caught _ _ hs := hs

/-! ### Processing the header -/

/-- The header `h` is about to be processed in the state `⟨b, w⟩`. -/
structure Dispatching (conn : ConnectionInfo) (c : Config) (h : List UInt8) (st : Bool)
    (b : ServerStreambuf) (w : World) : Prop where
  reached : Reached conn c (.loop h st) ⟨b, w⟩
  length : h.length = 8
  content : b.unreadContentLength_ = 0
  padding : b.unreadPaddingLength_ = 0
  ended : b.isEndOfStream_ = true → (Header.ofBytes h).IsGetValues

/-- The header `h` is being processed, and the buffer is still `b`. -/
structure Processing (conn : ConnectionInfo) (c : Config) (h : List UInt8) (b : ServerStreambuf)
    (s : State) : Prop where
  reached : Reached conn c (.process h) s
  buf : s.buf = b
  dispatched : ¬ (Header.ofBytes h).isManagementRecord →
    s.world.history.Met b.type_ (Header.ofBytes h)

theorem write_steps {h : List UInt8} {b : ServerStreambuf} {r : Record}
    (hr : Reply conn b.type_ (Header.ofBytes h) r) :
    Triple (Processing conn c h b) (onIo (Io.writeAll r.bytes))
      (fun _ s => Processing conn c h b s) (ReaderFault conn c) := by
  rintro ⟨b', w⟩ ⟨hs, rfl, hd⟩
  rcases Io.writeAll_cases r.bytes w.io with e | ⟨hne, x, e⟩ | ⟨n, hne, hn, e⟩
  · rw [onIo_run e]
    exact ⟨hs.step (.reply hr hd), rfl, hd⟩
  · rw [onIo_run e]
    exact hs.step (.replyError hne)
  · rw [onIo_run e]
    exact .shortWrite hs hne hr hd hn

/-- An end-request record is sent where the header asks for it. -/
theorem endRequest_steps {h : List UInt8} {b : ServerStreambuf}
    (hh : (Header.ofBytes h).recordType = .beginRequest ∨ (Header.ofBytes h).isManagementRecord ∨
      (Header.ofBytes h).requestId = conn.requestId ∧
        (Header.ofBytes h).recordType ≠ b.type_.recordType) :
    Triple (Processing conn c h b) (endRequest (Header.ofBytes h) .cantMpxConn)
      (fun _ s => Processing conn c h b s) (ReaderFault conn c) := by
  intro s hs
  rw [endRequest_eq]
  exact write_steps (.endRequest hh) s hs

/-- An exception is thrown where the header breaks the protocol. -/
theorem violation_steps {α : Type} {h : List UInt8} {b : ServerStreambuf} {Q : α → State → Prop}
    (hh : (Header.ofBytes h).IsGetValues ∨ (Header.ofBytes h).IsViolation conn b.type_) :
    Triple (Processing conn c h b) (endRequestProtocolViolation (Header.ofBytes h)) Q
      (ReaderFault conn c) :=
  Triple.bind (endRequest_steps (.inr (hh.imp (·.1) fun hv => ⟨hv.1, hv.2.1⟩))) fun _ =>
    Triple.throw fun _ hs => hs.reached.step (.leave (.inr (hs.buf ▸ hh)))

/-- The answer to a get-values record. -/
theorem answering_steps {h : List UInt8} (hg : (Header.ofBytes h).IsGetValues)
    (vars : NamesValues) :
    Triple (Reached conn c .idle) (answering conn (Header.ofBytes h) vars)
      (fun r s => r = .managementProcessed ∧ Reached conn c (.process h) s ∧
        s.buf.unreadContentLength_ = 0 ∧
        ((∃ a ∈ s.world.history.answers, a.Bad) ∨ s.buf.gptr ≤ s.buf.egptr))
      (ReaderFault conn c) := by
  rintro ⟨b, w⟩ hs
  rw [answering, Prog.bind_ok (noteAnswer_run _ _ _), Prog.bind_ok (Prog.get_run _)]
  set names := vars.pairs_.map NameValue.name with hn
  have hr := hs.step (.resume hg names)
  have ha : ⟨names, b, w.io⟩ ∈ (w.addAnswer ⟨names, b, w.io⟩).history.answers :=
    List.mem_append_right _ (List.mem_singleton_self _)
  have hp : Processing conn c h b ⟨b, w.addAnswer ⟨names, b, w.io⟩⟩ :=
    ⟨hr, rfl, fun hn => absurd hg.1 hn⟩
  by_cases hu : b.unreadContentLength_ > 0
  · rw [if_pos hu]
    exact Triple.bind (violation_steps (α := Unit) (.inl hg)) (fun _ _ h => h) _ hp
  have hu₀ : b.unreadContentLength_ = 0 := Nat.eq_zero_of_not_pos hu
  rw [if_neg hu]
  by_cases hfit : 8 + (replyContent names).length ≤ replySize
  · obtain ⟨r, hrt, hid, -, hsize, hrun⟩ := sendGetValuesResult_run hn.symm hfit
      ⟨b, w.addAnswer ⟨names, b, w.io⟩⟩
    dsimp only
    rw [Prog.bind_run, hrun, ← Prog.bind_run]
    let P := fun s => Processing conn c h b s ∧ ⟨names, b, w.io⟩ ∈ s.world.history.answers
    refine Triple.bind (P := P) (Q := fun _ => P) ?_ (fun _ => Triple.pure ?_) _ ⟨hp, ha⟩
    · rintro ⟨b₂, w₂⟩ ⟨hp₂, ha₂⟩
      have := write_steps (.getValuesResult hg.1 hg.2 hrt hid hsize) _ hp₂
      rcases Io.writeAll_cases r.bytes w₂.io with e | ⟨-, x, e⟩ | ⟨n, -, -, e⟩ <;>
        rw [onIo_run e] at this ⊢
      · exact ⟨this, ha₂⟩
      · exact this
      · exact this
    · rintro ⟨b₂, w₂⟩ ⟨hp₂, ha₂⟩
      obtain rfl : b₂ = b := hp₂.buf
      refine ⟨rfl, hp₂.reached, hu₀, ?_⟩
      -- Variables that have left gptr() past egptr() are noted in the history.
      by_cases hg : b₂.gptr ≤ b₂.egptr
      · exact .inr hg
      · exact .inl ⟨_, ha₂, hu₀, .inr (by dsimp only; omega)⟩
  · -- The answer does not fit into the buffer for it: an assertion fails.
    dsimp only
    rw [Prog.bind_error (sendGetValuesResult_abort hfit _)]
    exact .answer hr ha ⟨hu₀, .inl (by dsimp only; omega)⟩

theorem processManagementRecord_steps {fuel : Nat} {call : M (Option UInt8)}
    (hcall : Call conn c call) {h : List UInt8} (hm : (Header.ofBytes h).isManagementRecord)
    (b : ServerStreambuf) (hord : b.gptr ≤ b.egptr) :
    Triple (Processing conn c h b)
      (processManagementRecord conn fuel call (Header.ofBytes h))
      (fun r s => r = .managementProcessed ∧ Reached conn c (.process h) s ∧
        ((s.buf = b ∧ (Header.ofBytes h).recordType ≠ .getValues) ∨
          (s.buf.unreadContentLength_ = 0 ∧ (Header.ofBytes h).recordType = .getValues ∧
            ((∃ a ∈ s.world.history.answers, a.Bad) ∨ s.buf.gptr ≤ s.buf.egptr))))
      (ReaderFault conn c) := by
  by_cases ht : (Header.ofBytes h).recordType = .getValues
  · rintro s ⟨hs, rfl, -⟩
    have hg : (Header.ofBytes h).IsGetValues := ⟨hm, ht⟩
    rw [processManagementRecord_getValues ht]
    refine Triple.bind (hcall.callee.ofStream (fun _ _ hs => hs)
      (fun s hs => ⟨_, hs.reached⟩) fuel rfl (by decide)) (fun p => ?_) s
      ⟨hs.step (.leave (.inr (.inl hg))), fun _ => hord⟩
    exact (answering_steps hg p.1).conseq (fun s hs => hs.1)
      (fun r s hr => ⟨hr.1, hr.2.1, .inr ⟨hr.2.2.1, ht, hr.2.2.2⟩⟩) fun _ _ => id
  · intro s hs
    rw [processManagementRecord, if_neg ht, Prog.bind_ok (Record.unknownTypeRecord_run _)]
    refine Triple.bind (write_steps (.unknownType hm ht)) (fun _ => Triple.pure ?_) s hs
    exact fun s hs => ⟨rfl, hs.reached, .inl ⟨hs.buf, ht⟩⟩

/-- What a result of `process_header()` promises. -/
def Processed (conn : ConnectionInfo) (c : Config) (h : List UInt8) :
    ProcessHeaderResult → State → Prop
  | .requestRejected, _ => False
  | .managementProcessed, s => Reached conn c (.process h) s ∧
      ((Header.ofBytes h).isManagementRecord ∧ (Header.ofBytes h).recordType ≠ .beginRequest) ∧
      (s.buf.isEndOfStream_ = true →
        s.buf.unreadContentLength_ = 0 ∧ (Header.ofBytes h).IsGetValues)
  | .contentMustBeConsumed, s => Reached conn c (.process h) s ∧
      (Header.ofBytes h).IsOwn conn s.buf.type_ ∧
      s.buf.unreadContentLength_ = (Header.ofBytes h).contentLength ∧
      s.buf.isEndOfStream_ = false
  | .contentMustBeDiscarded, s => Reached conn c (.process h) s ∧
      (Header.ofBytes h).IsRejected conn ∧ s.buf.isEndOfStream_ = false

/-- What has been reached when the header is processed. -/
theorem Processed.reached {h : List UInt8} : ∀ {r : ProcessHeaderResult} {s : State},
    Processed conn c h r s → Reached conn c (.process h) s
  | .managementProcessed, _, hs => hs.1
  | .contentMustBeConsumed, _, hs => hs.1
  | .contentMustBeDiscarded, _, hs => hs.1

/-- The branches of `process_header()`. -/
theorem dispatch_steps {fuel : Nat} {call : M (Option UInt8)} (hcall : Call conn c call)
    {h : List UInt8} (b : ServerStreambuf) (hord : b.gptr ≤ b.egptr)
    (hu : b.unreadContentLength_ = (Header.ofBytes h).contentLength)
    (he : b.isEndOfStream_ = true → (Header.ofBytes h).IsGetValues) :
    Triple (Processing conn c h b) (dispatch conn fuel call (Header.ofBytes h))
      (fun r s => Processed conn c h r s ∧ (s.buf.gptr ≤ s.buf.egptr ∨
        ∃ a ∈ s.world.history.answers, a.Bad))
      (ReaderFault conn c) := by
  refine Triple.get fun s hs => ?_
  obtain rfl := hs.buf
  have hopen : ¬ (Header.ofBytes h).IsGetValues → s.buf.isEndOfStream_ = false := fun hn =>
    Bool.eq_false_iff.mpr fun e => hn (he e)
  refine Triple.ite (fun hb => ?_) fun hb => Triple.ite (fun hm => ?_) fun hm =>
    Triple.ite (fun hid => ?_) fun hid => Triple.ite (fun ht => ?_) fun ht => ?_
  · have hn : ¬ (Header.ofBytes h).IsGetValues := fun hg => by
      have := hb.symm.trans hg.2
      cases this
    refine Triple.bind ((endRequest_steps (b := s.buf) (.inl hb)).pre fun t ht => ht ▸ hs)
      fun _ => ?_
    exact Triple.pure fun t ht => ⟨⟨ht.reached, .inl hb, ht.buf ▸ hopen hn⟩,
      .inl (ht.buf ▸ hord)⟩
  · refine (processManagementRecord_steps hcall hm s.buf hord).conseq (fun t ht => ht ▸ hs) ?_
      fun _ _ => id
    rintro r t ⟨rfl, hr, ⟨hbuf, ht⟩ | ⟨h0, ht, ha | hg⟩⟩
    · exact ⟨⟨hr, ⟨hm, hb⟩, fun e => absurd (he (hbuf ▸ e)).2 ht⟩, .inl (hbuf ▸ hord)⟩
    · exact ⟨⟨hr, ⟨hm, hb⟩, fun _ => ⟨h0, hm, ht⟩⟩, .inr ha⟩
    · exact ⟨⟨hr, ⟨hm, hb⟩, fun _ => ⟨h0, hm, ht⟩⟩, .inl hg⟩
  · exact Triple.pure fun t ht => ht ▸ ⟨⟨hs.reached, .inr ⟨hm, hid⟩, hopen fun hg => hm hg.1⟩,
      .inl hord⟩
  · exact Triple.pure fun t h' => h' ▸ ⟨⟨hs.reached, ⟨not_not.mp hid, ht⟩, hu,
      hopen fun hg => hm hg.1⟩, .inl hord⟩
  · exact (violation_steps (b := s.buf) (.inr ⟨not_not.mp hid, ht, hb⟩)).pre
      fun t h' => h' ▸ hs

theorem processHeader_steps {fuel : Nat} {call : M (Option UInt8)} (hcall : Call conn c call)
    {h : List UInt8} {st : Bool} {b : ServerStreambuf} {w : World}
    (hd : Dispatching conn c h st b w) :
    Triple (fun s => s = ⟨b.setg b.gptr b.gptr b.gptr,
        w.addDispatch ⟨Header.ofBytes h, st, b, w.io⟩⟩)
      (processHeader conn fuel call (Header.ofBytes h))
      (fun r s => Processed conn c h r s ∧ s.buf.gptr ≤ s.buf.egptr) (ReaderFault conn c) := by
  rintro s rfl
  set d : Dispatch := ⟨Header.ofBytes h, st, b, w.io⟩
  rw [processHeader, Header.checkValidity]
  by_cases hv : (Header.ofBytes h).protocolVersion ≠ 1
  · rw [if_pos hv]
    exact hd.reached.step (.invalid hd.length hd.content hd.padding hv)
  · rw [if_neg hv, Prog.bind_ok (Prog.pure_run _ _), Prog.bind_ok (modifyBuf_run _)]
    have hr := hd.reached.step (.dispatch hd.length hd.content hd.padding (not_not.mp hv))
    set b₁ := b.dispatched (Header.ofBytes h)
    have hp : Processing conn c h b₁ ⟨b₁, w.addDispatch d⟩ := ⟨hr, rfl, fun _ =>
      ⟨d, List.mem_append_right _ (List.mem_singleton_self _), rfl, not_not.mp hv, rfl⟩⟩
    refine Triple.bind (dispatch_steps hcall b₁ (Nat.le_refl _) rfl hd.ended) (fun r => ?_) _ hp
    rintro s ⟨hs, ho⟩
    by_cases hg : s.buf.gptr ≤ s.buf.egptr
    · rcases assertInvariantOk_cases hs.reached hg with e | ⟨e, ha⟩
      · rw [Prog.bind_ok e, Prog.pure_run]
        exact ⟨hs, hg⟩
      · rw [Prog.bind_error e]
        exact ha
    · obtain ⟨a, ha, hbad⟩ := ho.resolve_left hg
      have hi : ¬ s.buf.InvariantOk conn.role := fun hi =>
        hg (hs.reached.openReader.gptr_le_egptr hi)
      rw [Prog.bind_error (x := .abort) (by
        rw [assertInvariantOk, Prog.bind_ok (Prog.get_run _), Prog.assert_run, if_neg hi])]
      exact .answer hs.reached ha hbad

/-! ### The loop -/

theorem setEndOfStream_steps {h : List UInt8} (hc : (Header.ofBytes h).contentLength = 0) :
    Triple (fun s => Processed conn c h .contentMustBeConsumed s) (setEndOfStream conn)
      (fun _ s => Reached conn c (.process h) s ∧ s.buf.gptr = s.buf.egptr ∧
        s.buf.isEndOfStream_ = true ∧ s.buf.unreadContentLength_ = 0) (ReaderFault conn c) := by
  rintro ⟨b, w⟩ ⟨hr, ho, hu, -⟩
  have hr' := hr.step (.endOfStream ho (hu.trans hc) hc)
  rw [setEndOfStream, Prog.bind_ok (modifyBuf_run _)]
  rcases assertInvariantOk_cases hr' (Nat.le_refl _) with e | ⟨e, ha⟩
  · rw [e]
    exact ⟨hr', rfl, rfl, hu.trans hc⟩
  · rw [e]
    exact ha

theorem resetReader_steps {h : List UInt8} (hrole : conn.role = .filter) :
    Triple (fun s => Reached conn c (.process h) s ∧ s.buf.gptr ≤ s.buf.egptr ∧
        s.buf.type_ = .«in» ∧ s.buf.isEndOfStream_ = true) (resetReader conn .data)
      (fun _ s => Reached conn c (.process h) s ∧ s.buf.gptr ≤ s.buf.egptr ∧
        s.buf.type_ = .data ∧ s.buf.unreadContentLength_ = 0) (ReaderFault conn c) := by
  rintro ⟨b, w⟩ ⟨hr, hg, ht, he⟩
  have ho := hr.openReader
  have hr' := hr.step (.switch hrole ht he)
  rw [resetReader, Prog.bind_ok (Prog.get_run _), Prog.bind_ok (Prog.assert_true
    ⟨ho.reader, Bool.eq_false_iff.mp ho.not_isClosed⟩ _), Prog.bind_ok (modifyBuf_run _)]
  rcases assertInvariantOk_cases hr' hg with e | ⟨e, ha⟩
  · rw [e]
    exact ⟨hr', hg, rfl, rfl⟩
  · rw [e]
    exact ha

theorem processAccumulated_steps {fuel : Nat} {call : M (Option UInt8)}
    (hcall : Call conn c call) {h : List UInt8} {st : Bool} {b : ServerStreambuf} {w : World}
    (hd : Dispatching conn c h st b w) :
    Triple (fun s => s = ⟨b, w⟩)
      (do noteDispatch st (Header.ofBytes h); processAccumulated conn fuel call h)
      (Rounded conn c) (ReaderFault conn c) := by
  have hh := hd.length
  have hround : ∀ s, Reached conn c (.loop h true) s → (s.buf.isEndOfStream_ = true →
      s.buf.unreadContentLength_ = 0 ∧ (Header.ofBytes h).IsGetValues) → Round conn c h s :=
    fun s hs he => ⟨by rw [hh]; exact hs, Nat.le_of_eq hh, .inr (.inl hh),
      fun e => ⟨(he e).1, hh, (he e).2⟩⟩
  rintro s rfl
  rw [processing_run]
  refine Triple.bind (processHeader_steps hcall hd) (fun r => ?_) _ rfl
  -- The four results of `process_header()`, the first of which is never returned.
  cases r with
  | requestRejected => exact fun s hs => hs.1.elim
  | managementProcessed =>
      exact Triple.pure fun s hs => hround s (hs.1.1.step (.manage hs.1.2.1.1 hs.1.2.1.2)) hs.1.2.2
  | contentMustBeConsumed =>
      refine Triple.get fun s hs => Triple.ite (fun h0 => ?_) fun _ => Triple.pure fun t ht => ht ▸
        hround s (hs.1.1.step (.consume hs.1.2.1)) fun e =>
          absurd (hs.1.2.2.2.symm.trans e) Bool.false_ne_true
      have hown := hs.1.2.1
      have hreq := hown.2 ▸ StreamType.recordType_ne_beginRequest s.buf.type_
      refine Triple.bind ((setEndOfStream_steps (hs.1.2.2.1.symm.trans h0)).pre
        fun t ht => ht ▸ hs.1) fun _ => Triple.get fun s₁ hs₁ => ?_
      -- The end of `FCGI_STDIN` of a filter is followed by its data stream.
      refine Triple.ite (fun hready => ?_) fun _ => ?_
      · simp only [ServerStreambuf.isReadyToFilterData, Bool.and_eq_true, beq_iff_eq] at hready
        refine Triple.bind ((resetReader_steps (h := h) hready.1.1.2).pre fun t ht => ht ▸
          ⟨hs₁.1, Nat.le_of_eq hs₁.2.1, hready.1.2, hready.2⟩) fun _ => Triple.pure fun t ht => ?_
        exact ⟨⟨ht.1.step (.leave (.inl ⟨ht.2.2.2, hown.1, hreq⟩)), ht.2.1⟩, .inr ht.2.2.1,
          fun _ => ht.2.2.2⟩
      · refine Triple.pure fun t ht => ?_
        subst ht
        exact ⟨⟨hs₁.1.step (.leave (.inl ⟨hs₁.2.2.2, hown.1, hreq⟩)), Nat.le_of_eq hs₁.2.1⟩,
          .inl hs₁.2.2.1,
          fun _ => hs₁.2.2.2⟩
  | contentMustBeDiscarded =>
      refine Triple.bind (Q := fun _ s => Round conn c h s) (fun s hs => ?_) fun _ =>
        Triple.pure fun s hs => hs
      exact hround _ (hs.1.1.step (.reject hs.1.2.1)) fun e =>
        absurd (hs.1.2.2.symm.trans e) Bool.false_ne_true

theorem underflowRound_steps {fuel : Nat} {call : M (Option UInt8)} (hcall : Call conn c call)
    (h : List UInt8) :
    Triple (Round conn c h) (underflowRound conn fuel call h) (Rounded conn c)
      (ReaderFault conn c) := by
  -- The parts of a round in their order; its assertions follow from the position reached.
  refine Triple.bind (readRecords_steps h) fun _ => Triple.get fun s hs => ?_
  refine Triple.bind ((Triple.assert (Q := fun _ t => t = s) (fun t ht _ => ht)
    fun t ht h => absurd (Nat.sub_pos_of_lt hs.2) h)) fun _ => ?_
  refine Triple.bind ((setUpContent_steps h).pre fun t ht => ht ▸ hs) fun r => ?_
  rcases r with _ | ⟨_ | r⟩
  · refine Triple.get fun s hs => Triple.bind (Triple.assert (Q := fun _ t => t = s)
      (fun t ht _ => ht) fun t ht h => absurd hs.content h) fun _ => ?_
    refine Triple.bind ((skipPadding_steps h).pre fun t ht => ht ▸ hs) fun r => ?_
    cases r with
    | true => exact Triple.pure fun s hs => hs
    | false =>
        refine Triple.get fun s hs => Triple.bind (Triple.assert (Q := fun _ t => t = s)
          (fun t ht _ => ht) fun t ht h => absurd hs.padding h) fun _ => ?_
        refine Triple.bind ((accumulateHeader_steps h).pre fun t ht => ht ▸ hs) fun h' => ?_
        refine Triple.ite (fun hlt => Triple.pure fun s hs => ?_) fun hge => ?_
        · have hlt' : (h.length == 8) = (h'.length == 8) := by
            have := hs.2.2.1
            simp only [Header.size] at hlt
            rw [beq_eq_beq]
            omega
          refine ⟨hlt' ▸ hs.1, hs.2.1, .inr (.inr hs.2.2.2.2), fun e => ?_⟩
          have := hs.2.2.1 (hs.2.2.2.1 e).2
          simp only [Header.size] at hlt
          omega
        · intro s hs
          have hle := hs.2.1
          simp only [Header.size, Nat.not_lt] at hge
          have hh : h'.length = 8 := by omega
          rw [Prog.bind_ok (Prog.assert_true (p := h'.length = Header.size) hh _)]
          exact processAccumulated_steps hcall
            ⟨hs.1, hh, hs.2.2.2.2.1, hs.2.2.2.2.2, fun e => (hs.2.2.2.1 e).1⟩ s rfl
  · exact Triple.pure fun s hs => hs
  · exact Triple.pure fun s hs => hs

/-- What `underflow()` does before its loop, from a state in `P`. -/
theorem enterUnderflow_steps {P : State → Prop} {Q : Option UInt8 → State → Prop}
    {loop : M (Option UInt8)} (hP : ∀ s, P s → Reached conn c .idle s)
    (hend : ∀ s, P s → s.buf.isEndOfStream_ = true → Q none s)
    (hloop : Triple (fun s => ∃ t, P t ∧ t.buf.isEndOfStream_ = false ∧ s = t.entered) loop Q
      (ReaderFault conn c)) :
    Triple P (enterUnderflow loop) Q (ReaderFault conn c) := by
  refine Triple.get fun s hs => ?_
  have ho := (hP s hs).openReader
  refine Triple.bind (Triple.assert (Q := fun _ t => t = s) (fun t ht _ => ht) fun t ht h =>
    absurd ⟨ho.reader, Bool.eq_false_iff.mp ho.not_isClosed⟩ h) fun _ => ?_
  exact Triple.ite (fun he => Triple.pure fun t ht => ht ▸ hend s hs he) fun he =>
    Triple.bind (Triple.modify fun t ht => ⟨s, hs, Bool.eq_false_iff.mpr he, ht ▸ rfl⟩) fun _ =>
      hloop

/-- A call that enters the loop is at the start of a round. -/
theorem Reached.round {s : State} (hs : Reached conn c .idle s)
    (hpast : s.buf.egptr ≤ s.buf.gptr) (he : s.buf.isEndOfStream_ = false) :
    Round conn c [] s.entered :=
  ⟨hs.step (.enter he hpast), Nat.zero_le _, .inl rfl, fun e =>
    absurd (he.symm.trans e) Bool.false_ne_true⟩

/-- A call of `underflow()` from the triple of its loop. -/
theorem call_of_loop {loop : M (Option UInt8)}
    (hloop : Triple (Round conn c []) loop (Underflown conn c false) (ReaderFault conn c)) :
    Call conn c (enterUnderflow loop) := by
  rintro e
  refine enterUnderflow_steps (fun s hs => hs.1.1.reached) (fun s hs he => ?_)
    (hloop.conseq ?_ ?_ fun _ _ => id)
  · exact ⟨⟨hs.1.1.reached, hs.1.1.ordered he⟩, .inl he, fun h => absurd (h.symm.trans
      (hs.2.symm.trans he)) Bool.false_ne_true⟩
  · rintro _ ⟨t, ht, he, rfl⟩
    exact ht.1.1.reached.round ht.1.2 he
  · rintro (_ | x) s hs
    · exact ⟨hs.1, hs.2.1, fun _ => hs.2.2 rfl⟩
    · exact hs

theorem underflowLoop_steps (fuel : Nat) (h : List UInt8) :
    Triple (Round conn c h) (underflowLoop conn fuel h) (Underflown conn c false)
      (ReaderFault conn c) :=
  Triple.recLoop (fun _ _ hs => ⟨_, hs.reached⟩) (fun _ _ hcall h =>
    (underflowRound_steps (call_of_loop (hcall [])) h).post fun r _ hs =>
      match r with
      | .again _ => hs
      | .done _ => hs) fuel h

/-- **The steps of `underflow()`.**  From an open reader, whatever the transport does. -/
theorem underflow_steps (fuel : Nat) : Call conn c (underflow conn fuel) :=
  call_of_loop (underflowLoop_steps fuel [])

/-! ### The calls of an application -/

/-- For an application: after an exception gptr() may be past egptr(), at the end of the stream
too. -/
theorem underflow_callee (conn : ConnectionInfo) (c : Config) (fuel : Nat) :
    Callee (Reached conn c .idle) (Reached conn c .idle) (Reached conn c .idle)
      (Reached conn c .idle) (ReaderFault conn c) (underflow conn fuel) where
  call := by
    refine enterUnderflow_steps (fun _ hs => hs.1) (fun _ hs _ => hs.1)
      ((underflowLoop_steps fuel []).conseq ?_ (fun r _ hs => match r with
        | some _ => ⟨hs.1.reached, hs.2.1⟩
        | none => hs.1.reached) fun _ _ => id)
    rintro _ ⟨t, ht, he, rfl⟩
    exact ht.1.round ht.2 he
  take := takeChar_steps.post fun _ _ hs => hs.1
  start _ hs := hs
  stop _ hs := hs
  eof _ hs := hs
  caught _ _ hs := hs

theorem sungetc_steps :
    Triple (Reached conn c .idle) sungetc (fun _ s => Reached conn c .idle s)
      (ReaderFault conn c) := by
  rintro ⟨b, w⟩ hs
  rw [sungetc, Prog.bind_ok (Prog.get_run _)]
  by_cases hlt : b.eback < b.gptr
  · rw [if_pos hlt, Prog.bind_ok (noteUnget_run _ _), Prog.bind_ok (modifyBuf_run _),
      Prog.pure_run]
    exact hs.step (.unget hlt)
  · rw [if_neg hlt, Prog.pure_run]
    exact hs

theorem unget_steps (is : Istream) :
    Triple (Reached conn c .idle) is.unget (fun _ s => Reached conn c .idle s)
      (ReaderFault conn c) := by
  refine Triple.ite (fun _ => ?_) fun _ => Triple.pure fun _ hs => hs
  refine Triple.bind (Triple.attempt (R := fun _ => Reached conn c .idle)
    (sungetc_steps.conseq (fun _ => id) (fun _ _ => id) fun x s hs => ?_)) fun r => ?_
  · cases x with
    | exc e => exact hs
    | abort => exact hs
    | undef => exact hs
    | spent => exact hs
  · rcases r with e | _ | x <;> exact Triple.pure fun _ hs => hs

end

end Fcgi

import Fcgi.Input.Twin
import Fcgi.Streambuf.Writer

/-!
# Output — two writers that differ in memory

`PutTwin P s t`: the states differ in the history, and in the memory of the buffer, but not in the
content of the put area and not at the offsets in `P`.  From such states the calls on an output
stream send the same bytes (`OutOp.exec_twin`): whatever they send they have stored.

A store adds its offsets to `P` (`storeBuf_then`), `pbump()` takes them for content
(`PutTwin.pbump`), and what is sent lies in `P` or in the content (`PutTwin.load_eq`).  A record is
stored as padding behind the content and header in front of it, so all of it is equal.
-/

namespace Fcgi
open Lib

/-- Two writers with the same content, and the same bytes at the offsets in `P`. -/
inductive PutTwin (g g' : History) (P : Nat → Prop) : State → State → Prop
  | mk {b : ServerStreambuf} {io : Io} (mem : Mem)
      (hmem : ∀ i, P i ∨ (Header.size ≤ i ∧ i < b.pptr) → mem i = b.buffer_ i) :
      PutTwin g g' P ⟨b, ⟨io, g⟩⟩ ⟨b.setBuffer mem, ⟨io, g'⟩⟩

/-- Two writers with the same content. -/
abbrev WriterTwin (g g' : History) : State → State → Prop := PutTwin g g' fun _ => False

/-- `pbump()` moves pptr() by no more than it is given. -/
theorem ServerStreambuf.pptr_pbump_le (b : ServerStreambuf) (n : Nat) :
    (b.pbump n).pptr ≤ b.pptr + n := by
  rw [pptr, pptr, pbump_putArea]
  cases b.putArea with
  | none => exact Nat.zero_le _
  | some a => exact Nat.le_refl _

section

variable {g g' : History} {conn : ConnectionInfo} {st : Nat → Mem} {s t : State} {P P' : Nat → Prop}

/-- Fewer offsets may be required to be equal. -/
theorem PutTwin.mono (h : PutTwin g g' P s t) (hP : ∀ i, P' i → P i) : PutTwin g g' P' s t := by
  obtain ⟨mem, hmem⟩ := h
  exact .mk mem fun i hi => hmem i (hi.imp_left (hP i))

/-- What the other buffers do to the world. -/
theorem PutTwin.withWorld (h : PutTwin g g' P s t) {w w' : World} (hio : w'.io = w.io) :
    PutTwin w.history w'.history P ⟨s.buf, w⟩ ⟨t.buf, w'⟩ := by
  obtain ⟨mem, hmem⟩ := h
  obtain ⟨io, f⟩ := w
  obtain ⟨_, f'⟩ := w'
  subst hio
  exact .mk mem hmem

theorem PutTwin.io_eq (h : PutTwin g g' P s t) : t.world.io = s.world.io := by
  obtain ⟨mem, hmem⟩ := h
  rfl

/-- The histories are the two given. -/
theorem PutTwin.history_eq (h : PutTwin g g' P s t) :
    s.world.history = g ∧ t.world.history = g' := by
  obtain ⟨mem, hmem⟩ := h
  exact ⟨rfl, rfl⟩

theorem PutTwin.writerTwin (h : PutTwin g g' P s t) : WriterTwin g g' s t :=
  h.mono fun _ h => h.elim

/-- `is_invariant_ok()` does not look at the memory. -/
theorem PutTwin.invariantOk (h : PutTwin g g' P s t) {role : Role} :
    s.buf.InvariantOk role ↔ t.buf.InvariantOk role := by
  obtain ⟨mem, hmem⟩ := h
  exact Iff.rfl

/-- Bytes stored at pptr() become content. -/
theorem PutTwin.pbump {n : Nat}
    (h : PutTwin g g' (fun i => P i ∨ s.buf.pptr ≤ i ∧ i < s.buf.pptr + n) s t) :
    PutTwin g g' P ⟨s.buf.pbump n, s.world⟩ ⟨t.buf.pbump n, t.world⟩ := by
  obtain ⟨mem, hmem⟩ := h
  rename_i b io
  refine .mk mem fun i hi => hmem i ?_
  have hle : (b.pbump n).pptr ≤ b.pptr + n := ServerStreambuf.pptr_pbump_le b n
  rcases hi with hi | ⟨h₁, h₂⟩
  · exact .inl (.inl hi)
  · rcases Nat.lt_or_ge i b.pptr with hlt | hge
    · exact .inr ⟨h₁, hlt⟩
    · exact .inl (.inr ⟨hge, Nat.lt_of_lt_of_le h₂ hle⟩)

/-- What has been stored is sent. -/
theorem PutTwin.load_eq {n : Nat} (h : PutTwin g g' P s t)
    (hn : ∀ i < n, P i ∨ (Header.size ≤ i ∧ i < s.buf.pptr)) :
    t.buf.buffer_.load 0 n = s.buf.buffer_.load 0 n := by
  obtain ⟨mem, hmem⟩ := h
  exact Mem.load_congr fun i _ hi => hmem i (hn i (by omega))

/-- Programs of two writers that end alike. -/
abbrev WriterRel (g g' : History) {α : Type} (m m' : M α) : Prop :=
  Rel (WriterTwin g g') m m' (fun _ => WriterTwin g g') (WriterTwin g g') Never

/-- A program of a writer leaves the history alone. -/
theorem keeps_history {α : Type} {m m' : M α}
    (hm : Rel (WriterTwin g g) m m' (fun _ => WriterTwin g g) (WriterTwin g g) Never) :
    Keeps (fun s => s.world.history = g) m := by
  rintro ⟨b, io, f⟩ rfl
  have ha := (hm ⟨b, io, f⟩ ⟨b, io, f⟩ (.mk b.buffer_ fun _ _ => rfl)).resolve_left id
  generalize m' ⟨b, io, f⟩ = e' at ha
  rcases e : m ⟨b, io, f⟩ with ⟨x | a, s⟩ <;> rw [e] at ha
  · cases ha with
    | error h => exact h.history_eq.1
  · cases ha with
    | ok h => exact h.history_eq.1

/-! ### The primitives -/

/-- A call of the transport does the same on both sides. -/
theorem onIo_putTwin {α : Type} (m : Prog Io Exception α) :
    Rel (PutTwin g g' P) (onIo m) (onIo m) (fun _ => PutTwin g g' P) (PutTwin g g' P) Never := by
  refine onIo_rel m ?_ ?_
  · rintro _ _ ⟨mem, hmem⟩
    rfl
  · rintro _ _ io ⟨mem, hmem⟩
    exact .mk mem hmem

/-- An assertion fails on both sides or on none. -/
theorem assertInvariantOk_writerTwin :
    WriterRel g g' (assertInvariantOk conn) (assertInvariantOk (conn.over st)) :=
  assertInvariantOk_rel fun _ _ h => h.invariantOk

/-- After a store, the stored offsets hold the same bytes too. -/
theorem storeBuf_then {α : Type} {off : Nat} {bs : List UInt8} {f f' : Unit → M α}
    {Q : α → State → State → Prop} (hst : PutTwin g g' P s t)
    (h : ∀ s' t', PutTwin g g' (fun i => P i ∨ off ≤ i ∧ i < off + bs.length) s' t' →
      s'.buf.pptr = s.buf.pptr → Rel (At s' t') (f ()) (f' ()) Q (WriterTwin g g') Never) :
    Rel (At s t) (storeBuf off bs >>= f) (storeBuf off bs >>= f') Q (WriterTwin g g') Never := by
  obtain ⟨mem, hmem⟩ := hst
  rename_i b io
  by_cases hfit : off + bs.length ≤ b.capacity
  · refine Rel.step (storeBuf_run hfit) (storeBuf_run hfit) (h _ _ ?_ rfl)
    refine .mk (mem.store off bs) fun i hi => Mem.store_congr ?_
    rcases hi with (hi | hi) | hi
    · exact .inl (hmem i (.inl hi))
    · exact .inr hi
    · exact .inl (hmem i (.inr hi))
  · -- The store is out of bounds in both runs.
    have hbad : ∀ b' : ServerStreambuf, ∀ w', b'.capacity = b.capacity →
        storeBuf off bs ⟨b', w'⟩ = (.error .undef, ⟨b', w'⟩) := fun b' w' hcap => by
      rw [storeBuf, Prog.bind_ok (Prog.get_run _), if_neg (by rwa [hcap]), Prog.fault_run]
    rintro s t ⟨rfl, rfl⟩
    rw [Prog.bind_error (hbad b ⟨io, g⟩ rfl), Prog.bind_error (hbad (b.setBuffer mem) ⟨io, g'⟩ rfl)]
    exact .inr (.error (PutTwin.writerTwin (.mk mem hmem)))

theorem Header.make_twin {type : RecordType} {id c p : Nat} :
    Rel (PutTwin g g' P) (Header.make type id c p) (Header.make type id c p)
      (fun _ => PutTwin g g' P) (WriterTwin g g') Never :=
  Rel.seq (Q := fun _ => PutTwin g g' P) (Rel.assert Iff.rfl (fun _ _ h _ => h) fun _ _ h =>
    h.writerTwin) fun _ => Rel.pure fun _ _ h => h

/-! ### Sending the put area -/

theorem storeExtra_twin (ch : Option UInt8) :
    WriterRel g g' (storeExtra ch) (storeExtra ch) := by
  cases ch with
  | none => exact Rel.pure fun _ _ h => h
  | some c =>
      refine Rel.get fun s t hst => ?_
      obtain ⟨mem, hmem⟩ := hst
      refine Rel.guard Iff.rfl (.mk mem hmem) fun _ => ?_
      refine storeBuf_then (.mk mem hmem) fun s t hst hp => Rel.modify ?_
      rintro _ _ ⟨rfl, rfl⟩
      exact PutTwin.pbump (hp ▸ hst)

/-- The header, the content and the padding of a record have been stored before it is sent. -/
theorem sendRecord_twin (n : Nat) :
    WriterRel g g' (sendRecord conn n) (sendRecord (conn.over st) n) := by
  refine Rel.seq (Q := fun _ => WriterTwin g g') (Rel.ofExcept fun _ _ h => ⟨fun _ => h, h⟩)
    fun padding => Rel.get fun s t hst => ?_
  obtain ⟨mem, hmem⟩ := hst
  refine Rel.guard Iff.rfl (.mk mem hmem) fun _ => ?_
  refine storeBuf_then (.mk mem hmem) fun s t hst hp => ?_
  rw [List.length_replicate, ← hp] at hst
  refine Rel.step (modifyBuf_run _) (modifyBuf_run _) (Rel.of_at fun s' t' hat => ?_)
  obtain ⟨rfl, rfl⟩ := hat
  have hb := PutTwin.pbump hst
  obtain ⟨mem, hmem⟩ := hst
  refine Rel.seq (Header.make_twin.at_pre hb) fun header => Rel.of_at fun s t hst => ?_
  refine storeBuf_then hst fun s t hst _ => Rel.get fun s t hat => ?_
  obtain ⟨rfl, rfl⟩ := hat
  -- The header fills the first eight bytes of the buffer, the content and the padding follow.
  have hload : t.buf.buffer_.load 0 t.buf.pptr = s.buf.buffer_.load 0 s.buf.pptr := by
    have hptr : t.buf.pptr = s.buf.pptr := by
      obtain ⟨mem, hmem⟩ := hst
      rfl
    rw [hptr]
    refine hst.load_eq fun i hi => ?_
    rcases Nat.lt_or_ge i Header.size with hlt | hge
    · exact .inl (.inr ⟨Nat.zero_le i, hlt⟩)
    · exact .inr ⟨hge, hi⟩
  have hst := hst.writerTwin
  obtain ⟨mem, hmem⟩ := hst
  refine Rel.ite Iff.rfl (fun _ => ?_) fun _ => Rel.ret (.mk mem hmem)
  rw [hload]
  refine Rel.seq ((onIo_putTwin _).at_pre (.mk mem hmem)) fun _ => Rel.modify ?_
  rintro _ _ ⟨mem, hmem⟩
  exact .mk mem hmem

theorem sendPutArea_twin (ch : Option UInt8) :
    WriterRel g g' (sendPutArea conn ch) (sendPutArea (conn.over st) ch) := by
  refine Rel.get fun s t hst => ?_
  obtain ⟨mem, hmem⟩ := hst
  refine Rel.ite Iff.rfl (fun _ => Rel.ret (.mk mem hmem)) fun _ => ?_
  exact Rel.seq ((storeExtra_twin ch).at_pre (.mk mem hmem)) fun _ => sendRecord_twin _

/-! ### The records that end a stream -/

theorem endRequestRecord_twin {id : Nat} {status : BitVec 32} {ps : ProtocolStatus} :
    Rel (PutTwin g g' P) (endRequestRecord id status ps) (endRequestRecord id status ps)
      (fun record s t => PutTwin g g' P s t ∧ record.length = endRequestRecordSize)
      (WriterTwin g g') Never :=
  Rel.seq Header.make_twin fun _ => Rel.pure fun _ _ h => ⟨h, rfl⟩

/-- The first `n` bytes of the buffer are sent. -/
def sendStored (n : Nat) : M Unit := do
  let s ← Prog.get
  if 0 < n then onIo (Io.writeAll (s.buf.buffer_.load 0 n)) else pure ()
  modifyBuf fun b => (b.setEndRecordsMustBeTransmitted false).setEndOfStream true

/-- Behind the first `n` bytes of the buffer, the end-request record is stored in `out`. -/
def sendEndRequest (conn : ConnectionInfo) (type : StreamType) (n : Nat) : M Unit := do
  let n ←
    if type = .out then do
      let record ← endRequestRecord conn.requestId conn.applicationStatus .requestComplete
      storeBuf n record
      pure (n + endRequestRecordSize)
    else pure n
  sendStored n

theorem sendStored_twin (n : Nat) :
    Rel (PutTwin g g' fun i => i < n) (sendStored n) (sendStored n)
      (fun _ => WriterTwin g g') (WriterTwin g g') Never := by
  have hend : WriterRel g g'
      (modifyBuf fun b => (b.setEndRecordsMustBeTransmitted false).setEndOfStream true)
      (modifyBuf fun b => (b.setEndRecordsMustBeTransmitted false).setEndOfStream true) := by
    refine Rel.modify ?_
    rintro _ _ ⟨mem, hmem⟩
    exact .mk mem hmem
  refine Rel.get fun s t hst => ?_
  refine Rel.ite Iff.rfl (fun _ => ?_) fun _ => hend.at_pre hst.writerTwin
  rw [hst.load_eq fun i hi => .inl hi]
  exact Rel.seq ((onIo_putTwin _).at_pre hst.writerTwin) fun _ => hend

theorem sendEndRequest_twin (type : StreamType) (n : Nat) :
    Rel (PutTwin g g' fun i => i < n) (sendEndRequest conn type n)
      (sendEndRequest (conn.over st) type n) (fun _ => WriterTwin g g') (WriterTwin g g')
      Never := by
  refine Rel.ite Iff.rfl (fun _ => ?_) fun _ => sendStored_twin n
  refine Rel.seq endRequestRecord_twin fun record => Rel.of_at fun s t hst => ?_
  refine storeBuf_then hst.1 fun s t hput _ => Rel.step (Prog.pure_run _ _) (Prog.pure_run _ _) ?_
  refine (sendStored_twin _).at_pre (hput.mono fun i hi => ?_)
  rw [hst.2]
  omega

theorem sendEndRecords_twin :
    WriterRel g g' (sendEndRecords conn) (sendEndRecords (conn.over st)) := by
  refine Rel.get fun s t hst => ?_
  obtain ⟨mem, hmem⟩ := hst
  refine Rel.ite Iff.rfl (fun _ => ?_) fun _ => ?_
  · refine Rel.seq (Header.make_twin.at_pre (.mk mem hmem)) fun header =>
      Rel.of_at fun s t hst => ?_
    refine storeBuf_then hst fun s t hput _ =>
      Rel.step (Prog.pure_run _ _) (Prog.pure_run _ _) ?_
    refine (sendEndRequest_twin _ Header.size).at_pre ?_
    exact hput.mono fun i hi => .inr ⟨Nat.zero_le i, (Nat.zero_add _).symm ▸ hi⟩
  · refine (sendEndRequest_twin _ 0).at_pre (PutTwin.mk mem fun i hi => ?_)
    exact hmem i (hi.imp_left (Nat.not_lt_zero i))

/-! ### The calls -/

theorem overflow_twin (ch : Option UInt8) :
    WriterRel g g' (overflow conn ch) (overflow (conn.over st) ch) := by
  refine Rel.get fun s t hst => ?_
  obtain ⟨mem, hmem⟩ := hst
  refine Rel.guard Iff.rfl (.mk mem hmem) fun _ => ?_
  refine Rel.ite Iff.rfl (fun _ => Rel.ret (.mk mem hmem)) fun _ => ?_
  refine Rel.guard Iff.rfl (.mk mem hmem) fun _ => ?_
  refine Rel.seq ((sendPutArea_twin ch).at_pre (.mk mem hmem)) fun _ => ?_
  refine Rel.seq (Q := fun _ => WriterTwin g g') (Rel.modify ?_) fun _ => Rel.get fun s t hst => ?_
  · rintro _ _ ⟨mem, hmem⟩
    refine .mk mem fun i hi => ?_
    rcases hi with hi | ⟨h₁, h₂⟩
    · exact hi.elim
    · exact absurd h₂ (Nat.not_lt.mpr h₁)
  have hlast : WriterRel g g' (assertInvariantOk conn >>= fun _ => pure (some (ch.getD 0)))
      (assertInvariantOk (conn.over st) >>= fun _ => pure (some (ch.getD 0))) :=
    Rel.seq assertInvariantOk_writerTwin fun _ => Rel.pure fun _ _ h => h
  refine Rel.ite ?_ (fun _ => Rel.seq (sendEndRecords_twin.at_pre hst) fun _ => hlast) fun _ =>
    hlast.at_pre hst
  obtain ⟨mem, hmem⟩ := hst
  exact Iff.rfl

theorem sync_twin :
    WriterRel g g' (sync conn) (sync (conn.over st)) :=
  Rel.seq (overflow_twin none) fun _ => Rel.pure fun _ _ h => h

theorem sputc_twin (c : UInt8) :
    WriterRel g g' (sputc conn c) (sputc (conn.over st) c) := by
  refine Rel.get fun s t hst => Rel.ite ?_ (fun _ => ?_) fun _ => (overflow_twin _).at_pre hst
  · obtain ⟨mem, hmem⟩ := hst
    exact Iff.rfl
  · obtain ⟨mem, hmem⟩ := hst
    refine storeBuf_then (.mk mem hmem) fun s t hst hp => ?_
    refine Rel.step (modifyBuf_run _) (modifyBuf_run _) (Rel.ret ?_)
    exact PutTwin.pbump (hp ▸ hst)

theorem xsputn_twin : ∀ bytes : List UInt8,
    WriterRel g g' (xsputn conn bytes) (xsputn (conn.over st) bytes)
  | [] => Rel.pure fun _ _ h => h
  | c :: cs => by
      refine Rel.seq (sputc_twin c) fun r => ?_
      cases r with
      | none => exact Rel.pure fun _ _ h => h
      | some c => exact Rel.seq (xsputn_twin cs) fun _ => Rel.pure fun _ _ h => h

theorem closeAreas_twin (conn : ConnectionInfo) (st : Nat → Mem) :
    WriterRel g g' (closeAreas conn) (closeAreas (conn.over st)) := by
  refine Rel.seq (Q := fun _ => WriterTwin g g') (Rel.modify ?_) fun _ =>
    Rel.get fun s t hst => ?_
  · rintro _ _ ⟨mem, hmem⟩
    exact .mk mem fun i hi => hi.elim False.elim fun hlt => absurd hlt.2 (Nat.not_lt_zero i)
  · obtain ⟨mem, hmem⟩ := hst
    exact Rel.guard Iff.rfl (.mk mem hmem) fun _ =>
      assertInvariantOk_writerTwin.at_pre (.mk mem hmem)

theorem closeOutput_twin (conn : ConnectionInfo) (st : Nat → Mem) :
    WriterRel g g' (closeOutput conn) (closeOutput (conn.over st)) := by
  refine Rel.seq (Q := fun _ => WriterTwin g g') (Rel.modify ?_) fun _ =>
    Rel.seq sync_twin fun _ => Rel.get fun s t hst => ?_
  · rintro _ _ ⟨mem, hmem⟩
    exact .mk mem hmem
  · obtain ⟨mem, hmem⟩ := hst
    exact Rel.guard Iff.rfl (.mk mem hmem) fun _ => (closeAreas_twin conn st).at_pre (.mk mem hmem)

/-- `close()` of an output stream; the buffers of the input stream differ in memory. -/
theorem close_twin (conn : ConnectionInfo) (st : Nat → Mem) (inbuf : ServerStreambuf) (mem : Mem) :
    WriterRel g g' (close conn inbuf) (close (conn.over st) (inbuf.setBuffer mem)) := by
  refine Rel.get fun s t hst => ?_
  obtain ⟨mem, hmem⟩ := hst
  refine Rel.ite Iff.rfl (fun _ => Rel.ret (.mk mem hmem)) fun _ => ?_
  refine Rel.ite Iff.rfl (fun _ => ?_) fun _ => (closeAreas_twin conn st).at_pre (.mk mem hmem)
  refine Rel.guard Iff.rfl (.mk mem hmem) fun _ => ?_
  refine Rel.guard Iff.rfl (.mk mem hmem) fun _ => ?_
  exact Rel.ite Iff.rfl (fun _ => (closeOutput_twin conn st).at_pre (.mk mem hmem))
    fun _ => Rel.stop (.mk mem hmem)

end

end Fcgi

import Fcgi.Basics.Conversation
import Fcgi.Output.Steps

/-!
# Output — the records sent, whatever the transport does

`Log id ended w`: what has been sent in the world `w` is a string of records, in which nothing of
the request `id` follows its end; unless `ended` is set, there is no such end.  It is stated for
histories in which all records of the request that the reader met were of the stream it reads.

**`Written.logged`**, **`WriterAborted.stopped`**: an output buffer keeps to this, however its calls
end.

Sending the records `rs` keeps to it if `rs` are in order and, once the request has been ended, hold
no output and no end (`Appends`, `Log.append`); a part of them that has been sent when the process
stops is a beginning of such a string (`Log.cut`).  A step of the writer sends a record of its
stream or its end, and does so only while the stream is open (`WriterStep.closeLogged`); the request
has been ended when `out()` has ended, which a call does only where `close()` has asked for it
(`Later`).
-/

namespace Fcgi
open Lib
open ServerStreambuf (pbase_eq pptr_eq epptr_eq pbump_putArea_eq)

/-! ### The order of records -/

/-- The record carries output of the request `id`. -/
def Record.IsOutput (id : Nat) (r : Record) : Prop :=
  r.requestId = id ∧ (r.recordType = .out ∨ r.recordType = .err)

/-- `r'` may be sent after `r`. -/
def Record.MayPrecede (id : Nat) (r r' : Record) : Prop :=
  r.EndsRequest id → ¬ r'.EndsRequest id ∧ ¬ r'.IsOutput id

/-- After a record that ends the request there is none that ends it again, and no output. -/
def Ordered (id : Nat) (rs : List Record) : Prop := rs.Pairwise (Record.MayPrecede id)

instance (id : Nat) (r : Record) : Decidable (r.IsOutput id) := by
  unfold Record.IsOutput; infer_instance

instance (id : Nat) : DecidableRel (Record.MayPrecede id) := fun r r' => by
  unfold Record.MayPrecede; infer_instance

instance (id : Nat) (rs : List Record) : Decidable (Ordered id rs) := by
  unfold Ordered; infer_instance

/-- All records of the request `id` with a valid header that were dispatched belonged to the stream
being read. -/
def History.OwnExpected (id : Nat) (h : History) : Prop :=
  ∀ d ∈ h.dispatches, d.header.protocolVersion = 1 → d.header.requestId = id →
    d.header.recordType = d.buf.type_.recordType

instance (id : Nat) (h : History) : Decidable (h.OwnExpected id) := by
  unfold History.OwnExpected; infer_instance

/-- What has been sent is a string of records in order; unless `ended` is set, none of them ends the
request. -/
def Log (id : Nat) (ended : Bool) (w : World) : Prop :=
  w.history.OwnExpected id → ∃ rs : List Record, w.io.written = Frame.join rs ∧ Ordered id rs ∧
    (ended = false → ∀ r ∈ rs, ¬ r.EndsRequest id)

/-- What has been sent when the process stops: the last record may be incomplete. -/
def Stopped (id : Nat) (w : World) : Prop :=
  w.history.OwnExpected id →
    ∃ (rs : List Record) (n : Nat), w.io.written = (Frame.join rs).take n ∧ Ordered id rs

section

variable {id : Nat} {e e' : Bool} {w w' : World} {rs : List Record}

/-- Records in order may follow others, if these do not end the request, or if they have nothing of
the request that may not follow its end. -/
theorem Ordered.append {rs' : List Record} (h : Ordered id rs) (h' : Ordered id rs')
    (hc : (∀ r ∈ rs, ¬ r.EndsRequest id) ∨ ∀ r ∈ rs', ¬ r.EndsRequest id ∧ ¬ r.IsOutput id) :
    Ordered id (rs ++ rs') := by
  refine List.pairwise_append.mpr ⟨h, h', fun r hr r' hr' hend => ?_⟩
  rcases hc with hc | hc
  · exact absurd hend (hc r hr)
  · exact hc r' hr'

/-- Records that do not end the request are in order. -/
theorem Ordered.of_not_ends (h : ∀ r ∈ rs, ¬ r.EndsRequest id) : Ordered id rs :=
  List.Pairwise.imp_of_mem (fun hr _ _ hend => absurd hend (h _ hr)) (List.pairwise_of_forall
    fun _ _ => trivial)

/-- The process may stop between two calls. -/
theorem Log.stopped (h : Log id e w) : Stopped id w := fun hw => by
  obtain ⟨rs, hrs, ho, -⟩ := h hw
  exact ⟨rs, (Frame.join rs).length, by rw [hrs, List.take_length], ho⟩

/-- What is to be shown when `rs` is sent. -/
structure Appends (id : Nat) (e e' : Bool) (rs : List Record) : Prop where
  ordered : Ordered id rs
  quiet : e = true → ∀ r ∈ rs, ¬ r.EndsRequest id ∧ ¬ r.IsOutput id
  ends : e' = false → e = false ∧ ∀ r ∈ rs, ¬ r.EndsRequest id

theorem Appends.nil : Appends id e e [] := ⟨List.Pairwise.nil, fun _ => nofun, fun h => ⟨h, nofun⟩⟩

/-- Sending such records keeps the log. -/
theorem Log.append (h : Log id e w) (ha : Appends id e e' rs)
    (hwritten : w'.io.written = w.io.written ++ Frame.join rs)
    (hist : ∀ d ∈ w.history.dispatches, d ∈ w'.history.dispatches) : Log id e' w' := fun hw' => by
  obtain ⟨rs₀, hrs₀, ho, hends⟩ := h fun d hd => hw' d (hist d hd)
  refine ⟨rs₀ ++ rs, by rw [hwritten, hrs₀, Frame.join_append], ho.append ha.ordered ?_, ?_⟩
  · cases e with
    | false => exact .inl (hends rfl)
    | true => exact .inr (ha.quiet rfl)
  · intro he r hr
    obtain ⟨he, hrs⟩ := ha.ends he
    exact (List.mem_append.mp hr).elim (hends he r) (hrs r)

/-- Where a part of them has been sent, the process may stop. -/
theorem Log.cut (h : Log id e w) (ha : Appends id e e' rs) {n : Nat}
    (hwritten : w'.io.written = w.io.written ++ (Frame.join rs).take n)
    (hist : ∀ d ∈ w.history.dispatches, d ∈ w'.history.dispatches) : Stopped id w' := fun hw' => by
  obtain ⟨rs₀, hrs₀, ho, hends⟩ := h fun d hd => hw' d (hist d hd)
  refine ⟨rs₀ ++ rs, (Frame.join rs₀).length + n, ?_, ho.append ha.ordered ?_⟩
  · rw [hwritten, hrs₀, Frame.join_append, List.take_length_add_append]
  · cases e with
    | false => exact .inl (hends rfl)
    | true => exact .inr (ha.quiet rfl)

/-- What is cut out of what has been sent is in order. -/
theorem Stopped.ordered (h : Stopped id w) (hw : w.history.OwnExpected id) :
    Ordered id (Record.parse w.io.written).1 := by
  obtain ⟨rs, n, hrs, ho⟩ := h hw
  rw [hrs]
  exact ho.sublist (Framing.frames_prefix rs n).sublist

end

/-- Whether the request has been ended by its output: the end of `out()` ends it.  `e` tells it
where `b` is not the buffer of `out()`. -/
def ServerStreambuf.ended (e : Bool) (b : ServerStreambuf) : Bool :=
  if b.type_ = .out then b.isEndOfStream_ else e

/-- From `b` to `b'`, the stream has been ended only if this had been asked for. -/
structure Later (b b' : ServerStreambuf) : Prop where
  mono : b.isEndOfStream_ = true → b'.isEndOfStream_ = true
  asked : b'.isEndOfStream_ = true ∨ b'.isEndRecordsMustBeTransmitted_ = true →
    b.isEndOfStream_ = true ∨ b.isEndRecordsMustBeTransmitted_ = true

theorem Later.refl (b : ServerStreambuf) : Later b b := ⟨id, id⟩

/-- The invariant of the calls on an output stream that began with the buffer `b₀`. -/
structure Logged (id : Nat) (e : Bool) (t : StreamType) (b₀ : ServerStreambuf) (s : State) :
    Prop where
  ok : WriterOk t s.buf
  log : Log id (s.buf.ended e) s.world
  open_ : s.buf.isEndOfStream_ = false → s.buf.ended e = false
  later : Later b₀ s.buf

section steps

variable {conn : ConnectionInfo} {e : Bool} {t : StreamType} {b₀ : ServerStreambuf}
  {s s' : State} {bs : List UInt8}

/-- What is known of an output buffer after `close()`. -/
structure CloseLogged (id : Nat) (e : Bool) (t : StreamType) (b₀ : ServerStreambuf) (s : State) :
    Prop where
  ok : WriterOk t s.buf
  log : Log id (s.buf.ended e) s.world
  open_ : s.buf.isEndOfStream_ = false → s.buf.ended e = false
  mono : b₀.isEndOfStream_ = true → s.buf.isEndOfStream_ = true

/-- The invariant of the calls gives that of `close()`. -/
theorem Logged.closeLogged {id : Nat} (h : Logged id e t b₀ s) :
    CloseLogged id e t b₀ s := ⟨h.ok, h.log, h.open_, h.later.mono⟩

theorem CloseLogged.logged {id : Nat} (h : CloseLogged id e t b₀ s) (hl : Later b₀ s.buf) :
    Logged id e t b₀ s := ⟨h.ok, h.log, h.open_, hl⟩

/-- A record of the stream does not end the request. -/
theorem StreamRecord.appends {id : Nat} {cs : List UInt8} {r : Record}
    (h : StreamRecord t id cs r) (ht : t = .out ∨ t = .err) : Appends id false false [r] := by
  have hne : ¬ r.EndsRequest id := fun he => by
    have := h.recordType.symm.trans he.2
    rcases ht with rfl | rfl <;> cases this
  exact ⟨List.pairwise_singleton _ _, nofun, fun _ => ⟨rfl, fun r' hr' => by
    obtain rfl := List.mem_singleton.mp hr'
    exact hne⟩⟩

/-- The records that end a stream; those of `out()` end the request. -/
theorem endRecords_appends (hid : conn.requestId < 65536) (ht : t = .out ∨ t = .err)
    (used : Bool) : Appends conn.requestId false (t == .out) (endRecords conn t used) := by
  have hstream : ∀ t, t = .out ∨ t = .err →
      ¬ (Record.streamEnd t conn.requestId).EndsRequest conn.requestId := fun t ht he => by
    have := (streamEnd_streamRecord t hid).recordType.symm.trans he.2
    rcases ht with rfl | rfl <;> cases this
  rcases ht with rfl | rfl
  · refine ⟨?_, fun h => (by cases h), fun h => by cases h⟩
    rw [endRecords, if_pos (.inl (by decide)), if_pos rfl]
    refine List.pairwise_cons.mpr ⟨fun r' _ he => absurd he (hstream _ (.inl rfl)),
      List.pairwise_singleton _ _⟩
  · have hmem : ∀ r ∈ endRecords conn .err used, ¬ r.EndsRequest conn.requestId := by
      intro r hr
      rw [endRecords, if_neg (show ¬ StreamType.err = .out by decide), List.append_nil] at hr
      split at hr
      · obtain rfl := List.mem_singleton.mp hr
        exact hstream _ (.inr rfl)
      · cases hr
    exact ⟨.of_not_ends hmem, fun h => (by cases h), fun _ => ⟨rfl, hmem⟩⟩

/-- A record of the stream may be sent while the stream is open. -/
theorem Flushes.appends {b : ServerStreambuf} {ch : Option UInt8} {r : Record}
    (h : Flushes conn b ch r) (hok : WriterOk t b)
    (hopen : b.isEndOfStream_ = false → b.ended e = false) :
    Appends conn.requestId (b.ended e) (b.ended e) [r] := by
  have hr := h.record
  rw [hok.type] at hr
  rw [hopen h.eos]
  exact hr.appends hok.output

/-- The request has ended with `out()`. -/
theorem Finishes.appends {b : ServerStreambuf} {rs : List Record} (h : Finishes conn b rs)
    (hid : conn.requestId < 65536) (hok : WriterOk t b)
    (hopen : b.isEndOfStream_ = false → b.ended e = false) :
    Appends conn.requestId (b.ended e) ((b.setEndOfStream true).ended e) rs := by
  have happ := endRecords_appends hid hok.output b.isPutAreaAtLeastOnceConsumed_
  rw [hopen h.eos, h.records, hok.type]
  have hended : (b.setEndOfStream true).ended e = (t == .out) := by
    have hopen := hopen h.eos
    simp only [ServerStreambuf.ended, ServerStreambuf.setEndOfStream_type_, hok.type] at hopen ⊢
    rcases hok.output with rfl | rfl
    · rfl
    · exact hopen
  rw [hended]
  exact happ

/-- Every step of a writer keeps the log. -/
theorem WriterStep.closeLogged (hid : conn.requestId < 65536)
    (hs : WriterStep conn s bs s') (h : CloseLogged conn.requestId e t b₀ s) :
    CloseLogged conn.requestId e t b₀ s' := by
  have hok := hs.ok h.ok
  cases hs with
  | put c hput hlt => exact ⟨hok, h.log, h.open_, h.mono⟩
  | flush m hf =>
      have hjoin : ∀ r : Record, r.bytes = Frame.join [r] := fun r => by
        rw [Frame.join_cons, Frame.join_nil, List.append_nil]
      exact ⟨hok, h.log.append (hf.appends h.ok h.open_) (congrArg _ (hjoin _)) fun _ hd => hd,
        h.open_, h.mono⟩
  | @finish b w rs m hf =>
      refine ⟨hok, h.log.append (hf.appends hid h.ok h.open_) ?_ ?_, nofun, fun _ => rfl⟩
      · dsimp only
        split
        · rename_i hnil
          rw [hnil, Frame.join_nil, List.append_nil]
        · rfl
      · dsimp only
        split <;> exact fun _ hd => hd

/-- No step asks for the end of the stream, and the stream is ended only if it had been asked for.
-/
theorem WriterStep.later (hs : WriterStep conn s bs s') (h : Later b₀ s.buf) :
    Later b₀ s'.buf := by
  cases hs with
  | put c hput hlt => exact ⟨h.mono, h.asked⟩
  | flush m hf => exact ⟨h.mono, h.asked⟩
  | finish m hf => exact ⟨fun _ => rfl, fun _ => h.asked (.inr hf.asked)⟩

/-- A write that fails keeps the log, for nothing has been sent. -/
theorem WriteError.closeLogged (hs : WriteError conn s s')
    (h : CloseLogged conn.requestId e t b₀ s) : CloseLogged conn.requestId e t b₀ s' := by
  have hlog : ∀ {b : ServerStreambuf} {w : World}, Log conn.requestId (b.ended e) w →
      Log conn.requestId (b.ended e) w.unsent := fun hl =>
    hl.append .nil (by rw [Frame.join_nil, List.append_nil]; rfl) fun _ hd => hd
  exact ⟨hs.ok h.ok, by cases hs <;> exact hlog h.log, by cases hs <;> exact h.open_,
    by cases hs <;> exact h.mono⟩

theorem WriteError.later (hs : WriteError conn s s') (h : Later b₀ s.buf) : Later b₀ s'.buf := by
  cases hs <;> exact ⟨h.mono, h.asked⟩

theorem Written.closeLogged (hid : conn.requestId < 65536) (hr : Written conn s bs s')
    (h : CloseLogged conn.requestId e t b₀ s) : CloseLogged conn.requestId e t b₀ s' :=
  hr.invariant (fun hs => hs.closeLogged hid) h

theorem Written.logged (hid : conn.requestId < 65536) (hr : Written conn s bs s')
    (h : Logged conn.requestId e t b₀ s) : Logged conn.requestId e t b₀ s' :=
  (hr.closeLogged hid h.closeLogged).logged
    (hr.invariant (I := fun s => Later b₀ s.buf) (fun hs => hs.later) h.later)

/-- Where the process stops in a call, what has been sent is in order. -/
theorem WriterAborted.stopped (hid : conn.requestId < 65536)
    {extra : Bool} (ha : WriterAborted conn extra s s') (h : CloseLogged conn.requestId e t b₀ s) :
    Stopped conn.requestId s'.world := by
  cases ha with
  | closed hr _ => exact (hr.closeLogged hid h).log.stopped
  | past hr _ _ _ => exact (hr.closeLogged hid h).log.stopped
  | invariant hr _ _ => exact (hr.closeLogged hid h).log.stopped
  | short hr _ _ hrs =>
      have hl := hr.closeLogged hid h
      rcases hrs with ⟨ch, r, hf, rfl⟩ | hf
      · exact hl.log.cut (hf.appends hl.ok hl.open_) rfl fun _ hd => hd
      · exact hl.log.cut (hf.appends hid hl.ok hl.open_) rfl fun _ hd => hd

/-- Asking for the end sends nothing. -/
theorem CloseLogged.asked {id : Nat} (h : CloseLogged id e t b₀ s) :
    CloseLogged id e t b₀ s.asked := ⟨h.ok.asked, h.log, h.open_, h.mono⟩

theorem CloseLogged.shut {id : Nat} (h : CloseLogged id e t b₀ s)
    (heos : s.buf.isEndOfStream_ = true) : CloseLogged id e t b₀ s.shut :=
  ⟨h.ok.shut heos, h.log, h.open_, h.mono⟩

/-- Where the process stops in `close()`, what has been sent is in order. -/
theorem CloseAborted.stopped (hid : conn.requestId < 65536) {inbuf : ServerStreambuf}
    (ha : CloseAborted conn inbuf s s') (h : CloseLogged conn.requestId e t b₀ s) :
    Stopped conn.requestId s'.world := by
  cases ha with
  | overflow ha => exact ha.stopped hid h.asked
  | input => exact h.log.stopped
  | ended => exact h.asked.log.stopped
  | invariant he hi => exact (he.written.closeLogged hid h.asked).log.stopped

end steps

end Fcgi

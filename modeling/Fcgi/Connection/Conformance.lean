import Fcgi.Basics.Conversation
import Fcgi.Connection.EndRequest

/-!
# Connection — the server keeps to the conversation

`Voice t b φ`: the phase `φ` of the conversation agrees with the buffer `b` of the output stream
`t`.  Each change of a connection is matched by acts that the conversation permits
(`ConnectionStep.speaks`), so every run is (`run_speaks`), and a process that stops has sent the
beginning of a permitted conversation.

The monitor that is followed is the lenient one, which lets a request be rejected at any time; where
all records of the request that the reader met were expected there is no such act (`Plain`), and the
conversation is one that lets the request end once (`Converses`).  The acts are found where the
records are sent: a record of output at a flush, the end of a stream and of the request at its end
(`Written.speaks`), an answer in the reader (`Reached.utters`).  What has been sent in part belongs
to the act that was under way (`WriterAborted.brokenOff`).
-/

namespace Fcgi
open Lib

/-- The phase agrees with the buffer of the output stream `t`. -/
structure Voice (t : StreamType) (b : ServerStreambuf) (φ : Phase) : Prop where
  open_ : b.isEndOfStream_ = false → ∃ e, φ = .open e ∧ (t = .err → e = false)
  ended : t = .out → b.isEndOfStream_ = true → φ = .ended
  due : φ ≠ .ending

/-- Unless the reader has met a record of the request that it did not expect, the request is not
rejected. -/
def Plain (id : Nat) (w : World) (rs : List Record) : Prop :=
  w.history.OwnExpected id → ∀ r ∈ rs, ¬ r.Rejects id

/-- From `w` to `w'` records are sent that lead from the phase `φ` to `ψ`. -/
structure Says (id : Nat) (w w' : World) (φ ψ : Phase) : Prop where
  dispatches : w.history.dispatches ⊆ w'.history.dispatches
  records : ∃ rs : List Record, w'.io.written = w.io.written ++ Frame.join rs ∧
    (lenient id).run φ rs = some ψ ∧ Plain id w' rs

/-- What has been sent is a conversation about the request `id`, up to a phase in `P`. -/
def Spoken (id : Nat) (P : Phase → Prop) (w : World) : Prop :=
  (lenient id).Tracks (.open false) (fun (_ : World) => P)
    (fun w rs => w.io.written = Frame.join rs ∧ Plain id w rs) w

/-- What has been sent when the process stops: the last record may be incomplete. -/
def BrokenOff (id : Nat) (w : World) : Prop :=
  ∃ (rs : List Record) (φ : Phase) (n : Nat), w.io.written = (Frame.join rs).take n ∧
    (lenient id).run (.open false) rs = some φ ∧ Plain id w rs

/-- The records `rs` are a conversation about the request `id`, up to the phase `φ`.  Only a client
may have been told in between that its request is rejected which has sent a record of the request
that was not of the stream to be read. -/
structure Converses (id : Nat) (history : History) (rs : List Record) (φ : Phase) : Prop where
  run : (lenient id).run (.open false) rs = some φ
  strict : history.OwnExpected id →
    (conversation id).run (.open false) rs = some φ ∧ ∀ r ∈ rs, ¬ r.Rejects id

section

variable {id : Nat} {w w' w'' : World} {φ ψ χ : Phase} {P Q : Phase → Prop} {rs rs' : List Record}

theorem Plain.nil : Plain id w [] := fun _ => nofun

/-- What is sent after it may be judged by a longer history. -/
theorem Plain.append (h : Plain id w rs) (h' : Plain id w' rs')
    (hw : w.history.dispatches ⊆ w'.history.dispatches) : Plain id w' (rs ++ rs') := by
  intro hown r hr
  rcases List.mem_append.mp hr with hr | hr
  · exact h (fun d hd => hown d (hw hd)) r hr
  · exact h' hown r hr

theorem Says.silent (h : w'.io.written = w.io.written)
    (hd : w.history.dispatches ⊆ w'.history.dispatches) : Says id w w' φ φ :=
  ⟨hd, [], by rw [h, Frame.join_nil, List.append_nil], rfl, .nil⟩

theorem Says.refl : Says id w w φ φ := .silent rfl fun _ hd => hd

/-- What is said one after the other is said together. -/
theorem Says.trans (h : Says id w w' φ ψ) (h' : Says id w' w'' ψ χ) : Says id w w'' φ χ := by
  obtain ⟨hd, rs, hw, hrun, hp⟩ := h
  obtain ⟨hd', rs', hw', hrun', hp'⟩ := h'
  exact ⟨fun _ h => hd' (hd h), rs ++ rs',
    by rw [hw', hw, Frame.join_append, List.append_assoc], Monitor.run_trans hrun hrun',
    hp.append hp' hd'⟩

/-- A conversation goes on with what is said next. -/
theorem Spoken.utters (h : Spoken id P w) (hs : ∀ {φ}, P φ → ∃ ψ, Says id w w' φ ψ ∧ Q ψ) :
    Spoken id Q w' := by
  obtain ⟨rs, φ, ⟨hw, hp⟩, hrun, hP⟩ := h
  obtain ⟨ψ, ⟨hd, rs', hw', hrun', hp'⟩, hQ⟩ := hs hP
  refine ⟨rs ++ rs', ψ, ⟨?_, hp.append hp' hd⟩, Monitor.run_trans hrun hrun', hQ⟩
  rw [hw', hw, Frame.join_append]

/-- It may be broken off between two records. -/
theorem Spoken.brokenOff (h : Spoken id P w) : BrokenOff id w := by
  obtain ⟨rs, φ, ⟨hw, hp⟩, hrun, -⟩ := h
  exact ⟨rs, φ, (Frame.join rs).length, by rw [hw, List.take_length], hrun, hp⟩

/-- The process stops while it sends `rs`. -/
theorem Spoken.cut (h : Spoken id P w) {n : Nat}
    (hd : w.history.dispatches ⊆ w'.history.dispatches)
    (hw' : w'.io.written = w.io.written ++ (Frame.join rs).take n)
    (hrs : ∀ {φ}, P φ → ∃ ψ, (lenient id).run φ rs = some ψ) (hp : Plain id w' rs) :
    BrokenOff id w' := by
  obtain ⟨rs₀, φ, ⟨hw, hp₀⟩, hrun, hP⟩ := h
  obtain ⟨ψ, hψ⟩ := hrs hP
  refine ⟨rs₀ ++ rs, ψ, (Frame.join rs₀).length + n, ?_, Monitor.run_trans hrun hψ,
    hp₀.append hp hd⟩
  rw [hw', hw, Frame.join_append, List.take_length_add_append]

/-- So it does while it says something. -/
theorem Spoken.cut_utterance (h : Spoken id P w) {n : Nat}
    (hd : w.history.dispatches ⊆ w'.history.dispatches)
    (hw' : w'.io.written = w.io.written ++ (Frame.join rs).take n)
    (hrs : ∀ {φ}, P φ → ∃ ψ, Utterance id rs φ ψ) : BrokenOff id w' := by
  obtain ⟨rs₀, φ, ⟨hw, hp₀⟩, hrun, hP⟩ := h
  obtain ⟨ψ, hu⟩ := hrs hP
  exact Spoken.cut ⟨rs₀, φ, ⟨hw, hp₀⟩, hrun, (rfl : φ = φ)⟩ hd hw'
    (fun {χ} hχ => ⟨ψ, hχ ▸ hu.run_lenient⟩) fun _ => hu.plain

/-- Where nothing is rejected the lenient monitor is as strict as the conversation. -/
theorem Converses.of_plain (h : (lenient id).run (.open false) rs = some φ)
    (hp : Plain id w rs) : Converses id w.history rs φ :=
  ⟨h, fun hown => ⟨(lenient_run (hp hown)).symm.trans h, hp hown⟩⟩

/-- To a client all of whose records were expected the end of the request is sent once, if the phase
says that it has ended, and otherwise not. -/
theorem Converses.ends {history : History} (h : Converses id history rs φ)
    (hown : history.OwnExpected id) :
    rs.countP (fun r => decide (r.EndsRequest id)) = if φ = .ended then 1 else 0 :=
  conversation_ends (h.strict hown).1

/-- What comes first is a conversation, too. -/
theorem Converses.before {history : History} (h : Converses id history rs φ) (hp : rs' <+: rs) :
    ∃ ψ, Converses id history rs' ψ := by
  obtain ⟨ψ, hψ⟩ := Monitor.run_prefix hp h.run
  refine ⟨ψ, hψ, fun hown => ?_⟩
  have hrs := fun r hr => (h.strict hown).2 r (hp.subset hr)
  exact ⟨(lenient_run hrs).symm.trans hψ, hrs⟩

/-- The whole records of what has been sent. -/
theorem BrokenOff.parse (h : BrokenOff id w) :
    ∃ φ, Converses id w.history (Record.parse w.io.written).1 φ := by
  obtain ⟨rs, φ, n, hw, hrun, hp⟩ := h
  rw [hw]
  exact (Converses.of_plain hrun hp).before (Framing.frames_prefix rs n)

/-- The records are found in what has been sent. -/
theorem Spoken.parse (h : Spoken id P w) :
    ∃ φ, Converses id w.history (Record.parse w.io.written).1 φ ∧ P φ := by
  obtain ⟨rs, φ, ⟨hw, hp⟩, hrun, hP⟩ := h
  rw [hw, Record.parse, Framing.frames_join]
  exact ⟨φ, .of_plain hrun hp, hP⟩

end

/-! ### The writers -/

section writer

variable {conn : ConnectionInfo} {t : StreamType} {s s' : State} {bs : List UInt8} {φ : Phase}

/-- A record with content keeps an open phase. -/
theorem StreamRecord.utters {id : Nat} {cs : List UInt8} {r : Record} {e : Bool}
    (h : StreamRecord t id cs r) (ht : t = .out ∨ t = .err) (hcs : cs ≠ [])
    (he : t = .err → e = false) : Utterance id [r] (.open e) (.open e) := by
  have hne : r.content ≠ [] := by rw [h.content]; exact hcs
  rcases ht with rfl | rfl
  · have hact := act_out h.requestId h.recordType
    rw [if_neg hne] at hact
    exact .single hact nofun rfl
  · obtain rfl := he rfl
    have hact := act_err h.requestId h.recordType
    rw [if_neg hne] at hact
    exact .single hact nofun rfl

/-- A record of output is uttered while its stream is open. -/
theorem Flushes.utters {b : ServerStreambuf} {ch : Option UInt8} {r : Record}
    (h : Flushes conn b ch r) (hok : WriterOk t b) (hv : Voice t b φ) :
    Utterance conn.requestId [r] φ φ := by
  obtain ⟨e, rfl, he⟩ := hv.open_ h.eos
  have hr := h.record
  rw [hok.type] at hr
  refine hr.utters hok.output (fun hnil => ?_) he
  -- The put area is not empty.
  obtain ⟨cur, hput, hlt, -⟩ := h.area
  have hlen := congrArg List.length (List.append_eq_nil_iff.mp hnil).1
  rw [ServerStreambuf.pending, Mem.length_load, ServerStreambuf.pbase_eq hput,
    ServerStreambuf.pptr_eq hput, List.length_nil] at hlen
  omega

/-- The phase after the end of the stream `t`. -/
def Phase.after (t : StreamType) (used : Bool) (φ : Phase) : Phase :=
  if t = .out then .ended else if used then .open true else φ

/-- The end records are uttered together: the end of the stream, and after that of `out()` the end
of the request. -/
theorem endRecords_says (hid : conn.requestId < 65536) (ht : t = .out ∨ t = .err) (used : Bool)
    {e : Bool} (he : t = .err → e = false) : Utterance conn.requestId (endRecords conn t used)
      (.open e) (Phase.after t used (.open e)) := by
  rcases ht with rfl | rfl
  · have hr := streamEnd_streamRecord .out hid
    have hact := act_out hr.requestId hr.recordType
    rw [if_pos hr.content] at hact
    rw [endRecords, if_pos (.inl (by decide)), if_pos rfl]
    exact (Utterance.single hact (fun h => by cases h) rfl).trans
      (.single (act_complete hid _) (fun h => by cases h) rfl)
  · obtain rfl := he rfl
    have hr := streamEnd_streamRecord .err hid
    cases used with
    | false => exact .nil
    | true =>
        have hact := act_err hr.requestId hr.recordType
        rw [if_pos hr.content] at hact
        rw [endRecords, if_pos (.inr rfl), if_neg (by decide), List.append_nil]
        exact .single hact (fun h => by cases h) rfl

/-- How the calls on the stream `t` move the conversation: its end only after it has been asked
for in `b`. -/
inductive Moves (b : ServerStreambuf) : StreamType → Phase → Phase → Prop
  | stay {t : StreamType} {φ : Phase} : Moves b t φ φ
  | out {φ : Phase}
      (h : b.isEndOfStream_ = true ∨ b.isEndRecordsMustBeTransmitted_ = true) :
      Moves b .out φ .ended
  | err : Moves b .err (.open false) (.open true)

/-- What two pieces of a call do to the phase, they do together. -/
theorem Moves.trans {b b' : ServerStreambuf} {φ ψ χ : Phase} (h : Moves b t φ ψ)
    (hl : Later b b') (h' : Moves b' t ψ χ) : Moves b t φ χ := by
  cases h' with
  | stay => exact h
  | out h' => exact .out (hl.asked h')
  | err =>
      cases h with
      | stay => exact .err

/-- An utterance that is sent is said. -/
theorem Says.of_utterance {id : Nat} {w w' : World} {ψ : Phase} {rs : List Record}
    (h : Utterance id rs φ ψ) (hw : w'.io.written = w.io.written ++ Frame.join rs)
    (hd : w.history.dispatches ⊆ w'.history.dispatches) : Says id w w' φ ψ :=
  ⟨hd, rs, hw, h.run_lenient, fun _ => h.plain⟩

/-- **One change of a writer is permitted.** -/
theorem WriterStep.speaks (hid : conn.requestId < 65536) (hs : WriterStep conn s bs s')
    (hok : WriterOk t s.buf) (hv : Voice t s.buf φ) :
    ∃ ψ, Says conn.requestId s.world s'.world φ ψ ∧ Voice t s'.buf ψ ∧ Moves s.buf t φ ψ := by
  cases hs with
  | put c hput hlt => exact ⟨φ, .refl, ⟨hv.open_, hv.ended, hv.due⟩, .stay⟩
  | @flush b w ch r m hf =>
      refine ⟨φ, .of_utterance (hf.utters hok hv) ?_ fun _ hd => hd,
        ⟨hv.open_, hv.ended, hv.due⟩, .stay⟩
      rw [Frame.join_cons, Frame.join_nil, List.append_nil]
      rfl
  | @finish b w rs m hf =>
      obtain ⟨e, rfl, he⟩ := hv.open_ hf.eos
      have hrun : Utterance conn.requestId rs (.open e)
          (Phase.after t b.isPutAreaAtLeastOnceConsumed_ (.open e)) := by
        rw [hf.records, hok.type]
        exact endRecords_says hid hok.output _ he
      refine ⟨_, .of_utterance hrun ?_ ?_, ?_, ?_⟩
      · dsimp only
        split
        · rename_i hnil
          rw [hnil, Frame.join_nil, List.append_nil]
        · rfl
      · dsimp only
        split <;> exact fun _ hd => hd
      · refine ⟨fun h => (by cases h), fun ht _ => (by rw [ht]; rfl), fun h => ?_⟩
        rw [Phase.after] at h
        split_ifs at h
      · rcases hok.output with rfl | rfl
        · exact .out (.inr hf.asked)
        · obtain rfl := he rfl
          dsimp only
          cases b.isPutAreaAtLeastOnceConsumed_ with
          | false => exact .stay
          | true => exact .err

/-- **The steps of a writer** say what the conversation permits, and the phase agrees with the
buffer after them. -/
theorem Written.speaks (hid : conn.requestId < 65536) (hr : Written conn s bs s')
    (hok : WriterOk t s.buf) (hv : Voice t s.buf φ) :
    ∃ ψ, Says conn.requestId s.world s'.world φ ψ ∧ Voice t s'.buf ψ ∧ Moves s.buf t φ ψ := by
  induction hr with
  | refl => exact ⟨φ, .refl, hv, .stay⟩
  | @tail bs cs s₁ s₂ h hs ih =>
      obtain ⟨ψ, hsay, hv₁, hm⟩ := ih
      obtain ⟨χ, hsay', hv₂, hm'⟩ := hs.speaks hid (h.ok hok) hv₁
      have hl : Later s.buf s₁.buf := h.invariant (I := fun s' => Later s.buf s'.buf)
        (fun hs => hs.later) (.refl _)
      exact ⟨χ, hsay.trans hsay', hv₂, hm.trans hl hm'⟩

/-- A write that fails says nothing. -/
theorem WriteError.voice (he : WriteError conn s s') (hv : Voice t s.buf φ) :
    Says conn.requestId s.world s'.world φ φ ∧ Voice t s'.buf φ := by
  cases he with
  | flush => exact ⟨.silent rfl fun _ hd => hd, hv.open_, hv.ended, hv.due⟩
  | finish => exact ⟨.silent rfl fun _ hd => hd, hv.open_, hv.ended, hv.due⟩

/-- Where the process stops in a call, the conversation is broken off. -/
theorem WriterAborted.brokenOff (hid : conn.requestId < 65536) {extra : Bool}
    (ha : WriterAborted conn extra s s') (hok : WriterOk t s.buf)
    (h : Spoken conn.requestId (Voice t s.buf) s.world) : BrokenOff conn.requestId s'.world := by
  have hspoken : ∀ {bs : List UInt8} {s₁ : State}, Written conn s bs s₁ →
      Spoken conn.requestId (Voice t s₁.buf) s₁.world := fun hr => h.utters fun hv => by
    obtain ⟨ψ, hsay, hv', -⟩ := hr.speaks hid hok hv
    exact ⟨ψ, hsay, hv'⟩
  cases ha with
  | closed hr _ => exact (hspoken hr).brokenOff
  | past hr _ _ _ => exact (hspoken hr).brokenOff
  | invariant hr _ _ => exact (hspoken hr).brokenOff
  | short hr _ _ hrs =>
      have hok' := hr.ok hok
      refine (hspoken hr).cut_utterance (fun _ hd => hd) rfl fun {φ} hv => ?_
      rcases hrs with ⟨ch, r, hf, rfl⟩ | hf
      · exact ⟨φ, hf.utters hok' hv⟩
      · obtain ⟨e, rfl, he⟩ := hv.open_ hf.eos
        rw [hf.records, hok'.type]
        exact ⟨_, endRecords_says hid hok'.output _ he⟩

theorem CloseAborted.brokenOff (hid : conn.requestId < 65536) {inbuf : ServerStreambuf}
    (ha : CloseAborted conn inbuf s s') (hok : WriterOk t s.buf)
    (h : Spoken conn.requestId (Voice t s.buf) s.world) : BrokenOff conn.requestId s'.world := by
  have hasked : Spoken conn.requestId (Voice t s.asked.buf) s.asked.world := h.utters fun {φ} hv =>
    ⟨φ, .refl, hv.open_, hv.ended, hv.due⟩
  cases ha with
  | overflow ha => exact ha.brokenOff hid hok.asked hasked
  | input => exact h.brokenOff
  | ended => exact h.brokenOff
  | invariant he hi =>
      refine Spoken.brokenOff (P := fun _ => True) (hasked.utters fun hv => ?_)
      obtain ⟨ψ, hsay, -⟩ := he.written.speaks hid hok.asked hv
      exact ⟨ψ, hsay, trivial⟩

end writer

/-! ### The reader -/

section reader

variable {conn : ConnectionInfo} {c c' : Config} {φ : Phase}

/-- What the reader sends is an answer, or rejects the request. -/
theorem Reply.act {t : StreamType} {h : Header} {r : Record} (hr : Reply conn t h r) (id : Nat) :
    r.act id = some .answer ∨ r.act id = some .reject := by
  cases hr with
  | endRequest => exact act_refusal _
  | unknownType => exact .inl (act_management rfl (.inl rfl))
  | getValuesResult _ _ ht hid => exact .inl (act_management hid (.inr ht))

/-- A rejection is an end of the request. -/
theorem Record.Rejects.endsRequest {id : Nat} {r : Record} (h : r.Rejects id) :
    r.EndsRequest id := ⟨h.1, h.2.1⟩

/-- A reply rejects the request only where a record of it has been met that was not expected. -/
theorem Reply.plain {h : List UInt8} {b : ServerStreambuf} {w w' : World} {r : Record}
    (hid : conn.requestId ≠ 0) (hr : Reply conn b.type_ (Header.ofBytes h) r)
    (hmet : ¬ (Header.ofBytes h).isManagementRecord → w.history.Met b.type_ (Header.ofBytes h))
    (hw : w'.history = w.history) : Plain conn.requestId w' [r] := by
  intro hown r' hr' hrejects
  obtain rfl := List.mem_singleton.mp hr'
  rw [hw] at hown
  exact (hr.quiet hid (own_type hid hmet hown)).1 hrejects.endsRequest

/-- The reader only answers. -/
theorem ReaderStep.utters (hid : conn.requestId ≠ 0) (hs : ReaderStep conn c c')
    (hφ : φ ≠ .ending) : Says conn.requestId c.state.world c'.state.world φ φ := by
  have hd := hs.dispatches
  cases hs with
  | recv _ hread _ => exact .silent (Io.read_sends hread).2 hd
  | recvNone _ hread _ => exact .silent (Io.read_sends hread).2 hd
  | @reply hb b w r hr hmet =>
      refine ⟨hd, [r], ?_, lenient_answer (hr.act _) hφ, hr.plain hid hmet rfl⟩
      rw [Frame.join_cons, Frame.join_nil, List.append_nil]
      rfl
  | _ => exact .silent rfl hd

/-- What the reader sends does not change the phase. -/
theorem Reached.utters {s₀ s : State} {m : Mode} (hid : conn.requestId ≠ 0)
    (hr : Reached conn ⟨.idle, s₀⟩ m s) (hφ : φ ≠ .ending) :
    Says conn.requestId s₀.world s.world φ φ :=
  hr.invariant (I := fun c => Says conn.requestId s₀.world c.state.world φ φ)
    (fun hs h => h.trans (hs.utters hid hφ)) .refl

/-- Where the process stops in the reader, the conversation is broken off. -/
theorem ReaderFault.brokenOff {s₀ s : State} {x : Fault Exception} (hid : conn.requestId ≠ 0)
    (hx : ReaderFault conn ⟨.idle, s₀⟩ x s) (h : Spoken conn.requestId (· ≠ .ending) s₀.world) :
    BrokenOff conn.requestId s.world := by
  have hspoken : ∀ {m : Mode} {s : State}, Reached conn ⟨.idle, s₀⟩ m s →
      Spoken conn.requestId (· ≠ .ending) s.world := fun hr =>
    h.utters fun hφ => ⟨_, hr.utters hid hφ, hφ⟩
  cases x with
  | exc e => exact (hspoken (m := .idle) hx).brokenOff
  | undef => exact hx.elim
  | spent =>
      obtain ⟨m, hr⟩ := hx
      exact (hspoken hr).brokenOff
  | abort =>
      cases hx with
      | overlong hr _ => exact (hspoken hr).brokenOff
      | answer hr _ _ => exact (hspoken hr).brokenOff
      | @shortWrite h b w r n hr hs hreply hmet hn =>
          have hsent : w.io.written ++ r.bytes.take n =
              w.io.written ++ (Frame.join [r]).take n := by
            rw [Frame.join_cons, Frame.join_nil, List.append_nil]
          exact (hspoken hr).cut (fun _ hd => hd) hsent
            (fun hφ => ⟨_, lenient_answer (hreply.act _) hφ⟩) (hreply.plain hid hmet rfl)

end reader

/-! ### The connection -/

/-- The phase agrees with both output streams. -/
structure Agrees (c : Connection) (φ : Phase) : Prop where
  out : Voice .out c.out_.streambuf_ φ
  err : Voice .err c.err_.streambuf_ φ

/-- The connection has said what is on the wire. -/
structure Speaking (id : Nat) (c : Connection) : Prop where
  sound : Sound id c
  spoken : Spoken id (Agrees c) c.world

section

variable {id : Nat} {c c' : Connection} {φ ψ : Phase}

/-- The phase moves with the buffer of `out()`. -/
theorem Agrees.setOut (h : Agrees c φ) (hs : Sound id c) {s : State}
    (hv : Voice .out s.buf ψ) (hm : Moves c.out_.streambuf_ .out φ ψ) : Agrees (c.setOut s) ψ where
  out := hv
  err := by
    cases hm with
    | stay => exact h.err
    | out hasked =>
        refine ⟨fun he => ?_, fun ht => (by cases ht), fun e => (by cases e)⟩
        cases (hs.order hasked).symm.trans he

/-- The phase moves with the buffer of `err()`. -/
theorem Agrees.setErr (h : Agrees c φ) {s : State}
    (hv : Voice .err s.buf ψ) (hm : Moves c.err_.streambuf_ .err φ ψ) : Agrees (c.setErr s) ψ where
  err := hv
  out := by
    cases hm with
    | stay => exact h.out
    | err =>
        refine ⟨fun _ => ⟨true, rfl, fun ht => (by cases ht)⟩, fun _ he => ?_,
          fun e => (by cases e)⟩
        cases h.out.ended rfl he

/-- **One change of a connection is permitted.** -/
theorem ConnectionStep.speaks (h0 : id ≠ 0) (hid : id < 65536) (hs : ConnectionStep c c')
    (hc : Sound id c)
    (h : Agrees c φ) : ∃ ψ, Says id c.world c'.world φ ψ ∧ Agrees c' ψ := by
  have hinfo : c.info.requestId = id := hc.requestId
  have same : ∀ {c' : Connection}, c'.world = c.world →
      c'.out_.streambuf_.isEndOfStream_ = c.out_.streambuf_.isEndOfStream_ →
      c'.err_.streambuf_.isEndOfStream_ = c.err_.streambuf_.isEndOfStream_ →
      ∃ ψ, Says id c.world c'.world φ ψ ∧ Agrees c' ψ := fun hw ho he =>
    ⟨φ, hw ▸ .refl, ⟨by rw [ho]; exact h.out.open_, by rw [ho]; exact h.out.ended,
      h.out.due⟩, ⟨by rw [he]; exact h.err.open_, fun ht => (by cases ht), h.err.due⟩⟩
  cases hs with
  | read ho hr =>
      subst hinfo
      exact ⟨φ, hr.utters h0 h.out.due, h.out, h.err⟩
  | out hr =>
      subst hinfo
      obtain ⟨ψ, hsay, hv, hm⟩ := hr.speaks hid hc.out h.out
      exact ⟨ψ, hsay, h.setOut hc hv hm⟩
  | outError he =>
      subst hinfo
      obtain ⟨hsay, hv⟩ := he.voice h.out
      exact ⟨φ, hsay, hv, h.err⟩
  | err hr =>
      subst hinfo
      obtain ⟨ψ, hsay, hv, hm⟩ := hr.speaks hid hc.err h.err
      exact ⟨ψ, hsay, h.setErr hv hm⟩
  | errError he =>
      subst hinfo
      obtain ⟨hsay, hv⟩ := he.voice h.err
      exact ⟨φ, hsay, h.out, hv⟩
  | _ => exact same rfl rfl rfl

/-- The changes that a call makes are conversation. -/
theorem ConnectionSteps.speaking (h0 : id ≠ 0) (hid : id < 65536) (hs : ConnectionSteps c c')
    (h : Speaking id c) : Speaking id c' := by
  refine ⟨hs.sound h0 hid h.sound, ?_⟩
  have htracks : (lenient id).Tracks (.open false) (fun c φ => Sound id c ∧ Agrees c φ)
      (fun c rs => c.world.io.written = Frame.join rs ∧ Plain id c.world rs) c' := by
    refine Monitor.Tracks.steps hs (fun hs hw hR => ?_) ?_
    · obtain ⟨ψ, ⟨hd, rs, hw', hrun, hp⟩, hψ⟩ := hs.speaks h0 hid hR.1 hR.2
      exact ⟨rs, ψ, ⟨by rw [hw', hw.1, Frame.join_append], hw.2.append hp hd⟩, hrun,
        hs.sound h0 hid hR.1, hψ⟩
    · obtain ⟨rs, φ, hw, hrun, hφ⟩ := h.spoken
      exact ⟨rs, φ, hw, hrun, h.sound, hφ⟩
  obtain ⟨rs, φ, hw, hrun, -, hφ⟩ := htracks
  exact ⟨rs, φ, hw, hrun, hφ⟩

/-- Where the process stops in a call, the conversation is broken off. -/
theorem CallAborted.brokenOff {op : Op} (h0 : id ≠ 0) (hid : id < 65536)
    (ha : CallAborted op c c') (h : Speaking id c) : BrokenOff id c'.world := by
  have hinfo : c.info.requestId = id := h.sound.requestId
  have outSpoken : ∀ {c : Connection}, Speaking id c →
      Spoken id (Voice .out c.out_.streambuf_) c.world := fun h => h.spoken.utters fun hφ =>
    ⟨_, .refl, hφ.out⟩
  have errSpoken : Spoken id (Voice .err c.err_.streambuf_) c.world := h.spoken.utters fun hφ =>
    ⟨_, .refl, hφ.err⟩
  cases ha with
  | reader ha =>
      subst hinfo
      exact ReaderFault.brokenOff (x := .abort) h0 ha (h.spoken.utters fun hφ =>
        ⟨_, .refl, hφ.out.due⟩)
  | readerClosed => exact h.spoken.brokenOff
  | out ha =>
      subst hinfo
      exact ha.brokenOff hid h.sound.out (outSpoken h)
  | err ha =>
      subst hinfo
      exact ha.brokenOff hid h.sound.err errSpoken
  | closeErr _ ha =>
      subst hinfo
      exact ha.brokenOff hid h.sound.err errSpoken
  | @closeOut _ c₁ _ hs _ _ _ _ ha =>
      have h₁ := hs.speaking h0 hid h
      have hinfo₁ : c₁.info.requestId = id := h₁.sound.requestId
      subst hinfo₁
      exact ha.brokenOff hid h₁.sound.out (outSpoken h₁)
  | closeIn hs => exact (hs.speaking h0 hid h).spoken.brokenOff

/-- What is known where a call faults. -/
theorem CallFault.brokenOff {op : Op} {x : Fault Exception} (h0 : id ≠ 0) (hid : id < 65536)
    (hx : CallFault op c x c') (h : Speaking id c) : BrokenOff id c'.world := by
  cases x with
  | exc e => exact (ConnectionSteps.speaking h0 hid hx h).spoken.brokenOff
  | abort => exact CallAborted.brokenOff h0 hid hx h
  | undef => exact hx.elim
  | spent =>
      obtain ⟨m, s, -, hr, rfl⟩ := hx
      have hinfo : c.info.requestId = id := h.sound.requestId
      subst hinfo
      exact ReaderFault.brokenOff (x := .spent) h0 ⟨m, hr⟩ (h.spoken.utters fun hφ =>
        ⟨_, .refl, hφ.out.due⟩)

/-- **Every run speaks**, whatever the transport does. -/
theorem run_speaks (fuel : Nat) (h0 : id ≠ 0) (hid : id < 65536) (ops : List Op) :
    Triple (Speaking id) (run fuel ops) (fun _ c => Speaking id c)
      (fun _ c => BrokenOff id c.world) := by
  intro c h
  refine (run_steps fuel ops (h.sound.members hid)).conseq (fun _ hc => hc)
    (fun _ _ hs => hs.speaking h0 hid h) (fun x c' hx => ?_) c rfl
  obtain ⟨c₁, op, hs, -, hx⟩ := hx
  exact hx.brokenOff h0 hid (hs.speaking h0 hid h)

/-- The connection `accept()` returns, if nothing had been sent before. -/
theorem Accepted.speaking {size : Nat} {s₀ s₁ : State} (h : Accepted size s₀ s₁ c)
    (h₀ : s₀.world.io.written = []) : Speaking c.requestId_ c where
  sound := h.sound h₀
  spoken := by
    have hstart : Spoken c.requestId_ (· = .open false) s₀.world :=
      ⟨[], .open false, ⟨h₀, .nil⟩, rfl, rfl⟩
    rw [h.world]
    refine hstart.utters fun {φ} hφ => ?_
    subst hφ
    refine ⟨.open false, h.read.atEnd.returned.reached.utters h.id_pos
      (fun e => by cases e), ?_, ?_⟩
    · refine ⟨fun _ => ⟨false, rfl, fun _ => rfl⟩, fun _ he => ?_, fun e => by cases e⟩
      cases h.out.writer.open_.symm.trans he
    · exact ⟨fun _ => ⟨false, rfl, fun _ => rfl⟩, fun ht => (by cases ht), fun e => by cases e⟩

end

end Fcgi

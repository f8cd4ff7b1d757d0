import Fcgi.Input.Ownership
import Fcgi.Connection.Runs

/-!
# Connection — only own content is handed out

**`own_content_delivered`**: whatever the client sends, and however it arrives, all that the input
buffer hands out in `accept()` and in the reads after it is content of the connection's request and
of the stream being read, in every session whose history is regular (`History.Regular`).

The bytes that arrive are fixed beforehand, and every delivery is located in them: the reader stands
behind some records of the client and in the midst of one (`Owned`, of `Input/Ownership.lean`),
which each of its steps keeps as long as the history is regular.  `accept()` itself hands out
nothing of the first sixteen bytes (`Taken`), so the reader begins behind them.
-/

namespace Fcgi
open Lib

theorem History.OwnOnly.of_nil {conn : ConnectionInfo} {T : List UInt8} {history : History}
    (hd : history.deliveries = []) (hu : history.ungets = []) : history.OwnOnly conn T :=
  ⟨fun _ h => absurd (hd ▸ h) List.not_mem_nil, fun _ h => absurd (hu ▸ h) List.not_mem_nil⟩

/-- In a regular history, all that has been handed out is the request's own. -/
def Faithful (conn : ConnectionInfo) (T : List UInt8) (history : History) : Prop :=
  history.Regular conn → history.OwnOnly conn T

/-- The reader is in order, and hands out own content as long as the history is regular. -/
structure Attributed (conn : ConnectionInfo) (T : List UInt8) (c : Config) : Prop where
  openReader : OpenReader conn.role c.state.buf
  owned : c.state.world.history.Regular conn → Owned conn T c

section

variable {conn : ConnectionInfo} {T : List UInt8} {c : Config} {s : State}

/-- What has been handed out is own content. -/
theorem Attributed.faithful (h : Attributed conn T c) :
    Faithful conn T c.state.world.history := fun hr => (h.owned hr).own

/-- **Own content only**, at every configuration the reader can reach. -/
theorem Reached.attributed {m : Mode} (hid : conn.requestId ≠ 0) (h : Attributed conn T c)
    (hr : Reached conn c m s) : Attributed conn T ⟨m, s⟩ := by
  refine hr.invariant (I := Attributed conn T) (fun hs ih => ?_) h
  exact ⟨hs.openReader ih.openReader, fun hreg =>
    hs.owned hid ih.openReader hreg (ih.owned (hs.regular hreg))⟩

theorem ReaderFault.faithful {x : Fault Exception} (hid : conn.requestId ≠ 0)
    (h : Attributed conn T c) (hf : ReaderFault conn c x s) :
    Faithful conn T s.world.history := by
  cases x with
  | exc => exact (Reached.attributed hid h hf).faithful
  | abort =>
      cases hf with
      | overlong hr => exact (hr.attributed hid h).faithful
      | answer hr => exact (hr.attributed hid h).faithful
      | shortWrite hr => exact (hr.attributed hid h).faithful
  | undef => exact hf.elim
  | spent =>
      obtain ⟨m, hr⟩ := hf
      exact (hr.attributed hid h).faithful

/-- A reader that has not read anything. -/
theorem FreshReader.attributed {t : StreamType} {size : Nat}
    (h : FreshReader conn.role t size s.buf)
    (hfinal : s.world.io.Final) (hsends : .error ∉ s.world.io.sends)
    (hd : s.world.history.deliveries = []) (hu : s.world.history.ungets = []) :
    Attributed conn s.world.io.bytes ⟨.idle, s⟩ where
  openReader := h.openReader
  owned _ := {
    final := hfinal
    sends := hsends
    past := nofun
    own := .of_nil hd hu
    held := .of_nil hd
    place := by
      have hT : s.world.io.bytes = Frame.join ([] : List Record) ++
          ([] ++ Config.rest ⟨.idle, s⟩) :=
        (State.ahead_end (Nat.le_trans (Nat.le_of_eq h.end_) (Nat.zero_le _))).symm
      exact .inr (.inr ⟨h.discard, .header h.content h.padding hT, nofun, nofun,
        fun he => absurd (h.open_.symm.trans he) nofun, nofun⟩) }

/-- Resetting the reader at the end of the parameters. -/
theorem ParametersRead.attributed {s₀ : State} (hp : ParametersRead conn s₀ s)
    (h : Attributed conn T ⟨.idle, s⟩) :
    Attributed conn T ⟨.idle, ⟨inputBuffer conn.role s.buf, s.world⟩⟩ where
  openReader := hp.openReader
  owned hr := by
    have ow := h.owned hr
    rw [inputBuffer]
    split
    · rename_i hrole'
      refine ⟨ow.final, ow.sends, fun _ h => (by cases h), ow.own, ?_, ?_⟩
      · have hne : conn.role ≠ .authorizer := by
          rcases hrole' with e | e <;> rw [e] <;> decide
        exact ow.held.reset hp.ended (.inl ⟨hp.type, hne⟩)
      rcases ow.place with hnil | hl | ha
      · exact .inl hnil
      · cases hl
      · have hne : conn.role ≠ .authorizer := by
          rcases hrole' with e | e <;> rw [e] <;> decide
        obtain ⟨hu, hpad⟩ := ha.ended hp.ended (.inl ⟨hp.type, hne⟩)
        have hplace := ha.place
        rw [hu, hpad] at hplace
        obtain ⟨rs, hT⟩ := hplace.at_header
        refine .inr (.inr ⟨rfl, .header rfl rfl hT, ?_, ?_, ?_, ?_⟩)
        · rintro _ (h | h) <;> cases h
        · intro _ h
          cases h
        · intro h
          cases h
        · intro _ h
          cases h
    · exact ow

end

/-! ### In a session -/

/-- The connection the client asks for. -/
def requested (uninit : Uninit) (w : World) : ConnectionInfo where
  role := (BeginRequestBody.ofBytes (w.io.bytes.drop 8)).role
  requestId := (Header.ofBytes w.io.bytes).requestId
  stack := uninit.stack

/-- The world `w` in which `n` bytes have been read since `w₀`, and nothing else been done. -/
structure Taken (w₀ : World) (n : Nat) (w : World) : Prop where
  final : w.io.Final
  sends : w.io.sends = w₀.io.sends
  written : w.io.written = w₀.io.written
  history : w.history = w₀.history
  bytes : w.io.bytes = w₀.io.bytes.drop n
  length : n ≤ w₀.io.bytes.length

theorem Taken.refl {w : World} (h : w.io.Final) : Taken w 0 w :=
  ⟨h, rfl, rfl, rfl, rfl, Nat.zero_le _⟩

/-- A read takes the bytes it returns. -/
theorem onIo_read_steps {w₀ : World} {n len : Nat} (hlen : 0 < len) :
    Triple (Taken w₀ n) (World.onIo (Io.read len))
      (fun bs w => Taken w₀ (n + bs.length) w ∧ bs = (w₀.io.bytes.drop n).take bs.length)
      (fun _ w => w.history = w₀.history) := by
  intro w h
  rcases e : Io.read len w.io with ⟨x | bs, io⟩ <;> simp only [World.onIo, Prog.zoom, e]
  · exact h.history
  · obtain ⟨hfinal, hbytes, -⟩ := h.final.of_read hlen e
    have hs := Io.read_sends e
    have hsplit : w₀.io.bytes.drop n = bs ++ io.bytes := h.bytes.symm.trans (hbytes _ rfl)
    have hcut := congrArg List.length hsplit
    rw [List.length_drop, List.length_append] at hcut
    have hn := h.length
    refine ⟨⟨hfinal, hs.1.trans h.sends, hs.2.trans h.written, h.history, ?_, by omega⟩, ?_⟩
    · rw [← List.drop_drop, hsplit, List.drop_left]; rfl
    · rw [hsplit, List.take_left]

theorem readHeader_steps {w₀ : World} {n : Nat} :
    Triple (Taken w₀ n) readHeader
      (fun h w => Taken w₀ (n + 8) w ∧ h = Header.ofBytes (w₀.io.bytes.drop n) ∧
        h.protocolVersion = 1) (fun _ w => w.history = w₀.history) := by
  refine Triple.bind (onIo_read_steps (by decide)) fun bs => Triple.ite (fun _ =>
    Triple.throw fun _ h => h.1.history) fun hlen => ?_
  have hlen : bs.length = 8 := not_not.mp hlen
  refine Triple.bind (Q := fun _ w => Taken w₀ (n + 8) w ∧
    Header.ofBytes bs = Header.ofBytes (w₀.io.bytes.drop n) ∧
      (Header.ofBytes bs).protocolVersion = 1) ?_ fun _ => Triple.pure fun _ h => h
  refine Triple.ite (fun _ => Triple.throw fun _ h => h.1.history) fun hv => Triple.pure ?_
  rintro w ⟨h, hbs⟩
  rw [hlen] at h hbs
  exact ⟨h, by rw [hbs, Header.ofBytes_take], not_not.mp hv⟩

theorem readBeginRequestBody_steps {w₀ : World} {n : Nat} :
    Triple (Taken w₀ n) readBeginRequestBody
      (fun b w => Taken w₀ (n + 8) w ∧ b = BeginRequestBody.ofBytes (w₀.io.bytes.drop n))
      (fun _ w => w.history = w₀.history) := by
  refine Triple.bind (onIo_read_steps (by decide)) fun bs => Triple.ite (fun _ =>
    Triple.throw fun _ h => h.1.history) fun hlen => Triple.pure ?_
  have hlen : bs.length = 8 := not_not.mp hlen
  rintro w ⟨h, hbs⟩
  rw [hlen] at h hbs
  exact ⟨h, by rw [hbs, BeginRequestBody.ofBytes_take]⟩

section

variable {conn : ConnectionInfo} {T : List UInt8} {uninit : Uninit} {fuel : Nat}

/-- Before the parameters are read. -/
structure Unread (T : List UInt8) (w : World) : Prop where
  final : w.io.Final
  sends : .error ∉ w.io.sends
  deliveries : w.history.deliveries = []
  ungets : w.history.ungets = []
  bytes : w.io.bytes = T

/-- The constructor of the input stream hands out own content only. -/
theorem construct_istream_attributed (hid : conn.requestId ≠ 0) :
    Triple (Unread T) (ServerIstream.construct conn uninit fuel)
      (fun p w => Attributed conn T ⟨.idle, p.2.streambuf_, w⟩)
      (fun _ w => Faithful conn T w.history) := by
  intro w hw
  obtain ⟨b, hb, hsettled⟩ := construct_istream_settled conn uninit w
  have h₀ : Attributed conn T ⟨.idle, b, w⟩ :=
    hw.bytes ▸ FreshReader.attributed (s := ⟨b, w⟩) hb hw.final hw.sends hw.deliveries hw.ungets
  have hsteps := readParameters_steps ⟨b, w⟩ hb fuel _ rfl
  rw [hsettled]
  rcases e : readParameters conn fuel ⟨b, w⟩ with ⟨x | ⟨nv, is⟩, s⟩ <;> rw [e] at hsteps
  · have hf := hsteps.faithful hid h₀
    cases x with
    | exc e' =>
        dsimp only [settled]
        by_cases hu : s.buf.unreadContentLength_ ≤ s.buf.bufferSize_
        · rw [if_pos hu]
          exact hf
        · rw [if_neg hu]
          exact hf
    | _ => exact hf
  · obtain ⟨s₁, hp, rfl⟩ := hsteps
    exact hp.attributed (hp.atEnd.returned.reached.attributed hid h₀)

theorem construct_attributed {role : Role} {id : Nat} {keep : Bool} (hid : id ≠ 0) :
    Triple (Unread T) (Connection.construct uninit fuel role id keep)
      (fun c w => w = c.world ∧ c.info = ⟨role, id, 0, uninit.stack⟩ ∧
        Attributed ⟨role, id, 0, uninit.stack⟩ T ⟨.idle, c.inState⟩)
      (fun _ w => Faithful ⟨role, id, 0, uninit.stack⟩ T w.history) := by
  refine Triple.bind (Q := fun (p : Parts) w => Attributed ⟨role, id, 0, uninit.stack⟩ T
    ⟨.idle, p.in_.streambuf_, w⟩) ?_ fun p => Triple.get fun w h _ e => by
      subst e; exact ⟨rfl, rfl, h⟩
  refine Triple.bind (construct_istream_attributed hid) fun p => ?_
  rcases p with ⟨nv, is⟩
  refine Triple.bind (construct_writer_steps _ _ (by decide) (by decide) (.inl rfl)) fun _ => ?_
  refine Triple.bind (construct_writer_steps _ _ (by decide) (by decide) (.inr rfl)) fun _ => ?_
  exact Triple.pure fun _ h => h

theorem acceptEndRequest_history {α : Type} (header : Header) (ps : ProtocolStatus)
    (e : Exception) {history : History} {Q : α → World → Prop} :
    Triple (fun w => w.history = history) (acceptEndRequest header ps e) Q
      (fun _ w => w.history = history) := by
  intro w hw
  rw [acceptEndRequest, Prog.bind_ok (Record.endRequestRecord_run _), refuse, Prog.bind_run,
    World.onIo, Prog.zoom]
  rcases Io.writeAll _ w.io with ⟨_ | _, io⟩ <;> exact hw

/-- The begin-request record has been read, and nothing else. -/
theorem readBeginRequest_taken {w₀ : World} : Triple (Taken w₀ 0) readBeginRequest
    (fun p w => Taken w₀ 16 w ∧ p = (Header.ofBytes w₀.io.bytes,
      BeginRequestBody.ofBytes (w₀.io.bytes.drop 8)) ∧ p.1.requestId ≠ 0)
    (fun _ w => w.history = w₀.history) := by
  refine Triple.bind readHeader_steps fun h => Triple.ite (fun hok => ?_) fun _ =>
    (acceptEndRequest_history _ _ _).pre fun _ ht => ht.1.history
  refine Triple.bind (Q := fun b w => Taken w₀ 16 w ∧ b = BeginRequestBody.ofBytes
    (w₀.io.bytes.drop 8) ∧ h = Header.ofBytes w₀.io.bytes) ?_ fun b => ?_
  · rintro w ⟨ht, hh, -⟩
    have hbody := readBeginRequestBody_steps w ht
    rcases e : readBeginRequestBody w with ⟨x | b, w'⟩ <;> simp only [e] at hbody
    · exact hbody
    · exact ⟨hbody.1, hbody.2, hh⟩
  refine Triple.ite (fun hrole => Triple.pure ?_) fun _ =>
    (acceptEndRequest_history _ _ _).pre fun _ ht => ht.1.history
  rintro w ⟨ht, rfl, rfl⟩
  exact ⟨ht, rfl, fun h0 => hok.2.1 (beq_iff_eq.mpr h0)⟩

/-- **In `accept()`, own content only**. -/
theorem accept_attributed (uninit : Uninit) (fuel : Nat) {w₀ : World}
    (hsends : .error ∉ w₀.io.sends) (hd : w₀.history.deliveries = [])
    (hu : w₀.history.ungets = []) :
    Triple (Taken w₀ 0) (accept uninit fuel)
      (fun c w => w = c.world ∧ c.info = requested uninit w₀ ∧ c.requestId_ ≠ 0 ∧
        Attributed (requested uninit w₀) (w₀.io.bytes.drop 16) ⟨.idle, c.inState⟩)
      (fun _ w => Faithful (requested uninit w₀) (w₀.io.bytes.drop 16) w.history) := by
  have hnone : ∀ {w : World}, w.history = w₀.history →
      Faithful (requested uninit w₀) (w₀.io.bytes.drop 16) w.history := fun e _ =>
    .of_nil (e ▸ hd) (e ▸ hu)
  refine Triple.bind (readBeginRequest_taken.conseq (fun _ => id) (fun _ _ => id)
    fun _ _ => hnone) fun p => ?_
  rintro w ⟨ht, rfl, hid⟩
  exact (construct_attributed hid).post (fun c w h => ⟨h.1, h.2.1, by
    rw [show c.requestId_ = _ from congrArg ConnectionInfo.requestId h.2.1]; exact hid, h.2.2⟩) w
      ⟨ht.final, ht.sends ▸ hsends, by rw [ht.history, hd], by rw [ht.history, hu], ht.bytes⟩

/-- **Only own content is handed out**, in every session of which the history is regular, over
every transport on which no write fails. -/
theorem own_content_delivered (uninit : Uninit) (fuel : Nat) (ins : List InOp) {w : World}
    (hfinal : w.io.Final) (hsends : .error ∉ w.io.sends) (hd : w.history.deliveries = [])
    (hu : w.history.ungets = [])
    (hr : (session uninit fuel (ins.map .«in») w).2.history.Regular (requested uninit w)) :
    (session uninit fuel (ins.map .«in») w).2.history.OwnOnly (requested uninit w)
      (w.io.bytes.drop 16) := by
  have haccept := accept_attributed uninit fuel hsends hd hu w (.refl hfinal)
  rcases e : accept uninit fuel w with ⟨x | c, w'⟩ <;> simp only [e] at haccept
  · rw [session_error e] at hr ⊢
    exact haccept hr
  · obtain ⟨rfl, hinfo, hid, ha⟩ := haccept
    rw [session_ok e] at hr ⊢
    rw [← hinfo] at ha hr ⊢
    have hin := run_in fuel ins c
      ⟨⟨.refl, ha.openReader⟩, rfl, rfl, rfl⟩
    rcases e : run fuel (ins.map .«in») c with ⟨x | _, c'⟩ <;> simp only [e] at hin <;> rw [e] at hr
    · exact hin.faithful hid ha hr
    · exact (hin.reached.attributed hid ha).faithful hr

/-- Two characters of stdin with padding, the first of them put back and read again. -/
theorem own_content_delivered_again : (session {} 9 ([.get, .unget, .read 2].map .«in»)
      (responderRequest [1, 5, 0, 1, 0, 2, 3, 0, 104, 105, 0, 0, 0])).2.history.OwnOnly
    (requested {} (responderRequest [1, 5, 0, 1, 0, 2, 3, 0, 104, 105, 0, 0, 0]))
    ((responderRequest [1, 5, 0, 1, 0, 2, 3, 0, 104, 105, 0, 0, 0]).io.bytes.drop 16) :=
  own_content_delivered {} 9 [.get, .unget, .read 2] (by decide) (by decide) rfl rfl
    (by decide +kernel)

/-- The content of a management record of the type 12 is handed out as content of stdin. -/
theorem management_content_delivered : ¬ (session {} 9 [.«in» .get]
      (responderRequest [1, 12, 0, 0, 0, 1, 0, 0, 120])).2.history.OwnOnly
    (requested {} (responderRequest [1, 12, 0, 0, 0, 1, 0, 0, 120]))
    ((responderRequest [1, 12, 0, 0, 0, 1, 0, 0, 120]).io.bytes.drop 16) := by
  intro hall
  have key : ∃ v ∈ (session {} 9 [.«in» .get]
      (responderRequest [1, 12, 0, 0, 0, 1, 0, 0, 120])).2.history.deliveries,
      v.buf.type_ = .«in» ∧ v.buf.egptr - v.buf.gptr = 1 := by decide +kernel
  obtain ⟨v, hv, ht, hone⟩ := key
  obtain ⟨rs, h, pre, area, harea, hT, -, hown, -⟩ := hall.deliveries v hv
  rw [ht] at hown
  rw [hone] at harea
  change [1, 4, 0, 1, 0, 0, 0, 0, 1, 12, 0, 0, 0, 1, 0, 0, 120] = _ at hT
  have harea : area.length = 1 := by rw [harea, Mem.length_load]
  -- At most one record lies before the one whose content this would be.
  have hlen := congrArg List.length hT
  simp only [List.length_append, List.length_cons, List.length_nil, harea,
    Header.length_bytes] at hlen
  rcases rs with _ | ⟨r, _ | ⟨r', rs⟩⟩
  · have := congrArg Header.ofBytes hT
    rw [Frame.join_nil, List.nil_append, Header.ofBytes_bytes_append] at this
    rw [← this] at hown
    exact absurd hown (by decide)
  · have hr := r.length_bytes
    simp only [Frame.join_cons, Frame.join_nil, List.append_nil] at hlen hT
    have h8 : r.bytes.length = 8 := by
      have : 8 ≤ r.bytes.length := by rw [hr]; exact Nat.le_add_right _ _
      omega
    have := congrArg Header.ofBytes (congrArg (List.drop 8) hT)
    rw [← h8, List.drop_left, Header.ofBytes_bytes_append, h8] at this
    rw [← this] at hown
    exact absurd hown (by decide)
  · have hr := r.length_bytes
    have hr' := r'.length_bytes
    have : fcgi.headerLength = 8 := rfl
    simp only [Frame.join_cons, List.length_append] at hlen
    omega

end

end Fcgi

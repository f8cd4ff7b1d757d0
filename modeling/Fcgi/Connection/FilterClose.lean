import Fcgi.Input.Terminator
import Fcgi.Connection.Twin
import Fcgi.Connection.RefusedClose

/-!
# Connection — when a filter may close its output

A filter is to read all of stdin before it closes an output stream.  `close()` asks the type of
the input stream, which says whether stdin has been read to its end (`Reachable.abreast`), and a
counter, which is zero too before the first header of stdin, between two records and while the
content lies in the get area.

**`closes_after_stdin_iff`**: so the answer is right where the reader is at the data stream, or
the counter is not zero.

The end of stdin is a header without content of the reader's own stream, which the history records,
and the stream type changes at that header and nowhere else: `FilterAbreast` is kept by every call.
The calls on the output streams do not use the input (`SameInput`).
-/

namespace Fcgi
open Lib

/-! ### Stdin in the connections that an application can reach -/

/-- A filter whose reader is at the data stream if and only if stdin has been read. -/
structure Connection.FilterAbreast (c : Connection) : Prop where
  role : c.role_ = .filter
  id : c.requestId_ ≠ 0
  abreast : Abreast c.requestId_ c.inState

/-- From `c` to `c'`, the input stream has not been used. -/
structure SameInput (c c' : Connection) : Prop where
  in_ : c'.in_.streambuf_ = c.in_.streambuf_
  role : c'.role_ = c.role_
  id : c'.requestId_ = c.requestId_
  history : c'.world.history = c.world.history

section

variable {c c' c₀ : Connection} 

theorem SameInput.refl (c : Connection) : SameInput c c := ⟨rfl, rfl, rfl, rfl⟩

theorem SameInput.abreast (h : SameInput c c') (hc : c.FilterAbreast) : c'.FilterAbreast where
  role := h.role.trans hc.role
  id := h.id ▸ hc.id
  abreast := by
    rw [Abreast, Connection.inState, h.in_, h.id, h.history]
    exact hc.abreast

/-- A call on `out()` does not use the input. -/
theorem onOut_sameInput {α : Type} {m : ConnectionInfo → M α}
    (hm : ∀ conn g, Keeps (fun s => s.world.history = g) (m conn)) :
    Keeps (SameInput c₀) (Connection.onOut m) := by
  intro c hc
  have hs := hm c.info _ c.outState rfl
  rcases e : m c.info c.outState with ⟨x | a, s⟩ <;> rw [Connection.onOut_run e] <;>
    simp only [e] at hs <;> exact ⟨hc.in_, hc.role, hc.id, hs.trans hc.history⟩

theorem onErr_sameInput {α : Type} {m : ConnectionInfo → M α}
    (hm : ∀ conn g, Keeps (fun s => s.world.history = g) (m conn)) :
    Keeps (SameInput c₀) (Connection.onErr m) := by
  intro c hc
  have hs := hm c.info _ c.errState rfl
  rcases e : m c.info c.errState with ⟨x | a, s⟩ <;> rw [Connection.onErr_run e] <;>
    simp only [e] at hs <;> exact ⟨hc.in_, hc.role, hc.id, hs.trans hc.history⟩

/-- What a call on `in()` keeps, the connection keeps. -/
theorem onIn_abreast {α : Type} {P : State → Prop} {m : ConnectionInfo → M α}
    (hm : ∀ conn, conn.requestId ≠ 0 → conn.role = .filter → Triple
      (fun s => Abreast conn.requestId s ∧ P s) (m conn) (fun _ => Abreast conn.requestId)
      (Unaborted (Abreast conn.requestId))) :
    Triple (fun c => c.FilterAbreast ∧ P c.inState) (Connection.onIn m)
      (fun _ => Connection.FilterAbreast) (Unaborted Connection.FilterAbreast) := by
  rintro c ⟨hc, hp⟩
  have hs := hm c.info hc.id hc.role c.inState ⟨hc.abreast, hp⟩
  rcases e : m c.info c.inState with ⟨x | a, s⟩ <;> rw [Connection.onIn_run e] <;>
    simp only [e] at hs
  · exact fun hx => ⟨hc.role, hc.id, hs hx⟩
  · exact ⟨hc.role, hc.id, hs⟩

/-- `close()` of an input stream. -/
theorem close_abreast (conn : ConnectionInfo) (inbuf : ServerStreambuf) (req : Nat) :
    Triple (fun s => Abreast req s ∧ s.buf.isReader = true) (close conn inbuf)
      (fun _ => Abreast req) (Unaborted (Abreast req)) := by
  have shut : Keeps (Abreast req) (closeAreas conn) :=
    .bind (modifyBuf_lasting abreast_lasting fun _ => rfl) fun _ =>
      .get fun _ => .bind (.assert _) fun _ => assertInvariantOk_stable
  refine Triple.get fun s hs => Triple.pre (P := Abreast req) ?_ fun t ht => ht ▸ hs.1
  refine Triple.ite (fun _ => Triple.pure fun _ ht => ht) fun _ => ?_
  exact Triple.ite (fun hr => absurd hs.2 hr) fun _ => shut.or .unaborted

/-- What a call leaves of the agreement between the reader and the history. -/
theorem Op.exec_abreast (fuel : Nat) (op : Op) (h : c₀.FilterAbreast)
    (hr : c₀.in_.streambuf_.isReader = true) :
    Triple (fun c => c = c₀) (op.exec fuel) (fun _ => Connection.FilterAbreast)
      (Unaborted Connection.FilterAbreast) := by
  -- A call on an output stream leaves the input buffer and the history alone.
  have same : ∀ {α : Type} {m : Connection.M α}, Keeps (SameInput c₀) m →
      Triple (fun c => c = c₀) m (fun _ => Connection.FilterAbreast)
        (Unaborted Connection.FilterAbreast) := fun hm =>
    hm.conseq (fun _ hc => hc ▸ .refl c₀) (fun _ _ hc => hc.abreast h)
      fun _ _ hc _ => hc.abreast h
  cases op with
  | «in» op =>
      refine Triple.get fun c hc => Triple.bind (Triple.pre (onIn_abreast (P := fun _ => True)
        fun conn hid hrole => Triple.pre (P := Abreast conn.requestId) ?_ fun _ hs => hs.1)
        fun _ ht => ht ▸ hc ▸ ⟨h, trivial⟩) fun _ => Triple.modify fun c hc =>
          ⟨hc.role, hc.id, hc.abreast⟩
      exact InOp.exec_keepsOr abreast_lasting .unaborted (fun _ _ _ h => h)
        (underflow_abreast hid hrole fuel) _ op
  | out op =>
      exact same (.get fun _ => .bind (onOut_sameInput fun conn => OutOp.exec_history _ op)
        fun _ => .modify fun _ hc => ⟨hc.in_, hc.role, hc.id, hc.history⟩)
  | err op =>
      exact same (.get fun _ => .bind (onErr_sameInput fun conn => OutOp.exec_history _ op)
        fun _ => .modify fun _ hc => ⟨hc.in_, hc.role, hc.id, hc.history⟩)
  | setApplicationStatus status =>
      exact same (.modify fun _ hc => ⟨hc.in_, hc.role, hc.id, hc.history⟩)
  | close =>
      have hout : ∀ inbuf, Keeps (SameInput c₀)
          (Connection.onOut fun conn => Fcgi.close conn inbuf) := fun _ =>
        onOut_sameInput fun _ => close_history _
      have herr : ∀ inbuf, Keeps (SameInput c₀)
          (Connection.onErr fun conn => Fcgi.close conn inbuf) := fun _ =>
        onErr_sameInput fun _ => close_history _
      refine Triple.get fun c hc => Triple.bind (Q := fun _ => SameInput c₀)
        ((herr _).conseq (fun _ ht => ht ▸ hc ▸ .refl c) (fun _ _ => id)
          fun _ _ hc _ => hc.abreast h) fun _ => Triple.bind (Q := fun _ => SameInput c₀)
        ((hout _).conseq (fun _ => id) (fun _ _ => id) fun _ _ hc _ => hc.abreast h) fun _ => ?_
      refine (onIn_abreast (P := fun s => s.buf.isReader = true) fun conn _ _ =>
        close_abreast conn _ _).pre fun c hc => ⟨hc.abreast h, ?_⟩
      rw [Connection.inState, hc.in_]
      exact hr

/-- While the parameters are read, no header is one of stdin. -/
theorem ReaderStep.params {conn : ConnectionInfo} {d d' : Config} (hs : ReaderStep conn d d')
    (h : d.state.buf.type_ = .params ∧
      ∀ e ∈ d.state.world.history.dispatches, e.buf.type_ = .params) :
    d'.state.buf.type_ = .params ∧
      ∀ e ∈ d'.state.world.history.dispatches, e.buf.type_ = .params := by
  obtain ⟨ht, hd⟩ := h
  cases hs with
  | deliver _ _ _ _ _ hb' => subst hb'; exact ⟨ht, hd⟩
  | invalid => exact ⟨ht, List.forall_mem_append.mpr ⟨hd, List.forall_mem_singleton.mpr ht⟩⟩
  | dispatch => exact ⟨ht, List.forall_mem_append.mpr ⟨hd, List.forall_mem_singleton.mpr ht⟩⟩
  | switch _ hin => cases ht.symm.trans hin
  | _ => exact ⟨ht, hd⟩

/-- `accept()` has not read anything of stdin. -/
theorem Accepted.abreast {size : Nat} {s₀ s₁ : State} (h : Accepted size s₀ s₁ c)
    (h₀ : s₀.world.history = {}) (hrole : c.role_ = .filter) : c.FilterAbreast where
  role := hrole
  id := h.id_pos
  abreast := by
    have hdispatches := (h.read.atEnd.returned.reached.invariant (fun hs hi => hs.params hi)
      ⟨h.fresh.type, fun e he => by rw [h₀] at he; cases he⟩).2
    have hin : c.inState.buf.type_ = .«in» := by
      rw [h.inState]
      simp only [inputBuffer, if_pos (.inr hrole : c.role_ = .responder ∨ c.role_ = .filter),
        ServerStreambuf.reset_type_]
    refine iff_of_false (fun ht => by cases hin.symm.trans ht) ?_
    rintro ⟨e, he, hend⟩
    rw [Connection.inState, h.world] at he
    cases (hdispatches e he).symm.trans hend.type

/-- **The reader of a filter is at the data stream if and only if stdin has been read.** -/
theorem Reachable.abreast (h : Reachable c) (hrole : c.role_ = .filter) : c.FilterAbreast := by
  induction h with
  | accept hw haccept =>
      obtain ⟨s₀, s₁, hacc, -, hs₀, -⟩ := accept_ok haccept
      exact hacc.abreast (by rw [hs₀]; exact hw) hrole
  | @call fuel op r c c' h hrun ih =>
      have hm := h.alive.members
      have hrole₀ := (Op.attempt_steps hm hrun).role.symm.trans hrole
      have hr : c.in_.streambuf_.isReader = true :=
        hm.in_.elim (fun ho => ho.reader) fun hc => hc.reader
      have hop := op.exec_abreast fuel (ih hrole₀) hr
      refine (Triple.attempt (E := fun _ _ => True) (R := fun _ => Connection.FilterAbreast)
        (hop.conseq (fun _ => id) (fun _ _ => id) fun x _ hx => ?_)).of_ok rfl hrun
      cases x with
      | exc e => exact hx nofun
      | _ => trivial

end

/-! ### Closing an output stream -/

namespace Connection

/-- The header that ends stdin has been processed. -/
def StdinRead (c : Connection) : Prop := c.world.history.StdinRead c.requestId_

/-- `close()` of the output stream in the state `s` throws if and only if the connection is a
filter that has not read stdin to its end, and otherwise goes on to the end records. -/
structure ClosesAfterStdin (c : Connection) (s : State) : Prop where
  throws : (∃ s', Fcgi.close c.info c.in_.streambuf_ s =
      (.error (.exc (.fcgi "not all FastCGI stdin has been read by Filter")), s')) ↔
    c.role_ = .filter ∧ ¬ c.StdinRead
  proceeds : ¬ (c.role_ = .filter ∧ ¬ c.StdinRead) →
    Fcgi.close c.info c.in_.streambuf_ s = closeOutput c.info s

end Connection

section

variable {c : Connection} {s : State}

/-- An open output stream of a connection can be closed: its input stream is open. -/
theorem Reachable.output (h : Reachable c) (hs : s = c.outState ∨ s = c.errState)
    (hopen : s.buf.isClosed = false) :
    s.buf.isReader = false ∧ InputOpen c.role_ c.in_.streambuf_ := by
  have ha := h.alive
  rcases hs with rfl | rfl
  · exact ⟨ha.members.out.isReader, ha.inputOpen (.inl hopen)⟩
  · exact ⟨ha.members.err.isReader, ha.inputOpen (.inr hopen)⟩

/-- The exception is thrown where the input does not permit to close the stream. -/
theorem Reachable.throws_iff (h : Reachable c) (hs : s = c.outState ∨ s = c.errState)
    (hopen : s.buf.isClosed = false) :
    (∃ s', close c.info c.in_.streambuf_ s = (.error (.exc refusal), s')) ↔
      ¬ MayClose c.role_ c.in_.streambuf_ := by
  obtain ⟨hr, hin⟩ := h.output hs hopen
  constructor
  · rintro ⟨s', hclose⟩
    exact ((close_refused c.info c.in_.streambuf_ s).of_error rfl hclose rfl).2.2.2
  · intro hmay
    exact ⟨s, (close_output hr hopen hin).trans (if_neg hmay)⟩

end

/-- **When `close()` of an output stream is right about stdin**: in a filter, where the reader is
at the data stream, or some of the content of a record has yet to reach the get area. -/
theorem closes_after_stdin_iff {c : Connection} (h : Reachable c) {s : State}
    (hs : s = c.outState ∨ s = c.errState) (hopen : s.buf.isClosed = false) :
    c.ClosesAfterStdin s ↔ (c.role_ = .filter →
      c.in_.streambuf_.type_ = .data ∨ 0 < c.in_.streambuf_.unreadContentLength_) := by
  obtain ⟨hr, hin⟩ := h.output hs hopen
  have hthrows := h.throws_iff hs hopen
  have hproceeds : MayClose c.role_ c.in_.streambuf_ →
      close c.info c.in_.streambuf_ s = closeOutput c.info s := fun hmay =>
    (close_output hr hopen hin).trans (if_pos hmay)
  by_cases hrole : c.role_ = .filter
  · have hread : c.in_.streambuf_.type_ = .data ↔ c.StdinRead := (h.abreast hrole).abreast
    constructor
    · intro hcloses _
      by_contra hnot
      rw [not_or, Nat.not_lt, Nat.le_zero] at hnot
      have hmay := hthrows.mp (hcloses.throws.mpr ⟨hrole, fun hr => hnot.1 (hread.mpr hr)⟩)
      exact hmay (.inr (.inr hnot.2))
    · intro hcond
      refine ⟨hthrows.trans ⟨fun hmay => ⟨hrole, fun hr => hmay (.inr (.inl (hread.mpr hr)))⟩,
        fun hnot hmay => ?_⟩, fun hnot => hproceeds (.inr (.inl ?_))⟩
      · have htype : c.in_.streambuf_.type_ ≠ .data := fun ht => hnot.2 (hread.mp ht)
        have hpos := (hcond hrole).resolve_left htype
        rcases hmay with hm | hm | hm
        · exact hm hrole
        · exact htype hm
        · exact absurd hm (Nat.ne_of_gt hpos)
      · exact hread.mpr (not_not.mp fun hr => hnot ⟨hrole, hr⟩)
  · refine iff_of_true ⟨hthrows.trans (iff_of_false (fun hmay => hmay (.inl hrole))
      fun hf => hrole hf.1), fun _ => hproceeds (.inl hrole)⟩ fun hf => absurd hf hrole

/-- A filter that has called `in().get()` once, in a connection in which the client has sent
`bytes` of stdin, and of which `p` is true. -/
theorem filter_get (bytes : List UInt8) (p : Connection → Bool)
    (hrun : Prog.returns (fun c₀ _ => Prog.returns (fun _ c => p c) (run 9 [.«in» .get] c₀))
      (accept {} 9 (filterRequest bytes)) = true) : ∃ c, Reachable c ∧ p c = true := by
  obtain ⟨c₀, w', haccept, hrun⟩ := Prog.of_returns hrun
  obtain ⟨_, c, hget, hc⟩ := Prog.of_returns hrun
  exact ⟨c, (Reachable.accept rfl haccept).run hget, hc⟩

/-- Three of the four bytes of a record of stdin have not arrived. -/
theorem closes_after_stdin_first : ∃ c, Reachable c ∧ c.role_ = .filter ∧
    c.ClosesAfterStdin c.outState ∧ c.ClosesAfterStdin c.errState := by
  obtain ⟨c, h, hc⟩ := filter_get [1, 5, 0, 1, 0, 4, 0, 0, 97]
    (fun c => decide (c.role_ = .filter ∧ c.outState.buf.isClosed = false ∧
      c.errState.buf.isClosed = false ∧ 0 < c.in_.streambuf_.unreadContentLength_))
    (by decide +kernel)
  obtain ⟨hrole, hout, herr, hpos⟩ := of_decide_eq_true hc
  exact ⟨c, h, hrole, (closes_after_stdin_iff h (.inl rfl) hout).mpr fun _ => .inr hpos,
    (closes_after_stdin_iff h (.inr rfl) herr).mpr fun _ => .inr hpos⟩

/-- All four bytes have arrived; three of them, and the header that ends stdin, have not been
read. -/
theorem closes_before_stdin : ¬ ∀ (c : Connection) (s : State), Reachable c →
    s = c.outState ∨ s = c.errState → s.buf.isClosed = false → c.ClosesAfterStdin s := by
  obtain ⟨c, h, hc⟩ := filter_get
    [1, 5, 0, 1, 0, 4, 0, 0, 97, 98, 99, 100, 1, 5, 0, 1, 0, 0, 0, 0]
    (fun c => decide (c.role_ = .filter ∧ c.errState.buf.isClosed = false ∧
      c.in_.streambuf_.type_ = .«in» ∧ c.in_.streambuf_.unreadContentLength_ = 0 ∧
      c.in_.streambuf_.egptr - c.in_.streambuf_.gptr = 3))
    (by decide +kernel)
  obtain ⟨hrole, hopen, htype, hcount, -⟩ := of_decide_eq_true hc
  intro hall
  have hunread : ¬ c.StdinRead := fun hr =>
    nomatch htype.symm.trans ((h.abreast hrole).abreast.mpr hr)
  have hthrows := (hall c _ h (.inr rfl) hopen).throws.mpr ⟨hrole, hunread⟩
  exact (h.throws_iff (.inr rfl) hopen).mp hthrows (.inr (.inr hcount))

end Fcgi

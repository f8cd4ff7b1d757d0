import Fcgi.Connection.Transcript

/-!
# Connection — the assertions of the reader

**`no_assertion_fails`**: while the client sends no record with more content than the input buffer
holds, and no get-values record that cannot be answered, no assertion fails in `accept()`, in the
reads after it and in `close()`.

* `Tame size history`: the client's records have done no such thing.

The reader is aborted in the states of `Aborted` (`Input/Steps.lean`) and no others.  The content
still to be read belongs to a record that was dispatched (`Bounded`, kept by every step), so that a
tame history bounds it by the size of the buffer; the answers that cannot be given are excluded
directly (`Aborted.not_tame`).  `close()` asserts that nothing is left to be read, which the end of
the stream gives (`close_reader`).
-/

namespace Fcgi
open Lib

/-- All valid headers processed announce no more content than the buffer holds, and all variables
asked for could be answered. -/
structure Tame (size : Nat) (history : History) : Prop where
  content : ∀ d ∈ history.dispatches, d.header.protocolVersion = 1 →
    d.header.contentLength ≤ size
  answers : ∀ a ∈ history.answers, ¬ a.Bad

instance (size : Nat) (history : History) : Decidable (Tame size history) :=
  decidable_of_iff ((∀ d ∈ history.dispatches, d.header.protocolVersion = 1 →
      d.header.contentLength ≤ size) ∧
    ∀ a ∈ history.answers, ¬ (a.buf.unreadContentLength_ = 0 ∧
      (replySize < 8 + (replyContent a.names).length ∨ a.buf.egptr < a.buf.gptr)))
    ⟨fun h => ⟨h.1, h.2⟩, fun h => ⟨h.1, h.2⟩⟩

/-- The content still to be read belongs to a record with a valid header that was dispatched. -/
structure Bounded (size : Nat) (s : State) : Prop where
  size : s.buf.bufferSize_ = size
  content : s.buf.unreadContentLength_ = 0 ∨ ∃ d ∈ s.world.history.dispatches,
    d.header.protocolVersion = 1 ∧ s.buf.unreadContentLength_ ≤ d.header.contentLength

/-- What is still to be read fits into the buffer, if all that has been announced does. -/
theorem Bounded.le {size : Nat} {s : State} (h : Bounded size s)
    (hc : ∀ d ∈ s.world.history.dispatches, d.header.protocolVersion = 1 →
      d.header.contentLength ≤ size) :
    s.buf.unreadContentLength_ ≤ s.buf.bufferSize_ := by
  rw [h.size]
  rcases h.content with e | ⟨d, hd, hv, hle⟩
  · omega
  · exact Nat.le_trans hle (hc d hd hv)

theorem Bounded.entered {size : Nat} {s : State} (h : Bounded size s) : Bounded size s.entered :=
  ⟨h.size, h.content⟩

theorem ReaderStep.bounded {conn : ConnectionInfo} {c c' : Config} {size : Nat}
    (hs : ReaderStep conn c c') (h : Bounded size c.state) : Bounded size c'.state := by
  cases hs with
  | deliver hh hu hd hcur hn hb' =>
      subst hb'
      exact ⟨h.size, h.content.elim (fun e => absurd e (by dsimp only; omega))
        fun ⟨d, hd, hv, hle⟩ => .inr ⟨d, hd, hv, Nat.le_trans (Nat.sub_le _ _) hle⟩⟩
  | discard hu hd hcur hn =>
      exact ⟨h.size, h.content.elim (fun e => absurd e (by dsimp only; omega))
        fun ⟨d, hd, hv, hle⟩ => .inr ⟨d, hd, hv, Nat.le_trans (Nat.sub_le _ _) hle⟩⟩
  | invalid hh hu hp => exact ⟨h.size, .inl hu⟩
  | dispatch hh hu hp hv =>
      exact ⟨h.size, .inr ⟨_, List.mem_append_right _ (List.mem_singleton_self _), hv,
        Nat.le_refl _⟩⟩
  | switch => exact ⟨h.size, .inl rfl⟩
  | _ => exact ⟨h.size, h.content⟩

theorem Reached.bounded {conn : ConnectionInfo} {c : Config} {m : Mode} {s : State}
    {size : Nat} (hr : Reached conn c m s) (h : Bounded size c.state) :
    Bounded size s :=
  hr.invariant (I := fun c => Bounded size c.state) (fun hs h => hs.bounded h) h

/-- **Nothing else aborts the reader.** -/
theorem Aborted.not_tame {conn : ConnectionInfo} {c : Config} {s : State} {size : Nat}
    (ha : Aborted conn c s) (h : Bounded size c.state) (hw : c.state.world.AllOrNothing) :
    ¬ Tame size s.world.history := by
  intro ht
  cases ha with
  | overlong hr hc => exact absurd ((hr.bounded h).le ht.content) (by omega)
  | answer hr ha hbad => exact ht.answers _ ha hbad
  | @shortWrite h b w r n hr hs _ _ hn =>
      have := hw n (hr.sends_subset hs)
      have := r.length_bytes_le
      omega

/-! ### `accept()` -/

/-- A fresh buffer has nothing to read. -/
theorem FreshReader.bounded {role : Role} {t : StreamType} {size : Nat} {s : State}
    (h : FreshReader role t size s.buf) : Bounded size s := ⟨h.size, .inl h.content⟩

/-- How reading the parameters may fail. -/
theorem construct_istream_fault {conn : ConnectionInfo} {uninit : Uninit} {fuel : Nat}
    {w w' : World} {x : Fault Exception} (hw : w.AllOrNothing)
    (h : ServerIstream.construct conn uninit fuel w = (.error x, w')) :
    match x with
    | .exc _ => True
    | .abort => ¬ Tame inBufferSize w'.history
    | .undef => False
    | .spent => ∃ b s, FreshReader conn.role .params inBufferSize b ∧
        readParameters conn fuel ⟨b, w⟩ = (.error .spent, s) ∧ s.world = w' := by
  obtain ⟨b₀, hfresh, hsettled⟩ := construct_istream_settled conn uninit w
  rw [hsettled] at h
  have hsteps := readParameters_steps ⟨b₀, w⟩ hfresh fuel _ rfl
  rcases e : readParameters conn fuel ⟨b₀, w⟩ with ⟨y | p, s⟩ <;> rw [e] at h hsteps
  · cases y with
    | exc e' =>
        -- The exception destroys the buffer, which is closed.
        have hb := hsteps.bounded (FreshReader.bounded (s := ⟨b₀, w⟩) hfresh)
        rw [settled] at h
        by_cases hu : s.buf.unreadContentLength_ ≤ s.buf.bufferSize_
        · rw [if_pos hu] at h
          cases h
          trivial
        · rw [if_neg hu] at h
          cases h
          exact fun ht => hu (hb.le ht.content)
    | abort =>
        cases h
        exact hsteps.not_tame hfresh.bounded hw
    | undef => exact hsteps.elim
    | spent =>
        cases h
        exact ⟨b₀, s, hfresh, e, rfl⟩
  · cases h

/-- An abort in `accept()`. -/
def AcceptFault (x : Fault Exception) (w : World) : Prop :=
  x = .abort → ¬ Tame inBufferSize w.history

/-- An exception is no failed assertion. -/
theorem AcceptFault.exc {e : Exception} {w : World} : AcceptFault (.exc e) w := nofun

theorem read_steps (len : Nat) :
    Triple (fun w => w.io.sends = []) (World.onIo (Io.read len)) (fun _ w => w.io.sends = [])
      AcceptFault := by
  intro w hw
  rcases e : Io.read len w.io with ⟨x | bytes, io⟩ <;>
    simp only [World.onIo, Prog.zoom, e]
  · obtain ⟨e', rfl⟩ := Io.read_error e
    exact .exc
  · exact (Io.read_sends e).1.trans hw

theorem acceptEndRequest_steps {α : Type} (header : Header) (ps : ProtocolStatus) (e : Exception)
    {Q : α → World → Prop} :
    Triple (fun w => w.io.sends = []) (acceptEndRequest header ps e) Q AcceptFault := by
  intro w hw
  rw [acceptEndRequest, Prog.bind_ok (Record.endRequestRecord_run _), refuse_run hw]
  exact .exc

theorem readBeginRequest_steps :
    Triple (fun w => w.io.sends = []) readBeginRequest (fun _ w => w.io.sends = [])
      AcceptFault := by
  refine Triple.bind (Q := fun _ w => w.io.sends = []) ?_ fun header => ?_
  · refine Triple.bind (read_steps _) fun bytes => Triple.ite (fun _ => Triple.throw
      fun _ _ => .exc) fun _ => Triple.bind (Q := fun _ w => w.io.sends = []) ?_ fun _ =>
        Triple.pure fun _ hw => hw
    exact Triple.ite (fun _ => Triple.throw fun _ _ => .exc) fun _ => Triple.pure fun _ hw => hw
  · refine Triple.ite (fun _ => ?_) fun _ => acceptEndRequest_steps _ _ _
    refine Triple.bind (Q := fun _ w => w.io.sends = []) ?_ fun body => ?_
    · exact Triple.bind (read_steps _) fun bytes => Triple.ite (fun _ => Triple.throw
        fun _ _ => .exc) fun _ => Triple.pure fun _ hw => hw
    · exact Triple.ite (fun _ => Triple.pure fun _ hw => hw) fun _ => acceptEndRequest_steps _ _ _

/-- No assertion fails in `accept()` without cause. -/
theorem accept_steps (uninit : Uninit) (fuel : Nat) :
    Triple (fun w => w.io.sends = []) (accept uninit fuel) (fun _ _ => True) AcceptFault := by
  refine Triple.bind readBeginRequest_steps fun p => Triple.bind (Q := fun _ _ => True) ?_ fun _ =>
    fun _ _ => trivial
  refine Triple.bind (Q := fun _ _ => True) ?_ fun p => ?_
  · intro w hw
    rcases e : ServerIstream.construct _ uninit fuel w with ⟨x | p, w'⟩
    · rintro rfl
      exact construct_istream_fault (.of_nil hw) e
    · trivial
  · rcases p with ⟨nv, is⟩
    refine Triple.bind (construct_writer_steps _ _ (by decide) (by decide) (.inl rfl)) fun _ => ?_
    refine Triple.bind (construct_writer_steps _ _ (by decide) (by decide) (.inr rfl)) fun _ => ?_
    exact Triple.pure fun _ _ => trivial

/-! ### Reads and `close()` -/

/-- **No assertion fails**, provided that the client's records are tame: in `accept()`, in the
reads of `in()` after it, and in `close()`. -/
theorem no_assertion_fails (uninit : Uninit) (fuel : Nat) (ins : List InOp) {w : World}
    (hsends : w.io.sends = [])
    (ht : Tame inBufferSize (session uninit fuel (ins.map .«in» ++ [.close]) w).2.history) :
    (session uninit fuel (ins.map .«in» ++ [.close]) w).1 ≠ .error .abort := by
  rcases haccept : accept uninit fuel w with ⟨x | c, w'⟩
  · rw [session_error haccept] at ht ⊢
    intro hx
    cases hx
    exact (accept_steps uninit fuel).of_error hsends haccept rfl ht
  obtain ⟨s₀, s₁, hacc, hs₀⟩ := accept_accepted hsends haccept
  have hb : Bounded inBufferSize c.inState := ⟨hacc.bounded.1, .inl hacc.bounded.2⟩
  have hin := run_in fuel ins c hacc.readOnly
  rw [session_ok haccept] at ht ⊢
  rcases e : run fuel (ins.map .«in») c with ⟨x | _, c₁⟩ <;> simp only [e] at hin
  · rw [run_append_error e] at ht ⊢
    intro hx
    cases hx
    exact hin.not_tame hb (.of_nil (hacc.sends hs₀)) ht
  · rw [run_append e] at ht ⊢
    have hc₁ := hacc.writable hs₀ hin
    by_cases hmay : MayClose c₁.role_ c₁.in_.streambuf_
    · obtain ⟨_, _, _, c₂, -, -, hworld, hclose⟩ := hc₁.close hmay
      split at hclose
      · rw [run_cons_ok (show Op.exec fuel .close c₁ = _ from hclose)]
        nofun
      · rename_i hu
        have hrun : run fuel [.close] c₁ = (.error .abort, c₂) := by
          rw [run, Prog.bind_error (Prog.attempt_abort (m := Op.exec fuel .close) hclose)]
        rw [hrun] at ht
        rw [hworld] at ht
        exact absurd ((hin.reached.bounded hb).le ht.content) hu
    · rw [run_cons_exc (show Op.exec fuel .close c₁ = _ from hc₁.close_not_may hmay)]
      nofun

/-- Two bytes of stdin are read, and the connection is closed. -/
theorem no_assertion_fails_read :
    (session {} 9 [.«in» (.read 2), .close]
      (responderRequest [1, 5, 0, 1, 0, 2, 0, 0, 104, 105])).1 ≠ .error .abort :=
  no_assertion_fails {} 9 [.read 2] rfl (by decide +kernel)

/-- A stdin record with 16385 bytes of content terminates the process. -/
theorem assertion_fails_overlong :
    (session {} 9 [.«in» .get, .close] (responderRequest [1, 5, 0, 1, 64, 1, 0, 0])).1 =
      .error .abort := by
  decide +kernel

end Fcgi

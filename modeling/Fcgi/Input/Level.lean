import Fcgi.Basics.Followed
import Fcgi.Input.Placed

/-!
# Input — two readers of the same bytes

Two transports bring the same bytes, each in pieces of its own.

* `Level conn size s t`: between two calls, both readers are at the same place.
* `Going conn size header s t`: so they are at the start of a round, with `header` read.

**`underflowLoop_follows`, `sbumpc_follows`**: the readers stay level, and take the same
characters, until the reading of a get-values record ends where the cuts matter
(`History.CutSensitive`).

The readers do not go in step: a round of one may be several of the other.  So both are brought to
the point where something happens that can be seen from outside, which is the processing of a
header or the end of the bytes (`Spot.header_ahead`, `Spot.exhausted`); there they are `Even`, and
process the header alike.  A reader between two such points is only `Placed` somewhere in the bytes.
-/

namespace Fcgi
open Lib

/-- Both readers are at the same place, with the same outside. -/
structure Stood (conn : ConnectionInfo) (size n p : Nat) (dis : Bool) (bs : List UInt8)
    (s t : State) : Prop where
  left : Placed conn size n p dis bs s
  right : Placed conn size n p dis bs t
  outer : s.outer = t.outer
  fits : s.buf.unreadContentLength_ ≤ size ↔ t.buf.unreadContentLength_ ≤ size

/-- Both readers have no characters at hand. -/
structure Even (conn : ConnectionInfo) (size u p : Nat) (dis e : Bool) (bs : List UInt8)
    (s t : State) : Prop extends Stood conn size u p dis bs s t where
  leftEmpty : s.buf.gptr = s.buf.egptr
  rightEmpty : t.buf.gptr = t.buf.egptr
  ended : s.buf.isEndOfStream_ = e

/-- Both readers are between two calls, at the same place. -/
def Level (conn : ConnectionInfo) (size : Nat) (s t : State) : Prop :=
  ∃ n p dis bs, Stood conn size n p dis bs s t ∧ Rested size s ∧ Rested size t

/-- After an exception. -/
def Stranded (conn : ConnectionInfo) (size : Nat) (s t : State) : Prop :=
  ∃ n p dis bs, Stood conn size n p dis bs s t

/-- At the start of a round.  A header that is there already has asked for values. -/
def Going (conn : ConnectionInfo) (size : Nat) (header : List UInt8) (s t : State) : Prop :=
  header.length ≤ 8 ∧ ∃ u p dis e bs, Even conn size u p dis e bs s t ∧
    (dis = false → e = false → Fits size u bs) ∧
    (e = true → u = 0 ∧ header.length = 8 ∧ (Header.ofBytes header).IsGetValues)

/-- What `underflow()` returns. -/
def Offered (conn : ConnectionInfo) (size : Nat) (r : Option UInt8) (s t : State) : Prop :=
  Level conn size s t ∧ (r.isSome → s.buf.gptr < s.buf.egptr ∧ t.buf.gptr < t.buf.egptr)

section

variable {conn : ConnectionInfo} {size n u p : Nat} {dis e : Bool} {bs : List UInt8}
  {s t : State}

/-- What is level could be after an exception. -/
theorem Level.stranded (h : Level conn size s t) : Stranded conn size s t := by
  obtain ⟨n, p, dis, bs, hst, -, -⟩ := h
  exact ⟨n, p, dis, bs, hst⟩

namespace Even

/-- The stream has ended for both or neither. -/
theorem ended_right (h : Even conn size u p dis e bs s t) : t.buf.isEndOfStream_ = e :=
  (congrArg Outer.ended h.outer).symm.trans h.ended

/-- What is even could be after an exception. -/
theorem stranded (h : Even conn size u p dis e bs s t) : Stranded conn size s t :=
  ⟨u, p, dis, bs, h.toStood⟩

/-- Readers that are even and may stop are level. -/
theorem level (h : Even conn size u p dis e bs s t)
    (hu : dis = false → e = false → Fits size u bs) : Level conn size s t := by
  refine ⟨u, p, dis, bs, h.toStood, ⟨Nat.le_of_eq h.leftEmpty, fun hd he => .inr ⟨h.leftEmpty, ?_⟩,
    fun _ => h.leftEmpty⟩, ⟨Nat.le_of_eq h.rightEmpty, fun hd he => .inr ⟨h.rightEmpty, ?_⟩,
    fun _ => h.rightEmpty⟩⟩
  · rw [h.left.content_eq h.leftEmpty, h.left.bytes]
    exact hu (h.left.discard.symm.trans hd) (h.ended.symm.trans he)
  · rw [h.right.content_eq h.rightEmpty, h.right.bytes]
    exact hu (h.right.discard.symm.trans hd) (h.ended_right.symm.trans he)

end Even

/-- The state after a write. -/
def State.afterWrite (s : State) (ss : List Send) (out : List UInt8) : State :=
  ⟨s.buf, s.world.setIo { s.world.io with sends := ss, written := out }⟩

/-- Both readers write the same. -/
theorem writeAll_rel {R : State → State → Prop} (buf : List UInt8)
    (hR : ∀ s t, R s t → s.outer = t.outer)
    (hset : ∀ s t ss out, R s t → R (s.afterWrite ss out) (t.afterWrite ss out)) :
    Rel R (onIo (Io.writeAll buf)) (onIo (Io.writeAll buf)) (fun _ => R) R fun _ => False := by
  rintro ⟨b, w⟩ ⟨b', w'⟩ hst
  have ho := hR _ _ hst
  have hsends : w'.io.sends = w.io.sends := (congrArg Outer.sends ho).symm
  have hwritten : w'.io.written = w.io.written := (congrArg Outer.written ho).symm
  obtain ⟨r, ss, out, hrun, hrun'⟩ := Io.writeAll_congr hsends hwritten buf
  rw [onIo_run hrun, onIo_run hrun']
  cases r with
  | error x => exact .inr (.error (hset _ _ ss out hst))
  | ok a => exact .inr (.ok (hset _ _ ss out hst))

/-- A write does not move the reader. -/
theorem Placed.afterWrite (h : Placed conn size n p dis bs s) (ss : List Send)
    (out : List UInt8) : Placed conn size n p dis bs (s.afterWrite ss out) :=
  ⟨h.openReader, h.type, h.bufferSize, h.discard, h.content, h.padding, h.bytes, h.clean⟩

theorem Stood.afterWrite (h : Stood conn size n p dis bs s t) (ss : List Send)
    (out : List UInt8) :
    Stood conn size n p dis bs (s.afterWrite ss out) (t.afterWrite ss out) := by
  refine ⟨h.left.afterWrite ss out, h.right.afterWrite ss out, ?_, h.fits⟩
  have hended := congrArg Outer.ended h.outer
  have hanswers := congrArg Outer.answers h.outer
  simp only [State.outer] at hended hanswers
  simp only [State.outer, State.afterWrite, World.setIo_io, World.setIo_history, hended, hanswers]

/-- Readers that write the same stay even. -/
theorem Even.afterWrite (h : Even conn size u p dis e bs s t) (ss : List Send)
    (out : List UInt8) :
    Even conn size u p dis e bs (s.afterWrite ss out) (t.afterWrite ss out) :=
  ⟨h.toStood.afterWrite ss out, h.leftEmpty, h.rightEmpty, h.ended⟩

/-- And so they do after an exception. -/
theorem Stranded.afterWrite (h : Stranded conn size s t) (ss : List Send) (out : List UInt8) :
    Stranded conn size (s.afterWrite ss out) (t.afterWrite ss out) := by
  obtain ⟨n, p, dis, bs, hst⟩ := h
  exact ⟨n, p, dis, bs, hst.afterWrite ss out⟩

/-- What can be seen from outside is the same. -/
theorem Stranded.outer (h : Stranded conn size s t) : s.outer = t.outer := by
  obtain ⟨n, p, dis, bs, hst⟩ := h
  exact hst.outer

theorem Even.writeAll (buf : List UInt8) :
    Rel (Even conn size u p dis e bs) (onIo (Io.writeAll buf)) (onIo (Io.writeAll buf))
      (fun _ => Even conn size u p dis e bs) (Stranded conn size) fun _ => False :=
  (writeAll_rel buf (fun _ _ h => h.outer) fun _ _ ss out h => h.afterWrite ss out).fail
    fun _ _ h => h.stranded

/-- The same end-request record is sent by both. -/
theorem Even.endRequest (header : Header) (ps : ProtocolStatus) :
    Rel (Even conn size u p dis e bs) (endRequest header ps) (endRequest header ps)
      (fun _ => Even conn size u p dis e bs) (Stranded conn size) fun _ => False := by
  intro s t hst
  rw [endRequest_eq, endRequest_eq]
  exact Even.writeAll _ s t hst

theorem violation_stranded {α : Type} {Q : α → State → State → Prop} (header : Header) :
    Rel (Stranded conn size) (endRequestProtocolViolation header : M α)
      (endRequestProtocolViolation header) Q (Stranded conn size) fun _ => False := by
  refine Rel.seq (Q := fun _ => Stranded conn size) ?_ fun _ => Rel.throw fun _ _ h => h
  intro s t hst
  rw [endRequest_eq, endRequest_eq]
  exact writeAll_rel _ (fun _ _ h => h.outer) (fun _ _ ss out h => h.afterWrite ss out) s t hst

/-- The assertion holds for both or fails for both. -/
theorem Even.assertInvariantOk :
    Rel (Even conn size u p dis e bs) (assertInvariantOk conn) (assertInvariantOk conn)
      (fun _ s t => Even conn size u p dis e bs s t ∧ u ≤ size) (Stranded conn size)
      fun _ => False := by
  refine Rel.get fun s t hst => Rel.assert ?_ ?_ ?_
  · exact (hst.left.invariantOk hst.leftEmpty).trans (hst.right.invariantOk hst.rightEmpty).symm
  · rintro _ _ ⟨rfl, rfl⟩ hi
    exact ⟨hst, (hst.left.invariantOk hst.leftEmpty).mp hi⟩
  · rintro _ _ ⟨rfl, rfl⟩
    exact hst.stranded

/-! ### Processing a header -/

/-- Nothing but a get-values record is read by `process_header()`. -/
theorem dispatch_congr {header : Header} (hgv : ¬ header.IsGetValues) {k k' : Nat}
    (call call' : M (Option UInt8)) :
    dispatch conn k call header = dispatch conn k' call' header := by
  by_cases hm : header.isManagementRecord
  · have ht : header.recordType ≠ .getValues := fun ht => hgv ⟨hm, ht⟩
    simp only [dispatch, processManagementRecord, if_neg ht]
  · simp only [dispatch, if_neg hm]

/-- What a header other than that of a get-values record is answered. -/
theorem Even.dispatch {k : Nat} {call : M (Option UInt8)} {header : Header}
    (hgv : ¬ header.IsGetValues) :
    Rel (Even conn size u p dis e bs) (dispatch conn k call header)
      (dispatch conn k call header) (fun _ => Even conn size u p dis e bs)
      (Stranded conn size) fun _ => False := by
  refine Rel.get fun s t hst => Rel.ite Iff.rfl (fun _ => ?_) fun _ =>
    Rel.ite Iff.rfl (fun hm => ?_) fun _ => Rel.ite Iff.rfl (fun _ => Rel.ret hst) fun _ => ?_
  · exact Rel.seq ((Even.endRequest header _).at_pre hst) fun _ => Rel.pure fun _ _ h => h
  · have ht : header.recordType ≠ .getValues := fun ht => hgv ⟨hm, ht⟩
    rw [processManagementRecord, if_neg ht]
    refine Rel.step (Record.unknownTypeRecord_run _) (Record.unknownTypeRecord_run _) ?_
    exact Rel.seq ((Even.writeAll _).at_pre hst) fun _ => Rel.pure fun _ _ h => h
  · refine Rel.ite ?_ (fun _ => Rel.ret hst) fun _ =>
      (violation_stranded header).at_pre hst.stranded
    rw [hst.left.type, hst.right.type]

/-- The same answer is sent by both. -/
theorem Even.sendGetValuesResult (header : Header) (vars : NamesValues) :
    Rel (Even conn size u p dis e bs) (sendGetValuesResult conn header vars)
      (sendGetValuesResult conn header vars) (fun _ => Even conn size u p dis e bs)
      (Stranded conn size) fun _ => False := by
  intro s t hst
  by_cases hfit : 8 + (replyContent (vars.pairs_.map NameValue.name)).length ≤ replySize
  · have hanswers : s.world.history.answers.length = t.world.history.answers.length :=
      congrArg Outer.answers hst.outer
    rw [sendGetValuesResult_eq rfl hfit, sendGetValuesResult_eq rfl hfit, hanswers]
    exact Even.writeAll _ s t hst
  · rw [sendGetValuesResult_abort hfit, sendGetValuesResult_abort hfit]
    exact .inr (.error hst.stranded)

/-- The readers are at the end of the reading of a get-values record. -/
theorem Stood.answer (h : Stood conn size n p dis bs s t) (a a' : Answer) :
    Stood conn size n p dis bs ⟨s.buf, s.world.addAnswer a⟩ ⟨t.buf, t.world.addAnswer a'⟩ := by
  refine ⟨⟨h.left.openReader, h.left.type, h.left.bufferSize, h.left.discard, h.left.content,
    h.left.padding, h.left.bytes, h.left.clean⟩, ⟨h.right.openReader, h.right.type,
    h.right.bufferSize, h.right.discard, h.right.content, h.right.padding, h.right.bytes,
    h.right.clean⟩, ?_, h.fits⟩
  obtain ⟨hended, hsends, hwritten, hanswers⟩ := Outer.mk.inj h.outer
  simp only [State.outer, World.addAnswer_io, World.addAnswer_history_answers,
    List.length_append, hended, hsends, hwritten, hanswers, List.length_singleton]

/-- What it does after the entry into the history. -/
theorem answer_stable {I : State → Prop} (hI : Stable I) (header : Header) (vars : NamesValues)
    (q : Prop) [Decidable q] : Keeps I (do
      if q then endRequestProtocolViolation header else pure ()
      sendGetValuesResult conn header vars
      pure ProcessHeaderResult.managementProcessed) := by
  have hsend : Keeps I (do
      sendGetValuesResult conn header vars
      pure ProcessHeaderResult.managementProcessed) :=
    .bind (sendGetValuesResult_lasting hI.lasting _ _) fun _ => .pure _
  exact .ite (.bind (violation_lasting hI.lasting _) fun _ => hsend) hsend

theorem answering_stable {I : State → Prop} (hI : Stable I) (header : Header)
    (vars : NamesValues) : Keeps I (answering conn header vars) :=
  .bind (.modify fun s => hI.answer s.buf s.world _) fun _ => .get fun s =>
    answer_stable hI header vars (s.buf.unreadContentLength_ > 0)

/-- Unless the cuts matter, both readers are at the end of the content, or both are not. -/
theorem answering_follows (header : Header) (vars : NamesValues) :
    Lib.Follows (Stranded conn size) (answering conn header vars)
      (fun _ => answering conn header vars)
      (fun _ s t => ∃ p dis e bs, Even conn size 0 p dis e bs s t) (Stranded conn size)
      (Cut size) (Cut size) := by
  have hkeeps : ∀ (q : Prop) [Decidable q], Keeps (Cut size) (do
      if q then endRequestProtocolViolation header else pure ()
      sendGetValuesResult conn header vars
      pure ProcessHeaderResult.managementProcessed) := fun q [Decidable q] =>
    answer_stable (cut_stable size) header vars q
  refine ⟨answering_stable (cut_stable size) _ _, fun _ => answering_stable (cut_stable size) _ _,
    ?_⟩
  rintro ⟨b, w⟩ ⟨b', w'⟩ ⟨n, p, dis, bs, hst⟩
  refine .step (noteAnswer_run _ _ _) (fun _ => noteAnswer_run _ _ _) (.get ?_)
  set a : Answer := ⟨vars.pairs_.map NameValue.name, b, w.io⟩
  set a' : Answer := ⟨vars.pairs_.map NameValue.name, b', w'.io⟩
  have hst₁ := hst.answer a a'
  -- From an answer that a cut can change on, the two runs may part.
  by_cases ha : a.CutSensitive
  · exact .parted ((hkeeps _).run
      (.inl ⟨a, List.mem_append_right _ (List.mem_singleton_self a), ha⟩))
  by_cases ha' : a'.CutSensitive
  · exact .parted' fun _ => (hkeeps _).run
      (.inl ⟨a', List.mem_append_right _ (List.mem_singleton_self a'), ha'⟩)
  dsimp only
  by_cases hu : b.unreadContentLength_ > 0 ∧ b'.unreadContentLength_ > 0
  · rw [if_pos hu.1]
    simp only [if_pos hu.2]
    exact .of_rel (Rel.seq (Q := fun _ _ _ => False) (violation_stranded header)
      fun _ _ _ h => h.elim) ⟨n, p, dis, bs, hst₁⟩
  · -- One of the readers has read all of the content, and hence the other one too.
    have heq : b.unreadContentLength_ = 0 → b.gptr = b.egptr := fun h =>
      by_contra fun hne => ha ⟨h, hne⟩
    have heq' : b'.unreadContentLength_ = 0 → b'.gptr = b'.egptr := fun h =>
      by_contra fun hne => ha' ⟨h, hne⟩
    have hn : b.egptr - b.gptr + b.unreadContentLength_ = n := hst.left.content
    have hn' : b'.egptr - b'.gptr + b'.unreadContentLength_ = n := hst.right.content
    obtain rfl : n = 0 := by omega
    have hz : b.unreadContentLength_ = 0 := by omega
    have hz' : b'.unreadContentLength_ = 0 := by omega
    rw [if_neg (by omega)]
    simp only [if_neg (show ¬ b'.unreadContentLength_ > 0 by omega)]
    have heven : Even conn size 0 p dis b.isEndOfStream_ bs ⟨b, w.addAnswer a⟩
        ⟨b', w'.addAnswer a'⟩ := ⟨hst₁, heq hz, heq' hz', rfl⟩
    exact .of_rel (Rel.seq (Even.sendGetValuesResult header vars) fun _ =>
      Rel.pure fun _ _ h => ⟨p, dis, _, bs, h⟩) heven

/-- **A get-values record**, unless the cuts matter. -/
theorem getValues_follows {fuel : Nat} {call : M (Option UInt8)}
    {call' : Nat → M (Option UInt8)} {header : Header} (hgv : header.IsGetValues)
    (hcall : Lib.Follows (Level conn size) (sbumpc call) (fun n => sbumpc (call' n))
      (fun _ => Level conn size) (Stranded conn size) (Cut size) (Cut size)) :
    Lib.Follows (Level conn size) (processManagementRecord conn fuel call header)
      (fun n => processManagementRecord conn n (call' n) header)
      (fun _ s t => ∃ p dis e bs, Even conn size 0 p dis e bs s t) (Stranded conn size)
      (Cut size) (Cut size) := by
  simp only [processManagementRecord_getValues hgv.2]
  exact .bind (ofStream_follows (fun _ _ h => h.stranded) hcall fuel {} 3) fun p =>
    (answering_follows header p.1).pre fun _ _ h => h.1

/-- The state after the lengths of `header` have been stored. -/
def State.headed (s : State) (header : Header) : State :=
  ⟨(s.buf.setUnreadContentLength header.contentLength).setUnreadPaddingLength
    header.paddingLength, s.world⟩

/-- The header has been processed: what it announces is ahead. -/
theorem Placed.headed (h : Placed conn size 0 0 dis bs s) (heq : s.buf.gptr = s.buf.egptr)
    (header : Header) :
    Placed conn size header.contentLength header.paddingLength dis bs (s.headed header) := by
  refine ⟨(h.openReader.setUnreadContentLength (Header.contentLength_le _)).setUnreadPaddingLength
    (Header.paddingLength_le _), h.type, h.bufferSize, h.discard, ?_, rfl, h.bytes, h.clean⟩
  change s.buf.egptr - s.buf.gptr + header.contentLength = header.contentLength
  rw [heq, Nat.sub_self, Nat.zero_add]

theorem Even.headed (h : Even conn size 0 0 dis e bs s t) (header : Header) :
    Even conn size header.contentLength header.paddingLength dis e bs (s.headed header)
      (t.headed header) :=
  ⟨⟨h.left.headed h.leftEmpty header, h.right.headed h.rightEmpty header, h.outer, Iff.rfl⟩,
    h.leftEmpty, h.rightEmpty, h.ended⟩

/-- After the processing of `header`. -/
def Handled (conn : ConnectionInfo) (size : Nat) (header : Header) (s t : State) : Prop :=
  ∃ u p dis e bs, Even conn size u p dis e bs s t ∧ u ≤ size ∧
    (e = true → u = 0 ∧ header.IsGetValues)

/-- The branch of a get-values record. -/
theorem dispatch_getValues {fuel : Nat} {call : M (Option UInt8)} {header : Header}
    (hgv : header.IsGetValues) (s : State) :
    dispatch conn fuel call header s = processManagementRecord conn fuel call header s := by
  have hb : header.recordType ≠ .beginRequest := fun hb => by
    cases hb.symm.trans hgv.2
  rw [dispatch, Prog.bind_ok (Prog.get_run _), if_neg hb, if_pos hgv.1]

section call

variable {fuel : Nat} {call : M (Option UInt8)} {call' : Nat → M (Option UInt8)}
  (hkeep : Keeps (Cut size) call) (hkeep' : ∀ n, Keeps (Cut size) (call' n))
  (hcall : Lib.Follows (Level conn size) (sbumpc call) (fun n => sbumpc (call' n))
    (fun _ => Level conn size) (Stranded conn size) (Cut size) (Cut size))

include hkeep hkeep' hcall

/-- **A header**, other than one that asks for values and has too much content. -/
theorem processHeader_follows {header : Header}
    (hfits : header.IsGetValues → dis = false → e = false → Fits size header.contentLength bs)
    (hgv : e = true → header.IsGetValues) :
    Lib.Follows (Even conn size 0 0 dis e bs) (processHeader conn fuel call header)
      (fun n => processHeader conn n (call' n) header)
      (fun _ s t => Handled conn size header s t) (Stranded conn size) (Cut size)
      (Cut size) := by
  have hlast : ∀ r : ProcessHeaderResult, Keeps (Cut size) (do
      assertInvariantOk conn
      pure r) := fun r => .bind assertInvariantOk_stable fun _ => .pure _
  refine ⟨processHeader_stable (cut_stable size).lasting .keeps hkeep _,
    fun n => processHeader_stable (cut_stable size).lasting .keeps (hkeep' n) _, ?_⟩
  intro s t hst
  -- The two readers hold the same header, so they agree on its version.
  by_cases hv : header.protocolVersion = 1
  · have hvalid : ∀ s : State, header.checkValidity s = (.ok (), s) := fun s => by
      rw [Header.checkValidity, if_neg (not_not.mpr hv), Prog.pure_run]
    refine .step (hvalid _) (fun _ => hvalid _)
      (.step (modifyBuf_run _) (fun _ => modifyBuf_run _) ?_)
    have hst₁ := hst.headed header
    have hdispatch : Ends (dispatch conn fuel call header)
        (fun n => dispatch conn n (call' n) header)
        (fun _ s t => ∃ u p dis e bs, Even conn size u p dis e bs s t ∧
          (e = true → u = 0 ∧ header.IsGetValues)) (Stranded conn size) (Cut size) (Cut size)
        (s.headed header) (t.headed header) := by
      by_cases hg : header.IsGetValues
      · refine Ends.post (.congr (dispatch_getValues hg _) (fun n => dispatch_getValues hg _)
          ((getValues_follows hg hcall).ends _ _ (hst₁.level (hfits hg)))) ?_
        rintro _ _ _ ⟨p, dis, e, bs, h⟩
        exact ⟨0, p, dis, e, bs, h, fun _ => ⟨rfl, hg⟩⟩
      · refine Ends.post (.congr rfl (fun n => congrFun (dispatch_congr hg _ call) _)
          (.of_rel (Even.dispatch hg) hst₁)) fun _ s t h => ?_
        exact ⟨_, _, dis, e, bs, h, fun he => absurd (hgv he) hg⟩
    refine hdispatch.bind hlast (fun _ => hlast) ?_
    rintro r s t ⟨u, p, dis, e, bs, h, he⟩
    exact .of_rel (Rel.seq Even.assertInvariantOk fun _ => Rel.pure fun _ _ h' =>
      ⟨u, p, dis, e, bs, h'.1, h'.2, he⟩) h
  · have hinvalid : header.checkValidity = (Prog.throw (.fcgi "FastCGI protocol violation") :
        M Unit) := by
      rw [Header.checkValidity, if_pos hv]
    simp only [processHeader, hinvalid, Prog.throw_bind]
    exact .of_rel (Rel.throw fun _ _ h => h.stranded) hst

end call

/-- The stream ends. -/
theorem Even.setEndOfStream :
    Rel (fun s t => Even conn size u p dis e bs s t ∧ u ≤ size) (setEndOfStream conn)
      (setEndOfStream conn) (fun _ s t => Even conn size u p dis true bs s t ∧ u ≤ size)
      (Stranded conn size) fun _ => False := by
  refine Rel.seq (Q := fun _ => Even conn size u p dis true bs) (Rel.modify ?_) fun _ =>
    Even.assertInvariantOk
  rintro s t ⟨⟨⟨hs, ht, ho, hfits⟩, hse, hte, -⟩, -⟩
  have stop : ∀ {s : State}, Placed conn size u p dis bs s → s.buf.gptr = s.buf.egptr →
      Placed conn size u p dis bs ⟨(s.buf.setg s.buf.gptr s.buf.gptr s.buf.gptr).setEndOfStream
        true, s.world⟩ := fun {s} hs heq => by
    refine ⟨hs.openReader.setg_gptr.setEndOfStream _, hs.type, hs.bufferSize, hs.discard, ?_,
      hs.padding, hs.bytes, hs.clean⟩
    change s.buf.gptr - s.buf.gptr + s.buf.unreadContentLength_ = u
    rw [Nat.sub_self, Nat.zero_add, hs.content_eq heq]
  obtain ⟨-, hsends, hwritten, hanswers⟩ := Outer.mk.inj ho
  refine ⟨⟨stop hs hse, stop ht hte, ?_, hfits⟩, rfl, rfl, rfl⟩
  simp only [State.outer, ServerStreambuf.setEndOfStream_isEndOfStream_, hsends, hwritten, hanswers]

/-- Both readers have read the header `hd`. -/
def BothRead (conn : ConnectionInfo) (size : Nat) (hd : List UInt8) (s t : State) : Prop :=
  ∃ dis o bs, Spot conn .params size 0 0 dis o bs s ∧ Spot conn .params size 0 0 dis o bs t ∧
    s.world.io.Clean ∧ t.world.io.Clean ∧
    (o.ended = true → (Header.ofBytes hd).IsGetValues)

/-- What a round leads to. -/
def Turned (conn : ConnectionInfo) (size : Nat) :
    Flow (List UInt8) (Option UInt8) → State → State → Prop
  | .again header => Going conn size header
  | .done r => Offered conn size r

/-- Before the header is processed, the get area is empty. -/
theorem Spot.settled {o : Outer} (h : Spot conn .params size 0 0 dis o bs s)
    (hc : s.world.io.Clean) (d : Dispatch) :
    Placed conn size 0 0 dis bs
      ⟨s.buf.setg s.buf.gptr s.buf.gptr s.buf.gptr, s.world.addDispatch d⟩ :=
  ⟨h.openReader.setg_gptr, h.type, h.bufferSize, h.discard, by
    change s.buf.gptr - s.buf.gptr + s.buf.unreadContentLength_ = 0
    rw [Nat.sub_self, Nat.zero_add, h.content], h.padding, h.bytes, hc⟩

/-- The content is to be discarded. -/
theorem Placed.setDiscarded (h : Placed conn size n p dis bs s) :
    Placed conn size n p true bs ⟨s.buf.setContentMustBeDiscarded true, s.world⟩ :=
  ⟨h.openReader.setContentMustBeDiscarded _, h.type, h.bufferSize, rfl, h.content, h.padding,
    h.bytes, h.clean⟩

/-- The parameters are not followed by the data stream. -/
theorem Placed.not_isReadyToFilterData (h : Placed conn size n p dis bs s) :
    s.buf.isReadyToFilterData conn = false := by
  rw [ServerStreambuf.isReadyToFilterData, h.type]
  simp

theorem afterProcess_stable {I : State → Prop} (hI : Stable I) (header : List UInt8)
    (r : ProcessHeaderResult) : Keeps I (afterProcess conn header r) := by
  have hend : Keeps I (setEndOfStream conn) := setEndOfStream_lasting hI.lasting
  cases r with
  | requestRejected => exact .bind hend fun _ => .pure _
  | managementProcessed => exact .pure _
  | contentMustBeConsumed =>
      refine .get fun _ => .ite (.bind hend fun _ => .get fun _ => ?_) (.pure _)
      exact .ite (.bind (resetReader_stable hI _) fun _ => .pure _) (.pure _)
  | contentMustBeDiscarded => exact .bind (modifyBuf_stable hI _) fun _ => .pure _

theorem Even.afterProcess {hd : List UInt8} (hlen : hd.length = 8)
    (hend : e = true → u = 0 ∧ (Header.ofBytes hd).IsGetValues) (r : ProcessHeaderResult) :
    Rel (fun s t => Even conn size u p dis e bs s t ∧ u ≤ size) (afterProcess conn hd r)
      (afterProcess conn hd r) (Turned conn size) (Stranded conn size) fun _ => False := by
  have going : ∀ {dis : Bool} {s t : State}, Even conn size u p dis e bs s t → u ≤ size →
      Going conn size hd s t := fun {dis s t} h hu =>
    ⟨Nat.le_of_eq hlen, u, p, dis, e, bs, h, fun _ _ => .inl (Nat.le_succ_of_le hu), fun he =>
      ⟨(hend he).1, hlen, (hend he).2⟩⟩
  cases r with
  | requestRejected =>
      exact Rel.seq Even.setEndOfStream fun _ => Rel.pure fun _ _ h => ⟨h.1.level nofun, nofun⟩
  | managementProcessed => exact Rel.pure fun _ _ h => going h.1 h.2
  | contentMustBeConsumed =>
      refine Rel.get fun s t hst => Rel.ite ?_ (fun _ => ?_) fun _ => Rel.ret (going hst.1 hst.2)
      · rw [hst.1.left.content_eq hst.1.leftEmpty, hst.1.right.content_eq hst.1.rightEmpty]
      · refine Rel.seq (Even.setEndOfStream.at_pre hst) fun _ => Rel.get fun s t hst => ?_
        rw [hst.1.left.not_isReadyToFilterData, hst.1.right.not_isReadyToFilterData]
        exact Rel.ret ⟨hst.1.level nofun, nofun⟩
  | contentMustBeDiscarded =>
      refine Rel.seq (Q := fun _ s t => Even conn size u p true e bs s t ∧ u ≤ size)
        (Rel.modify ?_) fun _ => Rel.pure fun _ _ h => going h.1 h.2
      rintro s t ⟨⟨⟨hs, ht, ho, hfits⟩, hse, hte, he⟩, hu⟩
      exact ⟨⟨⟨hs.setDiscarded, ht.setDiscarded, ho, hfits⟩, hse, hte, he⟩, hu⟩

/-- **The processing of a header** that both readers have read. -/
theorem processing_follows {k : Nat} {call : M (Option UInt8)} {call' : Nat → M (Option UInt8)}
    (hkeep : Keeps (Cut size) call) (hkeep' : ∀ n, Keeps (Cut size) (call' n))
    (hcall : Lib.Follows (Level conn size) (sbumpc call) (fun n => sbumpc (call' n))
      (fun _ => Level conn size) (Stranded conn size) (Cut size) (Cut size))
    {hd : List UInt8} (hlen : hd.length = 8) (stale : Bool) :
    Lib.Follows (BothRead conn size hd) (processing conn stale hd k call)
      (fun n => processing conn stale hd n (call' n)) (Turned conn size) (Stranded conn size)
      (Cut size) (Cut size) := by
  have hkeeps : ∀ {n c}, Keeps (Cut size) c → Keeps (Cut size) (processAccumulated conn n c hd) :=
    fun hc => processAccumulated_stable (cut_stable size) hc hd
  refine ⟨.bind (.modify fun s => (cut_stable size).dispatch s.buf s.world _) fun _ =>
    hkeeps hkeep, fun n => .bind (.modify fun s => (cut_stable size).dispatch s.buf s.world _)
      fun _ => hkeeps (hkeep' n), ?_⟩
  rintro ⟨b, w⟩ ⟨b', w'⟩ ⟨dis, o, bs, hs, ht, hcs, hct, hgv⟩
  refine .step (noteDispatch_run _ _ _ _) (fun _ => noteDispatch_run _ _ _ _) ?_
  set d : Dispatch := ⟨Header.ofBytes hd, stale, b, w.io⟩ with hd'
  by_cases hcut : d.CutSensitive size
  · exact .parted ((hkeeps hkeep).run (.inr ⟨d, List.mem_append_right _
      (List.mem_singleton_self d), hcut⟩))
  simp only [processAccumulated]
  refine .step (modifyBuf_run _) (fun _ => modifyBuf_run _) ?_
  have heven : Even conn size 0 0 dis o.ended bs
      ⟨b.setg b.gptr b.gptr b.gptr, w.addDispatch d⟩
      ⟨b'.setg b'.gptr b'.gptr b'.gptr, w'.addDispatch ⟨Header.ofBytes hd, stale, b', w'.io⟩⟩ :=
    ⟨⟨hs.settled hcs _, ht.settled hct _, hs.outer.trans ht.outer.symm,
      iff_of_true (Nat.le_trans (Nat.le_of_eq hs.content) (Nat.zero_le _))
        (Nat.le_trans (Nat.le_of_eq ht.content) (Nat.zero_le _))⟩, rfl, rfl,
      congrArg Outer.ended hs.outer⟩
  -- The header is not sensitive to cuts, so the content of a get-values record fits.
  have hfits : (Header.ofBytes hd).IsGetValues → dis = false → o.ended = false →
      Fits size (Header.ofBytes hd).contentLength bs := fun hg hdis he => by
    by_contra hnot
    obtain ⟨h₁, h₂⟩ := not_or.mp hnot
    have hahead : d.ahead = bs := hs.bytes
    exact hcut ⟨hg, hs.discard.trans hdis, (congrArg Outer.ended hs.outer).trans he,
      Nat.lt_of_not_le h₁, hahead ▸ Nat.le_of_not_lt h₂⟩
  refine ((processHeader_follows hkeep hkeep' hcall hfits hgv).ends _ _ heven).bind
    (afterProcess_stable (cut_stable size) hd)
    (fun _ => afterProcess_stable (cut_stable size) hd) ?_
  rintro r s t ⟨u, p, dis, e, bs, h, hu, hend⟩
  exact .of_rel (Even.afterProcess hlen hend r) ⟨h, hu⟩

/-! ### The loop -/

theorem Level.takeChar :
    Rel (fun s t => Level conn size s t ∧ s.buf.gptr < s.buf.egptr ∧ t.buf.gptr < t.buf.egptr)
      takeChar takeChar (fun _ => Level conn size) (Stranded conn size) fun _ => False := by
  rintro s t ⟨⟨n, p, dis, bs, hst, hs, ht⟩, hlt, hlt'⟩
  obtain ⟨m, c, cs, s', rfl, rfl, htake, hs', hrs, hos, hus⟩ := hst.left.takeChar hs hlt
  obtain ⟨m', c', cs', t', hm, hbs, htake', ht', hrt, hot, hut⟩ := hst.right.takeChar ht hlt'
  cases hm
  cases hbs
  rw [htake, htake']
  exact .inr (.ok ⟨m, p, dis, cs, ⟨hs', ht', hos.trans (hst.outer.trans hot.symm),
    iff_of_true hus hut⟩, hrs, hrt⟩)

theorem takeChar_stable {I : State → Prop} (hI : Stable I) : Keeps I takeChar :=
  .get fun _ => .bind (modifyBuf_stable hI _) fun _ => .pure _

theorem sbumpcThen_stable {I : State → Prop} (hI : Stable I) (r : Option UInt8) :
    Keeps I (sbumpcThen r) := by
  cases r with
  | none => exact .pure _
  | some _ => exact takeChar_stable hI

/-- That the loop is entered is noted by both. -/
theorem Stood.entered (h : Stood conn size n p dis bs s t) :
    Stood conn size n p dis bs s.entered t.entered :=
  ⟨h.left.entered, h.right.entered, h.outer, h.fits⟩

/-- Where no characters are at hand, `underflow()` enters its loop unless the stream has ended. -/
theorem Stood.underflow (hst : Stood conn size n p dis bs s t) (hs : Rested size s)
    (ht : Rested size t) (heq : s.buf.gptr = s.buf.egptr) (heq' : t.buf.gptr = t.buf.egptr)
    {k : Nat}
    (hloop : Lib.Follows (Going conn size []) (underflowLoop conn k [])
      (fun n => underflowLoop conn n []) (Offered conn size) (Stranded conn size) (Cut size)
      (Cut size)) :
    Ends (underflow conn k) (fun n => underflow conn n) (Offered conn size) (Stranded conn size)
      (Cut size) (Cut size) s t := by
  have hended : s.buf.isEndOfStream_ = t.buf.isEndOfStream_ := congrArg Outer.ended hst.outer
  have hunder := hst.left.openReader.underflow_eq k
  have hunder' := fun n => hst.right.openReader.underflow_eq n
  rw [← hended] at hunder'
  by_cases he : s.buf.isEndOfStream_ = true
  · rw [if_pos he] at hunder
    simp only [if_pos he] at hunder'
    refine .alike ⟨0, fun n _ => hunder' n⟩ ?_
    rw [hunder]
    exact .ok ⟨⟨n, p, dis, bs, hst, hs, ht⟩, nofun⟩
  · rw [if_neg he] at hunder
    simp only [if_neg he] at hunder'
    refine .congr hunder hunder' (hloop.ends s.entered t.entered ⟨Nat.zero_le 8, n, p, dis, false,
      bs, ⟨hst.entered, heq, heq', Bool.eq_false_iff.mpr he⟩, fun hd _ => ?_, nofun⟩)
    have hfits := hs.fits (hst.left.discard.trans hd) (Bool.eq_false_iff.mpr he)
    rw [hst.left.content_eq heq, hst.left.bytes] at hfits
    exact hfits.elim (fun hn => .inl (Nat.le_succ_of_le hn)) fun h => h.2

/-- **The next character.** -/
theorem sbumpc_follows {k : Nat}
    (hloop : Lib.Follows (Going conn size []) (underflowLoop conn k [])
      (fun n => underflowLoop conn n []) (Offered conn size) (Stranded conn size) (Cut size)
      (Cut size)) :
    Lib.Follows (Level conn size) (sbumpc (underflow conn k)) (fun n => sbumpc (underflow conn n))
      (fun _ => Level conn size) (Stranded conn size) (Cut size) (Cut size) := by
  have hkeep : ∀ n, Keeps (Cut size) (sbumpc (underflow conn n)) := fun n =>
    sbumpc_stable (cut_stable size).lasting .keeps (underflow_stable (cut_stable size) n)
  refine ⟨hkeep k, hkeep, ?_⟩
  rintro s t ⟨n, p, dis, bs, hst, hs, ht⟩
  have hended : s.buf.isEndOfStream_ = t.buf.isEndOfStream_ := congrArg Outer.ended hst.outer
  by_cases hlt : s.buf.gptr < s.buf.egptr ∨ t.buf.gptr < t.buf.egptr
  · -- One of the readers has characters at hand; the other one may have to read them.
    obtain ⟨m, c, cs, rfl, rfl, rfl, hopen, hroom⟩ : ∃ m c cs, n = m + 1 ∧ bs = c :: cs ∧
        dis = false ∧ s.buf.isEndOfStream_ = false ∧ n ≤ size + min size bs.length := by
      rcases hlt with hlt | hlt
      · obtain ⟨m, c, cs, -, hn, hbs, -⟩ := hst.left.takeChar hs hlt
        obtain ⟨hd, he⟩ := hs.isOpen hlt
        exact ⟨m, c, cs, hn, hbs, hst.left.discard.symm.trans hd, he, hst.left.roomy hs hlt⟩
      · obtain ⟨m, c, cs, -, hn, hbs, -⟩ := hst.right.takeChar ht hlt
        obtain ⟨hd, he⟩ := ht.isOpen hlt
        exact ⟨m, c, cs, hn, hbs, hst.right.discard.symm.trans hd, hended.trans he,
          hst.right.roomy ht hlt⟩
    obtain ⟨s', hruns, hs', hrs, hos, hus⟩ := hst.left.next hs hopen (Nat.succ_pos m) hroom
    obtain ⟨t', hruns', ht', hrt, hot, hut⟩ :=
      hst.right.next ht (hended.symm.trans hopen) (Nat.succ_pos m) hroom
    exact .of_runs hruns hruns' (.ok ⟨_, p, false, cs, ⟨hs', ht', hos.trans
      (hst.outer.trans hot.symm), iff_of_true hus hut⟩, hrs, hrt⟩) k
  -- Neither reader has a character at hand: both refill.
  · obtain ⟨hge, hge'⟩ := not_or.mp hlt
    rw [Nat.not_lt] at hge hge'
    have heq := Nat.le_antisymm hs.ordered hge
    have heq' := Nat.le_antisymm ht.ordered hge'
    refine .congr (sbumpc_eq hge _) (fun n => sbumpc_eq hge' _) ?_
    refine (hst.underflow hs ht heq heq' hloop).bind (sbumpcThen_stable (cut_stable size))
      (fun _ => sbumpcThen_stable (cut_stable size)) fun r s t hr => ?_
    cases r with
    | none => exact .of_rel (R := Level conn size) (Rel.pure fun _ _ h => h) hr.1
    | some _ => exact .of_rel Level.takeChar ⟨hr.1, hr.2 rfl⟩

/-- The bytes missing of the header are ahead. -/
theorem length_completed {header : List UInt8} (hlen : header.length ≤ 8)
    (hto : toRead u p header ≤ bs.length) : (completed u p header bs).length = 8 := by
  rw [toRead] at hto
  rw [completed, List.length_append, List.length_take, List.length_drop]
  omega

/-- With some of the content left, either makes some of it available, or finds no room for it. -/
theorem Even.provide (h : Even conn size u p false false bs s t) (hu : Fits size u bs)
    (hpos : 0 < u) (header : List UInt8) (k : Nat) :
    Ends (underflowLoop conn k header) (fun n => underflowLoop conn n header)
      (Offered conn size) (Stranded conn size) (Cut size) (Cut size) s t := by
  have hs := h.left.spot h.leftEmpty
  have ht := h.right.spot h.rightEmpty
  by_cases hne : bs = []
  · -- Nothing comes any more.
    subst hne
    have hread := hs.readRecords_closed h.left.clean
    have hread' := ht.readRecords_closed h.right.clean
    exact .of_runs (Prog.recLoop_error fun n => Prog.bind_error hread)
      (Prog.recLoop_error fun n => Prog.bind_error hread') (.error h.stranded) k
  rcases hu with hu | hu
  · obtain ⟨c, cs, rfl⟩ := List.exists_cons_of_ne_nil hne
    obtain ⟨s', hruns, hs', hrs, hos, hus, hlt⟩ :=
      h.left.provide h.leftEmpty hu h.ended hpos header
    obtain ⟨t', hruns', ht', hrt, hot, hut, hlt'⟩ :=
      h.right.provide h.rightEmpty hu h.ended_right hpos header
    exact .of_runs hruns hruns' (.ok ⟨⟨u, p, false, _, ⟨hs', ht', hos.trans
      (h.outer.trans hot.symm), iff_of_true hus hut⟩, hrs, hrt⟩, fun _ => ⟨hlt, hlt'⟩⟩) k
  · obtain ⟨s', hruns, hs', hos, hus⟩ := h.left.overfull h.leftEmpty hu hne header
    obtain ⟨t', hruns', ht', hot, hut⟩ := h.right.overfull h.rightEmpty hu hne header
    exact .of_runs hruns hruns' (.error ⟨_, _, _, _, hs', ht', hos.trans
      (h.outer.trans hot.symm), iff_of_false (Nat.not_le_of_lt hus) (Nat.not_le_of_lt hut)⟩) k

/-- With too little ahead, both read all of it and throw. -/
theorem Even.exhausted (h : Even conn size u p dis e bs s t) {header : List UInt8}
    (hlen : header.length ≤ 8) (hdis : 0 < u → dis = true)
    (hto : bs.length < toRead u p header ∨ bs = []) (k : Nat) :
    Ends (underflowLoop conn k header) (fun n => underflowLoop conn n header)
      (Offered conn size) (Stranded conn size) (Cut size) (Cut size) s t := by
  have drained : ∀ {s : State}, Spot conn .params size u p dis s.outer bs s →
      s.world.io.Clean → ∃ s', Prog.Runs (fun n => underflowLoop conn n header) s
        (.error (.exc (.fcgi "FastCGI protocol violation"))) s' ∧
        Placed conn size (u - bs.length) (p - (bs.length - u)) (stillPassed dis u bs.length) [] s' ∧
        s'.outer = s.outer ∧ s'.buf.unreadContentLength_ = u - bs.length := fun {s} hs hc => by
    obtain ⟨header', s', h', hleads⟩ := hs.drained hlen hdis hto
    have hspot := h'.spot
    rw [List.drop_length] at hspot
    have hread := hspot.readRecords_closed (h'.clean hc)
    exact ⟨s', hleads.runs (Prog.recLoop_error fun n => Prog.bind_error hread),
      hspot.placed hspot.egptr_le_of_nil (h'.clean hc), hspot.outer, hspot.content⟩
  obtain ⟨s', hruns, hs', hos, hus⟩ := drained (h.left.spot h.leftEmpty) h.left.clean
  obtain ⟨t', hruns', ht', hot, hut⟩ := drained (h.right.spot h.rightEmpty) h.right.clean
  exact .of_runs hruns hruns' (.error ⟨_, _, _, _, hs', ht', hos.trans (h.outer.trans hot.symm),
    by rw [hus, hut]⟩) k

/-- **Two readers of the same bytes**, in the loop of `underflow()`. -/
theorem underflowLoop_follows (k : Nat) (header : List UInt8) :
    Lib.Follows (Going conn size header) (underflowLoop conn k header)
      (fun n => underflowLoop conn n header) (Offered conn size) (Stranded conn size)
      (Cut size) (Cut size) := by
  induction k using Nat.strongRecOn generalizing header with
  | _ k ih =>
      have hstable : ∀ n header, Keeps (Cut size) (underflowLoop conn n header) :=
        underflowLoop_stable (cut_stable size)
      refine ⟨hstable k header, fun n => hstable n header, ?_⟩
      rintro s t ⟨hlen, u, p, dis, e, bs, h, hu, hend⟩
      by_cases hcontent : 0 < u ∧ dis = false
      · obtain ⟨hpos, rfl⟩ := hcontent
        have he : e = false := Bool.eq_false_iff.mpr fun he => Nat.ne_of_gt hpos (hend he).1
        subst he
        exact h.provide (hu rfl rfl) hpos header k
      have hdis : 0 < u → dis = true := fun hpos =>
        Bool.not_eq_false _ ▸ fun hd => hcontent ⟨hpos, hd⟩
      by_cases hto : bs.length < toRead u p header ∨ bs = []
      · exact h.exhausted hlen hdis hto k
      obtain ⟨hto, hne⟩ := not_or.mp hto
      rw [Nat.not_lt] at hto
      cases k with
      | zero => exact .inl rfl
      | succ k =>
          obtain ⟨s', hs', hcs, hleads⟩ :=
            (h.left.spot h.leftEmpty).header_ahead hlen hdis hne hto
          obtain ⟨t', ht', hct, hleads'⟩ :=
            (h.right.spot h.rightEmpty).header_ahead hlen hdis hne hto
          refine .of_leads (n := k) hleads (hleads'.of_succ fun _ => rfl) fun j hj => ?_
          have hlen' := length_completed hlen hto
          have hboth : BothRead conn size (completed u p header bs) s' t' := by
            refine ⟨_, _, _, hs', h.outer ▸ ht', hcs h.left.clean, hct h.right.clean, fun he => ?_⟩
            obtain ⟨-, h8, hgv⟩ := hend (h.ended.symm.trans he)
            rwa [completed, h8, Nat.sub_self, List.take_zero, List.append_nil]
          have hkeep : ∀ n, Keeps (Cut size) (underflow conn n) :=
            underflow_stable (cut_stable size)
          have hgoOn : ∀ n r, Keeps (Cut size) (Prog.goOn (underflowLoop conn n) r) := fun n r => by
            cases r with
            | again header' => exact hstable n header'
            | done c => exact .pure c
          -- What has led to the header has taken fuel, so less of it is left for a call inside.
          refine Ends.bind ((processing_follows (hkeep j) hkeep
            (sbumpc_follows (ih j (Nat.lt_succ_of_le hj) [])) hlen' _).ends s' t' hboth)
            (hgoOn j) hgoOn fun r s t hr => ?_
          cases r with
          | again header' => exact (ih j (Nat.lt_succ_of_le hj) header').ends s t hr
          | done c => exact .of_rel (R := Offered conn size c) (Rel.pure fun _ _ h => h) hr

end

end Fcgi

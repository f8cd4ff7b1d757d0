import Fcgi.Lib.Monitor
import Fcgi.Basics.Records

/-!
# Basics — what a server may say about a request

An `Act` is what a record of the server means to the client that sent the request `id`, and
`Phase.next` is the order in which acts may come: output and errors in any order, the end of the
errors at most once and no errors after it, then the end of the output, directly followed by the
completion of the request.  Answers, which refuse other requests or say what a management record
has asked for, may come anywhere but between these two.  The request may be rejected, too, as long
as its output has not ended; that ends it, and only answers may follow.

There are two monitors.  `conversation id` is the order above.  In `lenient id` a rejection counts
as an answer, so the request goes on after it: that is what a server does that rejects a request
and closes it later all the same.  They differ on no string in which the request is not rejected
(`lenient_run`).

* **`conversation_iff`**: the strings of acts that `conversation` permits, in closed form.
* **`conversation_ends`**: it has the request ended once, or not at all, by its phase.
-/

namespace Fcgi
open Lib

/-- What a record of the server means to the client. -/
inductive Act where
  | out
  | outEnd
  | err
  | errEnd
  | complete
  | reject
  | answer
  deriving DecidableEq, Repr

/-- The part of an end-request body that does not depend on the application status. -/
def completeBody : List UInt8 := [ProtocolStatus.requestComplete.toByte, 0, 0, 0]

/-- The record refuses a request. -/
def Record.IsRefusal (r : Record) : Prop :=
  r.recordType = .endRequest ∧ r.content = endRequestBody 0 .cantMpxConn

/-- The record refuses another request, or answers a management record. -/
def Record.IsAnswer (id : Nat) (r : Record) : Prop :=
  r.requestId ≠ id ∧ r.IsRefusal ∨
    r.requestId = 0 ∧ (r.recordType = .unknownType ∨ r.recordType = .getValuesResult)

/-- The record refuses the request itself. -/
def Record.Rejects (id : Nat) (r : Record) : Prop := r.requestId = id ∧ r.IsRefusal

instance (r : Record) : Decidable r.IsRefusal := by
  unfold Record.IsRefusal; infer_instance

instance (id : Nat) (r : Record) : Decidable (r.IsAnswer id) := by
  unfold Record.IsAnswer; infer_instance

instance (id : Nat) (r : Record) : Decidable (r.Rejects id) := by
  unfold Record.Rejects; infer_instance

/-- What the record says about the request `id`, if it is one that a server may send. -/
def Record.act (id : Nat) (r : Record) : Option Act :=
  if r.IsAnswer id then some .answer
  else if r.requestId ≠ id then none
  else if r.IsRefusal then some .reject
  else if r.recordType = .out then some (if r.content = [] then .outEnd else .out)
  else if r.recordType = .err then some (if r.content = [] then .errEnd else .err)
  else if r.recordType = .endRequest ∧ r.content.length = 8 ∧ r.content.drop 4 = completeBody then
    some .complete
  else none

/-- What has been said about a request. -/
inductive Phase where
  /-- There may be more output, and more errors unless they have ended. -/
  | «open» (errEnded : Bool)
  /-- The output has ended. -/
  | ending
  /-- The request has been completed, or rejected. -/
  | ended
  deriving DecidableEq, Repr

/-- The order of acts. -/
def Phase.next : Monitor Phase Act
  | .open e, .answer => some (.open e)
  | .open e, .out => some (.open e)
  | .open false, .err => some (.open false)
  | .open false, .errEnd => some (.open true)
  | .open _, .outEnd => some .ending
  | .ending, .complete => some .ended
  | .open _, .reject => some .ended
  | .ended, .answer => some .ended
  | _, _ => none

/-- The order of the records that concern the request `id`. -/
def conversation (id : Nat) : Monitor Phase Record := Phase.next.comap (Record.act id)

/-- A rejection counts as an answer. -/
def Act.excused : Act → Act
  | .reject => .answer
  | a => a

/-- The order of the records where a rejected request may go on. -/
def lenient (id : Nat) : Monitor Phase Record :=
  Phase.next.comap fun r => (r.act id).map Act.excused

/-- What `lenient` makes of a record of the request. -/
theorem lenient_of_act {id : Nat} {r : Record} {a : Act} (h : r.act id = some a) (φ : Phase) :
    lenient id φ r = φ.next a.excused := by
  rw [lenient, Monitor.comap, h]
  rfl

/-- An answer changes nothing, and cannot come only where the completion is due. -/
theorem lenient_answer {id : Nat} {r : Record}
    (h : r.act id = some .answer ∨ r.act id = some .reject) {φ : Phase} (hφ : φ ≠ .ending) :
    (lenient id).run φ [r] = some φ := by
  have hnext : φ.next .answer = some φ := by
    cases φ with
    | ending => exact absurd rfl hφ
    | _ => rfl
  rw [Monitor.run_singleton]
  rcases h with h | h <;> exact (lenient_of_act h φ).trans hnext

/-- The records that reject the request. -/
theorem Record.act_eq_reject_iff {id : Nat} {r : Record} :
    r.act id = some .reject ↔ r.Rejects id := by
  refine ⟨fun h => ?_, fun ⟨hid, hrefusal⟩ => ?_⟩
  · unfold Record.act at h
    split_ifs at h with hanswer hid hrefusal
    all_goals first
      | exact ⟨not_not.mp hid, hrefusal⟩
      | cases h
  · have hne : ¬ r.IsAnswer id := by
      rintro (⟨h, -⟩ | ⟨-, h | h⟩)
      · exact h hid
      · cases hrefusal.1.symm.trans h
      · cases hrefusal.1.symm.trans h
    rw [Record.act, if_neg hne, if_neg (not_not.mpr hid), if_pos hrefusal]

/-- **The monitors agree** where the request is not rejected. -/
theorem lenient_run {id : Nat} {rs : List Record} (h : ∀ r ∈ rs, ¬ r.Rejects id) {φ : Phase} :
    (lenient id).run φ rs = (conversation id).run φ rs := by
  induction rs generalizing φ with
  | nil => rfl
  | cons r rs ih =>
      obtain ⟨hr, hrs⟩ := List.forall_mem_cons.mp h
      have hact : (r.act id).map Act.excused = r.act id := by
        rcases e : r.act id with _ | a
        · rfl
        · cases a with
          | reject => exact absurd (Record.act_eq_reject_iff.mp e) hr
          | _ => rfl
      have hstep : lenient id φ r = conversation id φ r := congrArg (·.bind φ.next) hact
      rw [Monitor.run_cons, Monitor.run_cons, hstep]
      exact congrArg _ (funext fun ψ => ih hrs)

/-! ### The acts of the records a server makes -/

section

variable {id : Nat} {r : Record}

/-- A record of the output, or its end. -/
theorem act_out (hid : r.requestId = id) (ht : r.recordType = .out) :
    r.act id = some (if r.content = [] then .outEnd else .out) := by
  have hne : ¬ r.IsAnswer id := by
    rintro (⟨h, -⟩ | ⟨-, h | h⟩)
    · exact h hid
    · cases ht.symm.trans h
    · cases ht.symm.trans h
  have hrefusal : ¬ r.IsRefusal := fun h => by cases ht.symm.trans h.1
  rw [Record.act, if_neg hne, if_neg (not_not.mpr hid), if_neg hrefusal, if_pos ht]

/-- A record of the errors, or their end. -/
theorem act_err (hid : r.requestId = id) (ht : r.recordType = .err) :
    r.act id = some (if r.content = [] then .errEnd else .err) := by
  have hne : ¬ r.IsAnswer id := by
    rintro (⟨h, -⟩ | ⟨-, h | h⟩)
    · exact h hid
    · cases ht.symm.trans h
    · cases ht.symm.trans h
  have hrefusal : ¬ r.IsRefusal := fun h => by cases ht.symm.trans h.1
  rw [Record.act, if_neg hne, if_neg (not_not.mpr hid), if_neg hrefusal,
    if_neg (by rw [ht]; decide), if_pos ht]

theorem act_complete (hid : id < 65536) (status : BitVec 32) :
    (Record.endRequest id status .requestComplete).act id = some .complete := by
  have hid' : (Record.endRequest id status .requestComplete).requestId = id :=
    Record.requestId_endRequest hid
  have hrefusal : ¬ (Record.endRequest id status .requestComplete).IsRefusal := fun h => by
    have := congrArg (·[4]?) (Record.content_endRequest.symm.trans h.2)
    cases this
  have hne : ¬ (Record.endRequest id status .requestComplete).IsAnswer id := by
    rintro (⟨h, -⟩ | ⟨-, h | h⟩)
    · exact h hid'
    · cases h
    · cases h
  rw [Record.act, if_neg hne, if_neg (not_not.mpr hid'), if_neg hrefusal,
    Record.recordType_endRequest, if_neg (by decide), if_neg (by decide),
    Record.content_endRequest, if_pos ⟨rfl, rfl, rfl⟩]

/-- A refusal is an answer, or it rejects the request. -/
theorem act_refusal (id' : Nat) :
    (Record.endRequest id' 0 .cantMpxConn).act id = some .answer ∨
      (Record.endRequest id' 0 .cantMpxConn).act id = some .reject := by
  have hrefusal : (Record.endRequest id' 0 .cantMpxConn).IsRefusal :=
    ⟨rfl, Record.content_endRequest⟩
  by_cases hid : (Record.endRequest id' 0 .cantMpxConn).requestId = id
  · exact .inr (Record.act_eq_reject_iff.mpr ⟨hid, hrefusal⟩)
  · exact .inl (if_pos (.inl ⟨hid, hrefusal⟩))

/-- An answer to a management record. -/
theorem act_management (hid : r.requestId = 0)
    (ht : r.recordType = .unknownType ∨ r.recordType = .getValuesResult) :
    r.act id = some .answer := if_pos (.inr ⟨hid, ht⟩)

end

/-! ### What is said of the request itself -/

/-- The records `rs` lead from the phase `φ` to `ψ`, and none of them rejects the request. -/
structure Utterance (id : Nat) (rs : List Record) (φ ψ : Phase) : Prop where
  run : (conversation id).run φ rs = some ψ
  plain : ∀ r ∈ rs, ¬ r.Rejects id

section

variable {id : Nat} {r : Record} {rs rs' : List Record} {φ ψ χ : Phase}

theorem Utterance.nil : Utterance id [] φ φ := ⟨rfl, nofun⟩

theorem Utterance.single {a : Act} (h : r.act id = some a) (ha : a ≠ .reject)
    (hnext : φ.next a = some ψ) : Utterance id [r] φ ψ where
  run := Monitor.run_singleton.trans ((congrArg (·.bind φ.next) h).trans hnext)
  plain r' hr' hrejects := by
    obtain rfl := List.mem_singleton.mp hr'
    exact ha (Option.some.inj (h.symm.trans (Record.act_eq_reject_iff.mpr hrejects)))

theorem Utterance.trans (h : Utterance id rs φ ψ) (h' : Utterance id rs' ψ χ) :
    Utterance id (rs ++ rs') φ χ :=
  ⟨Monitor.run_trans h.run h'.run, fun r hr =>
    (List.mem_append.mp hr).elim (h.plain r) (h'.plain r)⟩

/-- What `conversation` permits without a rejection, `lenient` permits. -/
theorem Utterance.run_lenient (h : Utterance id rs φ ψ) : (lenient id).run φ rs = some ψ :=
  (lenient_run h.plain).trans h.run

end

/-! ### The permitted strings -/

/-- The acts before the output ends: no errors come after their end. -/
structure Body (errEnded : Bool) (acts : List Act) : Prop where
  mem : ∀ a ∈ acts, a = .answer ∨ a = .out ∨ a = .err ∨ a = .errEnd
  order : acts.Pairwise fun a b => a = .errEnd → b ≠ .err ∧ b ≠ .errEnd
  ended : errEnded = true → ∀ a ∈ acts, a ≠ .err ∧ a ≠ .errEnd

/-- The acts from the end of the output, or of the request, on, and the phase they lead to. -/
inductive Tail (errEnded : Bool) : Phase → List Act → Prop
  | «open» : Tail errEnded (.open errEnded) []
  | ending : Tail errEnded .ending [.outEnd]
  | ended (answers : List Act) (h : ∀ a ∈ answers, a = .answer) :
      Tail errEnded .ended (.outEnd :: .complete :: answers)
  | rejected (answers : List Act) (h : ∀ a ∈ answers, a = .answer) :
      Tail errEnded .ended (.reject :: answers)

section

variable {acts : List Act} {φ : Phase} {e : Bool}

/-- What comes after the request has ended are answers. -/
theorem run_ended_iff :
    Phase.next.run .ended acts = some φ ↔ φ = .ended ∧ ∀ a ∈ acts, a = .answer := by
  induction acts with
  | nil => exact ⟨fun h => ⟨(Option.some.inj h).symm, fun _ ha => absurd ha List.not_mem_nil⟩,
      fun h => by rw [h.1]; rfl⟩
  | cons a acts ih =>
      rw [Monitor.run_cons, List.forall_mem_cons]
      cases a with
      | answer => simpa [Phase.next] using ih
      | _ => simp [Phase.next]

/-- After the end of the output only the completion may come, and then answers. -/
theorem run_outEnd_iff :
    Phase.next.run (.open e) (.outEnd :: acts) = some φ ↔ Tail e φ (.outEnd :: acts) := by
  change Phase.next.run .ending acts = some φ ↔ _
  cases acts with
  | nil =>
      refine ⟨fun h => ?_, fun h => ?_⟩
      · cases h
        exact .ending
      · cases h
        rfl
  | cons a acts =>
      rw [Monitor.run_cons]
      cases a with
      | complete =>
          refine run_ended_iff.trans ⟨fun h => ?_, fun h => ?_⟩
          · obtain ⟨rfl, h⟩ := h
            exact .ended acts h
          · cases h with
            | ended _ h => exact ⟨rfl, h⟩
      | _ =>
          refine ⟨fun h => ?_, fun h => ?_⟩
          · cases h
          · cases h

/-- One more act before the end of the output. -/
theorem Body.cons {a : Act} (h : Body e acts)
    (ha : a = .answer ∨ a = .out ∨ a = .err ∧ e = false) : Body e (a :: acts) where
  mem := List.forall_mem_cons.mpr ⟨by tauto, h.mem⟩
  order := by
    refine List.pairwise_cons.mpr ⟨fun b _ he => ?_, h.order⟩
    rcases ha with rfl | rfl | ⟨rfl, -⟩ <;> cases he
  ended he := by
    refine List.forall_mem_cons.mpr ⟨?_, h.ended he⟩
    rcases ha with rfl | rfl | ⟨-, ha⟩
    · simp
    · simp
    · cases he.symm.trans ha

/-- The end of the errors comes once. -/
theorem Body.errEnd (h : Body true acts) : Body false (.errEnd :: acts) where
  mem := List.forall_mem_cons.mpr ⟨by tauto, h.mem⟩
  order := List.pairwise_cons.mpr ⟨fun b hb _ => h.ended rfl b hb, h.order⟩
  ended he := by cases he

/-- The acts before the end of the output, evaluated. -/
theorem run_body : ∀ {acts : List Act} {e : Bool}, Body e acts →
    Phase.next.run (.open e) acts = some (.open (e || decide (.errEnd ∈ acts)))
  | [], e, _ => by simp
  | a :: acts, e, h => by
      have hmem := h.mem a List.mem_cons_self
      have htail : Body e acts := ⟨fun b hb => h.mem b (List.mem_cons_of_mem _ hb),
        h.order.of_cons, fun he b hb => h.ended he b (List.mem_cons_of_mem _ hb)⟩
      rw [Monitor.run_cons]
      rcases hmem with rfl | rfl | rfl | rfl
      · simpa [Phase.next] using run_body htail
      · simpa [Phase.next] using run_body htail
      · cases e with
        | false => simpa [Phase.next] using run_body htail
        | true => exact absurd rfl (h.ended rfl _ List.mem_cons_self).1
      · cases e with
        | false =>
            have hend : Body true acts :=
              ⟨htail.mem, htail.order, fun _ b hb => List.rel_of_pairwise_cons h.order hb rfl⟩
            simpa [Phase.next] using run_body hend
        | true => exact absurd rfl (h.ended rfl _ List.mem_cons_self).2

/-- **The permitted strings**: a body, and what ends the request. -/
theorem conversation_iff : Phase.next.run (.open e) acts = some φ ↔
    ∃ body tail, acts = body ++ tail ∧ Body e body ∧
      Tail (e || decide (.errEnd ∈ body)) φ tail := by
  refine ⟨fun h => ?_, fun h => ?_⟩
  -- From the run to the two parts, along the acts: the first end of `STDOUT` starts the tail.
  · induction acts generalizing e with
    | nil =>
        cases h
        refine ⟨[], [], rfl, ⟨fun _ ha => absurd ha List.not_mem_nil, .nil,
          fun _ _ ha => absurd ha List.not_mem_nil⟩, ?_⟩
        simpa using Tail.open
    | cons a as ih =>
        cases a with
        | outEnd => exact ⟨[], _, rfl, ⟨fun _ ha => absurd ha List.not_mem_nil, .nil,
            fun _ _ ha => absurd ha List.not_mem_nil⟩, by simpa using run_outEnd_iff.mp h⟩
        | complete => cases h
        | reject =>
            obtain ⟨rfl, hanswers⟩ := run_ended_iff.mp (show Phase.next.run .ended as = _ from h)
            exact ⟨[], _, rfl, ⟨fun _ ha => absurd ha List.not_mem_nil, .nil,
              fun _ _ ha => absurd ha List.not_mem_nil⟩, .rejected as hanswers⟩
        | answer =>
            obtain ⟨body, tail, rfl, hbody, htail⟩ := ih h
            exact ⟨.answer :: body, tail, rfl, hbody.cons (.inl rfl), by simpa using htail⟩
        | out =>
            obtain ⟨body, tail, rfl, hbody, htail⟩ := ih h
            exact ⟨.out :: body, tail, rfl, hbody.cons (.inr (.inl rfl)), by simpa using htail⟩
        | err =>
            cases e with
            | true => cases h
            | false =>
                obtain ⟨body, tail, rfl, hbody, htail⟩ := ih h
                exact ⟨.err :: body, tail, rfl, hbody.cons (.inr (.inr ⟨rfl, rfl⟩)),
                  by simpa using htail⟩
        | errEnd =>
            cases e with
            | true => cases h
            | false =>
                obtain ⟨body, tail, rfl, hbody, htail⟩ := ih h
                exact ⟨.errEnd :: body, tail, rfl, hbody.errEnd, by simpa using htail⟩
  -- Back: the body keeps the phase open, and each tail is run on from there.
  · obtain ⟨body, tail, rfl, hbody, htail⟩ := h
    rw [Monitor.run_append, run_body hbody, Option.bind_some]
    cases htail with
    | «open» => rfl
    | ending => rfl
    | ended answers h => exact run_ended_iff.mpr ⟨rfl, h⟩
    | rejected answers h => exact run_ended_iff.mpr ⟨rfl, h⟩

end

/-! ### The end of the request -/

/-- The record ends the request `id`. -/
def Record.EndsRequest (id : Nat) (r : Record) : Prop :=
  r.requestId = id ∧ r.recordType = .endRequest

instance (id : Nat) (r : Record) : Decidable (r.EndsRequest id) := by
  unfold Record.EndsRequest; infer_instance

section

variable {id : Nat} {r : Record} {rs : List Record} {φ ψ : Phase}

/-- A record that a server may send ends the request if it completes or rejects it. -/
theorem Record.endsRequest_iff {a : Act} (h : r.act id = some a) :
    r.EndsRequest id ↔ a = .complete ∨ a = .reject := by
  by_cases hr : r.EndsRequest id
  · obtain ⟨hid, ht⟩ := hr
    have hne : ¬ r.IsAnswer id := by
      rintro (⟨h, -⟩ | ⟨-, h | h⟩)
      · exact h hid
      · cases ht.symm.trans h
      · cases ht.symm.trans h
    have hout : ¬ r.recordType = .out := fun e => by cases ht.symm.trans e
    have herr : ¬ r.recordType = .err := fun e => by cases ht.symm.trans e
    rw [Record.act, if_neg hne, if_neg (not_not.mpr hid), if_neg hout, if_neg herr] at h
    refine iff_of_true ⟨hid, ht⟩ ?_
    split_ifs at h <;> cases h
    · exact .inr rfl
    · exact .inl rfl
  · refine iff_of_false hr fun ha => hr ?_
    unfold Record.act at h
    split_ifs at h with hanswer hid hrefusal hout hnil herr hnil hcomplete <;> cases h
    all_goals first
      | exact ⟨not_not.mp hid, hrefusal.1⟩
      | exact ⟨not_not.mp hid, hcomplete.1⟩
      | simp at ha

/-- The request ends with an act that completes or rejects it. -/
theorem Phase.next_ended {a : Act} (h : φ.next a = some ψ) :
    if a = .complete ∨ a = .reject then φ ≠ .ended ∧ ψ = .ended
    else ψ = .ended ↔ φ = .ended := by
  cases φ with
  | «open» e => cases e <;> cases a <;> cases h <;> simp
  | ending => cases a <;> cases h; simp
  | ended => cases a <;> cases h; simp

/-- **A conversation ends the request once** if its phase says that the request has ended, and
otherwise not. -/
theorem conversation_ends (h : (conversation id).run φ rs = some ψ) :
    rs.countP (fun r => decide (r.EndsRequest id)) + (if φ = .ended then 1 else 0) =
      if ψ = .ended then 1 else 0 := by
  induction rs generalizing φ with
  | nil =>
      cases h
      simp
  | cons r rs ih =>
      obtain ⟨χ, hstep, hrun⟩ := Option.bind_eq_some_iff.mp h
      obtain ⟨a, hact, hnext⟩ := Option.bind_eq_some_iff.mp hstep
      have hends := Record.endsRequest_iff hact
      have hended := Phase.next_ended hnext
      rw [List.countP_cons, ← ih hrun]
      by_cases ha : a = .complete ∨ a = .reject
      · obtain ⟨hφ, rfl⟩ := (if_pos ha).mp hended
        simp [hends, ha, hφ]
      · have hφ : χ = .ended ↔ φ = .ended := (if_neg ha).mp hended
        simp [hends, ha, hφ]

end

end Fcgi

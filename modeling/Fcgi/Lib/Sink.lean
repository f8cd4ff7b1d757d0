import Fcgi.Lib.Prog

/-!
# Lib — a sink that may take less than it is given

A program hands chunks to a sink.  How much the sink takes of each is written down in advance, in
a list of counts; when the list is used up it takes all.  A program that stops as soon as a chunk
is not taken whole runs like the one whose sink takes all, or stops with less having been sent:
it is `Chunked`.

The program is compared with itself at a sink that takes all: that run determines the chunks `cs`
(`Hands`), and the counts decide how far the other run follows it.  If they cover the chunks
(`Whole`) both runs end alike; otherwise the other one is aborted at the first chunk that is cut.
For a sequence the counts left over by the first program are those of the second
(`whole_append`).
-/

namespace Fcgi.Lib

variable {σ τ ε α β γ : Type}

/-- Each of the chunks is taken whole. -/
def Whole : List (List γ) → List Nat → Prop
  | [], _ => True
  | _ :: _, [] => True
  | c :: cs, n :: ns => c.length ≤ n ∧ Whole cs ns

@[simp] theorem whole_nil (ns : List Nat) : Whole ([] : List (List γ)) ns := trivial

/-- Without counts everything is taken. -/
theorem whole_counts_nil : ∀ cs : List (List γ), Whole cs []
  | [] => trivial
  | _ :: _ => trivial

/-- The counts that the first chunks leave are for the others. -/
theorem whole_append : ∀ {cs ds : List (List γ)} {ns : List Nat},
    Whole (cs ++ ds) ns ↔ Whole cs ns ∧ Whole ds (ns.drop cs.length)
  | [], ds, ns => by simp
  | c :: cs, ds, [] => by simp [Whole, whole_counts_nil]
  | c :: cs, ds, n :: ns => by
      rw [List.cons_append, Whole, Whole, whole_append, List.length_cons, List.drop_succ_cons,
        and_assoc]

/-- A sink in the state.  `With ns s t` says that `t` is the state `s`, whose sink takes all, but
with the counts `ns` to come. -/
structure Sink (σ γ : Type) where
  sent : σ → List γ
  With : List Nat → σ → σ → Prop
  sent_eq : ∀ {ns s t}, With ns s t → sent t = sent s
  refl : ∀ {ns s t}, With ns s t → With [] s s

variable {S : Sink σ γ} {T : Sink τ γ}

/-- From `s`, the program `m` hands over the chunks `cs`, and stops at the first that is not taken
whole. -/
structure Hands (S : Sink σ γ) (m : Prog σ ε α) (s : σ) (cs : List (List γ)) : Prop where
  sent : S.sent (m s).2 = S.sent s ++ cs.flatten
  whole : ∀ {ns t}, S.With ns s t → Whole cs ns →
    (m t).1 = (m s).1 ∧ S.With (ns.drop cs.length) (m s).2 (m t).2
  cut : ∀ {ns t}, S.With ns s t → ¬ Whole cs ns →
    (m t).1 = .error .abort ∧ (S.sent (m t).2).length < (S.sent (m s).2).length

/-- From every state `m` hands some chunks to the sink, whatever the counts. -/
def Chunked (S : Sink σ γ) (m : Prog σ ε α) : Prop :=
  ∀ s, S.With [] s s → ∃ cs, Hands S m s cs

/-- A run whose sink takes all leaves such a sink. -/
theorem Hands.refl {m : Prog σ ε α} {s : σ} {cs : List (List γ)} (h : Hands S m s cs)
    (hs : S.With [] s s) : S.With [] (m s).2 (m s).2 := by
  have := (h.whole hs (whole_counts_nil cs)).2
  rwa [List.drop_nil] at this

namespace Chunked

/-- A program that hands over nothing. -/
theorem of_silent {m : Prog σ ε α} (hsent : ∀ s, S.sent (m s).2 = S.sent s)
    (h : ∀ {ns s t}, S.With ns s t → (m t).1 = (m s).1 ∧ S.With ns (m s).2 (m t).2) :
    Chunked S m := fun s _ => ⟨[], by rw [hsent, List.flatten_nil, List.append_nil],
      fun ht _ => h ht, fun _ hc => absurd trivial hc⟩

theorem pure (a : α) : Chunked S (Pure.pure a : Prog σ ε α) :=
  of_silent (fun _ => rfl) fun h => ⟨rfl, h⟩

theorem fault (x : Fault ε) : Chunked S (Prog.fault x : Prog σ ε α) :=
  of_silent (fun _ => rfl) fun h => ⟨rfl, h⟩

theorem throw (e : ε) : Chunked S (Prog.throw e : Prog σ ε α) := fault _

theorem assert (p : Prop) {_ : Decidable p} : Chunked S (Prog.assert p : Prog σ ε Unit) := by
  refine of_silent (fun s => ?_) fun {_ s t} h => ?_
  · rw [Prog.assert_run]
    split <;> rfl
  · rw [Prog.assert_run, Prog.assert_run]
    split
    · exact ⟨rfl, h⟩
    · exact ⟨rfl, h⟩

theorem ofExcept (x : Except ε α) : Chunked S (Prog.ofExcept x : Prog σ ε α) := by
  cases x with
  | error e => exact throw e
  | ok a => exact pure a

/-- A change of the state that sends nothing. -/
theorem modify {f : σ → σ} (hsent : ∀ s, S.sent (f s) = S.sent s)
    (h : ∀ {ns s t}, S.With ns s t → S.With ns (f s) (f t)) :
    Chunked S (Prog.modify f : Prog σ ε Unit) := of_silent hsent fun ht => ⟨rfl, h ht⟩

/-- What is read of the state does not tell the sinks apart. -/
theorem get {f : σ → Prog σ ε β} (hf : ∀ {ns s t}, S.With ns s t → f t = f s)
    (h : ∀ s, Chunked S (f s)) : Chunked S (Prog.get >>= f) := by
  intro s hs
  obtain ⟨cs, hc⟩ := h s s hs
  refine ⟨cs, hc.sent, fun {ns t} ht hw => ?_, fun {ns t} ht hw => ?_⟩ <;>
    rw [Prog.bind_ok (Prog.get_run t), Prog.bind_ok (Prog.get_run s), hf ht]
  · exact hc.whole ht hw
  · exact hc.cut ht hw

/-- The chunks of the branch taken. -/
theorem ite {p : Prop} {_ : Decidable p} {m m' : Prog σ ε α} (h : Chunked S m)
    (h' : Chunked S m') : Chunked S (if p then m else m') := by
  split
  · exact h
  · exact h'

/-- The chunks of a sequence are those of its parts. -/
theorem bind {m : Prog σ ε α} {f : α → Prog σ ε β} (hm : Chunked S m)
    (hf : ∀ a, Chunked S (f a)) : Chunked S (m >>= f) := by
  intro s hs
  obtain ⟨cs, hc⟩ := hm s hs
  rcases e : m s with ⟨x | a, s₁⟩
  · -- the first part ends the run
    have hrun : ∀ {t t' : σ} {y : Fault ε}, m t = (.error y, t') → (m >>= f) t = (.error y, t') :=
      Prog.bind_error
    have hms := hc.refl hs
    refine ⟨cs, ?_, fun {ns t} ht hw => ?_, fun {ns t} ht hw => ?_⟩
    · rw [hrun e, ← hc.sent, e]
    · obtain ⟨h₁, h₂⟩ := hc.whole ht hw
      rw [e] at h₁ h₂
      rcases e' : m t with ⟨r, t₁⟩
      rw [e'] at h₁ h₂
      cases h₁
      rw [hrun e, hrun e']
      exact ⟨rfl, h₂⟩
    · obtain ⟨h₁, h₂⟩ := hc.cut ht hw
      rcases e' : m t with ⟨r, t₁⟩
      rw [e'] at h₁ h₂
      cases h₁
      rw [hrun e']
      rw [e] at h₂
      rw [hrun e]
      exact ⟨rfl, h₂⟩
  -- The first part returns, so the chunks of both follow each other.
  · have hs₁ := hc.refl hs
    rw [e] at hs₁
    obtain ⟨ds, hd⟩ := hf a s₁ hs₁
    have hsent : S.sent s₁ = S.sent s ++ cs.flatten := by rw [← hc.sent, e]
    have hrun : (m >>= f) s = f a s₁ := Prog.bind_ok e
    refine ⟨cs ++ ds, ?_, fun {ns t} ht hw => ?_, fun {ns t} ht hw => ?_⟩
    · rw [hrun, hd.sent, hsent, List.flatten_append, List.append_assoc]
    · obtain ⟨hwc, hwd⟩ := whole_append.mp hw
      obtain ⟨h₁, h₂⟩ := hc.whole ht hwc
      rw [e] at h₁ h₂
      rcases e' : m t with ⟨r, t₁⟩
      rw [e'] at h₁ h₂
      cases h₁
      rw [hrun, Prog.bind_ok e', List.length_append, ← List.drop_drop]
      exact hd.whole h₂ hwd
    -- The cut is in the second part, or already in the first.
    · by_cases hwc : Whole cs ns
      · obtain ⟨h₁, h₂⟩ := hc.whole ht hwc
        rw [e] at h₁ h₂
        rcases e' : m t with ⟨r, t₁⟩
        rw [e'] at h₁ h₂
        cases h₁
        rw [hrun, Prog.bind_ok e']
        exact hd.cut h₂ fun hwd => hw (whole_append.mpr ⟨hwc, hwd⟩)
      · obtain ⟨h₁, h₂⟩ := hc.cut ht hwc
        rcases e' : m t with ⟨r, t₁⟩
        rw [e'] at h₁ h₂
        cases h₁
        rw [hrun, Prog.bind_error e']
        refine ⟨rfl, Nat.lt_of_lt_of_le h₂ ?_⟩
        rw [e, hd.sent, List.length_append]
        exact Nat.le_add_right _ _

/-- A program on another state, that runs `m` on a part of it and goes by how `m` ends. -/
theorem embed {m : Prog σ ε α} (hm : Chunked S m) {m' : Prog τ ε β} (view : τ → σ)
    (put : σ → τ → τ) (F : Except (Fault ε) α → σ → Except (Fault ε) β)
    (hrun : ∀ t, m' t = (F (m (view t)).1 (m (view t)).2, put (m (view t)).2 t))
    (hview : ∀ {ns t t'}, T.With ns t t' → S.With ns (view t) (view t'))
    (hput : ∀ {ns ns' t t' s s'}, T.With ns t t' → S.With ns' s s' →
      T.With ns' (put s t) (put s' t'))
    (hF : ∀ {ns s s'} r, S.With ns s s' → F r s' = F r s)
    (habort : ∀ s, F (.error .abort) s = .error .abort)
    (hsent : ∀ s t, T.sent (put s t) = S.sent s) (hsent' : ∀ t, S.sent (view t) = T.sent t) :
    Chunked T m' := by
  intro t ht
  obtain ⟨cs, hc⟩ := hm (view t) (hview ht)
  refine ⟨cs, ?_, fun {ns t'} ht' hw => ?_, fun {ns t'} ht' hw => ?_⟩
  · rw [hrun, hsent, hc.sent, hsent']
  · obtain ⟨h₁, h₂⟩ := hc.whole (hview ht') hw
    rw [hrun, hrun, h₁]
    exact ⟨hF _ h₂, hput ht' h₂⟩
  · obtain ⟨h₁, h₂⟩ := hc.cut (hview ht') hw
    rw [hrun, hrun, h₁, hsent, hsent]
    exact ⟨habort _, h₂⟩

/-- A failed assertion is not caught, so a run that was cut stays cut. -/
theorem attempt {m : Prog σ ε α} (hm : Chunked S m) : Chunked S (Prog.attempt m) := by
  refine hm.embed id (fun s _ => s) (fun r _ => match r with
    | .ok a => .ok (.ok a)
    | .error (.exc e) => .ok (.error e)
    | .error .abort => .error .abort
    | .error .undef => .error .undef
    | .error .spent => .error .spent) (fun s => ?_) (fun h => h) (fun _ h => h) (fun _ _ => rfl)
    (fun _ => rfl) (fun _ _ => rfl) fun _ => rfl
  rcases e : m s with ⟨(_ | _ | _ | _) | a, s'⟩ <;> simp only [Prog.attempt, id, e]

/-- A program run on a part of the state. -/
theorem zoom {m : Prog σ ε α} (hm : Chunked S m) {view : τ → σ} {put : σ → τ → τ}
    (hview : ∀ {ns t t'}, T.With ns t t' → S.With ns (view t) (view t'))
    (hput : ∀ {ns ns' t t' s s'}, T.With ns t t' → S.With ns' s s' →
      T.With ns' (put s t) (put s' t'))
    (hsent : ∀ s t, T.sent (put s t) = S.sent s) (hsent' : ∀ t, S.sent (view t) = T.sent t) :
    Chunked T (Prog.zoom view put m) :=
  hm.embed view put (fun r _ => r) (fun _ => rfl) hview hput (fun _ _ => rfl) (fun _ => rfl) hsent
    hsent'

/-- A loop whose rounds are chunked, if the calls in them are. -/
theorem recLoop {body : Nat → (β → Prog σ ε α) → β → Prog σ ε (Flow β α)}
    (h : ∀ n call, (∀ b, Chunked S (call b)) → ∀ b, Chunked S (body n call b)) :
    ∀ n b, Chunked S (Prog.recLoop body n b)
  | 0, _ => fault _
  | n + 1, b => by
      have ih := recLoop h n
      refine (h n _ ih b).bind fun r => ?_
      cases r with
      | again b' => exact ih b'
      | done a => exact pure a

end Chunked

end Fcgi.Lib

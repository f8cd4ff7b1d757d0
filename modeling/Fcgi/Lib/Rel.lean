import Fcgi.Lib.Prog

/-!
# Lib — two runs side by side

`Rel R m m' Q E B`: from states related by `R`, the programs `m` and `m'` end alike, with the same
value in states related by `Q` or with the same fault in states related by `E`, unless `m` ends in
`B`.  `B` says that something has happened in the first run after which the runs may part.

There is one rule for each construct, as for triples.  Two runs that read the state continue from
the two states they have read, `At s t`; below such a precondition the rules `ret`, `stop`, `step`
and `guard` evaluate both programs together.  The rule `bind` asks that the rest of the first
program keeps `B`, so that runs that have parted stay so; where the first part cannot come to `B`,
`seq` does without that.
-/

namespace Fcgi.Lib

variable {σ τ ε α β : Type}

/-- How two runs end alike. -/
inductive Alike (Q : α → σ → τ → Prop) (E : σ → τ → Prop) :
    Except (Fault ε) α × σ → Except (Fault ε) α × τ → Prop
  | ok {a : α} {s : σ} {t : τ} (h : Q a s t) : Alike Q E (.ok a, s) (.ok a, t)
  | error {x : Fault ε} {s : σ} {t : τ} (h : E s t) : Alike Q E (.error x, s) (.error x, t)

/-- Runs that end alike have the same result. -/
theorem Alike.result {Q : α → σ → τ → Prop} {E : σ → τ → Prop}
    {p : Except (Fault ε) α × σ} {q : Except (Fault ε) α × τ} (h : Alike Q E p q) : q.1 = p.1 := by
  cases h <;> rfl

/-- What holds however the runs end. -/
theorem Alike.states {R : σ → τ → Prop} {p : Except (Fault ε) α × σ}
    {q : Except (Fault ε) α × τ} (h : Alike (fun _ => R) R p q) : R p.2 q.2 := by
  cases h with
  | ok h => exact h
  | error h => exact h

/-- Two runs on parts of the states. -/
theorem Alike.zoom {σ' τ' : Type} {view : σ' → σ} {put : σ → σ' → σ'} {view' : τ' → τ}
    {put' : τ → τ' → τ'} {m : Prog σ ε α} {m' : Prog τ ε α} {R : σ → τ → Prop}
    {S : σ' → τ' → Prop} {s : σ'} {t : τ'}
    (h : Alike (fun _ => R) R (m (view s)) (m' (view' t)))
    (hput : ∀ {x y}, R x y → S (put x s) (put' y t)) :
    Alike (fun _ => S) S (Prog.zoom view put m s) (Prog.zoom view' put' m' t) := by
  rcases e : m (view s) with ⟨r, x⟩
  rcases e' : m' (view' t) with ⟨r', y⟩
  rw [e, e'] at h
  rw [Prog.zoom_run e, Prog.zoom_run e']
  cases h with
  | ok h => exact .ok (hput h)
  | error h => exact .error (hput h)

/-- Catching an exception in both runs. -/
theorem Alike.attempt {m : Prog σ ε α} {m' : Prog τ ε α} {S : Except ε α → σ → τ → Prop}
    {E : σ → τ → Prop} {s : σ} {t : τ} (h : Alike (fun a => S (.ok a)) E (m s) (m' t))
    (hE : ∀ e s t, E s t → S (.error e) s t) :
    Alike S E (Prog.attempt m s) (Prog.attempt m' t) := by
  rcases e : m s with ⟨x | a, s'⟩ <;> rcases e' : m' t with ⟨y | b, t'⟩ <;> rw [e, e'] at h
  · cases h with
    | error he =>
        cases x with
        | exc x => rw [Prog.attempt_exc e, Prog.attempt_exc e']; exact .ok (hE x _ _ he)
        | _ => simp only [Prog.attempt, e, e']; exact .error he
  · cases h
  · cases h
  · cases h with
    | ok hq => rw [Prog.attempt_ok e, Prog.attempt_ok e']; exact .ok hq

/-- From states related by `R` the two programs end alike, unless the first has come to `B`. -/
def Rel (R : σ → τ → Prop) (m : Prog σ ε α) (m' : Prog τ ε α) (Q : α → σ → τ → Prop)
    (E : σ → τ → Prop) (B : σ → Prop) : Prop :=
  ∀ s t, R s t → B (m s).2 ∨ Alike Q E (m s) (m' t)

/-- The states `s` and `t`. -/
def At (s : σ) (t : τ) (s' : σ) (t' : τ) : Prop := s' = s ∧ t' = t

namespace Rel

variable {R R' : σ → τ → Prop} {m : Prog σ ε α} {m' : Prog τ ε α} {Q Q' : α → σ → τ → Prop}
  {E : σ → τ → Prop} {B : σ → Prop}

theorem conseq (h : Rel R m m' Q E B) (hR : ∀ s t, R' s t → R s t)
    (hQ : ∀ a s t, Q a s t → Q' a s t) : Rel R' m m' Q' E B := by
  intro s t hst
  refine (h s t (hR s t hst)).imp_right fun ha => ?_
  cases e : m s
  cases e' : m' t
  rw [e, e'] at ha
  cases ha with
  | ok hq => exact .ok (hQ _ _ _ hq)
  | error he => exact .error he

theorem pre (h : Rel R m m' Q E B) (hR : ∀ s t, R' s t → R s t) : Rel R' m m' Q E B :=
  h.conseq hR fun _ _ _ => id

theorem post (h : Rel R m m' Q E B) (hQ : ∀ a s t, Q a s t → Q' a s t) : Rel R m m' Q' E B :=
  h.conseq (fun _ _ => id) hQ

/-- The faults may be related by less. -/
theorem fail {E' : σ → τ → Prop} (h : Rel R m m' Q E B) (hE : ∀ s t, E s t → E' s t) :
    Rel R m m' Q E' B := by
  intro s t hst
  refine (h s t hst).imp_right fun ha => ?_
  cases e : m s
  cases e' : m' t
  rw [e, e'] at ha
  cases ha with
  | ok hq => exact .ok hq
  | error he => exact .error (hE _ _ he)

/-- Runs that never part. -/
theorem mono (h : Rel R m m' Q E fun _ => False) : Rel R m m' Q E B := fun s t hst =>
  .inr ((h s t hst).resolve_left id)

/-- The runs have parted. -/
theorem parted (hm : Keeps B m) (h : ∀ s t, R s t → B s) : Rel R m m' Q E B :=
  fun s t hst => .inl (hm.run (h s t hst))

theorem pure {a : α} (h : ∀ s t, R s t → Q a s t) :
    Rel R (Pure.pure a : Prog σ ε α) (Pure.pure a : Prog τ ε α) Q E B :=
  fun s t hst => .inr (.ok (h s t hst))

theorem fault {x : Fault ε} (h : ∀ s t, R s t → E s t) :
    Rel R (Prog.fault x : Prog σ ε α) (Prog.fault x) Q E B :=
  fun s t hst => .inr (.error (h s t hst))

theorem throw {e : ε} (h : ∀ s t, R s t → E s t) :
    Rel R (Prog.throw e : Prog σ ε α) (Prog.throw e) Q E B := fault h

theorem modify {f : σ → σ} {g : τ → τ} {Q : Unit → σ → τ → Prop}
    (h : ∀ s t, R s t → Q () (f s) (g t)) :
    Rel R (Prog.modify f : Prog σ ε Unit) (Prog.modify g) Q E B :=
  fun s t hst => .inr (.ok (h s t hst))

theorem get {f : σ → Prog σ ε β} {g : τ → Prog τ ε β} {S : β → σ → τ → Prop}
    (h : ∀ s t, R s t → Rel (At s t) (f s) (g t) S E B) :
    Rel R (Prog.get >>= f) (Prog.get >>= g) S E B := fun s t hst => h s t hst s t ⟨rfl, rfl⟩

/-- What has happened in the first program must not be undone by the second. -/
theorem bind {f : α → Prog σ ε β} {g : α → Prog τ ε β} {S : β → σ → τ → Prop}
    (hm : Rel R m m' Q E B) (hB : ∀ a, Keeps B (f a)) (h : ∀ a, Rel (Q a) (f a) (g a) S E B) :
    Rel R (m >>= f) (m' >>= g) S E B := by
  intro s t hst
  rcases hm s t hst with hb | ha
  · exact .inl (Keeps.run_bind hb hB)
  · rw [Prog.bind_run, Prog.bind_run]
    rcases e : m s with ⟨x | a, s'⟩ <;> rcases e' : m' t with ⟨y | b, t'⟩ <;> rw [e, e'] at ha
    · cases ha with
      | error he => exact .inr (.error he)
    · cases ha
    · cases ha
    · cases ha with
      | ok hq => exact h a s' t' hq

/-- The first program does not part the runs. -/
theorem seq {f : α → Prog σ ε β} {g : α → Prog τ ε β} {S : β → σ → τ → Prop}
    (hm : Rel R m m' Q E fun _ => False) (h : ∀ a, Rel (Q a) (f a) (g a) S E B) :
    Rel R (m >>= f) (m' >>= g) S E B := by
  intro s t hst
  have ha := (hm s t hst).resolve_left id
  rw [Prog.bind_run, Prog.bind_run]
  rcases e : m s with ⟨x | a, s'⟩ <;> rcases e' : m' t with ⟨y | b, t'⟩ <;> rw [e, e'] at ha
  · cases ha with
    | error he => exact .inr (.error he)
  · cases ha
  · cases ha
  · cases ha with
    | ok hq => exact h a s' t' hq

theorem ite {p q : Prop} [Decidable p] [Decidable q] {n : Prog σ ε α} {n' : Prog τ ε α}
    (hpq : p ↔ q) (h₁ : p → Rel R m m' Q E B) (h₂ : ¬ p → Rel R n n' Q E B) :
    Rel R (if p then m else n) (if q then m' else n') Q E B := by
  by_cases hp : p
  · rw [if_pos hp, if_pos (hpq.mp hp)]
    exact h₁ hp
  · rw [if_neg hp, if_neg (mt hpq.mpr hp)]
    exact h₂ hp

/-- The same assertion in both programs. -/
theorem assert {p q : Prop} [Decidable p] [Decidable q] {Q : Unit → σ → τ → Prop} (hpq : p ↔ q)
    (h₁ : ∀ s t, R s t → p → Q () s t) (h₂ : ∀ s t, R s t → E s t) :
    Rel R (Prog.assert p : Prog σ ε Unit) (Prog.assert q) Q E B := by
  intro s t hst
  rw [Prog.assert_run, Prog.assert_run]
  by_cases hp : p
  · rw [if_pos hp, if_pos (hpq.mp hp)]
    exact .inr (.ok (h₁ s t hst hp))
  · rw [if_neg hp, if_neg (mt hpq.mpr hp)]
    exact .inr (.error (h₂ s t hst))

/-- The same computation without a state. -/
theorem ofExcept {x : Except ε α} (h : ∀ s t, R s t → (∀ a, Q a s t) ∧ E s t) :
    Rel R (Prog.ofExcept x) (Prog.ofExcept x) Q E B := by
  cases x with
  | error e => exact throw fun s t hst => (h s t hst).2
  | ok a => exact pure fun s t hst => (h s t hst).1 a

/-- A caught exception is the same in both runs. -/
theorem attempt {S : Except ε α → σ → τ → Prop} (h : Rel R m m' (fun a => S (.ok a)) E B)
    (hE : ∀ e s t, E s t → S (.error e) s t) :
    Rel R (Prog.attempt m) (Prog.attempt m') S E B := fun s t hst =>
  (h s t hst).imp (Prog.attempt_state m s).symm.subst fun ha => ha.attempt hE

/-! ### One step after the other, from two states -/

section At

variable {s s₁ : σ} {t t₁ : τ} {a : α} {f : α → Prog σ ε β} {g : α → Prog τ ε β}
  {S : β → σ → τ → Prop}

theorem of_at (h : ∀ s t, R s t → Rel (At s t) m m' Q E B) : Rel R m m' Q E B :=
  fun s t hst => h s t hst s t ⟨rfl, rfl⟩

/-- A relation between programs, at a pair of related states. -/
theorem at_pre (h : Rel R m m' Q E B) (hst : R s t) : Rel (At s t) m m' Q E B := by
  rintro s' t' ⟨rfl, rfl⟩
  exact h s' t' hst

theorem ret (h : Q a s t) : Rel (At s t) (Pure.pure a : Prog σ ε α) (Pure.pure a) Q E B :=
  pure fun _ _ ⟨hs, ht⟩ => hs ▸ ht ▸ h

theorem stop {e : ε} (h : E s t) : Rel (At s t) (Prog.throw e : Prog σ ε α) (Prog.throw e) Q E B :=
  throw fun _ _ ⟨hs, ht⟩ => hs ▸ ht ▸ h

theorem step (hm : m s = (.ok a, s₁)) (hm' : m' t = (.ok a, t₁))
    (h : Rel (At s₁ t₁) (f a) (g a) S E B) : Rel (At s t) (m >>= f) (m' >>= g) S E B := by
  rintro s' t' ⟨rfl, rfl⟩
  rw [Prog.bind_ok hm, Prog.bind_ok hm']
  exact h _ _ ⟨rfl, rfl⟩

theorem guard {p q : Prop} [Decidable p] [Decidable q] {f : Unit → Prog σ ε β}
    {g : Unit → Prog τ ε β} (hpq : p ↔ q) (hE : E s t)
    (h : p → Rel (At s t) (f ()) (g ()) S E B) :
    Rel (At s t) (Prog.assert p >>= f) (Prog.assert q >>= g) S E B := by
  by_cases hp : p
  · exact step (Prog.assert_true hp s) (Prog.assert_true (hpq.mp hp) t) (h hp)
  · rintro s' t' ⟨rfl, rfl⟩
    rw [Prog.bind_error (x := .abort) (by rw [Prog.assert_run, if_neg hp]),
      Prog.bind_error (x := .abort) (by rw [Prog.assert_run, if_neg (mt hpq.mpr hp)])]
    exact .inr (.error hE)

end At

/-- Two recursive loops, the rounds of which keep to `I`. -/
theorem recLoop {body : Nat → (β → Prog σ ε α) → β → Prog σ ε (Flow β α)}
    {body' : Nat → (β → Prog τ ε α) → β → Prog τ ε (Flow β α)} {I : β → σ → τ → Prop}
    (hspent : ∀ b s t, I b s t → E s t) (hB : ∀ n b, Keeps B (Prog.recLoop body n b))
    (step : ∀ n call call', (∀ b, Rel (I b) (call b) (call' b) Q E B) → (∀ b, Keeps B (call b)) →
      ∀ b, Rel (I b) (body n call b) (body' n call' b) (fun r s t => match r with
        | .again b' => I b' s t
        | .done a => Q a s t) E B) :
    ∀ n b, Rel (I b) (Prog.recLoop body n b) (Prog.recLoop body' n b) Q E B
  | 0, b => fault (hspent b)
  | n + 1, b => by
      have ih := recLoop hspent hB step n
      refine bind (step n _ _ ih (hB n) b) (fun r => ?_) fun r => ?_
      · cases r with
        | again b' => exact hB n b'
        | done a => exact Keeps.pure a
      · cases r with
        | again b' => exact ih b'
        | done a => exact pure fun _ _ h => h

end Rel

end Fcgi.Lib

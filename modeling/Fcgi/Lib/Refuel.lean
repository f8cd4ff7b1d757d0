import Fcgi.Lib.Fuel

/-!
# Lib — more fuel

`Refuels m m'`: wherever the program `m` is not spent, `m'` does the same.  So it is when `m'` is
`m` with more fuel (`Refuels.recLoop`), and the fuel decides nothing but whether it lasts.

The rules follow the structure of the program, and nothing has to be known about its states.  With
`forall_fuel` a fact about a run that is not spent is one about the runs with more fuel: it only
has to be shown of the runs with less.
-/

namespace Fcgi.Lib

variable {σ ε α β : Type}

/-- What `m` does without being spent, `m'` does. -/
def Refuels (m m' : Prog σ ε α) : Prop := ∀ s, (m s).1 = .error .spent ∨ m' s = m s

namespace Refuels

variable {m m' : Prog σ ε α}

theorem refl (m : Prog σ ε α) : Refuels m m := fun _ => .inr rfl

/-- The same result and state, if the fuel has lasted. -/
theorem eq (h : Refuels m m') {s : σ} (hs : (m s).1 ≠ .error .spent) : m' s = m s :=
  (h s).resolve_left hs

/-- More fuel for both parts of a sequence. -/
theorem bind {f f' : α → Prog σ ε β} (hm : Refuels m m') (hf : ∀ a, Refuels (f a) (f' a)) :
    Refuels (m >>= f) (m' >>= f') := by
  intro s
  rcases hm s with hs | hs
  · exact .inl (Prog.bind_spent hs)
  · rw [Prog.bind_run, Prog.bind_run, hs]
    rcases m s with ⟨x | a, s'⟩
    · exact .inr rfl
    · exact hf a s'

theorem bind_left (f : α → Prog σ ε β) (hm : Refuels m m') : Refuels (m >>= f) (m' >>= f) :=
  hm.bind fun a => refl (f a)

theorem bind_right (m : Prog σ ε α) {f f' : α → Prog σ ε β} (hf : ∀ a, Refuels (f a) (f' a)) :
    Refuels (m >>= f) (m >>= f') := (refl m).bind hf

theorem ite {p : Prop} {_ : Decidable p} {n n' : Prog σ ε α} (h : Refuels m m')
    (h' : Refuels n n') : Refuels (if p then m else n) (if p then m' else n') := by
  by_cases hp : p
  · rw [if_pos hp, if_pos hp]
    exact h
  · rw [if_neg hp, if_neg hp]
    exact h'

/-- More fuel for a program whose exceptions are caught. -/
theorem attempt (h : Refuels m m') : Refuels (Prog.attempt m) (Prog.attempt m') := by
  intro s
  rcases h s with hs | hs
  · exact .inl (Prog.attempt_spent hs)
  · right
    simp only [Prog.attempt, hs]

/-- A loop with more fuel, the rounds of which have more fuel. -/
theorem recLoop {body body' : Nat → (β → Prog σ ε α) → β → Prog σ ε (Flow β α)}
    (h : ∀ n n' call call', n ≤ n' → (∀ b, Refuels (call b) (call' b)) →
      ∀ b, Refuels (body n call b) (body' n' call' b)) :
    ∀ {n n' : Nat}, n ≤ n' → ∀ b, Refuels (Prog.recLoop body n b) (Prog.recLoop body' n' b)
  | 0, _, _, _ => fun _ => .inl rfl
  | n + 1, n' + 1, hn, b => by
      have ih := recLoop h (Nat.le_of_succ_le_succ hn)
      rw [Prog.recLoop_eq, Prog.recLoop_eq]
      refine (h n n' _ _ (Nat.le_of_succ_le_succ hn) ih b).bind fun r => ?_
      cases r with
      | again b' => exact ih b'
      | done a => exact refl _

end Refuels

/-- What holds of the runs with little fuel, and of one that returns, holds with any fuel. -/
theorem forall_fuel {f : Nat → Prog σ ε α} (hf : ∀ {n n'}, n ≤ n' → Refuels (f n) (f n')) {s : σ}
    {P : Except (Fault ε) α × σ → Prop} {N : Nat} (hN : (f N s).1 ≠ .error .spent)
    (h : ∀ n ≤ N, P (f n s)) (n : Nat) : P (f n s) := by
  by_cases hn : n ≤ N
  · exact h n hn
  · rw [(hf (Nat.le_of_not_le hn)).eq hN]
    exact h N (Nat.le_refl N)

end Fcgi.Lib

import Fcgi.Lib.Prog

/-!
# Lib — runs with enough fuel

A family of programs, one for every amount of fuel.  What it does is what it does with enough.

* `Runs f s r s'`: with enough fuel `f` ends in `r` and `s'`, with less it is spent.
* `Stuck f s`: `f` returns with no amount of fuel.
* `Leads f s g s'`: up to the fuel this takes, `f` from `s` is `g` from `s'`.

`Leads` composes (`Leads.trans`), and a round of a loop leads to the next (`recLoop_again`) or ends
it (`recLoop_done`, `recLoop_error`), so that the run of a loop is a chain of rounds that ends in
`Runs`, or is shown to be `Stuck` by an invariant under which no round is the last
(`recLoop_stuck`).  That less fuel is spent is a part of the definitions: it makes `Runs`
deterministic (`Runs.unique`), and what is said of a result holds of every amount of fuel.
-/

namespace Fcgi.Lib.Prog

variable {σ ε α β : Type}

/-- With enough fuel `f` ends in `r` and `s'`, with less it is spent. -/
def Runs (f : Nat → Prog σ ε α) (s : σ) (r : Except (Fault ε) α) (s' : σ) : Prop :=
  ∃ N, ∀ n, (n < N → (f n s).1 = .error .spent) ∧ (N ≤ n → f n s = (r, s'))

/-- `f` does not return, whatever the fuel. -/
def Stuck (f : Nat → Prog σ ε α) (s : σ) : Prop := ∀ n a s', f n s ≠ (.ok a, s')

/-- Up to some fuel, without which it is spent, `f` from `s` is `g` from `s'`. -/
def Leads (f : Nat → Prog σ ε α) (s : σ) (g : Nat → Prog σ ε α) (s' : σ) : Prop :=
  ∃ N, ∀ n, (n < N → (f n s).1 = .error .spent) ∧ f (N + n) s = g n s'

/-- A sequence is spent where its first program is. -/
theorem bind_spent {m : Prog σ ε α} {k : α → Prog σ ε β} {s : σ} (h : (m s).1 = .error .spent) :
    ((m >>= k) s).1 = .error .spent := by
  rw [bind_error (x := .spent) (by rw [← h])]

namespace Runs

variable {f : Nat → Prog σ ε α} {g : α → Nat → Prog σ ε β} {s s' s'' : σ}
  {r : Except (Fault ε) α}

/-- A family that does not need fuel. -/
theorem of_eq (h : ∀ n, f n s = (r, s')) : Runs f s r s' :=
  ⟨0, fun n => ⟨fun hn => absurd hn (Nat.not_lt_zero n), fun _ => h n⟩⟩

theorem bind {a : α} {q : Except (Fault ε) β} (hf : Runs f s (.ok a) s')
    (hg : Runs (g a) s' q s'') : Runs (fun n => f n >>= fun a => g a n) s q s'' := by
  obtain ⟨N, hf⟩ := hf
  obtain ⟨M, hg⟩ := hg
  refine ⟨max N M, fun n => ⟨fun hn => ?_, fun hn => ?_⟩⟩
  · by_cases hN : N ≤ n
    · exact (congrArg Prod.fst (bind_ok ((hf n).2 hN))).trans ((hg n).1 (by omega))
    · exact bind_spent ((hf n).1 (by omega))
  · exact (bind_ok ((hf n).2 (by omega))).trans ((hg n).2 (by omega))

/-- A program without fuel after one that runs. -/
theorem andThen {a : α} {k : α → Prog σ ε β} {q : Except (Fault ε) β}
    (hf : Runs f s (.ok a) s') (hk : k a s' = (q, s'')) : Runs (fun n => f n >>= k) s q s'' :=
  hf.bind (g := fun a _ => k a) (.of_eq fun _ => hk)

/-- `attempt` of a family that returns. -/
theorem attempt {a : α} (hf : Runs f s (.ok a) s') :
    Runs (fun n => Prog.attempt (f n)) s (.ok (.ok a)) s' := by
  obtain ⟨N, hf⟩ := hf
  exact ⟨N, fun n => ⟨fun hn => attempt_spent ((hf n).1 hn), fun hn => attempt_ok ((hf n).2 hn)⟩⟩

/-- What is spent where `f` is, and returns where `f` does. -/
theorem transfer {τ : Type} {F : Nat → Prog τ ε β} {t t' : τ} {a : α} {q : Except (Fault ε) β}
    (hf : Runs f s (.ok a) s') (hspent : ∀ n, (f n s).1 = .error .spent → (F n t).1 = .error .spent)
    (hok : ∀ n, f n s = (.ok a, s') → F n t = (q, t')) : Runs F t q t' := by
  obtain ⟨N, hf⟩ := hf
  exact ⟨N, fun n => ⟨fun hn => hspent n ((hf n).1 hn), fun hn => hok n ((hf n).2 hn)⟩⟩

/-- Whatever returns, with whatever fuel, does what is done with enough. -/
theorem eq_of_ok {n : Nat} {a : α} (hf : Runs f s r s') (h : f n s = (.ok a, s'')) :
    r = .ok a ∧ s' = s'' := by
  obtain ⟨N, hf⟩ := hf
  by_cases hn : N ≤ n
  · have := (hf n).2 hn
    rw [h] at this
    exact ⟨(congrArg Prod.fst this).symm, (congrArg Prod.snd this).symm⟩
  · have := (hf n).1 (by omega)
    rw [h] at this
    cases this

theorem unique {q : Except (Fault ε) α} (hf : Runs f s r s') (hg : Runs f s q s'') :
    r = q ∧ s' = s'' := by
  obtain ⟨N, hf⟩ := hf
  obtain ⟨M, hg⟩ := hg
  have := ((hf (max N M)).2 (by omega)).symm.trans ((hg (max N M)).2 (by omega))
  exact ⟨congrArg Prod.fst this, congrArg Prod.snd this⟩

/-- A run that ends in a fault never returns. -/
theorem stuck {x : Fault ε} (hf : Runs f s (.error x) s') : Stuck f s := fun _ _ _ h =>
  nomatch (hf.eq_of_ok h).1

/-- A run that returns is not stuck. -/
theorem not_stuck {a : α} (hf : Runs f s (.ok a) s') : ¬ Stuck f s := fun h => by
  obtain ⟨N, hf⟩ := hf
  exact h N a s' ((hf N).2 (Nat.le_refl N))

/-- A sequence is stuck where its second part is. -/
theorem bind_stuck {a : α} (hf : Runs f s (.ok a) s') (hg : Stuck (g a) s') :
    Stuck (fun n => f n >>= fun a => g a n) s := fun n b t h => by
  obtain ⟨a', t', h₁, h₂⟩ := bind_eq_ok h
  obtain ⟨e, rfl⟩ := hf.eq_of_ok h₁
  cases e
  exact hg n b t h₂

end Runs

/-- A sequence is stuck where its first part is. -/
theorem Stuck.bind {f : Nat → Prog σ ε α} {g : α → Nat → Prog σ ε β} {s : σ} (hf : Stuck f s) :
    Stuck (fun n => f n >>= fun a => g a n) s := fun n b t h => by
  obtain ⟨a', t', h₁, -⟩ := bind_eq_ok h
  exact hf n a' t' h₁

namespace Leads

variable {f g h : Nat → Prog σ ε α} {s s' s'' : σ}

/-- Two families that agree on all fuel. -/
theorem of_eq (e : ∀ n, f n s = g n s') : Leads f s g s' :=
  ⟨0, fun n => ⟨fun hn => absurd hn (Nat.not_lt_zero n), by rw [Nat.zero_add, e]⟩⟩

/-- `Leads` composes; the fuels add up. -/
theorem trans (hf : Leads f s g s') (hg : Leads g s' h s'') : Leads f s h s'' := by
  obtain ⟨N, hf⟩ := hf
  obtain ⟨M, hg⟩ := hg
  refine ⟨N + M, fun n => ⟨fun hn => ?_, ?_⟩⟩
  · by_cases hN : n < N
    · exact (hf n).1 hN
    · obtain ⟨k, rfl⟩ := Nat.exists_eq_add_of_le (Nat.le_of_not_lt hN)
      rw [(hf k).2]
      exact (hg k).1 (by omega)
  · rw [Nat.add_assoc, (hf _).2, (hg n).2]

/-- What is spent at the end was spent from the beginning. -/
theorem spent (hf : Leads f s g s') (hg : ∀ n, (g n s').1 = .error .spent) (n : Nat) :
    (f n s).1 = .error .spent := by
  obtain ⟨N, hf⟩ := hf
  by_cases hn : n < N
  · exact (hf n).1 hn
  · obtain ⟨k, rfl⟩ := Nat.exists_eq_add_of_le (Nat.le_of_not_lt hn)
    rw [(hf k).2]
    exact hg k

/-- A run continues what leads to it. -/
theorem runs {r : Except (Fault ε) α} (hf : Leads f s g s') (hg : Runs g s' r s'') :
    Runs f s r s'' := by
  obtain ⟨N, hf⟩ := hf
  obtain ⟨M, hg⟩ := hg
  refine ⟨N + M, fun n => ⟨fun hn => ?_, fun hn => ?_⟩⟩
  · by_cases hN : n < N
    · exact (hf n).1 hN
    · obtain ⟨k, rfl⟩ := Nat.exists_eq_add_of_le (Nat.le_of_not_lt hN)
      rw [(hf k).2]
      exact (hg k).1 (by omega)
  · obtain ⟨k, rfl⟩ := Nat.exists_eq_add_of_le hn
    rw [Nat.add_assoc, (hf _).2]
    exact (hg _).2 (by omega)

/-- What returns, returns with less fuel from where it leads. -/
theorem of_ok {n : Nat} {a : α} (hf : Leads f s g s') (h : f n s = (.ok a, s'')) :
    ∃ k, g k s' = (.ok a, s'') := by
  obtain ⟨N, hf⟩ := hf
  by_cases hN : n < N
  · have := (hf n).1 hN
    rw [h] at this
    cases this
  · obtain ⟨k, rfl⟩ := Nat.exists_eq_add_of_le (Nat.le_of_not_lt hN)
    exact ⟨k, (hf k).2 ▸ h⟩

/-- What leads to a stuck family is stuck. -/
theorem stuck (hf : Leads f s g s') (hg : Stuck g s') : Stuck f s := fun n a t h => by
  obtain ⟨k, hk⟩ := hf.of_ok h
  exact hg k a t hk

/-- With no fuel at all `f` is spent. -/
theorem of_succ (hf : Leads (fun n => f (n + 1)) s g s') (h₀ : ∀ s, (f 0 s).1 = .error .spent) :
    Leads f s g s' := by
  obtain ⟨N, hf⟩ := hf
  refine ⟨N + 1, fun n => ⟨fun hn => ?_, ?_⟩⟩
  · cases n with
    | zero => exact h₀ s
    | succ n => exact (hf n).1 (by omega)
  · rw [Nat.add_right_comm]
    exact (hf n).2

end Leads

/-! ### Loops -/

/-- What a loop does after a round. -/
def goOn (loop : β → Prog σ ε α) : Flow β α → Prog σ ε α
  | .again b => loop b
  | .done a => Prog.pure a

section recLoop

variable {body : Nat → (β → Prog σ ε α) → β → Prog σ ε (Flow β α)} {b : β} {s s' : σ}

/-- A round of a loop, and then what it says. -/
theorem recLoop_eq (n : Nat) (b : β) :
    recLoop body (n + 1) b = (body n (recLoop body n) b >>= goOn (recLoop body n)) := by
  rw [recLoop]
  rfl

/-- A round whose body is `g` from another state; it takes one unit of fuel. -/
theorem recLoop_leads_succ {g : Nat → Prog σ ε (Flow β α)}
    (h : ∀ n, body n (recLoop body n) b s = g n s') :
    Leads (fun n => recLoop body (n + 1) b) s (fun n => g n >>= goOn (recLoop body n)) s' :=
  .of_eq fun n => by rw [recLoop_eq, bind_run, bind_run, h n]

theorem recLoop_leads {g : Nat → Prog σ ε (Flow β α)}
    (h : ∀ n, body n (recLoop body n) b s = g n s') :
    Leads (fun n => recLoop body n b) s (fun n => g n >>= goOn (recLoop body n)) s' :=
  (recLoop_leads_succ h).of_succ fun _ => rfl

/-- A round after which the loop goes on, taking one unit of fuel. -/
theorem recLoop_again_succ {b' : β}
    (h : ∀ n, body n (recLoop body n) b s = (.ok (.again b'), s')) :
    Leads (fun n => recLoop body (n + 1) b) s (fun n => recLoop body n b') s' :=
  (recLoop_leads_succ (g := fun _ => Prog.pure (.again b')) h).trans (.of_eq fun _ => rfl)

theorem recLoop_again {b' : β} (h : ∀ n, body n (recLoop body n) b s = (.ok (.again b'), s')) :
    Leads (fun n => recLoop body n b) s (fun n => recLoop body n b') s' :=
  (recLoop_again_succ h).of_succ fun _ => rfl

theorem recLoop_done {a : α} (h : ∀ n, body n (recLoop body n) b s = (.ok (.done a), s')) :
    Runs (fun n => recLoop body n b) s (.ok a) s' :=
  (recLoop_leads (g := fun _ => Prog.pure (.done a)) h).runs (.of_eq fun _ => rfl)

theorem recLoop_error {x : Fault ε} (h : ∀ n, body n (recLoop body n) b s = (.error x, s')) :
    Runs (fun n => recLoop body n b) s (.error x) s' :=
  (recLoop_leads (g := fun _ => fault x) h).runs (.of_eq fun _ => rfl)

/-- A loop of which no round is its last does not return. -/
theorem recLoop_stuck {I : β → σ → Prop}
    (step : ∀ n call b, Triple (I b) (body n call b)
      (fun r s => match r with | .again b' => I b' s | .done _ => False) fun _ _ => True)
    (hI : I b s) : Stuck (fun n => recLoop body n b) s := fun n _ _ h =>
  (Triple.recLoop (Q := fun _ _ => False) (fun _ _ _ => trivial)
    (fun n call _ b => step n call b) n b).of_ok hI h

/-- A loop of which every round leads to another never ends. -/
theorem recLoop_spent {I : β → σ → Prop}
    (step : ∀ n call b s, I b s → ∃ b' s', body n call b s = (.ok (.again b'), s') ∧ I b' s')
    (n : Nat) (hI : I b s) : (recLoop body n b s).1 = .error .spent := by
  induction n generalizing b s with
  | zero => rfl
  | succ n ih =>
      obtain ⟨b', s', hround, hI'⟩ := step n (recLoop body n) b s hI
      rw [recLoop_succ, hround]
      exact ih hI'

end recLoop

end Fcgi.Lib.Prog

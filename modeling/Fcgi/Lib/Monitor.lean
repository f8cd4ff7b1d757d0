import Mathlib.Data.List.Infix
import Mathlib.Logic.Relation

/-!
# Lib — monitors

A monitor reads events, one after the other.  It says in which phases an event may come, and which
phase follows; `Monitor.run` is the phase after a list of events, or `none` if one of them may not
come where it does.

`M.Tracks s₀ R out c`: the system `c` has put out events that `M` permits from `s₀` on, and the
phase they lead to agrees with `c` (`R`).  **`Tracks.steps`** is the simulation rule: if each step
of the system puts out events that keep this, so does every run.

A monitor is safety only: what it permits may stop anywhere (`run_prefix`).  That something comes to
its end is said by the phase a run leads to.
-/

namespace Fcgi.Lib

variable {σ τ α β γ : Type}

/-- A monitor of the events `α`, with the phases `σ`. -/
def Monitor (σ α : Type) : Type := σ → α → Option σ

namespace Monitor

variable {M : Monitor σ α} {s t : σ} {a : α} {as bs : List α}

/-- The phase after the events. -/
def run (M : Monitor σ α) : σ → List α → Option σ
  | s, [] => some s
  | s, a :: as => (M s a).bind fun t => run M t as

/-- The monitor that reads off an event what `M` is to be told; `none` may never come. -/
def comap (M : Monitor σ β) (f : α → Option β) : Monitor σ α := fun s a => (f a).bind (M s)

@[simp] theorem run_nil : M.run s [] = some s := rfl

/-- The first event, and then the others. -/
theorem run_cons : M.run s (a :: as) = (M s a).bind fun t => M.run t as := rfl

theorem run_append : M.run s (as ++ bs) = (M.run s as).bind fun t => M.run t bs := by
  induction as generalizing s with
  | nil => rfl
  | cons a as ih =>
      rw [List.cons_append, run_cons, run_cons, Option.bind_assoc]
      exact congrArg _ (funext fun t => ih)

theorem run_singleton : M.run s [a] = M s a := by
  rw [run_cons]
  cases M s a <;> rfl

/-- Two parts that are permitted, one after the other. -/
theorem run_trans {u : σ} (h : M.run s as = some t) (h' : M.run t bs = some u) :
    M.run s (as ++ bs) = some u := by
  rw [run_append, h]
  exact h'

theorem run_cons_trans {u : σ} (h : M.run s [a] = some t) (h' : M.run t bs = some u) :
    M.run s (a :: bs) = some u := by
  rw [← List.singleton_append]
  exact run_trans h h'

/-- What comes first is permitted. -/
theorem run_of_append (h : M.run s (as ++ bs) = some t) :
    ∃ u, M.run s as = some u ∧ M.run u bs = some t := by
  rw [run_append] at h
  exact Option.bind_eq_some_iff.mp h

/-- What is permitted is permitted up to any point. -/
theorem run_prefix (hp : as <+: bs) (h : M.run s bs = some t) : ∃ u, M.run s as = some u := by
  obtain ⟨cs, rfl⟩ := hp
  obtain ⟨u, hu, -⟩ := run_of_append h
  exact ⟨u, hu⟩

/-! ### Systems -/

/-- The system `c` has put out events that are permitted from `s₀` on, up to a phase that agrees
with it. -/
def Tracks (M : Monitor σ α) (s₀ : σ) (R : γ → σ → Prop) (out : γ → List α → Prop) (c : γ) :
    Prop :=
  ∃ as s, out c as ∧ M.run s₀ as = some s ∧ R c s

variable {s₀ : σ} {R : γ → σ → Prop} {out : γ → List α → Prop} {c c' : γ}

/-- A step whose events lead from a phase that agrees to one that agrees. -/
theorem Tracks.step (h : M.Tracks s₀ R out c)
    (step : ∀ {as s}, out c as → R c s →
      ∃ bs t, out c' (as ++ bs) ∧ M.run s bs = some t ∧ R c' t) : M.Tracks s₀ R out c' := by
  obtain ⟨as, s, hout, hrun, hR⟩ := h
  obtain ⟨bs, t, hout', hrun', hR'⟩ := step hout hR
  exact ⟨as ++ bs, t, hout', run_trans hrun hrun', hR'⟩

/-- **Simulation.**  If each step puts out what the monitor permits, so does a run. -/
theorem Tracks.steps {step : γ → γ → Prop} (hs : Relation.ReflTransGen step c c')
    (one : ∀ {c c' as s}, step c c' → out c as → R c s →
      ∃ bs t, out c' (as ++ bs) ∧ M.run s bs = some t ∧ R c' t)
    (h : M.Tracks s₀ R out c) : M.Tracks s₀ R out c' := by
  induction hs with
  | refl => exact h
  | tail _ hs ih => exact ih.step fun hout hR => one hs hout hR

end Monitor

end Fcgi.Lib

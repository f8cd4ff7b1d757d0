import Fcgi.Lib.Pool

/-!
# Lib — handles of programs that run side by side

The uses of several programs come in any order.  A program may use what it has obtained, and what
was there from the start, which none may change; `Use.by` says so to the monitor.

* `only t G`: what the program `t` has done.
* `Pool.Pinned T us`: what was there in `T` is left as it is, as far as the environment keeps its
  promise to the program.
* `Pool.interleaved`: if this is so of each of the programs, then all that they do together is
  permitted.
-/

namespace Fcgi.Lib

variable {θ α β η ς : Type}

/-- What `t` has done. -/
def only [DecidableEq θ] (t : θ) (G : List (θ × α)) : List α :=
  G.filterMap fun p => if p.1 = t then some p.2 else none

section only

variable [DecidableEq θ] {t t' : θ} {a : α} {G H : List (θ × α)}

@[simp] theorem only_nil : only t ([] : List (θ × α)) = [] := rfl

@[simp] theorem only_cons_self : only t ((t, a) :: G) = a :: only t G := by
  simp [only]

/-- What another program has done is left out. -/
theorem only_cons_ne (h : t' ≠ t) : only t ((t', a) :: G) = only t G := by
  simp [only, h]

/-- What a program has done, in two parts. -/
theorem only_append : only t (G ++ H) = only t G ++ only t H :=
  List.filterMap_append

/-- Each step is a list of smaller ones. -/
theorem only_flatMap (f : α → List β) :
    only t (G.flatMap fun p => (f p.2).map (p.1, ·)) = (only t G).flatMap f := by
  induction G with
  | nil => rfl
  | cons p G ih =>
      obtain ⟨t', a⟩ := p
      have hmap : only t ((f a).map (t', ·)) = if t' = t then f a else [] := by
        induction f a with
        | nil => simp
        | cons b bs ih => by_cases h : t' = t <;> simp_all [only]
      rw [List.flatMap_cons, only_append, ih, hmap]
      by_cases h : t' = t
      · subst h
        simp
      · simp [only_cons_ne h, h]

end only

/-- A use by the program `t`: of what it has obtained, or of what was there from the start, which it
leaves as it is. -/
def Use.by [DecidableEq θ] [DecidableEq ς] (t : θ) : Use η ς → Use η (Option θ × ς)
  | .obtained h s => .obtained h (some t, s)
  | .used h next => .used h fun p =>
    if p.1 = some t then (next p.2).map (some t, ·)
    else if p.1 = none ∧ next p.2 = some p.2 then some p
    else none
  | .released h may => .released h fun p => p.1 = some t && may p.2

namespace Pool

variable {T : η → Option ς} {Tg : η → Option (Option θ × ς)} {Ts : θ → η → Option ς}
  {us vs : List (Use η ς)} {h : η} {s : ς} {t : θ}

/-- What is there from the start is nobody's. -/
def shared (T : η → Option ς) : η → Option (Option θ × ς) := fun h => (T h).map (none, ·)

/-- The environment has broken its promise, or what was there is as it was. -/
def Kept (T : η → Option ς) (φ : Option (Phase η ς)) : Prop :=
  φ = some .broken ∨ ∃ T', φ = some (.held T') ∧ ∀ h s, T h = some s → T' h = some s

/-- What the programs hold is what is held: together `Tg`, each of them `Ts t`. -/
structure Together (T : η → Option ς) (Tg : η → Option (Option θ × ς)) (Ts : θ → η → Option ς) :
    Prop where
  pinned : ∀ {t h s}, T h = some s → Ts t h = some s
  start : ∀ {h s}, T h = some s → Tg h = some (none, s)
  mine : ∀ {h}, T h = none → ∀ p, Tg h = some p ↔ ∃ t, p.1 = some t ∧ Ts t h = some p.2

namespace Together

/-- At the start every program holds what is shared, and nothing else. -/
theorem refl : Together T (shared T) fun _ : θ => T where
  pinned h := h
  start h := by simp [shared, h]
  mine h p := by simp [shared, h]

/-- A handle that `t` holds is no other's. -/
theorem only (ht : Together T Tg Ts) (hT : T h = none) (hs : Ts t h = some s) {t' : θ}
    (hne : t' ≠ t) : Ts t' h = none := by
  rcases e : Ts t' h with _ | s'
  · rfl
  · have h₁ : Tg h = some (some t, s) := (ht.mine hT _).mpr ⟨t, rfl, hs⟩
    have h₂ : Tg h = some (some t', s') := (ht.mine hT _).mpr ⟨t', rfl, e⟩
    rw [h₁] at h₂
    simp only [Option.some.injEq, Prod.mk.injEq] at h₂
    exact absurd h₂.1.symm hne

variable [DecidableEq η] [DecidableEq θ]

/-- A handle that nobody else holds becomes another. -/
theorem update (ht : Together T Tg Ts) (hT : T h = none) (hfree : ∀ t', t' ≠ t → Ts t' h = none)
    (o : Option ς) : Together T (Function.update Tg h (o.map (some t, ·)))
      (Function.update Ts t (Function.update (Ts t) h o)) where
  pinned := by
    intro t' h' s' hs
    -- Only `h` changes, and it is in no pinned entry.
    have hne : h' ≠ h := by
      rintro rfl
      simp [hT] at hs
    by_cases het : t' = t
    · subst het
      simpa [hne] using ht.pinned hs
    · simpa [het] using ht.pinned hs
  start := by
    intro h' s' hs
    have hne : h' ≠ h := by
      rintro rfl
      simp [hT] at hs
    simpa [hne] using ht.start hs
  mine := by
    intro h' hT' p
    by_cases hne : h' = h
    · subst hne
      rw [Function.update_self]
      constructor
      · intro hp
        obtain ⟨s, rfl, rfl⟩ := Option.map_eq_some_iff.mp hp
        exact ⟨t, rfl, by simp⟩
      · rintro ⟨t', hp, hs⟩
        by_cases het : t' = t
        · subst het
          rw [Function.update_self, Function.update_self] at hs
          subst hs
          rw [Option.map_some, ← hp]
        · rw [Function.update_of_ne het, hfree t' het] at hs
          cases hs
    · rw [Function.update_of_ne hne, ht.mine hT' p]
      refine exists_congr fun t' => and_congr_right fun _ => ?_
      by_cases het : t' = t
      · subst het
        simp [hne]
      · simp [het]

variable [DecidableEq ς]

/-- A step of one of the programs. -/
theorem step (ht : Together T Tg Ts) {u : Use η ς} (hu : Kept T (Pool (.held (Ts t)) u)) :
    Pool (.held Tg) (u.by t) = some .broken ∨
    ∃ Tg' T', Pool (.held Tg) (u.by t) = some (.held Tg') ∧
      Pool (.held (Ts t)) u = some (.held T') ∧ Together T Tg' (Function.update Ts t T') := by
  cases u with
  | obtained h s =>
      by_cases hfree : Tg h = none
      -- A handle that is free for all is free for the thread.
      · have hT : T h = none := by
          rcases e : T h with _ | s'
          · rfl
          · simp [ht.start e] at hfree
        have hnone : ∀ t', Ts t' h = none := by
          intro t'
          rcases e : Ts t' h with _ | s'
          · rfl
          · simp [(ht.mine hT (some t', s')).mpr ⟨t', rfl, e⟩] at hfree
        exact .inr ⟨_, _, if_pos hfree, if_pos (hnone t),
          ht.update hT (fun t' _ => hnone t') (some s)⟩
      · exact .inl (if_neg hfree)
  | used h next =>
      rcases hu with hu | ⟨T', hu, hpin⟩
      · obtain ⟨_, -, he⟩ := Option.map_eq_some_iff.mp hu
        cases he
      · obtain ⟨s', hs', he⟩ := Option.map_eq_some_iff.mp hu
        obtain ⟨s, hs, hnext⟩ := Option.bind_eq_some_iff.mp hs'
        cases he
        right
        rcases hT : T h with _ | s₀
        · have hg : Tg h = some (some t, s) := (ht.mine hT _).mpr ⟨t, rfl, hs⟩
          refine ⟨_, _, ?_, hu, ht.update hT (fun t' hne => ht.only hT hs hne) (some s')⟩
          simp [Pool, Use.by, hg, hnext]
        · -- What was there has stayed as it was.
          obtain rfl : s₀ = s := Option.some.inj ((ht.pinned hT).symm.trans hs)
          obtain rfl : s' = s₀ := by simpa using hpin h _ hT
          have hg : Tg h = some (none, s') := ht.start hT
          refine ⟨Tg, Ts t, ?_, ?_, ?_⟩
          · have hsame : Function.update Tg h (some (none, s')) = Tg := by
              rw [← hg, Function.update_eq_self]
            simp [Pool, Use.by, hg, hnext, hsame]
          · rw [hu, ← hs, Function.update_eq_self]
          · rwa [Function.update_eq_self]
  | released h may =>
      rcases e : Ts t h with _ | s
      · rcases hu with hu | ⟨T', hu, -⟩ <;> simp [Pool, e] at hu
      · by_cases hmay : may s = true
        · have hstep : Pool (.held (Ts t)) (.released h may) =
              some (.held (Function.update (Ts t) h none)) := by simp [Pool, e, hmay]
          have hT : T h = none := by
            rcases hT : T h with _ | s'
            · rfl
            · rcases hu with hu | ⟨T', hu, hpin⟩ <;> rw [hstep] at hu <;> cases hu
              simpa using hpin h s' hT
          have hg : Tg h = some (some t, s) := (ht.mine hT _).mpr ⟨t, rfl, e⟩
          refine .inr ⟨_, _, ?_, hstep, ht.update hT (fun t' hne => ht.only hT e hne) none⟩
          simp [Pool, Use.by, hg, hmay]
        · rcases hu with hu | ⟨T', hu, -⟩ <;> simp [Pool, e, hmay] at hu

end Together

variable [DecidableEq η]

/-- At no time has anything changed of what was there. -/
def Pinned (T : η → Option ς) (us : List (Use η ς)) : Prop :=
  ∀ vs, vs <+: us → Kept T (Pool.run (.held T) vs)

/-- What is pinned in a run was pinned in a part of it. -/
theorem Pinned.before (hp : Pinned T us) (hvs : vs <+: us) : Pinned T vs :=
  fun _ h => hp _ (h.trans hvs)

/-- A promise that is broken stays broken. -/
theorem run_broken : Pool.run (.broken : Phase η ς) us = some .broken := by
  induction us with
  | nil => rfl
  | cons u us ih => exact ih

/-- Once the promise is broken, it stays broken. -/
theorem broken_append {φ : Phase η ς} {vs : List (Use η ς)} (h : Pool.run φ us = some .broken) :
    Pool.run φ (us ++ vs) = some .broken := by
  rw [Monitor.run_append, h]
  exact run_broken

/-- What has been done was permitted. -/
theorem Holds.some {own : List (η × ς)} (h : Holds own us) :
    ∃ φ, Pool.run (.held fun _ => none) us = some φ := by
  rcases h with hb | ⟨-, hr⟩
  · exact ⟨_, hb⟩
  · exact ⟨_, hr⟩

/-- The use leaves `T` as it is. -/
def Spares (T : η → Option ς) : Use η ς → Prop
  | .obtained _ _ => True
  | .used h next => ∀ s, T h = some s → next s = some s
  | .released h _ => T h = none

/-- One more use. -/
theorem Pinned.concat (hp : Pinned T us) {u : Use η ς} {φ : Phase η ς}
    (hu : Pool.run (.held T) us = some .broken ∨ Spares T u)
    (hrun : Pool.run (.held T) (us ++ [u]) = some φ) : Pinned T (us ++ [u]) := by
  intro vs hvs
  rcases List.prefix_concat_iff.mp hvs with rfl | hvs
  · rw [Monitor.run_append] at hrun ⊢
    rcases hp us List.prefix_rfl with hb | ⟨T', hT', hkept⟩
    · rw [hb]
      exact .inl run_broken
    -- What is pinned is in the pool after `us`; the new use must not touch it.
    · have hu : Spares T u := hu.resolve_left (by simp [hT'])
      rw [hT', Option.bind_some, Monitor.run_singleton] at hrun ⊢
      cases u with
      | obtained h s =>
          by_cases hfree : T' h = none
          · refine .inr ⟨_, if_pos hfree, fun h' s' hs' => ?_⟩
            have hne : h' ≠ h := by
              rintro rfl
              simp [hkept h' s' hs'] at hfree
            simpa [hne] using hkept h' s' hs'
          · exact .inl (if_neg hfree)
      | used h next =>
          obtain ⟨s₁, hs₁, rfl⟩ := Option.map_eq_some_iff.mp hrun
          obtain ⟨s₀, hs₀, hnext⟩ := Option.bind_eq_some_iff.mp hs₁
          refine .inr ⟨_, hrun, fun h' s' hs' => ?_⟩
          by_cases hne : h' = h
          · subst hne
            obtain rfl : s' = s₀ := Option.some.inj ((hkept h' s' hs').symm.trans hs₀)
            rw [Function.update_self, ← hnext]
            exact hu s' hs'
          · simpa [hne] using hkept h' s' hs'
      | released h may =>
          by_cases hmay : (T' h).any may = true
          · refine .inr ⟨_, if_pos hmay, fun h' s' hs' => ?_⟩
            have hne : h' ≠ h := by
              rintro rfl
              cases hs'.symm.trans hu
            simpa [hne] using hkept h' s' hs'
          · rw [show Pool (.held T') (.released h may) = none from if_neg hmay] at hrun
            cases hrun
  · exact hp vs hvs

/-- More uses, which spare what was there or come after the promise is broken. -/
theorem Pinned.append (hp : Pinned T us) {ws : List (Use η ς)} {φ : Phase η ς}
    (hws : Pool.run (.held T) us = some .broken ∨ ∀ u ∈ ws, Spares T u)
    (hrun : Pool.run (.held T) (us ++ ws) = some φ) : Pinned T (us ++ ws) := by
  induction ws using List.reverseRecOn generalizing φ with
  | nil => rwa [List.append_nil]
  | append_singleton ws u ih =>
      rw [← List.append_assoc] at hrun ⊢
      obtain ⟨ψ, hψ, -⟩ := Monitor.run_of_append hrun
      refine (ih (hws.imp_right fun h u hu => h u (List.mem_append_left _ hu)) hψ).concat ?_ hrun
      exact hws.imp broken_append fun h => h u (by simp)

/-- **Side by side.**  What programs do together is permitted, in any order, if each leaves alone
what was there from the start, and does what is permitted to it. -/
theorem interleaved [DecidableEq θ] [DecidableEq ς] {G : List (θ × Use η ς)}
    (hG : ∀ t, Pinned T (Lib.only t G)) :
    Pool.run (.held (shared T)) (G.map fun p => p.2.by p.1) = some .broken ∨
    ∃ Tg Ts, Pool.run (.held (shared T)) (G.map fun p => p.2.by p.1) = some (.held Tg) ∧
      (∀ t, Pool.run (.held T) (Lib.only t G) = some (.held (Ts t))) ∧ Together T Tg Ts := by
  induction G using List.reverseRecOn with
  | nil => exact .inr ⟨shared T, fun _ => T, rfl, fun _ => rfl, .refl⟩
  | append_singleton G p ih =>
      obtain ⟨t, u⟩ := p
      rw [List.map_append, Monitor.run_append]
      rcases ih fun t' => (hG t').before (by rw [only_append]; exact List.prefix_append _ _) with
        hb | ⟨Tg, Ts, hg, hs, ht⟩
      · rw [hb]
        exact .inl rfl
      · have hu : Kept T (Pool (.held (Ts t)) u) := by
          have := hG t _ List.prefix_rfl
          rw [only_append, only_cons_self, only_nil, Monitor.run_append, hs t] at this
          rwa [Option.bind_some, Monitor.run_singleton] at this
        rw [hg, Option.bind_some, List.map_singleton, Monitor.run_singleton]
        rcases ht.step hu with hb | ⟨Tg', T', hg', hs', ht'⟩
        · exact .inl hb
        · refine .inr ⟨Tg', _, hg', fun t' => ?_, ht'⟩
          rw [only_append, Monitor.run_append, hs t', Option.bind_some]
          by_cases het : t = t'
          · subst het
            rw [only_cons_self, only_nil, Monitor.run_singleton, hs', Function.update_self]
          · rw [only_cons_ne het, only_nil, Monitor.run_nil, Function.update_of_ne (Ne.symm het)]

end Pool

end Fcgi.Lib

import Mathlib.Data.List.Perm.Basic
import Mathlib.Logic.Function.Basic
import Fcgi.Lib.Monitor

/-!
# Lib — handles

An environment hands out handles, which a program uses and releases.  What may be done with a handle
depends on its state.  `Pool` is the monitor of that: it permits no use of a handle that is not
held.  An environment that hands out a handle which is held breaks its promise, after which the
program may do anything.

`Holds own us`: after the uses `us`, which were permitted, the handles held are those of `own`, each
of them once, in these states.  There is one rule for each kind of use.

The monitor has a function for its phase, and a program knows its handles as a list: `table` goes
from one to the other.  As no handle is in the list twice, the order of the list does not matter
(`table_perm`), and each rule may take the handle in question to be at its front.
-/

namespace Fcgi.Lib

/-- What is done with a handle. -/
inductive Use (η ς : Type) where
  /-- The environment hands it out. -/
  | obtained (h : η) (s : ς)
  /-- The program uses it, where its state permits that; another state follows. -/
  | used (h : η) (next : ς → Option ς)
  /-- The program releases it, where its state permits that. -/
  | released (h : η) (may : ς → Bool)

/-- The handles held and their states, or that the promise has been broken. -/
inductive Pool.Phase (η ς : Type) where
  | held (table : η → Option ς)
  | broken

variable {η ς : Type} [DecidableEq η]

/-- The monitor of handles. -/
def Pool : Monitor (Pool.Phase η ς) (Use η ς)
  | .broken, _ => some .broken
  | .held table, .obtained h s =>
    if table h = none then some (.held (Function.update table h (some s))) else some .broken
  | .held table, .used h next =>
    ((table h).bind next).map fun s => .held (Function.update table h (some s))
  | .held table, .released h may =>
    if (table h).any may = true then some (.held (Function.update table h none)) else none

namespace Pool

/-- The table of the handles of a list. -/
def table : List (η × ς) → η → Option ς
  | [] => fun _ => none
  | (h, s) :: own => Function.update (table own) h (some s)

variable {h : η} {s s' : ς} {own own' : List (η × ς)} {us vs : List (Use η ς)}

/-- A handle that is not in the list is not held. -/
theorem table_eq_none : table own h = none ↔ h ∉ own.map Prod.fst := by
  induction own with
  | nil => simp [table]
  | cons p own ih =>
      obtain ⟨h', s'⟩ := p
      by_cases he : h = h'
      · simp [table, he]
      · simp [table, ih, he]

/-- The order of the list does not matter. -/
theorem table_perm (hp : own.Perm own') (hn : (own.map Prod.fst).Nodup) :
    table own = table own' := by
  induction hp with
  | nil => rfl
  | cons p _ ih => simp only [table, ih (List.nodup_cons.mp hn).2]
  | swap p q own =>
      have hne : q.1 ≠ p.1 := by
        intro he
        simp [he] at hn
      exact Function.update_comm hne.symm _ _ _
  | trans hp _ ih ih' =>
      exact (ih hn).trans (ih' ((hp.map Prod.fst).nodup_iff.mp hn))

/-- After the uses `us`, each of them permitted, the handles `own` are held and no others, unless
the environment has broken its promise. -/
def Holds (own : List (η × ς)) (us : List (Use η ς)) : Prop :=
  Pool.run (.held fun _ => none) us = some .broken ∨
  (own.map Prod.fst).Nodup ∧ Pool.run (.held fun _ => none) us = some (.held (table own))

theorem Holds.nil : Holds ([] : List (η × ς)) [] := .inr ⟨List.nodup_nil, rfl⟩

/-- What comes next, if it is permitted where the handles `own` are held. -/
theorem Holds.append (hh : Holds own us) (hn : (own.map Prod.fst).Nodup →
    Pool.run (.held (table own)) vs = some .broken ∨
    (own'.map Prod.fst).Nodup ∧ Pool.run (.held (table own)) vs = some (.held (table own'))) :
    Holds own' (us ++ vs) := by
  rcases hh with hb | ⟨hd, hr⟩
  · left
    rw [Monitor.run_append, hb]
    -- Whatever is done then is permitted.
    clear hn
    induction vs with
    | nil => rfl
    | cons v vs ih => exact ih
  · rw [Holds, Monitor.run_append, hr]
    exact hn hd

/-- The environment hands out a handle. -/
theorem Holds.obtained (hh : Holds own us) (h : η) (s : ς) :
    Holds ((h, s) :: own) (us ++ [.obtained h s]) := by
  refine hh.append fun hd => ?_
  rw [Monitor.run_singleton]
  by_cases hfree : table own h = none
  · refine .inr ⟨List.nodup_cons.mpr ⟨table_eq_none.mp hfree, hd⟩, ?_⟩
    simp [Pool, hfree, table]
  · exact .inl (if_neg hfree)

/-- A handle is used in a state that permits it. -/
theorem Holds.used (hh : Holds ((h, s) :: own) us) {f : ς → Option ς}
    (hs : f s = some s') : Holds ((h, s') :: own) (us ++ [.used h f]) := by
  refine hh.append fun hd => .inr ⟨hd, ?_⟩
  rw [Monitor.run_singleton]
  simp [Pool, table, hs]

/-- A handle is released, and no longer held. -/
theorem Holds.released (hh : Holds ((h, s) :: own) us) {may : ς → Bool} (hs : may s = true) :
    Holds own (us ++ [.released h may]) := by
  refine hh.append fun hd => .inr ⟨(List.nodup_cons.mp hd).2, ?_⟩
  have hfree : table own h = none := table_eq_none.mpr (List.nodup_cons.mp hd).1
  rw [Monitor.run_singleton]
  simp [Pool, table, hs, ← hfree]

/-- The order makes no difference. -/
theorem Holds.perm (hh : Holds own us) (hp : own.Perm own') : Holds own' us := by
  rcases hh with hb | ⟨hd, hr⟩
  · exact .inl hb
  · exact .inr ⟨(hp.map Prod.fst).nodup_iff.mp hd, table_perm hp hd ▸ hr⟩

end Pool

end Fcgi.Lib

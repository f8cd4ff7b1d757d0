import Fcgi.Basics.NamesValues

/-!
# Streams — characters run out

`Drains P E u`: every character taken through the `underflow()` `u` leads from `P k` to `P j` for
some `j < k`.  Then so does every pair read from the stream, and the constructor of `Names_values`
ends within `k + 1` rounds (`Drains.ofStream`).

The number `k` is a bound on the characters that may still come.  It is a parameter of the
precondition, so the rules for the functions of the stream are triples for every `k`, and the loop
of the constructor is an induction on it: a round that goes on has taken at least one character.
-/

namespace Fcgi
open Lib

/-- Every character that is taken decreases `k`. -/
structure Drains (P : Nat → State → Prop) (E : Nat → Fault Exception → State → Prop)
    (u : M (Option UInt8)) : Prop where
  bump : ∀ k, Triple (P k) (sbumpc u) (fun r s => match r with
    | some _ => ∃ j < k, P j s
    | none => P k s) (E k)
  mono : ∀ {j k s}, j ≤ k → P j s → P k s
  fault : ∀ {j k x s}, j ≤ k → E j x s → E k x s
  caught : ∀ {k e s}, E k (.exc e) s → P k s
  throw : ∀ {k e s}, P k s → E k (.exc e) s

namespace Drains

variable {P : Nat → State → Prop} {E : Nat → Fault Exception → State → Prop}
  {u : M (Option UInt8)} {k : Nat} {is : Istream}

/-- What is done after some characters have been taken. -/
theorem later {α : Type} {m : M α} {Q : Nat → α → State → Prop} (hu : Drains P E u)
    (hm : ∀ j, Triple (P j) m (Q j) (E j)) :
    Triple (fun s => ∃ j < k, P j s) m (fun a s => ∃ j < k, Q j a s) (E k) := by
  rintro s ⟨j, hj, hs⟩
  have h := hm j s hs
  rcases e : m s with ⟨x | a, s'⟩ <;> simp only [e] at h ⊢
  · exact hu.fault (Nat.le_of_lt hj) h
  · exact ⟨j, hj, h⟩

/-- What holds with fewer characters to come holds with `k`. -/
theorem weaken (hu : Drains P E u) {s : State} (h : ∃ j < k, P j s) : P k s := by
  obtain ⟨j, hj, hs⟩ := h
  exact hu.mono (Nat.le_of_lt hj) hs

/-- A caught exception. -/
theorem attempt {α : Type} {m : M α} {R : Except Exception α → State → Prop} (hu : Drains P E u)
    (hm : Triple (P k) m (fun a => R (.ok a)) (E k)) (hR : ∀ e s, P k s → R (.error e) s) :
    Triple (P k) (Prog.attempt m) R (E k) := by
  refine Triple.attempt (hm.conseq (fun _ => id) (fun _ _ => id) fun x s hx => ?_)
  cases x with
  | exc e => exact hR e s (hu.caught hx)
  | _ => exact hx

theorem xsgetn (hu : Drains P E u) : ∀ (n k : Nat),
    Triple (P k) (xsgetn u n) (fun _ => P k) (E k)
  | 0, _ => Triple.pure fun _ hs => hs
  | n + 1, k => by
      refine Triple.bind (hu.bump k) fun r => ?_
      cases r with
      | none => exact Triple.pure fun _ hs => hs
      | some c =>
          refine Triple.bind ((hu.later (Q := fun j _ => P j) (hu.xsgetn n)).post fun _ s hs =>
            hu.weaken hs) fun _ => Triple.pure fun _ hs => hs

/-- `get()`: if a character comes, there are fewer to come. -/
theorem get (hu : Drains P E u) (k : Nat) : Triple (P k) (is.get u) (fun p s => match p.1 with
    | some _ => ∃ j < k, P j s
    | none => P k s) (E k) := by
  refine Triple.ite (fun _ => ?_) fun _ => Triple.pure fun _ hs => hs
  refine Triple.bind (hu.attempt (R := AfterGet (fun _ s => ∃ j < k, P j s) (P k) (P k))
    ((hu.bump k).post fun r _ hs => ?_) fun _ _ hs => hs) fun r => ?_
  · cases r <;> exact hs
  · rcases r with e | _ | c <;> exact Triple.pure fun _ hs => hs

theorem read (hu : Drains P E u) (n : Int) (k : Nat) :
    Triple (P k) (is.read u n) (fun _ => P k) (E k) := by
  refine Triple.ite (fun _ => ?_) fun _ => Triple.pure fun _ hs => hs
  refine Triple.bind (hu.attempt (R := fun _ => P k) (hu.xsgetn _ k) fun _ _ hs => hs) fun r => ?_
  rcases r with e | cs
  · exact Triple.pure fun _ hs => hs
  · exact Triple.ite (fun _ => Triple.pure fun _ hs => hs) fun _ => Triple.pure fun _ hs => hs

/-! ### `Names_values` -/

/-- A length: if it comes, there are fewer characters to come. -/
theorem readLength (hu : Drains P E u) (k : Nat) :
    Triple (P k) (NamesValues.readLength u is) (fun p s => match p.1 with
      | some _ => ∃ j < k, P j s
      | none => P k s) (E k) := by
  refine Triple.bind (hu.get k) fun p => ?_
  rcases p with ⟨_ | c, is₁⟩
  · exact Triple.pure fun _ hs => hs
  · refine Triple.ite (fun _ => ?_) fun _ => Triple.pure fun _ hs => hs
    refine Triple.bind (hu.later (Q := fun j _ => P j) (hu.read 3)) fun _ => ?_
    exact Triple.ite (fun _ => Triple.pure fun _ hs => hs) fun _ =>
      Triple.throw fun _ hs => hu.throw (hu.weaken hs)

/-- A pair: if the loop goes on, there are fewer characters to come. -/
theorem readPair (hu : Drains P E u) (nv : NamesValues) (k : Nat) :
    Triple (P k) (NamesValues.readPair u is nv) (fun r s => match r with
      | .again _ => ∃ j < k, P j s
      | .done _ => P k s) (E k) := by
  refine Triple.bind (hu.readLength k) fun p => ?_
  rcases p with ⟨_ | nameLength, is₁⟩
  · exact Triple.pure fun _ hs => hs
  · refine Triple.bind (hu.later (Q := fun j _ => P j) fun j => (hu.readLength j).post
      fun p s hs => ?_) fun p => ?_
    · rcases p with ⟨_ | valueLength, is₂⟩
      · exact hs
      · exact hu.weaken hs
    · rcases p with ⟨_ | valueLength, is₂⟩
      · exact Triple.throw fun _ hs => hu.throw (hu.weaken hs)
      · refine Triple.bind (Q := fun _ s => ∃ j < k, P j s) ?_ fun _ => Triple.pure fun _ hs => hs
        refine Triple.bind (hu.later (Q := fun j _ => P j) (hu.read _)) fun _ => ?_
        exact Triple.ite (fun _ => Triple.pure fun _ hs => hs) fun _ =>
          Triple.throw fun _ hs => hu.throw (hu.weaken hs)

/-- **The pairs run out** within `k + 1` rounds. -/
theorem ofStream (hu : Drains P E u) {N : Nat} (hN : k < N ∨ ∀ s, P k s → E k .spent s)
    {n : Nat} (habort : ∀ s, P k s → E k .abort s) :
    Triple (P k) (NamesValues.ofStream u N is n) (fun _ => P k) (E k) := by
  refine Triple.bind (Triple.assert (Q := fun _ => P k) (fun _ hs _ => hs) fun s hs _ =>
    habort s hs) fun _ => ?_
  generalize (is, ({} : NamesValues)) = p
  -- The induction is on the fuel; `j` bounds what is left of the stream.
  have hloop : ∀ (N j : Nat), j ≤ k → (j < N ∨ ∀ s, P k s → E k .spent s) →
      ∀ p, Triple (P j) (Prog.recLoop (fun _ _ (p : Istream × NamesValues) =>
        NamesValues.readPair u p.1 p.2) N p) (fun _ => P k) (E k) := by
    intro N
    induction N with
    | zero =>
        intro j hj hN p s hs
        exact hN.resolve_left (Nat.not_lt_zero j) s (hu.mono hj hs)
    | succ N ih =>
        intro j hj hN p
        refine Triple.bind ((hu.readPair p.2 j).conseq (fun _ => id) (fun _ _ => id)
          fun _ _ hx => hu.fault hj hx) fun r => ?_
        cases r with
        | again p' =>
            rintro s ⟨i, hi, hs⟩
            exact ih i (Nat.le_of_lt (Nat.lt_of_lt_of_le hi hj)) (hN.imp_left fun h => by omega)
              p' s hs
        | done a => exact Triple.pure fun s hs => hu.mono hj hs
  exact hloop N k (Nat.le_refl k) hN p

end Drains

end Fcgi

import Fcgi.Basics.NamesValues
import Fcgi.Lib.Follow

/-!
# Basics — names and values, where one run follows another

**`ofStream_follows`**: if the characters that are taken one after the other are the same in two
runs, so are the names and values read from them.  Between two characters the states are related
by `R`; once an exception has been thrown or caught, by `E`.

Each function of the stream follows itself, as all that it knows of the buffer is what `sbumpc()`
returns.  An exception is caught by the stream and sets `badbit`; after that the states are related
by `E` alone, and the function goes on only where it has seen that nothing was caught.
-/

namespace Fcgi
open Lib

section

variable {R E : State → State → Prop} {B B' : State → Prop} {u : M (Option UInt8)}
  {v : Nat → M (Option UInt8)} (hRE : ∀ s t, R s t → E s t)
  (hu : Lib.Follows R (sbumpc u) (fun n => sbumpc (v n)) (fun _ => R) E B B')

include hu

theorem xsgetn_follows (k : Nat) :
    Lib.Follows R (xsgetn u k) (fun n => xsgetn (v n) k) (fun _ => R) E B B' := by
  induction k with
  | zero => exact .pure fun _ _ hst => hst
  | succ k ih =>
      refine Lib.Follows.bind hu fun r => ?_
      cases r with
      | none => exact .pure fun _ _ hst => hst
      | some c => exact .bind ih fun cs => .pure fun _ _ hst => hst

include hRE

/-- A stream whose `badbit` is not set has caught no exception. -/
theorem get_follows (is : Istream) :
    Lib.Follows R (is.get u) (fun n => is.get (v n))
      (fun p s t => E s t ∧ ((p.1.isSome ∨ p.2.bad = false) → R s t)) E B B' := by
  refine Lib.Follows.ite (fun _ => ?_) fun _ => .pure fun s t hst => ⟨hRE s t hst, fun _ => hst⟩
  refine .bind (.attempt (S := fun r s t => E s t ∧ (r.isOk → R s t))
    (hu.post fun _ s t hst => ⟨hRE s t hst, fun _ => hst⟩) fun _ _ _ hst => ⟨hst, nofun⟩)
    fun r => ?_
  rcases r with e | _ | c
  · exact .pure fun _ _ hst => ⟨hst.1, fun h => h.elim nofun nofun⟩
  · exact .pure fun _ _ hst => ⟨hst.1, fun _ => hst.2 rfl⟩
  · exact .pure fun _ _ hst => ⟨hst.1, fun _ => hst.2 rfl⟩

theorem read_follows (is : Istream) (k : Int) :
    Lib.Follows R (is.read u k) (fun n => is.read (v n) k)
      (fun p s t => E s t ∧ ((p.2.gcount : Int) = k → R s t)) E B B' := by
  refine Lib.Follows.ite (fun _ => ?_) fun _ => .pure fun s t hst => ⟨hRE s t hst, fun _ => hst⟩
  refine .bind (Q := fun r s t => E s t ∧ ((∀ e, r ≠ .error e) ∨ k.toNat = 0 → R s t)) ?_
    fun r => ?_
  · cases k.toNat with
    | zero => exact .pure fun s t hst => ⟨hRE s t hst, fun _ => hst⟩
    | succ j =>
        refine .attempt ((xsgetn_follows hu (j + 1)).post fun _ s t hst =>
          ⟨hRE s t hst, fun _ => hst⟩) fun e _ _ hst => ⟨hst, fun h => ?_⟩
        exact h.elim (fun h => absurd rfl (h e)) nofun
  · rcases r with e | cs
    · refine .pure fun s t hst => ⟨hst.1, fun hk => hst.2 (.inr ?_)⟩
      rw [← hk]
      rfl
    · refine .ite (fun _ => ?_) fun _ => ?_
      · exact .pure fun s t hst => ⟨hst.1, fun _ => hst.2 (.inl nofun)⟩
      · exact .pure fun s t hst => ⟨hst.1, fun _ => hst.2 (.inl nofun)⟩

theorem readLength_follows (is : Istream) :
    Lib.Follows R (NamesValues.readLength u is) (fun n => NamesValues.readLength (v n) is)
      (fun p s t => E s t ∧ ((p.1.isSome ∨ p.2.bad = false) → R s t)) E B B' := by
  refine .bind (get_follows hRE hu is) fun p => ?_
  rcases p with ⟨_ | c, is₁⟩
  · exact .pure fun _ _ hst => ⟨hst.1, hst.2⟩
  · refine .ite (fun _ => ?_) fun _ => .pure fun _ _ hst => ⟨hst.1, fun _ => hst.2 (.inl rfl)⟩
    refine .bind ((read_follows hRE hu is₁ 3).pre fun _ _ hst => hst.2 (.inl rfl)) fun q => ?_
    refine .ite (fun h3 => ?_) fun _ => .throw fun _ _ hst => hst.1
    exact .pure fun _ _ hst => ⟨hst.1, fun _ => hst.2 (by rw [h3]; rfl)⟩

theorem readPair_follows (is : Istream) (nv : NamesValues) :
    Lib.Follows R (NamesValues.readPair u is nv) (fun n => NamesValues.readPair (v n) is nv)
      (fun r s t => match r with
        | .again _ => R s t
        | .done p => E s t ∧ (p.2.bad = false → R s t)) E B B' := by
  refine .bind (readLength_follows hRE hu is) fun p => ?_
  rcases p with ⟨_ | a, is₁⟩
  · exact .pure fun _ _ hst => ⟨hst.1, fun h => hst.2 (.inr h)⟩
  refine .bind ((readLength_follows hRE hu is₁).pre fun _ _ hst => hst.2 (.inl rfl)) fun p => ?_
  rcases p with ⟨_ | b, is₂⟩
  · exact .throw fun _ _ hst => hst.1
  refine .bind (Q := fun _ => R) ?_ fun _ => .pure fun _ _ hst => hst
  refine .bind ((read_follows hRE hu is₂ _).pre fun _ _ hst => hst.2 (.inl rfl)) fun q => ?_
  exact .ite (fun h => .pure fun _ _ hst => hst.2 h) fun _ => .throw fun _ _ hst => hst.1

/-- **What is read from the characters.** -/
theorem ofStream_follows (k : Nat) (is : Istream) (reserve : Nat) :
    Lib.Follows R (NamesValues.ofStream u k is reserve)
      (fun n => NamesValues.ofStream (v n) n is reserve)
      (fun p s t => E s t ∧ (p.2.bad = false → R s t)) E B B' := by
  refine .bind (Q := fun _ => R) ?_ fun _ => ?_
  · exact .of_rel (.assert _) (.assert _) (Rel.assert Iff.rfl (fun _ _ hst _ => hst) hRE)
  · exact Lib.Follows.loop (I := fun _ => R) (fun p => (readPair_follows hRE hu p.1 p.2).post
      fun r _ _ hst => by cases r <;> exact hst) k _ fun K => ⟨K, fun _ => id⟩

end

end Fcgi

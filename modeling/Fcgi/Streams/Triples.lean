import Fcgi.Basics.NamesValues

/-!
# Streams — what holds across the calls of an input stream

The functions of `std::istream`, and the constructor of `Names_values`, reach the stream buffer
through `underflow()` and the get area alone.  `Callee P Q N X E u`: the `underflow()` `u`, started
in `P` with no character at hand, returns a character in `Q` and eof in `N`, and faults in `E`;
taking a character leads from `P` to `Q`; `X` holds where an exception has been caught.  Then the
same is true of all of these functions.
-/

namespace Fcgi
open Lib

/-- What is known of `underflow()`, and of taking a character. -/
structure Callee (P Q N X : State → Prop) (E : Fault Exception → State → Prop)
    (u : M (Option UInt8)) : Prop where
  call : Triple (fun s => P s ∧ s.buf.egptr ≤ s.buf.gptr) u (fun r s => match r with
    | some _ => Q s ∧ s.buf.gptr < s.buf.egptr
    | none => N s) E
  take : Triple (fun s => P s ∧ s.buf.gptr < s.buf.egptr) takeChar (fun _ s => Q s) E
  start : ∀ s, Q s → P s
  stop : ∀ s, P s → X s
  eof : ∀ s, N s → X s
  caught : ∀ e s, E (.exc e) s → X s

namespace Callee

variable {u : M (Option UInt8)} {P Q N X : State → Prop} {E : Fault Exception → State → Prop}

/-! ### `std::streambuf` -/

theorem sgetc (hu : Callee P Q N X E u) : Triple P (sgetc u) (fun _ s => X s) E :=
  Triple.get fun s hs => Triple.ite (fun _ => Triple.pure fun _ ht => ht ▸ hu.stop s hs) fun hge =>
    hu.call.conseq (fun _ ht => ht ▸ ⟨hs, Nat.le_of_not_lt hge⟩) (fun r t ht => match r with
      | some _ => hu.stop t (hu.start t ht.1)
      | none => hu.eof t ht) fun _ _ => id

theorem sbumpc (hu : Callee P Q N X E u) : Triple P (sbumpc u) (fun r s => match r with
    | some _ => Q s
    | none => N s) E := by
  have htake : Triple (fun s => P s ∧ s.buf.gptr < s.buf.egptr) takeChar
      (fun r s => match r with | some _ => Q s | none => N s) E := fun s hs => hu.take s hs
  refine Triple.get fun s hs => ?_
  refine Triple.ite (fun hlt => htake.pre ?_) fun hge =>
    Triple.bind (hu.call.pre fun t ht => ht ▸ ⟨hs, Nat.le_of_not_lt hge⟩) fun r => ?_
  · rintro t rfl
    exact ⟨hs, hlt⟩
  · cases r with
    | none => exact Triple.pure fun t ht => ht
    | some x => exact htake.pre fun t ht => ⟨hu.start t ht.1, ht.2⟩

/-- Several characters; if all of them come, `P` holds again. -/
theorem xsgetn (hu : Callee P Q N X E u) : ∀ n,
    Triple P (xsgetn u n) (fun cs s => X s ∧ (cs.length = n → P s)) E
  | 0 => Triple.pure fun s hs => ⟨hu.stop s hs, fun _ => hs⟩
  | n + 1 => by
      refine Triple.bind hu.sbumpc fun r => ?_
      cases r with
      | none => exact Triple.pure fun s hs => ⟨hu.eof s hs, nofun⟩
      | some x =>
          exact Triple.bind ((hu.xsgetn n).pre hu.start) fun cs =>
            Triple.pure fun s hs => ⟨hs.1, fun h => hs.2 (Nat.succ.inj h)⟩

/-! ### `std::istream` -/

variable {is : Istream}

/-- `get()` on a stream that is good. -/
theorem get (hu : Callee P Q N X E u) (hg : is.good = true) :
    Triple P (is.get u)
      (fun p s => match p.1 with
        | some _ => p.2.good = true ∧ Q s
        | none => X s ∧ (p.2.bad = false → N s)) E := by
  rw [Istream.get, if_pos hg]
  refine Triple.bind (Triple.attempt (R := AfterGet (fun _ => Q) N X)
    (hu.sbumpc.conseq (fun _ => id) (fun r _ hs => ?_) fun x s hs => ?_)) fun r => ?_
  · cases r <;> exact hs
  · cases x with
    | exc e => exact hu.caught e s hs
    | abort => exact hs
    | undef => exact hs
    | spent => exact hs
  · rcases r with e | _ | x
    · exact Triple.pure fun s hs => ⟨hs, fun h => by cases h⟩
    · exact Triple.pure fun s hs => ⟨hu.eof s hs, fun _ => hs⟩
    · exact Triple.pure fun s hs => ⟨hg, hs⟩

/-- `read()` on a stream that is good: where all that was asked for is there, it stays good. -/
theorem read (hu : Callee P Q N X E u) (hg : is.good = true) (n : Int) :
    Triple P (is.read u n)
      (fun p s => X s ∧ ((p.2.gcount : Int) = n → p.2.good = true ∧ P s)) E := by
  rw [Istream.read, if_pos hg]
  refine Triple.bind (Triple.attempt (R := AfterRead (fun cs s => X s ∧ (cs.length = n.toNat → P s))
    fun s => X s ∧ n.toNat ≠ 0) ?_) fun r => ?_
  · cases h0 : n.toNat with
    | zero => exact Triple.pure fun s hs => ⟨hu.stop s hs, fun _ => hs⟩
    | succ k =>
        refine (hu.xsgetn (k + 1)).conseq (fun _ => id) (fun _ _ hs => hs) fun x s hs => ?_
        cases x with
        | exc e => exact ⟨hu.caught e s hs, Nat.succ_ne_zero k⟩
        | abort => exact hs
        | undef => exact hs
        | spent => exact hs
  · rcases r with e | cs
    · exact Triple.pure fun s hs => ⟨hs.1, fun h0 => absurd (by rw [← h0]; rfl) hs.2⟩
    · exact Triple.ite (fun hn => Triple.pure fun s hs => ⟨hs.1, fun _ =>
        ⟨hg, hs.2 (by rw [← hn]; rfl)⟩⟩) fun hne => Triple.pure fun s hs =>
          ⟨hs.1, fun h => absurd h hne⟩

/-- `peek()`. -/
theorem peek (hu : Callee P Q N X E u) : Triple P (is.peek u) (fun _ s => X s) E := by
  refine Triple.ite (fun _ => ?_) fun _ => Triple.pure hu.stop
  refine Triple.bind (Triple.attempt (R := fun _ => X) (hu.sgetc.conseq (fun _ => id)
    (fun _ _ => id) fun x s hs => ?_)) fun r => ?_
  · cases x with
    | exc e => exact hu.caught e s hs
    | abort => exact hs
    | undef => exact hs
    | spent => exact hs
  · rcases r with e | _ | x <;> exact Triple.pure fun _ hs => hs

/-- `get()`, whatever the stream state is. -/
theorem get_any (hu : Callee P Q N X E u) : Triple P (is.get u) (fun _ s => X s) E := by
  by_cases hg : is.good = true
  · refine (hu.get hg).post ?_
    rintro ⟨_ | x, is'⟩ s hs
    · exact hs.1
    · exact hu.stop s (hu.start s hs.2)
  · rw [Istream.get, if_neg hg]
    exact Triple.pure hu.stop

/-- `read()`, whatever the stream state is. -/
theorem read_any (hu : Callee P Q N X E u) (n : Int) :
    Triple P (is.read u n) (fun _ s => X s) E := by
  by_cases hg : is.good = true
  · exact (hu.read hg n).post fun _ _ hs => hs.1
  · rw [Istream.read, if_neg hg]
    exact Triple.pure hu.stop

/-! ### `Names_values` -/

section namesValues

variable (hu : Callee P Q N X E u) (throw : ∀ e s, X s → E (.exc e) s)

include hu throw

/-- A length; the stream is good if it comes. -/
theorem readLength (hg : is.good = true) :
    Triple P (NamesValues.readLength u is)
      (fun p s => match p.1 with
        | some _ => p.2.good = true ∧ P s
        | none => X s ∧ (p.2.bad = false → N s)) E := by
  refine Triple.bind (hu.get hg) fun p => ?_
  rcases p with ⟨_ | x, is₁⟩
  · exact Triple.pure fun s hs => hs
  · refine Triple.ite (fun _ => ?_) fun _ => Triple.pure fun s hs => ⟨hs.1, hu.start s hs.2⟩
    intro s hs
    refine Triple.bind (hu.read hs.1 3) (fun p => ?_) s (hu.start s hs.2)
    exact Triple.ite (fun h3 => Triple.pure fun s hs => hs.2 (by rw [h3]; rfl)) fun _ =>
      Triple.throw fun s hs => throw _ s hs.1

theorem readData (hg : is.good = true) (n : Int) :
    Triple P (NamesValues.readData u is n) (fun p s => p.2.good = true ∧ P s) E :=
  Triple.bind (hu.read hg n) fun _ => Triple.ite (fun h => Triple.pure fun _ hs => hs.2 h)
    fun _ => Triple.throw fun s hs => throw _ s hs.1

/-- The pairs are read to the end of the stream, or until a call throws. -/
theorem ofStream (spent : ∀ s, P s → E .spent s) (fuel : Nat) (hg : is.good = true) {n : Nat}
    (hn : n ≤ 64) :
    Triple P (NamesValues.ofStream u fuel is n)
      (fun p s => X s ∧ (p.2.bad = false → N s)) E := by
  have hok : ¬ is.fail = true ∧ ¬ is.bad = true ∧ n ≤ 64 := by
    simp only [Istream.good, Bool.and_eq_true, Bool.not_eq_true'] at hg
    simp only [hg, hn, Bool.false_eq_true, not_false_eq_true, and_self]
  refine Triple.bind (Triple.assert (Q := fun _ => P) (fun s hs _ => hs)
    fun s _ h => absurd hok h) fun _ => ?_
  refine (Triple.recLoop (I := fun (p : Istream × NamesValues) s => p.1.good = true ∧ P s)
    (fun p s hs => spent s hs.2) (fun k _ _ p => ?_) fuel (is, {})).pre fun s hs => ⟨hg, hs⟩
  rintro s ⟨hg, hs⟩
  refine Triple.bind (hu.readLength throw hg) (fun q => ?_) s hs
  rcases q with ⟨_ | nameLength, is₁⟩
  · exact Triple.pure fun s hs => hs
  · rintro s ⟨hg, hs⟩
    refine Triple.bind (hu.readLength throw hg) (fun q => ?_) s hs
    rcases q with ⟨_ | valueLength, is₂⟩
    · exact Triple.throw fun s hs => throw _ s hs.1
    · rintro s ⟨hg, hs⟩
      exact Triple.bind (hu.readData throw hg _) (fun q => Triple.pure fun s hs => hs) s hs

end namesValues

end Callee

end Fcgi

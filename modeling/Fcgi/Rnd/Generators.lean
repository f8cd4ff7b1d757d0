import Fcgi.Lib.Bytes
import Fcgi.Base.Host
import Fcgi.Base.Exceptions

/-!
# Rnd — numbers and strings

`rnd::cpp_pl_3rd` and `rnd::random_string`.  An outcome of `std::rand` is a number up to
`RAND_MAX`; the product with it, a `double` in the source, is taken as the exact quotient.

**`ranged_in_iff`**: when all that is drawn is in the interval asked for.  The draw is taken up to
the greater bound, then reduced modulo the length of the interval and shifted: the remainder has the
sign of the draw, and so falls below the interval where the draw is negative and no multiple of the
length.
-/

namespace Fcgi.Rnd
open Lib

section Definitions

variable (host : Host)

/-- An outcome of `std::rand()`. -/
abbrev Rand (host : Host) : Type := Fin (host.randMax + 1)

/-- `cpp_pl_3rd(maximum)`: `maximum * (std::rand() / RAND_MAX)`, truncated toward zero. -/
def cppPl3rd (maximum : Int) (rand : Rand host) : Int :=
  (maximum * (rand.val : Int)).tdiv host.randMax

/-- `static_cast<T>((number % length) + first)` -/
def remainderFrom (T : IntType) (number length first : Int) : Except (Fault Exception) Int := do
  let remainder ← (host.promoted T).rem number length
  let sum ← (host.promoted T).arith (remainder + first)
  return T.wrap sum

/-- `cpp_pl_3rd(minimum, maximum)` -/
def cppPl3rdInterval (T : IntType) (minimum maximum : Int) (rand : Rand host) :
    Except (Fault Exception) Int :=
  if ¬ minimum < maximum then
    .error (.exc (.rnd "invalid interval for random number generation"))
  else do
    let rangeLength ← (host.promoted T).arith (maximum - minimum)
    remainderFrom host T (cppPl3rd host maximum rand) rangeLength minimum

/-- The loop of `random_string`, from the character `i` on. -/
def randomStringLoop (beg end_ len : Int) (rand : Nat → Rand host) :
    Nat → Nat → List Int → Except (Fault Exception) (List Int)
  | 0, _, result => .ok result
  | n + 1, i, result => do
    let c ← remainderFrom host host.char (cppPl3rd host end_ (rand i)) len beg
    randomStringLoop beg end_ len rand n (i + 1) (result.set i c)

/-- `random_string(beg, end, size)`, where `rand i` is what `std::rand` gives for the character
`i`. -/
def randomString (beg end_ : Int) (size : Nat) (rand : Nat → Rand host) :
    Except (Fault Exception) (List Int) :=
  if ¬ beg ≤ end_ then
    .error (.exc (.rnd "invalid character range for random string generation"))
  else if beg < end_ then do
    let len ← (host.promoted host.char).arith (end_ - beg)
    randomStringLoop host beg end_ len rand size 0 (List.replicate size 0)
  else
    .ok []

end Definitions

variable {host : Host}

/-! ### One draw -/

theorem randMax_pos (host : Host) : (0 : Int) < host.randMax := by
  have := host.le_randMax
  omega

/-- The draw has the sign of its bound. -/
theorem cppPl3rd_nonneg {maximum : Int} (h : 0 ≤ maximum) (rand : Rand host) :
    0 ≤ cppPl3rd host maximum rand :=
  Int.tdiv_nonneg (Int.mul_nonneg h (Int.natCast_nonneg _)) (Int.le_of_lt (randMax_pos host))

theorem cppPl3rd_neg (maximum : Int) (rand : Rand host) :
    cppPl3rd host (-maximum) rand = -cppPl3rd host maximum rand := by
  rw [cppPl3rd, cppPl3rd, Int.neg_mul, Int.neg_tdiv]

/-! ### The remainder of a draw -/

/-- A remainder is not negative when the number is not or when nothing remains. -/
theorem tmod_nonneg_iff {x y : Int} : 0 ≤ x.tmod y ↔ 0 ≤ x ∨ y ∣ x := by
  constructor
  · intro hr
    by_cases hx : 0 ≤ x
    · exact .inl hx
    · have hneg := Int.tmod_nonneg y (show 0 ≤ -x by omega)
      rw [Int.neg_tmod] at hneg
      exact .inr (Int.dvd_of_tmod_eq_zero (by omega))
  · rintro (hx | hd)
    · exact Int.tmod_nonneg y hx
    · exact Int.le_of_eq (Int.tmod_eq_zero_of_dvd hd).symm

/-- The draw is not negative when its bound is not, and zero is a multiple of everything. -/
theorem draw_nonneg_or_dvd_iff {maximum : Int} (rand : Rand host) (length : Int) :
    (0 ≤ cppPl3rd host maximum rand ∨ length ∣ cppPl3rd host maximum rand) ↔
      (0 ≤ maximum ∨ length ∣ cppPl3rd host maximum rand) := by
  by_cases h₀ : 0 ≤ maximum
  · simp only [h₀, cppPl3rd_nonneg h₀ rand, true_or]
  · have h₁ := cppPl3rd_nonneg (show 0 ≤ -maximum by omega) rand
    rw [cppPl3rd_neg] at h₁
    constructor
    · rintro (hx | hd)
      · have hz : cppPl3rd host maximum rand = 0 := by omega
        exact .inr (hz ▸ Int.dvd_zero length)
      · exact .inr hd
    · rintro (hx | hd)
      · exact absurd hx h₀
      · exact .inr hd

/-- A remainder that is not negative lands in the interval. -/
theorem remainderFrom_eq {T : IntType} {number minimum maximum : Int} (hlt : minimum < maximum)
    (hmin : T.Holds minimum) (hmax : T.Holds maximum)
    (h : 0 ≤ number.tmod (maximum - minimum)) :
    remainderFrom host T number (maximum - minimum) minimum =
      .ok (number.tmod (maximum - minimum) + minimum) := by
  have hb := Int.tmod_lt_of_pos number (show 0 < maximum - minimum by omega)
  have hs : T.Holds (number.tmod (maximum - minimum) + minimum) := by
    have h₁ := hmin.1
    have h₂ := hmax.2
    exact ⟨by omega, by omega⟩
  rw [remainderFrom, IntType.rem_of_pos (by omega)]
  change ((host.promoted T).arith (number.tmod (maximum - minimum) + minimum) >>= fun sum =>
    .ok (T.wrap sum)) = _
  rw [Host.promoted, IntType.arith_of_holds (hs.promoted host.intWidth)]
  exact congrArg Except.ok (IntType.wrap_of_holds hs)

/-- Whatever is returned is congruent to the exact sum. -/
theorem remainderFrom_congr {T : IntType} {number length first x : Int} (hl : 0 < length)
    (h : remainderFrom host T number length first = .ok x) :
    x % (2 ^ T.width : Nat) = (number.tmod length + first) % (2 ^ T.width : Nat) := by
  rw [remainderFrom, IntType.rem_of_pos hl] at h
  obtain ⟨remainder, hr, h⟩ := of_bind_eq_ok h
  cases hr
  obtain ⟨sum, hsum, h⟩ := of_bind_eq_ok h
  cases h
  rw [T.wrap_emod]
  have hd : ((2 ^ T.width : Nat) : Int) ∣ (2 ^ (host.promoted T).width : Nat) := by
    push_cast
    exact pow_dvd_pow 2 (T.width_le_promoted host.intWidth)
  rw [← Int.emod_emod_of_dvd sum hd, (IntType.arith_eq_ok hsum).2, Int.emod_emod_of_dvd _ hd]

/-- The result is in the interval when the bound is not negative or nothing remains: the
remainder of a negative draw is negative, and a narrow type that wraps does not wrap into it. -/
theorem remainderFrom_in_iff {T : IntType} {minimum maximum : Int} (hlt : minimum < maximum)
    (hmin : T.Holds minimum) (hmax : T.Holds maximum) (rand : Rand host) :
    (∃ x, remainderFrom host T (cppPl3rd host maximum rand) (maximum - minimum) minimum = .ok x ∧
      minimum ≤ x ∧ x < maximum) ↔
    0 ≤ maximum ∨ maximum - minimum ∣ cppPl3rd host maximum rand := by
  have hpos : 0 < maximum - minimum := by omega
  rw [← draw_nonneg_or_dvd_iff, ← tmod_nonneg_iff]
  generalize hn : cppPl3rd host maximum rand = number
  have hup := Int.tmod_lt_of_pos number hpos
  constructor
  · rintro ⟨x, hx, h₁, h₂⟩
    have hc := remainderFrom_congr hpos hx
    by_cases h₀ : 0 ≤ maximum
    · exact Int.tmod_nonneg _ (hn ▸ cppPl3rd_nonneg h₀ rand)
    · -- Both bounds are negative: the interval is shorter than half the type.
      have hlow := Int.lt_tmod_of_pos number hpos
      have hw := T.two_pow_width
      have hm := hmin.neg_le
      have hd : ((2 ^ T.width : Nat) : Int) ∣ x - (number.tmod (maximum - minimum) + minimum) :=
        Int.dvd_of_emod_eq_zero (Int.emod_eq_emod_iff_emod_sub_eq_zero.mp hc)
      have hc := natCast_two_pow T.width
      have hz := Int.eq_zero_of_dvd_of_natAbs_lt_natAbs hd (by omega)
      omega
  · intro h
    exact ⟨_, remainderFrom_eq hlt hmin hmax h, by omega, by omega⟩

/-! ### Numbers and strings -/

/-- A draw from an interval, if its length does not overflow. -/
theorem cppPl3rdInterval_eq {T : IntType} {minimum maximum : Int} (hlt : minimum < maximum)
    (hlen : (host.promoted T).Holds (maximum - minimum)) (rand : Rand host) :
    cppPl3rdInterval host T minimum maximum rand =
      remainderFrom host T (cppPl3rd host maximum rand) (maximum - minimum) minimum := by
  rw [cppPl3rdInterval, if_neg (not_not.mpr hlt), IntType.arith_of_holds hlen]
  rfl

/-- The loop returns a string of characters with `P` when every character it makes has `P`. -/
theorem randomStringLoop_iff {beg end_ len : Int} {rand : Nat → Rand host} (P : Int → Prop)
    {n i : Nat} {done rest : List Int} (hd : done.length = i) (hr : rest.length = n) :
    (∃ s, randomStringLoop host beg end_ len rand n i (done ++ rest) = .ok s ∧
      s.length = i + n ∧ ∀ c ∈ s, P c) ↔
    (∀ c ∈ done, P c) ∧ ∀ j, i ≤ j → j < i + n →
      ∃ c, remainderFrom host host.char (cppPl3rd host end_ (rand j)) len beg = .ok c ∧ P c := by
  -- Induction on the rounds to come; `done` are the characters set so far.
  induction n generalizing i done rest with
  | zero =>
      rw [List.length_eq_zero_iff.mp hr, List.append_nil]
      constructor
      · rintro ⟨s, hs, -, hall⟩
        cases hs
        exact ⟨hall, fun j _ _ => by omega⟩
      · rintro ⟨hall, -⟩
        exact ⟨done, rfl, hd, hall⟩
  | succ n ih =>
      obtain ⟨o, rest, rfl⟩ := List.exists_cons_of_length_eq_add_one hr
      rw [randomStringLoop]
      cases hc : remainderFrom host host.char (cppPl3rd host end_ (rand i)) len beg with
      | error fault =>
          constructor
          · rintro ⟨s, hs, -⟩
            cases hs
          · rintro ⟨-, hall⟩
            obtain ⟨c, hc', -⟩ := hall i (Nat.le_refl i) (by omega)
            cases hc.symm.trans hc'
      | ok c =>
          have hset : (done ++ o :: rest).set i c = (done ++ [c]) ++ rest := by
            rw [← hd, set_at_length, List.append_assoc, List.singleton_append]
          have hi := @ih (i + 1) (done ++ [c]) rest (by rw [List.length_append, hd]; rfl)
            (Nat.succ.inj hr)
          change (∃ s, randomStringLoop host beg end_ len rand n (i + 1)
            ((done ++ o :: rest).set i c) = .ok s ∧ _) ↔ _
          rw [hset, Nat.add_comm n 1, ← Nat.add_assoc, hi, List.forall_mem_append,
            List.forall_mem_singleton, and_assoc]
          refine and_congr_right fun _ => ?_
          constructor
          · rintro ⟨hP, hall⟩ j h₁ h₂
            rcases Nat.eq_or_lt_of_le h₁ with rfl | h₁
            · exact ⟨c, hc, hP⟩
            · exact hall j h₁ h₂
          · intro hall
            obtain ⟨c', hc', hP⟩ := hall i (Nat.le_refl i) (by omega)
            cases hc.symm.trans hc'
            exact ⟨hP, fun j h₁ h₂ => hall j (by omega) h₂⟩

/-- `char` is narrower than `int`, so the length of a range of characters is exact. -/
theorem holds_sub_char {beg end_ : Int} (hbeg : host.char.Holds beg) (hend : host.char.Holds end_)
    (hlt : beg < end_) : (host.promoted host.char).Holds (end_ - beg) := by
  have hw := host.le_intWidth
  have hlow : -2 ^ 7 ≤ beg := hbeg.neg_le
  have hup : end_ < 2 ^ 8 := hend.lt
  have hint : (2 : Int) ^ 15 ≤ 2 ^ (host.intWidth - 1) := pow_le_pow_right₀ (by decide) (by omega)
  have hchar : host.char.width < host.intWidth := Nat.lt_of_lt_of_le (show 8 < 16 by decide) hw
  rw [Host.promoted, IntType.promoted_of_lt hchar]
  refine ⟨le_trans (IntType.min_le_zero _) (by omega), ?_⟩
  change end_ - beg ≤ 2 ^ (host.intWidth - 1) - 1
  omega

/-- A number drawn for an interval is in it when the upper bound is not negative, or when the
length of the interval divides the draw; and so is every character of a random string. -/
theorem ranged_in_iff (host : Host) :
    (∀ (T : IntType) (minimum maximum : Int) (rand : Rand host), minimum < maximum →
      T.Holds minimum → T.Holds maximum → (host.promoted T).Holds (maximum - minimum) →
      ((∃ x, cppPl3rdInterval host T minimum maximum rand = .ok x ∧
        minimum ≤ x ∧ x < maximum) ↔
      0 ≤ maximum ∨ maximum - minimum ∣ cppPl3rd host maximum rand)) ∧
    (∀ (beg end_ : Int) (size : Nat) (rand : Nat → Rand host), beg < end_ →
      host.char.Holds beg → host.char.Holds end_ →
      ((∃ s, randomString host beg end_ size rand = .ok s ∧ s.length = size ∧
        ∀ c ∈ s, beg ≤ c ∧ c < end_) ↔
      0 ≤ end_ ∨ ∀ i < size, end_ - beg ∣ cppPl3rd host end_ (rand i))) := by
  constructor
  · intro T minimum maximum rand hlt hmin hmax hlen
    rw [cppPl3rdInterval_eq hlt hlen, remainderFrom_in_iff hlt hmin hmax]
  · intro beg end_ size rand hlt hbeg hend
    have hloop := @randomStringLoop_iff host beg end_ (end_ - beg) rand
      (fun c => beg ≤ c ∧ c < end_) size 0 [] (List.replicate size 0) rfl List.length_replicate
    have hrun : randomString host beg end_ size rand = randomStringLoop host beg end_ (end_ - beg)
        rand size 0 ([] ++ List.replicate size 0) := by
      rw [randomString, if_neg (by omega), if_pos hlt,
        IntType.arith_of_holds (holds_sub_char hbeg hend hlt)]
      rfl
    rw [Nat.zero_add] at hloop
    rw [hrun, hloop]
    simp only [List.not_mem_nil, false_implies, implies_true, true_and, Nat.zero_le, true_implies,
      remainderFrom_in_iff hlt hbeg hend]
    constructor
    · intro hall
      by_cases h₀ : 0 ≤ end_
      · exact .inl h₀
      · exact .inr fun i hi => (hall i hi).resolve_left h₀
    · rintro (h₀ | hall) i hi
      · exact .inl h₀
      · exact .inr (hall i hi)

/-- From -10 to 5: every draw is in the interval. -/
theorem ranged_in_around_zero (rand : Rand (.common .little)) :
    ∃ x, cppPl3rdInterval (.common .little) ⟨32, true, by decide⟩ (-10) 5 rand = .ok x ∧
      -10 ≤ x ∧ x < 5 :=
  ((ranged_in_iff (.common .little)).1 ⟨32, true, by decide⟩ (-10) 5 rand (by decide) (by decide)
    (by decide) (by decide)).mpr (.inl (by decide))

/-- Below zero the draw can be `-3`, and the number is `-13`, below the interval. -/
theorem below_interval :
    cppPl3rdInterval (.common .little) ⟨32, true, by decide⟩ (-10) (-5) ⟨1288490189, by decide⟩ =
      .ok (-13) ∧
    randomString (.common .little) (-10) (-5) 1 (fun _ => ⟨1288490189, by decide⟩) =
      .ok [-13] ∧
    ¬ ∃ x, cppPl3rdInterval (.common .little) ⟨32, true, by decide⟩ (-10) (-5)
      ⟨1288490189, by decide⟩ = .ok x ∧ -10 ≤ x ∧ x < -5 := by
  have hrun : cppPl3rdInterval (.common .little) ⟨32, true, by decide⟩ (-10) (-5)
    ⟨1288490189, by decide⟩ = .ok (-13) := by decide
  refine ⟨hrun, by decide, ?_⟩
  rintro ⟨x, hx, hle, -⟩
  cases hrun.symm.trans hx
  exact absurd hle (by decide)

end Fcgi.Rnd

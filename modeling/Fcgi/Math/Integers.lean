import Fcgi.Base.Host
import Fcgi.Math.Alignment

/-!
# Math — alignment of any integer type

`is_power_of_two`, `padding` and `aligned` as templates: for every integer type, on every host,
with the promotion of narrow operands and without a value where a signed operation overflows.

* **`guardExact_iff`**: when the guard of `padding` and `aligned` throws exactly for a negative
  value and for what is no power of two.
* **`padding_aligned`**: what they return for a power of two.

The guard computes `alignment & (alignment - 1)`.  It is zero for a power of two and for zero itself
(`zero_passes_guard`), and has no value for the lowest of a signed type that is not promoted, where
the subtraction overflows (`Lowest`).  Of any other number that is no power of two a bit survives
the conjunction.
-/

namespace Fcgi.Math.Integer
open Lib

section Definitions

variable (host : Host) (T : IntType)

/-- `math::is_power_of_two()`. -/
def isPowerOfTwo (number : Int) : Except (Fault Exception) Bool := do
  let pred ← (host.promoted T).arith (number - 1)
  return (host.promoted T).land number pred == 0

/-- `math::padding()`. -/
def padding (value alignment : Int) : Except (Fault Exception) Int :=
  if ¬ value ≥ 0 then
    .error (.exc (.math "cannot calculate padding for a negative value"))
  else do
    if !(← isPowerOfTwo host T alignment) then
      .error (.exc (.math "cannot calculate padding with alignment that is not power of 2"))
    else
      let neg ← (host.promoted T).arith (0 - value)
      let mask ← (host.promoted T).arith (alignment - 1)
      return (host.promoted T).land neg (T.wrap mask)

/-- `math::aligned()`. -/
def aligned (value alignment : Int) : Except (Fault Exception) Int :=
  if ¬ value ≥ 0 then
    .error (.exc (.math "cannot align a negative value"))
  else do
    if !(← isPowerOfTwo host T alignment) then
      .error (.exc (.math "cannot align a value with alignment that is not power of 2"))
    else
      let mask ← (host.promoted T).arith (alignment - 1)
      let sum ← (host.promoted T).arith (value + mask)
      let neg ← (host.promoted T).arith (-alignment)
      return T.wrap ((host.promoted T).land sum neg)

/-- `number - 1` overflows: there is no promotion and `number` is the lowest of a signed type. -/
def Lowest (number : Int) : Prop :=
  T.signed = true ∧ host.intWidth ≤ T.width ∧ number = T.min

instance (number : Int) : Decidable (Lowest host T number) :=
  inferInstanceAs (Decidable (_ ∧ _ ∧ _))

/-- The call leaves with an exception. -/
def Throws {α : Type} (result : Except (Fault Exception) α) : Prop :=
  ∃ e, result = .error (.exc e)

end Definitions

variable {host : Host} {T : IntType}

/-! ### The guard -/

theorem not_throws_ok {α : Type} (a : α) : ¬ Throws (.ok a : Except (Fault Exception) α) := by
  rintro ⟨_, h⟩
  cases h

/-- An operation that overflows throws nothing. -/
theorem not_throws_arith_bind {α : Type} (x : Int) {f : Int → Except (Fault Exception) α}
    (h : ∀ y, ¬ Throws (f y)) : ¬ Throws (T.arith x >>= f) := by
  rintro ⟨e, he⟩
  cases hx : T.arith (ε := Exception) x with
  | ok y =>
      rw [hx] at he
      exact h y ⟨e, he⟩
  | error fault =>
      rw [hx] at he
      cases he
      exact IntType.arith_ne_exc x e hx

/-- The lowest number of the promoted type is the lowest of a type that is not promoted. -/
theorem lowest_of_eq_min {number : Int} (h : T.Holds number)
    (hs : (host.promoted T).signed = true) (hm : number = (host.promoted T).min) :
    Lowest host T number := by
  by_cases hw : T.width < host.intWidth
  · rw [Host.promoted, IntType.promoted_of_lt hw] at hm
    replace hm : number = -2 ^ (host.intWidth - 1) := hm
    have hlt : (2 : Int) ^ (T.width - 1) < 2 ^ (host.intWidth - 1) := by
      have := T.width_pos
      exact pow_lt_pow_right₀ (by decide) (by omega)
    have := h.neg_le
    omega
  · rw [Host.promoted, IntType.promoted_of_le (by omega)] at hs hm
    exact ⟨hs, by omega, hm⟩

/-- The predecessor is exact, except that of zero. -/
theorem arith_pred {number : Int} (h : T.Holds number) (hl : ¬ Lowest host T number) :
    ∃ pred, (host.promoted T).arith (ε := Exception) (number - 1) = .ok pred ∧
      (number ≠ 0 → pred = number - 1 ∧ (host.promoted T).Holds (number - 1)) := by
  have hp : (host.promoted T).Holds number := h.promoted host.intWidth
  suffices hq : (host.promoted T).Holds (number - 1) ∨
      ((host.promoted T).signed = false ∧ number = 0) by
    rcases hq with hq | ⟨hs, rfl⟩
    · exact ⟨_, IntType.arith_of_holds hq, fun _ => ⟨rfl, hq⟩⟩
    · exact ⟨_, IntType.arith_of_unsigned hs _, fun h₀ => absurd rfl h₀⟩
  by_cases hpos : 0 < number
  · exact .inl (hp.of_le (by omega) (by omega))
  cases hs : (host.promoted T).signed with
  | false =>
      have := hp.nonneg hs
      exact .inr ⟨rfl, by omega⟩
  | true =>
      have hne : number ≠ (host.promoted T).min := fun hm => hl (lowest_of_eq_min h hs hm)
      have := hp.1
      exact .inl ⟨by omega, le_trans (by omega) (host.promoted T).zero_le_max⟩

/-- `is_power_of_two` takes zero for a power of two, and errs on no other number. -/
theorem isPowerOfTwo_spec {number : Int} (h : T.Holds number) (hl : ¬ Lowest host T number) :
    ∃ b, isPowerOfTwo host T number = .ok b ∧
      (b = true ↔ number = 0 ∨ ∃ k : Nat, number = 2 ^ k) := by
  obtain ⟨pred, hpred, hexact⟩ := arith_pred h hl
  refine ⟨(host.promoted T).land number pred == 0, by rw [isPowerOfTwo, hpred]; rfl, ?_⟩
  rw [beq_iff_eq]
  have hp : (host.promoted T).Holds number := h.promoted host.intWidth
  rcases lt_trichotomy number 0 with hneg | rfl | hpos
  · obtain ⟨rfl, hq⟩ := hexact (by omega)
    have hne := IntType.land_ne_zero_of_neg hp hq hneg (by omega)
    have hk : ¬ ∃ k : Nat, number = 2 ^ k := by
      rintro ⟨k, rfl⟩
      exact absurd (show (0 : Int) < 2 ^ k by positivity) (by omega)
    simp only [hne, hk, or_false, false_iff]
    omega
  · simp only [IntType.land_zero, true_or]
  · obtain ⟨rfl, -⟩ := hexact (by omega)
    have h₀ : number ≠ 0 := by omega
    rw [IntType.land_sub_one_eq_zero hp hpos]
    simp only [h₀, false_or]

/-- The lowest number of a signed type has no predecessor. -/
theorem isPowerOfTwo_lowest {number : Int} (hl : Lowest host T number) :
    isPowerOfTwo host T number = .error .undef := by
  obtain ⟨hs, hw, rfl⟩ := hl
  have hn : ¬ T.Holds (T.min - 1) := fun hn => by
    have := hn.1
    omega
  rw [isPowerOfTwo, Host.promoted, IntType.promoted_of_le hw, IntType.arith, if_pos ⟨hs, hn⟩]
  rfl

/-- An accepted alignment of which neither check throws. -/
theorem guard_throws_iff {α : Type} {value alignment : Int} (h : T.Holds alignment)
    {e e' : Exception} {rest : Except (Fault Exception) α} (hrest : ¬ Throws rest) :
    Throws (if ¬ value ≥ 0 then .error (.exc e) else do
      if !(← isPowerOfTwo host T alignment) then .error (.exc e') else rest) ↔
    value < 0 ∨ (¬ Lowest host T alignment ∧ alignment ≠ 0 ∧ ¬ ∃ k : Nat, alignment = 2 ^ k) := by
  by_cases hv : value ≥ 0
  · rw [if_neg (by omega)]
    by_cases hl : Lowest host T alignment
    · rw [isPowerOfTwo_lowest hl]
      simp only [hl, not_true, false_and, or_false]
      constructor
      · rintro ⟨_, he⟩
        cases he
      · intro hlt
        omega
    · obtain ⟨b, hb, hiff⟩ := isPowerOfTwo_spec h hl
      rw [hb]
      have hlt : ¬ value < 0 := by omega
      cases b with
      | true =>
          have hp := hiff.mp rfl
          simp only [hlt, hl, not_false_iff, true_and, false_or, ← not_or, hp, not_true, iff_false]
          exact hrest
      | false =>
          have hp : ¬ (alignment = 0 ∨ ∃ k : Nat, alignment = 2 ^ k) := fun hp => by
            cases hiff.mpr hp
          simp only [hl, not_false_iff, true_and, ← not_or, hp, or_true, iff_true]
          exact ⟨e', rfl⟩
  · rw [if_pos hv]
    have hlt : value < 0 := by omega
    simp only [hlt, true_or, iff_true]
    exact ⟨e, rfl⟩

theorem padding_throws_iff {value alignment : Int} (h : T.Holds alignment) :
    Throws (padding host T value alignment) ↔ value < 0 ∨
      (¬ Lowest host T alignment ∧ alignment ≠ 0 ∧ ¬ ∃ k : Nat, alignment = 2 ^ k) := by
  refine guard_throws_iff h ?_
  refine not_throws_arith_bind _ fun neg => not_throws_arith_bind _ fun mask => ?_
  exact not_throws_ok _

theorem aligned_throws_iff {value alignment : Int} (h : T.Holds alignment) :
    Throws (aligned host T value alignment) ↔ value < 0 ∨
      (¬ Lowest host T alignment ∧ alignment ≠ 0 ∧ ¬ ∃ k : Nat, alignment = 2 ^ k) := by
  refine guard_throws_iff h ?_
  refine not_throws_arith_bind _ fun mask => not_throws_arith_bind _ fun sum =>
    not_throws_arith_bind _ fun neg => ?_
  exact not_throws_ok _

theorem Lowest.neg {number : Int} (hl : Lowest host T number) : number < 0 := by
  obtain ⟨hs, -, rfl⟩ := hl
  have := T.half_pos
  rw [IntType.min, if_pos hs]
  omega

/-- `padding` and `aligned` throw for a negative value and for an alignment that is no power of
two, and for nothing else. -/
def GuardExact (host : Host) (T : IntType) (value alignment : Int) : Prop :=
  (Throws (padding host T value alignment) ↔ value < 0 ∨ ¬ ∃ k : Nat, alignment = 2 ^ k) ∧
  (Throws (aligned host T value alignment) ↔ value < 0 ∨ ¬ ∃ k : Nat, alignment = 2 ^ k)

/-- The guard is exact but for a non-negative value at the alignment zero, which it lets pass,
and at an alignment without predecessor, where the check itself overflows. -/
theorem guardExact_iff {alignment : Int} (h : T.Holds alignment) (value : Int) :
    (GuardExact host T value alignment ↔
      value < 0 ∨ (alignment ≠ 0 ∧ ¬ Lowest host T alignment)) ∧
    (0 ≤ alignment →
      ((isPowerOfTwo host T alignment = .ok true ↔ ∃ k : Nat, alignment = 2 ^ k) ↔
        alignment ≠ 0)) := by
  have hpos : (∃ k : Nat, alignment = 2 ^ k) → 0 < alignment := by
    rintro ⟨k, rfl⟩
    positivity
  constructor
  · rw [GuardExact, padding_throws_iff h, aligned_throws_iff h, and_self]
    by_cases hv : value < 0
    · simp only [hv, true_or]
    · have hlow : Lowest host T alignment → ¬ ∃ k : Nat, alignment = 2 ^ k := fun hl hk => by
        have := hl.neg
        have := hpos hk
        omega
      have hzero : alignment = 0 → ¬ ∃ k : Nat, alignment = 2 ^ k := fun h₀ hk => by
        have := hpos hk
        omega
      simp only [hv, false_or]
      tauto
  · intro h₀
    have hl : ¬ Lowest host T alignment := fun hl => by
      have := hl.neg
      omega
    obtain ⟨b, hb, hiff⟩ := isPowerOfTwo_spec h hl
    rw [hb, Except.ok.injEq, hiff]
    constructor
    · intro hk hz
      have := hpos (hk.mp (.inl hz))
      omega
    · intro hz
      simp only [hz, false_or]

/-- A value of 5, and 6, which is no power of two. -/
theorem guardExact_six : GuardExact (.common .little) ⟨64, false, by decide⟩ 5 6 :=
  (@guardExact_iff (.common .little) ⟨64, false, by decide⟩ 6 (by decide) 5).1.mpr
    (.inr ⟨by decide, by decide⟩)

/-- The alignment zero is let pass, and the value is "aligned" to zero. -/
theorem zero_passes_guard :
    IntType.Holds ⟨64, false, by decide⟩ 5 ∧ IntType.Holds ⟨64, false, by decide⟩ 0 ∧
    aligned (.common .little) ⟨64, false, by decide⟩ 5 0 = .ok 0 ∧
    ¬ GuardExact (.common .little) ⟨64, false, by decide⟩ 5 0 ∧
    ¬ (isPowerOfTwo (.common .little) ⟨64, false, by decide⟩ 0 = .ok true ↔
      ∃ k : Nat, (0 : Int) = 2 ^ k) := by
  have hz : ¬ ∃ k : Nat, (0 : Int) = 2 ^ k := by
    rintro ⟨k, hk⟩
    exact absurd (show (0 : Int) < 2 ^ k by positivity) (by omega)
  have hal : aligned (.common .little) ⟨64, false, by decide⟩ 5 0 = .ok 0 := rfl
  refine ⟨by decide, by decide, hal, fun h => ?_, fun h => hz (h.mp rfl)⟩
  exact not_throws_ok _ (hal ▸ h.2.mpr (.inr hz))

/-! ### The values -/

theorem isPowerOfTwo_two_pow {k : Nat} (h : T.Holds (2 ^ k)) :
    isPowerOfTwo host T (2 ^ k) = .ok true := by
  have hp : (0 : Int) < 2 ^ k := by positivity
  have hl : ¬ Lowest host T (2 ^ k) := fun hl => by
    have := hl.neg
    omega
  obtain ⟨b, hb, hiff⟩ := isPowerOfTwo_spec h hl
  rw [hb, hiff.mpr (.inr ⟨k, rfl⟩)]

theorem emod_two_pow_of_congr {k : Nat} (hk : k ≤ T.width) {x y : Int}
    (h : x % (2 ^ T.width : Nat) = y % (2 ^ T.width : Nat)) : x % 2 ^ k = y % 2 ^ k := by
  have hd : (2 : Int) ^ k ∣ (2 ^ T.width : Nat) := by
    push_cast
    exact pow_dvd_pow 2 hk
  rw [← Int.emod_emod_of_dvd x hd, h, Int.emod_emod_of_dvd y hd]

/-- The padding is what is missing to the next multiple. -/
theorem padding_eq {value : Int} {k : Nat} (hv : T.Holds value) (h₀ : 0 ≤ value)
    (hk : T.Holds (2 ^ k)) : padding host T value (2 ^ k) = .ok (-value % 2 ^ k) := by
  have hp : (0 : Int) < 2 ^ k := by positivity
  have hmask : T.Holds (2 ^ k - 1) := hk.of_le (by omega) (by omega)
  have hmask' : (host.promoted T).Holds (2 ^ k - 1) := hmask.promoted host.intWidth
  obtain ⟨neg, hneg, -, hc⟩ :=
    IntType.arith_neg (ε := Exception) (hv.promoted host.intWidth) h₀
  rw [← Int.zero_sub] at hneg
  have hd := emod_two_pow_of_congr (IntType.le_width hmask') hc
  calc padding host T value (2 ^ k)
      = .ok ((host.promoted T).land neg (T.wrap (2 ^ k - 1))) := by
        rw [padding, if_neg (by omega), isPowerOfTwo_two_pow hk, Host.promoted, hneg,
          ← Host.promoted, IntType.arith_of_holds hmask']
        rfl
    _ = .ok (-value % 2 ^ k) := by
        rw [IntType.wrap_of_holds hmask, IntType.land_mask hmask', hd]

/-- At a power of two only the sum of the value and the mask can overflow. -/
theorem aligned_eq_bind {value : Int} {k : Nat} (hk : T.Holds (2 ^ k)) (h₀ : 0 ≤ value) :
    aligned host T value (2 ^ k) =
      (host.promoted T).arith (value + (2 ^ k - 1)) >>= fun sum =>
        .ok (T.wrap (sum - sum % 2 ^ k)) := by
  have hp : (0 : Int) < 2 ^ k := by positivity
  have hk' : (host.promoted T).Holds (2 ^ k) := hk.promoted host.intWidth
  have hmask' : (host.promoted T).Holds (2 ^ k - 1) := hk'.of_le (by omega) (by omega)
  obtain ⟨neg, hneg, -, hc⟩ := IntType.arith_neg (ε := Exception) hk' (by omega)
  rw [aligned, if_neg (by omega), isPowerOfTwo_two_pow hk, IntType.arith_of_holds hmask']
  change (do
    let sum ← (host.promoted T).arith (value + (2 ^ k - 1))
    let neg ← (host.promoted T).arith (-2 ^ k)
    return T.wrap ((host.promoted T).land sum neg)) = _
  rw [hneg]
  cases hsum : (host.promoted T).arith (ε := Exception) (value + (2 ^ k - 1)) with
  | error fault => rfl
  | ok sum =>
      have hs₀ : 0 ≤ sum := IntType.arith_nonneg hsum (by omega)
      have hland := IntType.land_neg_two_pow (IntType.arith_eq_ok hsum).1 hs₀ hk' hc
      change Except.ok (T.wrap ((host.promoted T).land sum neg)) = _
      rw [hland]
      rfl

/-- The next multiple, if the type holds it. -/
theorem aligned_eq {value : Int} {k : Nat} (h₀ : 0 ≤ value) (hk : T.Holds (2 ^ k))
    (h : T.Holds (value + -value % 2 ^ k)) :
    aligned host T value (2 ^ k) = .ok (value + -value % 2 ^ k) := by
  have hp : (0 : Int) < 2 ^ k := by positivity
  have hsum := (hk.add_pred h₀ h).promoted host.intWidth
  rw [aligned_eq_bind hk h₀, Host.promoted, IntType.arith_of_holds hsum]
  change Except.ok (T.wrap (value + (2 ^ k - 1) - (value + (2 ^ k - 1)) % 2 ^ k)) = _
  rw [add_pred_sub_emod hp, IntType.wrap_of_holds h]

/-- Whatever `aligned` returns, a sum that wrapped included, is a multiple of the alignment. -/
theorem aligned_returns {value x : Int} {k : Nat} (h₀ : 0 ≤ value) (hk : T.Holds (2 ^ k))
    (h : aligned host T value (2 ^ k) = .ok x) : T.Holds x ∧ (2 : Int) ^ k ∣ x := by
  rw [aligned_eq_bind hk h₀] at h
  obtain ⟨sum, -, h⟩ := of_bind_eq_ok h
  cases h
  have hp : (0 : Int) < 2 ^ k := by positivity
  have hle := IntType.le_width (hk.of_le (x := 2 ^ k - 1) (by omega) (by omega))
  refine ⟨T.holds_wrap _, Int.dvd_of_emod_eq_zero ?_⟩
  rw [emod_two_pow_of_congr hle (T.wrap_emod _)]
  exact Int.emod_eq_zero_of_dvd Int.dvd_self_sub_emod

/-- A multiple of the alignment needs no padding, and aligning leaves it alone. -/
theorem aligned_of_dvd {value : Int} {k : Nat} (hv : T.Holds value) (h₀ : 0 ≤ value)
    (hk : T.Holds (2 ^ k)) (hd : (2 : Int) ^ k ∣ value) :
    padding host T value (2 ^ k) = .ok 0 ∧ aligned host T value (2 ^ k) = .ok value := by
  have hz : -value % 2 ^ k = 0 := Int.emod_eq_zero_of_dvd ((Int.dvd_neg).mpr hd)
  have hadd : value + -value % 2 ^ k = value := by
    rw [hz, Int.add_zero]
  have ha : aligned host T value (2 ^ k) = .ok (value + -value % 2 ^ k) :=
    aligned_eq h₀ hk (by rwa [hadd])
  rw [hadd] at ha
  exact ⟨hz ▸ padding_eq hv h₀ hk, ha⟩

/-- `padding` is the least padding to a multiple of the alignment; `aligned` adds it, without
overflow, whenever the type holds the result; and an aligned value stays as it is. -/
theorem padding_aligned {value : Int} {k : Nat} (hv : T.Holds value) (h₀ : 0 ≤ value)
    (hk : T.Holds (2 ^ k)) :
    ∃ p, padding host T value (2 ^ k) = .ok p ∧
      (0 ≤ p ∧ p < 2 ^ k ∧ 2 ^ k ∣ value + p ∧ ∀ q, 0 ≤ q → 2 ^ k ∣ value + q → p ≤ q) ∧
      (T.Holds (value + p) →
        T.Holds (value + (2 ^ k - 1)) ∧ aligned host T value (2 ^ k) = .ok (value + p) ∧
        (∀ m, value ≤ m → 2 ^ k ∣ m → value + p ≤ m)) ∧
      ∀ x, aligned host T value (2 ^ k) = .ok x → 0 ≤ x →
        padding host T x (2 ^ k) = .ok 0 ∧ aligned host T x (2 ^ k) = .ok x := by
  have hp : (0 : Int) < 2 ^ k := by positivity
  have hleast : ∀ q, 0 ≤ q → (2 : Int) ^ k ∣ value + q → -value % 2 ^ k ≤ q :=
    fun q hq hd => neg_emod_le hp hq hd
  refine ⟨-value % 2 ^ k, padding_eq hv h₀ hk, ⟨Int.emod_nonneg _ (by omega),
    Int.emod_lt_of_pos _ hp, dvd_add_neg_emod value _, hleast⟩, ?_, ?_⟩
  · intro hs
    refine ⟨hk.add_pred h₀ hs, aligned_eq h₀ hk hs, fun m hm hd => ?_⟩
    have := hleast (m - value) (by omega) (by rwa [add_sub_cancel])
    omega
  · intro x hx hx₀
    obtain ⟨hx', hd⟩ := aligned_returns h₀ hk hx
    exact aligned_of_dvd hx' hx₀ hk hd

/-- 250 in an unsigned byte, to a multiple of four. -/
theorem padding_aligned_octet : ∃ p,
    padding (.common .little) ⟨8, false, by decide⟩ 250 (2 ^ 2) = .ok p ∧ p < 2 ^ 2 ∧
      aligned (.common .little) ⟨8, false, by decide⟩ 250 (2 ^ 2) = .ok (250 + p) := by
  obtain ⟨p, hp, ⟨h₀, hlt, -⟩, hal, -⟩ := @padding_aligned (.common .little)
    ⟨8, false, by decide⟩ 250 2 (by decide) (by decide) (by decide)
  have hs : IntType.Holds ⟨8, false, by decide⟩ (250 + p) := by
    refine ⟨?_, ?_⟩
    · change (0 : Int) ≤ 250 + p
      omega
    · change 250 + p ≤ (255 : Int)
      omega
  exact ⟨p, hp, hlt, (hal hs).2.1⟩

/-! ### The patterns of bits -/

/-- A result on the bits of a type as a result on its values. -/
def ofBits (T : IntType) : Except Exception (BitVec T.width) → Except (Fault Exception) Int
  | .ok bits => .ok (T.wrap bits.toNat)
  | .error e => .error (.exc e)

/-- The check for a negative value looks at the top bit. -/
theorem isNegative_ofInt {value : Int} (h : T.Holds value) :
    Math.isNegative T.signed (BitVec.ofInt T.width value) = decide (value < 0) := by
  cases hs : T.signed with
  | false =>
      have := h.nonneg hs
      simp only [Math.isNegative, Bool.false_and, Bool.false_eq, decide_eq_false_iff_not]
      omega
  | true =>
      have hw := IntType.wrap_of_holds h
      rw [IntType.wrap, if_pos hs] at hw
      rw [Math.isNegative, Bool.true_and, BitVec.msb_eq_toInt, BitVec.toInt_ofInt, hw]

/-- On types that are not promoted it is the function on bits. -/
theorem isPowerOfTwo_eq_bits (hw : host.intWidth ≤ T.width) {number : Int} (h : T.Holds number)
    (hl : ¬ Lowest host T number) : isPowerOfTwo host T number =
      .ok (Math.isPowerOfTwo (BitVec.ofInt T.width number)) := by
  obtain ⟨pred, hpred, -⟩ := arith_pred h hl
  have hb := IntType.ofInt_congr (IntType.arith_eq_ok hpred).2
  rw [isPowerOfTwo, hpred]
  rw [Host.promoted, IntType.promoted_of_le hw] at hb ⊢
  change Except.ok (T.land number pred == 0) = _
  rw [Math.isPowerOfTwo, IntType.land, hb, IntType.ofInt_sub]
  refine congrArg Except.ok (Bool.eq_iff_iff.mpr ?_)
  rw [beq_iff_eq, beq_iff_eq, IntType.wrap_toNat_eq_zero]
  rfl

/-- At the types that are not promoted `padding` is its version on bits. -/
theorem padding_eq_bits (hw : host.intWidth ≤ T.width) {value alignment : Int}
    (hv : T.Holds value) (ha : T.Holds alignment) (hl : ¬ Lowest host T alignment) :
    padding host T value alignment = ofBits T (Math.padding T.signed
      (BitVec.ofInt T.width value) (BitVec.ofInt T.width alignment)) := by
  rw [padding, Math.padding, isNegative_ofInt hv, isPowerOfTwo_eq_bits hw ha hl]
  by_cases h₀ : value < 0
  · rw [if_pos (by omega), if_pos (decide_eq_true h₀)]
    rfl
  · rw [if_neg (by omega), if_neg (by simp [h₀])]
    obtain ⟨mask, hmask, -⟩ := arith_pred ha hl
    obtain ⟨neg, hneg, -, hc⟩ :=
      IntType.arith_neg (ε := Exception) (hv.promoted host.intWidth) (by omega)
    have hm := IntType.ofInt_congr (IntType.arith_eq_ok hmask).2
    have hn := IntType.ofInt_congr hc
    rw [← Int.zero_sub] at hneg hn
    change (if _ then _ else do
      let neg ← (host.promoted T).arith (0 - value)
      let mask ← (host.promoted T).arith (alignment - 1)
      return (host.promoted T).land neg (T.wrap mask)) = _
    rw [hmask, Host.promoted, hneg]
    rw [Host.promoted, IntType.promoted_of_le hw] at *
    cases Math.isPowerOfTwo (BitVec.ofInt T.width alignment) with
    | false => rfl
    | true =>
        change Except.ok (T.land neg (T.wrap mask)) = _
        rw [IntType.land, IntType.ofInt_wrap, hm, hn, IntType.ofInt_sub, IntType.ofInt_sub]
        rfl

end Fcgi.Math.Integer

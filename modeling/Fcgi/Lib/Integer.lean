import Mathlib.Tactic.Linarith
import Fcgi.Lib.Prog

/-!
# Lib — the integer types of C++

An integer type is a width and a signedness, and its values are the integers it holds.  An
operand of a type narrower than `int` is promoted to `int` first; then a result that a signed
type does not hold is undefined, and an unsigned type keeps it modulo `2 ^ width`.

* `IntType`: a type, `Holds` its values, `wrap` the conversion to it, `promoted` its promotion.
* `arith`, `land`, `rem`: what an operation of a promoted type makes of an exact result.

Values are integers, and only `&` looks at their bits: it is reduced to arithmetic where one of the
operands is a power of two or one below it (`land_mask`, `land_neg_two_pow`,
`land_sub_one_eq_zero`).  Every other lemma is about remainders, and says when a result is exact:
where the type holds it, or where it is unsigned and the result is taken modulo `2 ^ width`.
-/

namespace Fcgi.Lib

/-- The powers of two of the natural numbers are those of the integers. -/
theorem natCast_two_pow (n : Nat) : ((2 ^ n : Nat) : Int) = 2 ^ n := by
  push_cast; rfl

/-- The bits from `k` on, of a number below `2 ^ w`. -/
theorem and_two_pow_sub_two_pow {n k w : Nat} (hn : n < 2 ^ w) (hk : k ≤ w) :
    n &&& (2 ^ w - 2 ^ k) = n - n % 2 ^ k := by
  have hm : 2 ^ w - 2 ^ k = 2 ^ k * (2 ^ (w - k) - 1) := by
    rw [Nat.mul_sub, ← Nat.pow_add, Nat.mul_one, Nat.add_sub_cancel' hk]
  have hd : n - n % 2 ^ k = 2 ^ k * (n / 2 ^ k) := by
    have := Nat.div_add_mod n (2 ^ k)
    omega
  refine Nat.eq_of_testBit_eq fun i => ?_
  rw [hm, hd, Nat.testBit_and, Nat.testBit_two_pow_mul, Nat.testBit_two_pow_mul,
    Nat.testBit_two_pow_sub_one, Nat.testBit_div_two_pow]
  by_cases hi : k ≤ i
  · simp only [ge_iff_le, hi, decide_true, Bool.true_and, Nat.sub_add_cancel]
    by_cases hw : i < w
    · have : i - k < w - k := by omega
      simp [this]
    · have : n.testBit i = false :=
        Nat.testBit_lt_two_pow (lt_of_lt_of_le hn (Nat.pow_le_pow_right (by decide) (by omega)))
      simp [this]
  · simp [hi]

/-- A computation that returns has returned from its first part. -/
theorem of_bind_eq_ok {ε α β : Type} {m : Except ε α} {f : α → Except ε β} {b : β}
    (h : m >>= f = .ok b) : ∃ a, m = .ok a ∧ f a = .ok b := by
  cases m with
  | error e => cases h
  | ok a => exact ⟨a, rfl, h⟩

/-! ### Rounding up -/

/-- What is missing from `v` to the next multiple of `a`. -/
theorem dvd_add_neg_emod (v a : Int) : a ∣ v + -v % a := by
  have := Int.emod_add_mul_ediv (-v) a
  exact ⟨-(-v / a), by rw [Int.mul_neg]; omega⟩

/-- What is missing to a multiple is the least number that can be added. -/
theorem neg_emod_le {v a q : Int} (ha : 0 < a) (hq : 0 ≤ q) (h : a ∣ v + q) : -v % a ≤ q := by
  obtain ⟨c, hc⟩ := h
  have hv : -v % a = q % a := by
    rw [show q = -v + a * c by omega, Int.add_mul_emod_self_left]
  have hn := Int.mul_nonneg (Int.le_of_lt ha) (Int.ediv_nonneg hq (Int.le_of_lt ha))
  have := Int.emod_add_mul_ediv q a
  omega

/-- Adding one less than `a` and dropping the remainder rounds up to a multiple of `a`. -/
theorem add_pred_sub_emod {a : Int} (ha : 0 < a) (v : Int) :
    v + (a - 1) - (v + (a - 1)) % a = v + -v % a := by
  have h₀ := Int.emod_nonneg (-v) (Int.ne_of_gt ha)
  have h₁ := Int.emod_lt_of_pos (-v) ha
  have hd := Int.emod_add_mul_ediv (-v) a
  have hr : (v + (a - 1)) % a = a - 1 - -v % a := by
    have hs : v + (a - 1) = a - 1 - -v % a + a * -(-v / a) := by
      rw [Int.mul_neg]; omega
    rw [hs, Int.add_mul_emod_self_left, Int.emod_eq_of_lt (by omega) (by omega)]
  rw [hr]
  omega

/-- An integer type: its bits, the sign included, and whether it has negative values. -/
structure IntType where
  width : Nat
  signed : Bool
  width_pos : 0 < width

namespace IntType

variable (T : IntType)

/-- The least value of the type. -/
def min : Int := if T.signed then -2 ^ (T.width - 1) else 0

/-- The greatest value of the type. -/
def max : Int := if T.signed then 2 ^ (T.width - 1) - 1 else 2 ^ T.width - 1

/-- `x` is a value of the type. -/
def Holds (x : Int) : Prop := T.min ≤ x ∧ x ≤ T.max

instance (x : Int) : Decidable (T.Holds x) := inferInstanceAs (Decidable (_ ∧ _))

/-- The conversion to the type: the value of the type congruent modulo `2 ^ width`. -/
def wrap (x : Int) : Int :=
  if T.signed then x.bmod (2 ^ T.width) else x % (2 ^ T.width : Nat)

/-- The type of an operand of the type where `int` has `intWidth` bits. -/
def promoted (intWidth : Nat) : IntType :=
  if h : T.width < intWidth then ⟨intWidth, true, by omega⟩ else T

/-- The result of an operation whose exact result is `x`. -/
def arith {ε : Type} (x : Int) : Except (Fault ε) Int :=
  if T.signed = true ∧ ¬ T.Holds x then .error .undef else .ok (T.wrap x)

/-- `x & y` -/
def land (x y : Int) : Int :=
  T.wrap (BitVec.ofInt T.width x &&& BitVec.ofInt T.width y).toNat

/-- `x % y`: the sign is that of the dividend. -/
def rem {ε : Type} (x y : Int) : Except (Fault ε) Int :=
  if y = 0 ∨ (T.signed = true ∧ x = T.min ∧ y = -1) then .error .undef else .ok (x.tmod y)

/-! ### Values and conversions -/

variable {T}

/-- Twice the half of the values. -/
theorem two_pow_width (T : IntType) : (2 : Int) ^ T.width = 2 * 2 ^ (T.width - 1) := by
  obtain ⟨n, hn⟩ := Nat.exists_eq_succ_of_ne_zero (Nat.ne_of_gt T.width_pos)
  rw [hn, Nat.succ_sub_one, pow_succ, mul_comm]

theorem half_pos (T : IntType) : (0 : Int) < 2 ^ (T.width - 1) := by positivity

/-- The least value is not positive. -/
theorem min_le_zero (T : IntType) : T.min ≤ 0 := by
  have := T.half_pos
  unfold min; split <;> omega

/-- The greatest value is not negative. -/
theorem zero_le_max (T : IntType) : 0 ≤ T.max := by
  have := T.half_pos
  have := T.two_pow_width
  unfold max; split <;> omega

/-- The greatest value is below `2 ^ width`. -/
theorem max_lt (T : IntType) : T.max < 2 ^ T.width := by
  have := T.half_pos
  have := T.two_pow_width
  unfold max; split <;> omega

theorem holds_zero (T : IntType) : T.Holds 0 := ⟨T.min_le_zero, T.zero_le_max⟩

/-- Everything from zero up to a value is a value. -/
theorem Holds.of_le {x y : Int} (h : T.Holds y) (h₀ : 0 ≤ x) (h₁ : x ≤ y) : T.Holds x :=
  ⟨le_trans T.min_le_zero h₀, le_trans h₁ h.2⟩

theorem Holds.lt {x : Int} (h : T.Holds x) : x < 2 ^ T.width :=
  lt_of_le_of_lt h.2 T.max_lt

/-- A value that is not negative is its own remainder. -/
theorem Holds.emod {x : Int} (h : T.Holds x) (h₀ : 0 ≤ x) : x % (2 ^ T.width : Nat) = x :=
  Int.emod_eq_of_lt h₀ (by push_cast; exact h.lt)

/-- A value is not below the least of the signed type of the same width. -/
theorem Holds.neg_le {x : Int} (h : T.Holds x) : -2 ^ (T.width - 1) ≤ x := by
  have h₁ := h.1
  have := T.half_pos
  unfold min at h₁
  split at h₁ <;> omega

/-- A value of an unsigned type is not negative. -/
theorem Holds.nonneg {x : Int} (h : T.Holds x) (hs : T.signed = false) : 0 ≤ x := by
  have h₁ := h.1
  simpa only [min, hs, Bool.false_eq_true, if_false] using h₁

/-- A conversion gives a value of the type. -/
theorem holds_wrap (T : IntType) (x : Int) : T.Holds (T.wrap x) := by
  have hw := T.two_pow_width
  have hp : 0 < 2 ^ T.width := Nat.two_pow_pos T.width
  unfold Holds min max wrap
  split
  · have h₁ := Int.le_bmod (x := x) hp
    have h₂ := Int.bmod_lt (x := x) hp
    push_cast at h₁ h₂ ⊢
    omega
  · have h₁ := Int.emod_nonneg x (b := ((2 ^ T.width : Nat) : Int)) (by omega)
    have h₂ := Int.emod_lt_of_pos x (b := ((2 ^ T.width : Nat) : Int)) (by omega)
    push_cast at h₁ h₂ ⊢
    omega

/-- The conversion changes a number by a multiple of `2 ^ width`. -/
theorem wrap_emod (T : IntType) (x : Int) :
    T.wrap x % (2 ^ T.width : Nat) = x % (2 ^ T.width : Nat) := by
  unfold wrap
  split
  · exact Int.bmod_emod
  · exact Int.emod_emod_of_dvd x (dvd_refl _)

/-- The conversion leaves the values of the type alone. -/
theorem wrap_of_holds {x : Int} (h : T.Holds x) : T.wrap x = x := by
  have hw := T.two_pow_width
  obtain ⟨h₁, h₂⟩ := h
  unfold min at h₁
  unfold max at h₂
  unfold wrap
  split
  · next hs =>
      rw [if_pos hs] at h₁ h₂
      refine Int.bmod_eq_of_le ?_ ?_ <;> push_cast <;> omega
  · next hs =>
      rw [if_neg hs] at h₁ h₂
      refine Int.emod_eq_of_lt h₁ ?_
      push_cast
      omega

/-! ### Promotion -/

/-- A type as wide as `int` is not promoted. -/
theorem promoted_of_le {intWidth : Nat} (h : intWidth ≤ T.width) : T.promoted intWidth = T :=
  dif_neg (by omega)

/-- A narrower type is promoted to `int`. -/
theorem promoted_of_lt {intWidth : Nat} (h : T.width < intWidth) :
    T.promoted intWidth = ⟨intWidth, true, by omega⟩ := dif_pos h

/-- A promotion does not lose bits. -/
theorem width_le_promoted (T : IntType) (intWidth : Nat) :
    T.width ≤ (T.promoted intWidth).width := by
  unfold promoted
  split
  · next h => exact Nat.le_of_lt h
  · exact Nat.le_refl _

/-- A promoted operand keeps its value. -/
theorem Holds.promoted {x : Int} (h : T.Holds x) (intWidth : Nat) :
    (T.promoted intWidth).Holds x := by
  by_cases hw : T.width < intWidth
  · rw [promoted_of_lt hw]
    have hle : (2 : Int) ^ T.width ≤ 2 ^ (intWidth - 1) :=
      pow_le_pow_right₀ (by decide) (by omega)
    have h₁ := h.neg_le
    have h₂ := h.lt
    have := T.two_pow_width
    have := T.half_pos
    simp only [Holds, min, max, if_true]
    omega
  · rwa [promoted_of_le (by omega)]

/-! ### Operations -/

/-- A result that the type holds is exact. -/
theorem arith_of_holds {ε : Type} {x : Int} (h : T.Holds x) :
    T.arith (ε := ε) x = .ok x := by
  rw [arith, if_neg (fun hn => hn.2 h), wrap_of_holds h]

/-- A result of an unsigned type is wrapped. -/
theorem arith_of_unsigned {ε : Type} (hs : T.signed = false) (x : Int) :
    T.arith (ε := ε) x = .ok (T.wrap x) := by
  rw [arith, if_neg (by simp [hs])]

/-- An operation has a value of the type, congruent to the exact result, or none. -/
theorem arith_eq_ok {ε : Type} {x y : Int} (h : T.arith (ε := ε) x = .ok y) :
    T.Holds y ∧ y % (2 ^ T.width : Nat) = x % (2 ^ T.width : Nat) := by
  unfold arith at h
  split at h
  · cases h
  · cases h
    exact ⟨T.holds_wrap x, T.wrap_emod x⟩

/-- A result that is not negative does not become negative. -/
theorem arith_nonneg {ε : Type} {x y : Int} (h : T.arith (ε := ε) x = .ok y) (h₀ : 0 ≤ x) :
    0 ≤ y := by
  cases hs : T.signed with
  | false => exact (arith_eq_ok h).1.nonneg hs
  | true =>
      unfold arith at h
      split at h
      · cases h
      · next hn =>
          have hx : T.Holds x := not_not.mp fun hx => hn ⟨hs, hx⟩
          rw [wrap_of_holds hx] at h
          cases h
          exact h₀

/-- The negation of a value that is not negative is congruent to the exact one. -/
theorem arith_neg {ε : Type} {x : Int} (h : T.Holds x) (h₀ : 0 ≤ x) :
    ∃ y, T.arith (ε := ε) (-x) = .ok y ∧ T.Holds y ∧
      y % (2 ^ T.width : Nat) = -x % (2 ^ T.width : Nat) := by
  suffices hy : ∃ y, T.arith (ε := ε) (-x) = .ok y by
    obtain ⟨y, hy⟩ := hy
    exact ⟨y, hy, arith_eq_ok hy⟩
  cases hs : T.signed with
  | false => exact ⟨_, arith_of_unsigned hs _⟩
  | true =>
      refine ⟨_, arith_of_holds ⟨?_, le_trans (by omega) T.zero_le_max⟩⟩
      have hx := h.2
      rw [max, if_pos hs] at hx
      rw [min, if_pos hs]
      omega

/-- Arithmetic throws no exception. -/
theorem arith_ne_exc {ε : Type} (x : Int) (e : ε) : T.arith x ≠ .error (.exc e) := by
  intro h
  unfold arith at h
  split at h <;> cases h

/-- The remainder of a division by a positive number. -/
theorem rem_of_pos {ε : Type} {x y : Int} (h : 0 < y) :
    T.rem (ε := ε) x y = .ok (x.tmod y) :=
  if_neg (by omega)

/-! ### Bits -/

/-- The conjunction of the bits, as one of natural numbers. -/
theorem land_eq (T : IntType) (x y : Int) : T.land x y =
    T.wrap (((x % (2 ^ T.width : Nat)).toNat &&& (y % (2 ^ T.width : Nat)).toNat : Nat) : Int) := by
  rw [land, BitVec.toNat_and, BitVec.toNat_ofInt, BitVec.toNat_ofInt]

/-- A type that holds `k` ones has `k` bits. -/
theorem le_width {k : Nat} (h : T.Holds (2 ^ k - 1)) : k ≤ T.width := by
  have h₁ : (2 : Int) ^ k ≤ 2 ^ T.width := by
    have := h.lt; omega
  exact (pow_le_pow_iff_right₀ (by decide)).mp h₁

/-- A power of two that is a value divides the number of values that are not negative. -/
theorem two_pow_dvd_max {k : Nat} (h : T.Holds (2 ^ k)) : (2 : Int) ^ k ∣ T.max + 1 := by
  have hm : ∃ n : Nat, T.max + 1 = 2 ^ n := by
    unfold max
    split
    · exact ⟨T.width - 1, by omega⟩
    · exact ⟨T.width, by omega⟩
  obtain ⟨n, hn⟩ := hm
  have hlt : (2 : Int) ^ k < 2 ^ n := by
    have := h.2
    omega
  rw [hn]
  exact pow_dvd_pow 2 (Nat.le_of_lt ((pow_lt_pow_iff_right₀ (by decide)).mp hlt))

/-- When a number rounded up to a multiple of `2 ^ k` is a value, so is every number on the
way. -/
theorem Holds.add_pred {k : Nat} {v : Int} (hk : T.Holds (2 ^ k)) (h₀ : 0 ≤ v)
    (h : T.Holds (v + -v % 2 ^ k)) : T.Holds (v + (2 ^ k - 1)) := by
  have hp : (0 : Int) < 2 ^ k := by positivity
  have hv := Int.emod_nonneg (-v) (Int.ne_of_gt hp)
  have hd : (2 : Int) ^ k ∣ T.max + 1 - (v + -v % 2 ^ k) :=
    Int.dvd_sub (two_pow_dvd_max hk) (dvd_add_neg_emod v _)
  have hle := Int.le_of_dvd (by have := h.2; omega) hd
  exact ⟨le_trans T.min_le_zero (by omega), by omega⟩

/-- `x & (2 ^ k - 1)` -/
theorem land_mask {k : Nat} (hk : T.Holds (2 ^ k - 1)) (x : Int) :
    T.land x (2 ^ k - 1) = x % 2 ^ k := by
  have hle := le_width hk
  have hp : (0 : Int) < 2 ^ k := by positivity
  have hw : (0 : Int) < 2 ^ T.width := by positivity
  have h₁ : ((2 : Int) ^ k - 1) % (2 ^ T.width : Nat) = 2 ^ k - 1 := hk.emod (by omega)
  have h₂ : ((2 : Int) ^ k - 1).toNat = 2 ^ k - 1 := by
    have := natCast_two_pow k
    omega
  have h₃ : (((x % (2 ^ T.width : Nat)).toNat % 2 ^ k : Nat) : Int) = x % 2 ^ k := by
    rw [Int.natCast_emod, Int.toNat_of_nonneg (Int.emod_nonneg x (by omega))]
    push_cast
    exact Int.emod_emod_of_dvd x (pow_dvd_pow 2 hle)
  rw [land_eq, h₁, h₂, Nat.and_two_pow_sub_one_eq_mod, h₃]
  have := Int.emod_lt_of_pos x hp
  exact wrap_of_holds (hk.of_le (Int.emod_nonneg x (by omega)) (by omega))

/-- `x & -2 ^ k` -/
theorem land_neg_two_pow {k : Nat} {x y : Int} (hx : T.Holds x) (h₀ : 0 ≤ x)
    (hk : T.Holds (2 ^ k)) (hy : y % (2 ^ T.width : Nat) = -2 ^ k % (2 ^ T.width : Nat)) :
    T.land x y = x - x % 2 ^ k := by
  have hp : (0 : Int) < 2 ^ k := by positivity
  have hle := le_width (hk.of_le (x := 2 ^ k - 1) (by omega) (by omega))
  have hlt := hk.lt
  have h₂ : (y % (2 ^ T.width : Nat)).toNat = 2 ^ T.width - 2 ^ k := by
    have := natCast_two_pow k
    have := natCast_two_pow T.width
    rw [hy, ← Int.add_emod_right, Int.emod_eq_of_lt (by omega) (by omega)]
    omega
  have hn : x.toNat < 2 ^ T.width := by
    have := hx.lt
    have := natCast_two_pow T.width
    omega
  have hm : ((x.toNat - x.toNat % 2 ^ k : Nat) : Int) = x - x % 2 ^ k := by
    rw [Nat.cast_sub (Nat.mod_le _ _), Int.natCast_emod, Int.toNat_of_nonneg h₀]
    push_cast
    rfl
  rw [land_eq, hx.emod h₀, h₂, and_two_pow_sub_two_pow hn hle, hm]
  have := Int.emod_nonneg x (b := (2 : Int) ^ k) (by omega)
  have hr : 0 ≤ x - x % 2 ^ k := hm ▸ Int.natCast_nonneg _
  exact wrap_of_holds (hx.of_le hr (by omega))

/-- A pattern of bits is zero when each of its bits is. -/
theorem land_eq_zero {x y : Int} : T.land x y = 0 ↔
    (x % (2 ^ T.width : Nat)).toNat &&& (y % (2 ^ T.width : Nat)).toNat = 0 := by
  rw [land_eq]
  have hw : 0 < 2 ^ T.width := Nat.two_pow_pos T.width
  have hlt : (x % (2 ^ T.width : Nat)).toNat &&& (y % (2 ^ T.width : Nat)).toNat
      < 2 ^ T.width := by
    have := Int.emod_lt_of_pos y (b := ((2 ^ T.width : Nat) : Int)) (by omega)
    exact Nat.and_lt_two_pow _ (by omega)
  generalize (x % (2 ^ T.width : Nat)).toNat &&& (y % (2 ^ T.width : Nat)).toNat = n at hlt
  constructor
  · intro h
    have hn := T.wrap_emod n
    rw [h, Int.zero_emod, Int.emod_eq_of_lt (by omega) (by omega)] at hn
    omega
  · rintro rfl
    exact wrap_of_holds T.holds_zero

theorem land_zero (y : Int) : T.land 0 y = 0 := by
  rw [land_eq_zero, Int.zero_emod, Int.toNat_zero, Nat.zero_and]

/-- The bit trick for the powers of two, on the positive numbers. -/
theorem land_sub_one_eq_zero {x : Int} (hx : T.Holds x) (h₀ : 0 < x) :
    T.land x (x - 1) = 0 ↔ ∃ k : Nat, x = 2 ^ k := by
  obtain ⟨n, rfl⟩ := Int.eq_ofNat_of_zero_le (Int.le_of_lt h₀)
  have hn : ((n : Int) - 1).toNat = n - 1 := by omega
  have hy : T.Holds ((n : Int) - 1) := hx.of_le (by omega) (by omega)
  rw [land_eq_zero, hx.emod (by omega), hy.emod (by omega), Int.toNat_natCast, hn,
    Nat.and_sub_one_eq_zero_iff_isPowerOfTwo (by omega)]
  exact exists_congr fun k => by
    constructor
    · rintro rfl; push_cast; rfl
    · intro h; exact_mod_cast h

/-- Two negative numbers share the sign bit. -/
theorem land_ne_zero_of_neg {x y : Int} (hx : T.Holds x) (hy : T.Holds y) (h₁ : x < 0)
    (h₂ : y < 0) : T.land x y ≠ 0 := by
  have hneg : ∀ z : Int, T.Holds z → z < 0 →
      (z % (2 ^ T.width : Nat)).toNat.testBit (T.width - 1) = true := by
    intro z hz hlt
    have hw := T.two_pow_width
    have hle := hz.neg_le
    have := natCast_two_pow (T.width - 1)
    have := natCast_two_pow T.width
    have hz' : z % (2 ^ T.width : Nat) = z + (2 ^ T.width : Nat) := by
      rw [← Int.add_emod_right]
      exact Int.emod_eq_of_lt (by omega) (by omega)
    rw [hz']
    refine Nat.testBit_of_two_pow_le_and_two_pow_add_one_gt (by omega) ?_
    rw [Nat.sub_add_cancel T.width_pos]
    omega
  intro h
  rw [land_eq_zero] at h
  have hb := Nat.testBit_and (x % (2 ^ T.width : Nat)).toNat (y % (2 ^ T.width : Nat)).toNat
    (T.width - 1)
  rw [h, hneg x hx h₁, hneg y hy h₂, Nat.zero_testBit] at hb
  cases hb

/-! ### Patterns of bits -/

/-- The bits depend on the remainder only. -/
theorem ofInt_congr {x y : Int} (h : x % (2 ^ T.width : Nat) = y % (2 ^ T.width : Nat)) :
    BitVec.ofInt T.width x = BitVec.ofInt T.width y :=
  BitVec.eq_of_toNat_eq (by rw [BitVec.toNat_ofInt, BitVec.toNat_ofInt, h])

theorem ofInt_sub {w : Nat} (x y : Int) :
    BitVec.ofInt w (x - y) = BitVec.ofInt w x - BitVec.ofInt w y := by
  rw [Int.sub_eq_add_neg, BitVec.ofInt_add, BitVec.ofInt_neg, BitVec.sub_eq_add_neg]

/-- Only the pattern without bits has the value zero. -/
theorem wrap_toNat_eq_zero {bits : BitVec T.width} : T.wrap bits.toNat = 0 ↔ bits = 0#_ := by
  constructor
  · intro h
    have hn := T.wrap_emod bits.toNat
    rw [h, Int.zero_emod, Int.emod_eq_of_lt (by omega) (by exact_mod_cast bits.isLt)] at hn
    exact BitVec.eq_of_toNat_eq (by rw [BitVec.toNat_zero]; omega)
  · rintro rfl
    rw [BitVec.toNat_zero]
    exact wrap_of_holds T.holds_zero

theorem ofInt_wrap (T : IntType) (x : Int) :
    BitVec.ofInt T.width (T.wrap x) = BitVec.ofInt T.width x := ofInt_congr (T.wrap_emod x)

end IntType

end Fcgi.Lib

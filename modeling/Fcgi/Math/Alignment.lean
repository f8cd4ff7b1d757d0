import Mathlib.Tactic.Linarith
import Fcgi.Base.Exceptions

/-!
# Math — alignment

`math::is_power_of_two` and `math::padding`, at an integer type of `w` bits.
`signed` says whether the type has negative values, which decides the check `value >= 0`; the
bit operations are the same for both.

The rest of the program calls `padding` with 8 for the alignment: for a size it is `pad8`, the
number of bytes to the next multiple of eight (`padding_streamsize`).
-/

namespace Fcgi.Math

variable {w : Nat}

/-- `math::is_power_of_two()`. -/
def isPowerOfTwo (number : BitVec w) : Bool := number &&& (number - 1) == 0

/-- `!(value >= 0)`. -/
def isNegative (signed : Bool) (value : BitVec w) : Bool := signed && value.msb

/-- `math::padding()`. -/
def padding (signed : Bool) (value alignment : BitVec w) : Except Exception (BitVec w) :=
  if isNegative signed value then
    .error (.math "cannot calculate padding for a negative value")
  else if !isPowerOfTwo alignment then
    .error (.math "cannot calculate padding with alignment that is not power of 2")
  else
    .ok ((0 - value) &&& (alignment - 1))

/-- The bytes missing from `n` to the next multiple of eight. -/
def pad8 (n : Nat) : Nat := (8 - n % 8) % 8

/-- Less than eight bytes of padding. -/
theorem pad8_lt (n : Nat) : pad8 n < 8 := Nat.mod_lt _ (by omega)

/-- The padding completes a multiple of eight. -/
theorem add_pad8 (n : Nat) : (n + pad8 n) % 8 = 0 := by
  unfold pad8; omega

/-- The padding the connection computes for its records: `padding<std::streamsize>(n, 8)`. -/
theorem padding_streamsize {n : Nat} (h : n < 2 ^ 63) :
    padding true (BitVec.ofNat 64 n) 8 = .ok (BitVec.ofNat 64 (pad8 n)) := by
  have hn : isNegative true (BitVec.ofNat 64 n) = false := by
    simp only [isNegative, Bool.true_and]
    rw [BitVec.msb_eq_false_iff_two_mul_lt, BitVec.toNat_ofNat]
    omega
  have hp : isPowerOfTwo (8 : BitVec 64) = true := by decide
  simp only [padding, hn, hp, Bool.not_true, Bool.false_eq_true, if_false]
  refine congrArg Except.ok (BitVec.eq_of_toNat_eq ?_)
  have h7 : ((8 : BitVec 64) - 1).toNat = 2 ^ 3 - 1 := by decide
  rw [BitVec.toNat_and, h7, Nat.and_two_pow_sub_one_eq_mod]
  have h0 : (0 : BitVec 64).toNat = 0 := rfl
  simp only [BitVec.toNat_sub, BitVec.toNat_ofNat, pad8, h0]
  omega

/-- The padding as a number of 64 bits. -/
theorem toNat_pad8 (n : Nat) : (BitVec.ofNat 64 (pad8 n)).toNat = pad8 n := by
  have := pad8_lt n
  rw [BitVec.toNat_ofNat]; omega

end Fcgi.Math

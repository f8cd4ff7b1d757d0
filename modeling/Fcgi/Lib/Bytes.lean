import Mathlib.Data.Nat.Digits.Defs
import Mathlib.Tactic.Linarith

/-!
# Lib — numbers as bytes

A string of bytes as a numeral in base 256, with the least significant byte first (`valueLE`) or
the most significant byte first (`valueBE`), and the `n` bytes of a number in either order.

Strings of `n` bytes and numbers below `256 ^ n` determine each other (`bytesLE_valueLE`,
`valueLE_bytesLE`); the other order is the same string reversed.
-/

namespace Fcgi.Lib

/-- The number with the bytes `bs`, the least significant first. -/
def valueLE (bs : List UInt8) : Nat := Nat.ofDigits 256 (bs.map UInt8.toNat)

/-- The number with the bytes `bs`, the most significant first. -/
def valueBE (bs : List UInt8) : Nat := valueLE bs.reverse

/-- The lower `n` bytes of `v`, the least significant first. -/
def bytesLE : Nat → Nat → List UInt8
  | 0, _ => []
  | n + 1, v => UInt8.ofNat (v % 256) :: bytesLE n (v / 256)

/-- The lower `n` bytes of `v`, the most significant first. -/
def bytesBE (n v : Nat) : List UInt8 := (bytesLE n v).reverse

@[simp] theorem length_bytesLE (n v : Nat) : (bytesLE n v).length = n := by
  induction n generalizing v with
  | zero => rfl
  | succ n ih => rw [bytesLE, List.length_cons, ih]

/-- The least significant byte, and the others. -/
theorem valueLE_cons (b : UInt8) (bs : List UInt8) :
    valueLE (b :: bs) = b.toNat + 256 * valueLE bs := Nat.ofDigits_cons

theorem valueLE_append (bs cs : List UInt8) :
    valueLE (bs ++ cs) = valueLE bs + 256 ^ bs.length * valueLE cs := by
  rw [valueLE, List.map_append, Nat.ofDigits_append, List.length_map, valueLE, valueLE]

@[simp] theorem valueLE_replicate_zero (n : Nat) : valueLE (List.replicate n 0) = 0 := by
  rw [valueLE, List.map_replicate]
  exact Nat.ofDigits_replicate_zero

/-- The bytes of the number that given bytes make are these bytes. -/
theorem bytesLE_valueLE (bs : List UInt8) : bytesLE bs.length (valueLE bs) = bs := by
  induction bs with
  | nil => rfl
  | cons b bs ih =>
      have hb := b.toNat_lt
      have hm : (b.toNat + 256 * valueLE bs) % 256 = b.toNat := by omega
      have hd : (b.toNat + 256 * valueLE bs) / 256 = valueLE bs := by omega
      rw [valueLE_cons, List.length_cons, bytesLE, hm, hd, ih, UInt8.ofNat_toNat]

/-- A number that fits in is read back. -/
theorem valueLE_bytesLE {n v : Nat} (h : v < 256 ^ n) : valueLE (bytesLE n v) = v := by
  induction n generalizing v with
  | zero =>
      have : v = 0 := by omega
      rw [this]
      rfl
  | succ n ih =>
      have hd : v / 256 < 256 ^ n := by
        rw [pow_succ] at h
        exact Nat.div_lt_of_lt_mul (by rwa [Nat.mul_comm])
      have hm : v % 256 < 256 := Nat.mod_lt v (by decide)
      rw [bytesLE, valueLE_cons, ih hd, UInt8.toNat_ofNat_of_lt' hm]
      exact Nat.mod_add_div v 256

/-- More bytes than a number needs are zeros. -/
theorem bytesLE_add {n v : Nat} (h : v < 256 ^ n) (k : Nat) :
    bytesLE (n + k) v = bytesLE n v ++ List.replicate k 0 := by
  have hl : (bytesLE n v ++ List.replicate k 0).length = n + k := by simp
  have hv : valueLE (bytesLE n v ++ List.replicate k 0) = v := by
    rw [valueLE_append, valueLE_replicate_zero, Nat.mul_zero, Nat.add_zero, valueLE_bytesLE h]
  have hb := bytesLE_valueLE (bytesLE n v ++ List.replicate k 0)
  rwa [hl, hv] at hb

/-- The element behind `front` is replaced. -/
theorem set_at_length {α : Type} (front back : List α) (o b : α) :
    (front ++ o :: back).set front.length b = front ++ b :: back := by
  rw [List.set_append_right _ _ (Nat.le_refl _), Nat.sub_self, List.set_cons_zero]

end Fcgi.Lib

import Fcgi.Lib.Integer

/-!
# Base — hosts

What the standard leaves to the implementation, as far as the modelled code depends on it: the
order of the bytes of an integer and the widths and ranges of the built-in types.
-/

namespace Fcgi
open Lib

/-- `util::Endianness` -/
inductive Endianness where
  | big
  | little
  deriving DecidableEq, Repr

/-- An implementation.  Its bytes have eight bits. -/
structure Host where
  /-- The order in which the bytes of an integer are stored. -/
  byteOrder : Endianness
  /-- `sizeof(unsigned long)` -/
  ulongSize : Nat
  /-- What `util::endianness` asserts when it is compiled. -/
  one_lt_ulongSize : 1 < ulongSize
  /-- The bits of an `int`. -/
  intWidth : Nat
  le_intWidth : 16 ≤ intWidth
  isCharSigned : Bool
  /-- `RAND_MAX` -/
  randMax : Nat
  le_randMax : 32767 ≤ randMax

namespace Host

theorem char_width_pos : 0 < 8 := by decide

/-- `char` -/
def char (host : Host) : IntType := ⟨8, host.isCharSigned, char_width_pos⟩

/-- The type an operand of type `T` has after the promotion. -/
def promoted (host : Host) (T : IntType) : IntType := T.promoted host.intWidth

/-- The common implementation for the order `byteOrder`. -/
def common (byteOrder : Endianness) : Host where
  byteOrder := byteOrder
  ulongSize := 8
  one_lt_ulongSize := by decide
  intWidth := 32
  le_intWidth := by decide
  isCharSigned := true
  randMax := 2147483647
  le_randMax := by decide

end Host

end Fcgi

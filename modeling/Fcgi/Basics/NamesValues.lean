import Fcgi.Streams.Istream

/-!
# Basics — names and values

`Name_value`, `Names_values` and the constructor of `Names_values` that reads a stream.

A pair keeps its name and its value one after the other in one block.  The constructor reads a pair
a round: the two lengths, each in one byte or in four, and then a block of as many bytes as both
together; it ends where the stream ends before a pair, and throws where it ends in one.
-/

namespace Fcgi
open Lib

/-- `Name_value`: a block holding a name and, right after it, a value. -/
structure NameValue where
  data_ : List UInt8
  nameSize_ : Nat
  valueSize_ : Nat
  deriving DecidableEq, Repr

namespace NameValue

/-- `name()`. -/
def name (p : NameValue) : List UInt8 := p.data_.take p.nameSize_

/-- `value()`. -/
def value (p : NameValue) : List UInt8 := (p.data_.drop p.nameSize_).take p.valueSize_

end NameValue

/-- `Names_values`. -/
structure NamesValues where
  pairs_ : List NameValue := []
  deriving DecidableEq, Repr

namespace NamesValues

/-- `pair_count()`. -/
def pairCount (nv : NamesValues) : Nat := nv.pairs_.length

/-- `add(data, name_size, value_size)`. -/
def add (nv : NamesValues) (data : List UInt8) (nameSize valueSize : Nat) : NamesValues :=
  ⟨nv.pairs_ ++ [⟨data, nameSize, valueSize⟩]⟩

/-- `pair_index(name)`. -/
def pairIndex (nv : NamesValues) (name : List UInt8) : Option Nat :=
  nv.pairs_.findIdx? fun p => p.name == name

/-- `pair(index)`. -/
def pair {σ : Type} (nv : NamesValues) (index : Nat) : Prog σ Exception NameValue := do
  Prog.assert (index < nv.pairCount)
  pure (nv.pairs_.getD index ⟨[], 0, 0⟩)

/-- `add(name, value)` of two C strings; `block` is what lies in the memory `new char[]` gives. -/
def addStrings (nv : NamesValues) (block : Mem) (name value : List UInt8) : NamesValues :=
  nv.add (block.load 0 (name.length + value.length)) name.length value.length

/-- `a + b` at the type `int`, 32 bits in two's complement. -/
def intAdd (a b : Nat) : Int := (BitVec.ofNat 32 (a + b)).toInt

section ofStream

variable (underflow : M (Option UInt8))

/-- The lambda `read_length`: `none` is eof. -/
def readLength (is : Istream) : M (Option Nat × Istream) := do
  let (result, is) ← is.get underflow
  match result with
  | none => pure (none, is)
  | some b =>
    if b &&& 0x80 ≠ 0 then do
      let (buf, is) ← is.read underflow 3
      if is.gcount = 3 then
        pure (some (((b &&& 0x7f).toNat <<< 24) + ((buf.getD 0 0).toNat <<< 16) +
          ((buf.getD 1 0).toNat <<< 8) + (buf.getD 2 0).toNat), is)
      else Prog.throw (.fcgi "cannot read length of FastCGI parameters")
    else pure (some b.toNat, is)

/-- The lambda `read_data`. -/
def readData (is : Istream) (count : Int) : M (List UInt8 × Istream) := do
  let (result, is) ← is.read underflow count
  if (is.gcount : Int) = count then pure (result, is)
  else Prog.throw (.fcgi "cannot read FastCGI parameters")

/-- One round of the constructor's loop. -/
def readPair (is : Istream) (nv : NamesValues) :
    M (Flow (Istream × NamesValues) (NamesValues × Istream)) := do
  let (nameLength, is) ← readLength underflow is
  match nameLength with
  | none => pure (.done (nv, is))
  | some nameLength => do
    let (valueLength, is) ← readLength underflow is
    match valueLength with
    | none => Prog.throw (.fcgi "FastCGI protocol violation")
    | some valueLength => do
      let (data, is) ← readData underflow is (intAdd nameLength valueLength)
      pure (.again (is, nv.add data nameLength valueLength))

/-- `Names_values(stream, reserve)`, with the stream as it is left. -/
def ofStream (fuel : Nat) (is : Istream) (reserve : Nat) : M (NamesValues × Istream) := do
  Prog.assert (¬ is.fail ∧ ¬ is.bad ∧ reserve ≤ 64)
  Prog.recLoop (fun _ _ (p : Istream × NamesValues) => readPair underflow p.1 p.2) fuel (is, {})

end ofStream

end NamesValues

end Fcgi

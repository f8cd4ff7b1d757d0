import Mathlib.Data.List.Basic

/-!
# Lib — an input that comes in parts

What the reader of an input sees that comes in several parts, whatever it is made of.  A character
is taken from the part at hand.  Where there is none left, the attempt takes the reader to the next
part and makes the input fail, and then there is nothing to be had until it is cleared.

* `Feed.read`, `Feed.peek`, `Feed.unget`, `Feed.clear`: what a reader may do.
* `Feed.take_within`, `Feed.take_beyond`: what it may have, and where it ends.
-/

namespace Fcgi.Lib

/-- What is left of the parts, and what the reader knows. -/
structure Feed (α : Type) where
  parts : List (List α)
  /-- The character taken last, while it can be put back. -/
  last : Option α := none
  good : Bool := true
  deriving DecidableEq

namespace Feed

variable {α : Type} {f : Feed α} {n m : Nat}

/-- What is left of the part at hand. -/
def head (f : Feed α) : List α := f.parts.headD []

/-- The part at hand is over. -/
def ended (f : Feed α) : Feed α := ⟨f.parts.tail, none, false⟩

/-- As many characters as there are, and up to `n`. -/
def take : Nat → Feed α → List α × Feed α
  | 0, f => ([], f)
  | n + 1, ⟨(c :: cs) :: ps, _, good⟩ =>
    (c :: (take n ⟨cs :: ps, some c, good⟩).1, (take n ⟨cs :: ps, some c, good⟩).2)
  | _ + 1, f => ([], f.ended)

/-- Asks for `n` characters. -/
def read (n : Nat) (f : Feed α) : List α × Feed α :=
  if f.good then f.take n else ([], f)

/-- Asks for the next character, and leaves it there. -/
def peek (f : Feed α) : List α × Feed α :=
  if f.good then
    match f.head with
    | [] => ([], f.ended)
    | c :: _ => ([c], { f with last := none })
  else ([], f)

/-- Puts the last character back; after anything but taking it, this may fail. -/
def unget (f : Feed α) : Option (Feed α) :=
  f.last.map fun c => ⟨(c :: f.head) :: f.parts.tail, none, f.good⟩

/-- What failed is forgotten. -/
def clear (f : Feed α) : Feed α := { f with good := true }

/-- With nothing at hand, the attempt ends the part. -/
theorem take_ended (h : f.head = []) (n : Nat) : f.take (n + 1) = ([], f.ended) := by
  obtain ⟨_ | ⟨_ | ⟨c, cs⟩, ps⟩, last, good⟩ := f
  · rfl
  · rfl
  · cases h

/-- What is taken is of the part at hand. -/
theorem take_fst (f : Feed α) (n : Nat) : (f.take n).1 = f.head.take n := by
  induction n generalizing f with
  | zero => rfl
  | succ n ih =>
      obtain ⟨_ | ⟨_ | ⟨c, cs⟩, ps⟩, last, good⟩ := f
      · rfl
      · rfl
      · exact congrArg (c :: ·) (ih _)

/-- There are as many characters. -/
theorem take_within {cs : List α} {ps : List (List α)} {last : Option α} {good : Bool}
    (h : n ≤ cs.length) : (take n ⟨cs :: ps, last, good⟩).2.parts = cs.drop n :: ps ∧
      (take n ⟨cs :: ps, last, good⟩).2.good = good := by
  induction n generalizing cs last with
  | zero => exact ⟨rfl, rfl⟩
  | succ n ih =>
      cases cs with
      | nil => cases h
      | cons c cs => exact ih (Nat.le_of_succ_le_succ h)

/-- There are fewer. -/
theorem take_beyond {cs : List α} {ps : List (List α)} {last : Option α} {good : Bool}
    (h : cs.length < n) : (take n ⟨cs :: ps, last, good⟩).2 = ⟨ps, none, false⟩ := by
  induction n generalizing cs last with
  | zero => cases h
  | succ n ih =>
      cases cs with
      | nil => rfl
      | cons c cs => exact ih (Nat.lt_of_succ_lt_succ h)

end Feed

end Fcgi.Lib

import Fcgi.Streambuf.Buffer

/-!
# Streams — `std::istream` over a stream buffer

The get side of `std::streambuf` and the unformatted input functions of `std::istream`, as the
standard describes them.  They take the virtual `underflow()` as an argument.  An exception of
the stream buffer sets `badbit` and is not rethrown; assertions and the rest pass through.
-/

namespace Fcgi
open Lib

/-- The stream state, and the count of the last unformatted input. -/
structure Istream where
  eof : Bool := false
  fail : Bool := false
  bad : Bool := false
  gcount : Nat := 0
  deriving DecidableEq, Repr

namespace Istream

/-- `good()`. -/
def good (is : Istream) : Bool := !is.eof && !is.fail && !is.bad

end Istream

/-! ### `std::streambuf` -/

/-- Takes the character at `gptr()`. -/
def takeChar : M (Option UInt8) := do
  let s ← Prog.get
  modifyBuf fun b => b.gbump 1
  pure (some (s.buf.buffer_ s.buf.gptr))

/-- `sgetc()`. -/
def sgetc (underflow : M (Option UInt8)) : M (Option UInt8) := do
  let s ← Prog.get
  if s.buf.gptr < s.buf.egptr then pure (some (s.buf.buffer_ s.buf.gptr))
  else underflow

/-- `sbumpc()`, and `uflow()` where no character is at hand. -/
def sbumpc (underflow : M (Option UInt8)) : M (Option UInt8) := do
  let s ← Prog.get
  if s.buf.gptr < s.buf.egptr then takeChar
  else do
    match ← underflow with
    | none => pure none
    | some _ => takeChar

/-- Enters the buffer into the history, before a character is put back. -/
def noteUnget : M Unit := Prog.modify fun s => { s with world := s.world.addUnget s.buf }

/-- What is given back is noted in the history. -/
theorem noteUnget_run (b : ServerStreambuf) (w : World) :
    noteUnget ⟨b, w⟩ = (.ok (), ⟨b, w.addUnget b⟩) := rfl

/-- `sungetc()`; `pbackfail()` is not overridden and fails. -/
def sungetc : M (Option UInt8) := do
  let s ← Prog.get
  if s.buf.eback < s.buf.gptr then do
    noteUnget
    modifyBuf fun b => b.setg b.eback (b.gptr - 1) b.egptr
    pure (some (s.buf.buffer_ (s.buf.gptr - 1)))
  else pure none

/-- `xsgetn()`: as if by repeated calls of `sbumpc()`. -/
def xsgetn (underflow : M (Option UInt8)) : Nat → M (List UInt8)
  | 0 => pure []
  | n + 1 => do
    match ← sbumpc underflow with
    | none => pure []
    | some c => do
      let cs ← xsgetn underflow n
      pure (c :: cs)

/-! ### `std::istream` -/

namespace Istream

variable (underflow : M (Option UInt8))

/-- `get()`. -/
def get (is : Istream) : M (Option UInt8 × Istream) :=
  if is.good then do
    match ← Prog.attempt (sbumpc underflow) with
    | .ok (some c) => pure (some c, { is with gcount := 1 })
    | .ok none => pure (none, { is with gcount := 0, eof := true, fail := true })
    | .error _ => pure (none, { is with gcount := 0, bad := true, fail := true })
  else pure (none, { is with gcount := 0, fail := true })

/-- `peek()`. -/
def peek (is : Istream) : M (Option UInt8 × Istream) :=
  if is.good then do
    match ← Prog.attempt (sgetc underflow) with
    | .ok (some c) => pure (some c, { is with gcount := 0 })
    | .ok none => pure (none, { is with gcount := 0, eof := true })
    | .error _ => pure (none, { is with gcount := 0, bad := true })
  else pure (none, { is with gcount := 0, fail := true })

/-- `read(s, n)`: the characters put into `s`.  A negative `n` asks for none and gets fewer than
none. -/
def read (is : Istream) (n : Int) : M (List UInt8 × Istream) :=
  if is.good then do
    match ← Prog.attempt (xsgetn underflow n.toNat) with
    | .ok cs =>
      if cs.length = n then pure (cs, { is with gcount := cs.length })
      else pure (cs, { is with gcount := cs.length, eof := true, fail := true })
    | .error _ => pure ([], { is with gcount := 0, bad := true })
  else pure ([], { is with gcount := 0, fail := true })

/-- `unget()`. -/
def unget (is : Istream) : M Istream :=
  let is := { is with gcount := 0, eof := false }
  if is.good then do
    match ← Prog.attempt sungetc with
    | .ok (some _) => pure is
    | .ok none => pure { is with bad := true }
    | .error _ => pure { is with bad := true }
  else pure { is with fail := true }

/-- `clear()`. -/
def clear (is : Istream) : Istream := { is with eof := false, fail := false, bad := false }

end Istream

/-! ### Conditions after an input that was caught -/

/-- `Q` after a character, `N` at the end of the stream, `X` after an exception. -/
def AfterGet (Q : UInt8 → State → Prop) (N X : State → Prop) :
    Except Exception (Option UInt8) → State → Prop
  | .ok (some c) => Q c
  | .ok none => N
  | .error _ => X

/-- `Q` after the characters read, `X` after an exception. -/
def AfterRead (Q : List UInt8 → State → Prop) (X : State → Prop) :
    Except Exception (List UInt8) → State → Prop
  | .ok cs => Q cs
  | .error _ => X

end Fcgi

/-!
# Base — exceptions

The exception classes the modelled code throws, each with its text.
-/

namespace Fcgi

/-- `fcgi::Exception`, `math::Exception`, `rnd::Exception` and the exceptions of `net`. -/
inductive Exception where
  | fcgi (what : String)
  | math (what : String)
  | net (what : String)
  | rnd (what : String)
  deriving DecidableEq, Repr

end Fcgi

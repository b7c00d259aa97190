import ReadableRegex.Pattern

/-!
The smallest pieces of a pattern text that mean something. A whole bracketed class is one
lexeme, and so is a quantifier with its bounds.
-/

namespace ReadableRegex

inductive Opening where
  | capture (name : Option Text)
  | plain (change : ModeChange)
deriving DecidableEq, Repr

inductive Lexeme where
  /-- A part that needs no other piece. -/
  | part (pattern : Pattern)
  | opening (opening : Opening)
  | closing
  | bar
  | quantifier (counts : Counts)
deriving DecidableEq, Repr

end ReadableRegex

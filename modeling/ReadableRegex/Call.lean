import ReadableRegex.Options

/-!
The steps in which an expression is written.
-/

namespace ReadableRegex

inductive Call where
  | startOfLine (enabled : Bool)
  | endOfLine (enabled : Bool)
  | literal (value : Text)
  | optional (value : Text)
  | raw (fragment : Text)
  /-- Another alternative, which starts with the text. -/
  | alternative (value : Text)
  | anything
  | something
  | anythingBut (excluded : Text)
  | anyOf (members : Text)
  /-- A character between the bounds of one of the pairs. -/
  | range (bounds : List Char)
  | lineBreak
  | tab
  | word
  | digit
  | blank
  | flag (flag : Flag) (enabled : Bool)
  | flagLetter (letter : Char) (enabled : Bool)
  | anyCase (enabled : Bool)
  | stopAtFirst (enabled : Bool)
  | searchOneLine (enabled : Bool)
  /-- Repeats the last token `lower` times, or up to `upper` times. -/
  | repeatPrevious (lower : UInt32) (upper : Option UInt32)
  | oneOrMore
  | multiple (value : Text) (lower upper : Option UInt32)
  | beginCapture
  | endCapture
deriving DecidableEq, Repr

end ReadableRegex

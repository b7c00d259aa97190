import ReadableRegex.Text

/-!
What can be wrong with a pattern text.
-/

namespace ReadableRegex

inductive Fault where
  /-- The text ends after a backslash or within an escape. -/
  | openEscape
  | badEscape (character : Char)
  /-- Groups cannot be matched again. -/
  | backReference
  | property
  | badCodePoint
  | openGroup
  | strayClosing
  /-- Nothing can be asserted about the text around a match. -/
  | lookAround
  | badMode
  | badGroupName
  | repeatedGroupName (name : Text)
  | nothingToRepeat
  | badCount
  | hugeCount
  | invertedCounts
  | openClass
  | badClassMember
  | invertedRange
  | deepNesting
  /-- Bytes outside ASCII are no characters. -/
  | notText
deriving DecidableEq, Repr

end ReadableRegex

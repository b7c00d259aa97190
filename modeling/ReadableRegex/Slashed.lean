import ReadableRegex.FlagSet

/-!
Expressions between slashes, followed by their flags. A slash of the pattern that is not
protected already is protected, so that it cannot be taken for the end.
-/

namespace ReadableRegex.Slashed

/-- Every slash with a backslash before it. A character that stands behind a backslash is
protected already; a backslash at the very end is left alone. -/
def protect : Text → Text
  | [] => []
  | '\\' :: escaped :: rest => '\\' :: escaped :: protect rest
  | '/' :: rest => '\\' :: '/' :: protect rest
  | character :: rest => character :: protect rest

/-- The pattern text between slashes; the empty pattern is written as an empty group. A text
without slashes is taken as it is. -/
def source (source : Text) : Text :=
  if source.isEmpty then ['(', '?', ':', ')']
  else if '/' ∈ source then protect source
  else source

def text (pattern : Text) (flags : FlagSet) : Text :=
  '/' :: source pattern ++ '/' :: flags.letters

end ReadableRegex.Slashed

import ReadableRegex.Text

/-!
Escaping of literal text. A character with a meaning of its own is written after a backslash,
so an escaped text is a row of units, each of them one character or a backslash with the
character it protects. `units` reads the row back without knowing which characters are special.
-/

namespace ReadableRegex.Text

def literalSpecials : List Char :=
  ['^', '$', '\\', '.', '|', '?', '*', '+', '(', ')', '[', ']', '\x7b', '\x7d']

/-- Characters that mean something inside a bracketed class: its end, the escape, negation,
ranges, nested classes and the set operators. -/
def classSpecials : List Char :=
  [']', '\\', '^', '-', '[', '&', '~']

def escapeChar (specials : List Char) (character : Char) : Text :=
  if character ∈ specials then ['\\', character] else [character]

def escapeWith (specials : List Char) (text : Text) : Text :=
  text.flatMap (escapeChar specials)

def escapeLiteral (text : Text) : Text :=
  escapeWith literalSpecials text

def escapeMembers (text : Text) : Text :=
  escapeWith classSpecials text

/-- The units of an escaped text: a backslash joined with the character after it, or one other
character. A backslash at the very end is a unit alone. -/
def units : Text → List Text
  | [] => []
  | '\\' :: escaped :: rest => ['\\', escaped] :: units rest
  | character :: rest => [character] :: units rest

end ReadableRegex.Text

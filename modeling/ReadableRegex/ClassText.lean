import ReadableRegex.Text.Escape

/-!
The text of bracketed classes: listed characters, the characters not listed, and intervals.
-/

namespace ReadableRegex.ClassText

/-- A class of the listed characters. There is none for an empty list, because a pattern
cannot write the empty class. -/
def anyOf (members : Text) : Option Text :=
  if members.isEmpty then none
  else some ('[' :: Text.escapeMembers members ++ [']'])

def noneOf (members : Text) : Option Text :=
  if members.isEmpty then none
  else some ('[' :: '^' :: Text.escapeMembers members ++ [']'])

/-- The bounds in pairs, and the last one if it has no partner. -/
def pairs : List Char → List (Char × Char) × Option Char
  | [] => ([], none)
  | [dangling] => ([], some dangling)
  | first :: last :: rest =>
      let (others, dangling) := pairs rest
      ((first, last) :: others, dangling)

def interval (bounds : Char × Char) : Text :=
  Text.escapeMembers [bounds.1] ++ '-' :: Text.escapeMembers [bounds.2]

/-- A class of the intervals between the bounds of each pair, none without a pair; and the
bound left over. -/
def ofBounds (bounds : List Char) : Option Text × Option Char :=
  let (intervals, dangling) := pairs bounds
  (if intervals.isEmpty then none else some ('[' :: intervals.flatMap interval ++ [']']), dangling)

end ReadableRegex.ClassText

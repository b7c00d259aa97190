import ReadableRegex.Regex

/-!
Rows of expressions in normal form. In a sequence no part is empty or a sequence itself, and
texts next to each other are one text. In a choice no alternative is a choice itself, and
alternatives of one character each are one set. Alternatives that are all sequences and begin
with the same parts have these in common: the shared parts come first, once, and the choice is
made only behind them. What the shared parts match is then settled before the choice, so the
first match can be another one than each alternative on its own would give; a search prefers
what the shared parts prefer.
-/

namespace ReadableRegex.Regex

/-- The parts of a sequence; the empty expression has none. -/
def items : Regex → List Regex
  | .empty => []
  | .sequence first rest => first.items ++ rest.items
  | part => [part]

def ofItems : List Regex → Regex
  | [] => .empty
  | [part] => part
  | part :: rest => .sequence part (ofItems rest)

/-- A part in front of a row, where texts run together. -/
def before (part rest : Regex) : Regex :=
  match part, rest with
  | part, .empty => part
  | .literal text, .literal more => .literal (text ++ more)
  | .literal text, .sequence (.literal more) rest => .sequence (.literal (text ++ more)) rest
  | part, rest => .sequence part rest

def andThen : Regex → Regex → Regex
  | .empty, rest => rest
  | .sequence first more, rest => first.andThen (more.andThen rest)
  | part, rest => part.before rest

def sequenceOf (parts : List Regex) : Regex :=
  parts.foldr andThen .empty

def alternatives : Regex → List Regex
  | .choice first rest => first.alternatives ++ rest.alternatives
  | part => [part]

def ofAlternatives : List Regex → Regex
  | [] => nothing
  | [alternative] => alternative
  | alternative :: rest => .choice alternative (ofAlternatives rest)

def character? : Regex → Option Char
  | .literal [character] => some character
  | _ => none

def members? : Regex → Option CharSet
  | .set _ members => some members
  | _ => none

/-- The choice between alternatives without a common start. Single characters, and sets, are
put together to one set. -/
def merged (parts : List Regex) : Regex :=
  match parts.mapM character? with
  | some characters => ofSet true (.ofChars characters)
  | none =>
      match parts.mapM members? with
      | some sets => ofSet true (sets.foldr .union .empty)
      | none => ofAlternatives parts

def row? : Regex → Option (List Regex)
  | .sequence first rest => some (first.items ++ rest.items)
  | _ => none

/-- The longest list that both lists begin with. -/
def sharedStart : List Regex → List Regex → List Regex
  | left :: lefts, right :: rights =>
      if left = right then left :: sharedStart lefts rights else []
  | _, _ => []

def commonStart : List (List Regex) → List Regex
  | [] => []
  | row :: rows => rows.foldl sharedStart row

def choiceOf (parts : List Regex) : Regex :=
  match parts with
  | [only] => only
  | _ =>
      let several := parts.flatMap alternatives
      match several.mapM row? with
      | none => merged several
      | some rows =>
          let start := commonStart rows
          if start.isEmpty then merged several
          else
            let remainders := rows.map (fun row => ofItems (row.drop start.length))
            sequenceOf (start ++ [merged (remainders.flatMap alternatives)])

end ReadableRegex.Regex

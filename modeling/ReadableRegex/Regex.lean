import ReadableRegex.FlagSet
import ReadableRegex.Pattern

/-!
Regular expressions whose meaning no longer depends on modes: every character is a set, every
anchor a condition on its neighbours, and every quantifier knows whether it is greedy. Rows of
parts and of alternatives hang to the right.
-/

namespace ReadableRegex

/-- A condition on the characters next to a position. -/
inductive Look where
  | textStart
  | textEnd
  | lineStart
  | lineEnd
  /-- A line starts after a carriage return too, but not within a pair of return and feed. -/
  | crlfLineStart
  /-- A line ends before a carriage return too, but not within a pair of return and feed. -/
  | crlfLineEnd
  | word (side : WordEdge) (unicode : Bool)
deriving DecidableEq, Repr

/-- Whether the side condition holds between a character that may be a word character and the
one after it. -/
def WordEdge.holds : WordEdge → Bool → Bool → Bool
  | .boundary, before, after => before != after
  | .noBoundary, before, after => before == after
  | .start, before, after => !before && after
  | .stop, before, after => before && !after
  | .startHalf, before, _ => !before
  | .stopHalf, _, after => !after

/-- Whether the condition holds between two characters, either of them missing at an end of the
text. -/
def Look.holds : Look → Option Char → Option Char → Bool
  | .textStart, before, _ => before.isNone
  | .textEnd, _, after => after.isNone
  | .lineStart, before, _ => before.isNone || before == some '\n'
  | .lineEnd, _, after => after.isNone || after == some '\n'
  | .crlfLineStart, before, after =>
      before.isNone || before == some '\n' || (before == some '\r' && after != some '\n')
  | .crlfLineEnd, before, after =>
      after.isNone || after == some '\r' || (after == some '\n' && before != some '\r')
  | .word side unicode, before, after =>
      side.holds (before.any (NamedClass.word.set unicode).holds)
        (after.any (NamedClass.word.set unicode).holds)

inductive Regex where
  | empty
  /-- A text as it is, of one character at least. -/
  | literal (text : Text)
  /-- One character of a set. Sets of characters and sets of bytes are different expressions
  even where they hold the same. -/
  | set (unicode : Bool) (members : CharSet)
  | look (look : Look)
  | repetition (counts : Counts) (part : Regex)
  | capture (index : Nat) (name : Option Text) (part : Regex)
  | sequence (first rest : Regex)
  | choice (first rest : Regex)
deriving DecidableEq

namespace Regex

def nothing : Regex := .set false .empty

/-- One character of the set. A set of a single character is that character as a text. -/
def ofSet (unicode : Bool) (members : CharSet) : Regex :=
  match members.single? with
  | some character => .literal [character]
  | none => if members = .empty then nothing else .set unicode members

/-- Whether some match may be empty. -/
def isNullable : Regex → Bool
  | .empty => true
  | .literal _ => false
  | .set _ _ => false
  | .look _ => true
  | .repetition counts part => counts.lower == 0 || part.isNullable
  | .capture _ _ part => part.isNullable
  | .sequence first rest => first.isNullable && rest.isNullable
  | .choice first rest => first.isNullable || rest.isNullable

/-- Whether every match is empty. -/
def isVoid : Regex → Bool
  | .empty => true
  | .literal _ => false
  | .set _ _ => false
  | .look _ => true
  | .repetition counts part => counts.upper.isSome && part.isVoid
  | .capture _ _ part => part.isVoid
  | .sequence first rest => first.isVoid && rest.isVoid
  | .choice first rest => first.isVoid && rest.isVoid

/-- The counts that matter for a part. A part without characters need not be matched twice. -/
def usefulCounts (counts : Counts) (part : Regex) : Counts :=
  if part.isVoid then
    { counts with lower := min counts.lower 1, upper := some (min (counts.upper.getD 1) 1) }
  else counts

/-- A part repeated. No repetition is the empty expression, without the captures of the part,
and one repetition is the part itself. -/
def repeated (counts : Counts) (part : Regex) : Regex :=
  let useful := usefulCounts counts part
  if useful.upper = some 0 ∧ useful.lower = 0 then .empty
  else if useful.upper = some 1 ∧ useful.lower = 1 then part
  else .repetition useful part

def captures : Regex → List (Nat × Option Text)
  | .empty => []
  | .literal _ => []
  | .set _ _ => []
  | .look _ => []
  | .repetition _ part => part.captures
  | .capture index name part => (index, name) :: part.captures
  | .sequence first rest => first.captures ++ rest.captures
  | .choice first rest => first.captures ++ rest.captures

end Regex
end ReadableRegex

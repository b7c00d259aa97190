import ReadableRegex.CharSet
import ReadableRegex.Pattern.Fault
import ReadableRegex.Unicode.Blank
import ReadableRegex.Unicode.Digit
import ReadableRegex.Unicode.Fold
import ReadableRegex.Unicode.Word

/-!
Character classes as trees, and the sets they stand for. What stands in brackets, and each
operand of an operator, is joined and then folded to its cases, before any negation.
-/

namespace ReadableRegex

inductive NamedClass where
  | digit
  | blank
  | word
deriving DecidableEq, Repr

inductive SetOperator where
  | intersection
  | difference
  | symmetricDifference
deriving DecidableEq, Repr

inductive CharClass where
  | none
  | range (first last : Char)
  | named (name : NamedClass) (negated : Bool)
  /-- A POSIX class, as the intervals it stands for. -/
  | posix (intervals : List Interval) (negated : Bool)
  | property (name : Text) (negated : Bool)
  | bracketed (negated : Bool) (members : CharClass)
  | union (left right : CharClass)
  | combined (operator : SetOperator) (left right : CharClass)
deriving DecidableEq, Repr

/-- How characters are compared: as Unicode or as ASCII, with or without their case. -/
structure Comparison where
  unicode : Bool
  ignoreCase : Bool
deriving DecidableEq, Repr

/-- The capital letters of ASCII, each with its small letter. -/
def asciiPairs : List (Nat × Nat) :=
  (List.range 26).map (fun index => (65 + index, 97 + index))

namespace Comparison

/-- The characters that count as equal to one of the set. -/
def closure (comparison : Comparison) (set : CharSet) : CharSet :=
  if comparison.ignoreCase then
    set.closeUnder (if comparison.unicode then Unicode.foldPairs else asciiPairs)
  else set

end Comparison

namespace NamedClass

def everyDigit : CharSet := .ofPoints Unicode.digitRanges

def everyBlank : CharSet := .ofPoints Unicode.blankRanges

def everyWord : CharSet := .ofPoints Unicode.wordRanges

/-- The characters of an escaped letter: of every script, or those of ASCII alone. -/
def set (name : NamedClass) (unicode : Bool) : CharSet :=
  match name, unicode with
  | .digit, true => everyDigit
  | .blank, true => everyBlank
  | .word, true => everyWord
  | .digit, false => .ofIntervals [⟨'0', '9'⟩]
  | .blank, false => .ofIntervals [⟨'\t', '\r'⟩, ⟨' ', ' '⟩]
  | .word, false => .ofIntervals [⟨'0', '9'⟩, ⟨'A', 'Z'⟩, ⟨'_', '_'⟩, ⟨'a', 'z'⟩]

end NamedClass

/-- The tables in which the engine looks up Unicode properties. -/
class PropertyTable where
  find? (name : Text) : Option CharSet

namespace PropertyTable

/-- The name without regard to case, blanks, hyphens, underscores and a leading "is". -/
def loosely (name : Text) : Text :=
  let small := name.map Char.toLower
  ((Text.after? ['i', 's'] small).getD small).filter
    (fun sign => sign.toNat < 128 && sign ∉ [' ', '-', '_'])

/-- A table of a few properties, to run patterns with. -/
@[reducible] def basic : PropertyTable where
  find? name :=
    match String.ofList (loosely name) with
    | "any" => some CharSet.empty.complement
    | "ascii" => some (.ofPoints [(0, 127)])
    | "nd" => some NamedClass.everyDigit
    | "decimalnumber" => some NamedClass.everyDigit
    | "whitespace" => some NamedClass.everyBlank
    | _ => none

end PropertyTable

instance (priority := low) : PropertyTable := .basic

def SetOperator.apply : SetOperator → CharSet → CharSet → CharSet
  | .intersection, left, right => left.intersection right
  | .difference, left, right => left.difference right
  | .symmetricDifference, left, right => left.symmetricDifference right

namespace CharClass

def set [PropertyTable] (comparison : Comparison) : CharClass → CharSet
  | .none => .empty
  | .range first last => .ofIntervals [⟨first, last⟩]
  | .named name negated => (name.set comparison.unicode).negateIf negated
  | .posix intervals negated => (comparison.closure (.ofIntervals intervals)).negateIf negated
  | .property name negated =>
      (comparison.closure ((PropertyTable.find? name).getD .empty)).negateIf negated
  | .bracketed negated members =>
      (comparison.closure (members.set comparison).joined).negateIf negated
  | .union left right => (left.set comparison).union (right.set comparison)
  | .combined operator left right =>
      operator.apply (comparison.closure (left.set comparison).joined)
        (comparison.closure (right.set comparison).joined)

/-- Whether the tables have every property of the class. -/
def isKnown [PropertyTable] : CharClass → Bool
  | .property name _ => (PropertyTable.find? name).isSome
  | .bracketed _ members => members.isKnown
  | .union left right => left.isKnown && right.isKnown
  | .combined _ left right => left.isKnown && right.isKnown
  | .none => true
  | .range _ _ => true
  | .named _ _ => true
  | .posix _ _ => true

/-- Whether the class holds nothing but ASCII characters when it is read as a set of bytes. A
complement always holds other bytes. -/
def isAscii : CharClass → Bool
  | .none => true
  | .range first last => decide (first.toNat < 128) && decide (last.toNat < 128)
  | .named _ negated => !negated
  | .posix _ negated => !negated
  | .property _ _ => false
  | .bracketed negated members => !negated && members.isAscii
  | .union left right => left.isAscii && right.isAscii
  | .combined _ left right => left.isAscii && right.isAscii

/-- The union of members, the latest first. -/
def ofMembers : List CharClass → CharClass
  | [] => .none
  | [member] => member
  | latest :: earlier => .union (ofMembers earlier) latest

/-- The levels of nesting: each pair of brackets, each list of several members and each
operator is one. `inList` says that the class continues a list. -/
def depth (inList : Bool) : CharClass → Nat
  | .bracketed _ members => 1 + members.depth false
  | .union left right =>
      (if inList then 0 else 1) + max (left.depth true) (right.depth true)
  | .combined _ left right => 1 + max (left.depth false) (right.depth false)
  | .none => 0
  | .range _ _ => 0
  | .named _ _ => 0
  | .posix _ _ => 0
  | .property _ _ => 0

end CharClass
end ReadableRegex

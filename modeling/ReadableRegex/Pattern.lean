import ReadableRegex.Pattern.CharClass

/-!
Patterns as trees: what a pattern text says, before flags decide what it means. The gaps of
verbose mode and its comments are not kept. A Unicode property is kept by its name.
-/

namespace ReadableRegex

inductive WordEdge where
  | boundary
  | noBoundary
  | start
  | stop
  /-- No word character before the position. -/
  | startHalf
  /-- No word character after the position. -/
  | stopHalf
deriving DecidableEq, Repr

/-- An assertion as it is written. -/
inductive Anchor where
  | caret
  | dollar
  | textStart
  | textEnd
  | word (side : WordEdge)
deriving DecidableEq, Repr

/-- The modes a pattern can switch within itself. -/
inductive Mode where
  | ignoreCase
  | multiline
  | dotAll
  /-- Plain quantifiers are lazy and marked ones greedy. -/
  | swapGreed
  | unicode
  /-- Carriage returns end lines too. -/
  | crlf
  /-- Blanks and comments between the signs of the pattern mean nothing. -/
  | verbose
deriving DecidableEq, Repr

/-- Modes switched on or off, in written order. -/
abbrev ModeChange := List (Mode × Bool)

/-- How often a part is repeated, and whether more is tried before less. -/
structure Counts where
  lower : Nat
  upper : Option Nat
  greedy : Bool
deriving DecidableEq, Repr

inductive GroupKind where
  /-- Remembers what it matched under a number and perhaps a name. -/
  | capture (index : Nat) (name : Option Text)
  /-- Only groups, with modes switched for its inside. -/
  | plain (change : ModeChange)
deriving DecidableEq, Repr

inductive Pattern where
  | empty
  | literal (character : Char)
  /-- A character above ASCII, written as the number of a byte. -/
  | byte (character : Char)
  | dot
  | charClass (set : CharClass)
  | anchor (anchor : Anchor)
  | repetition (counts : Counts) (part : Pattern)
  | group (kind : GroupKind) (part : Pattern)
  /-- Switches modes for the rest of the group it stands in. -/
  | modes (change : ModeChange)
  | sequence (left right : Pattern)
  | choice (left right : Pattern)
deriving DecidableEq, Repr

namespace Pattern

def ofParts : List Pattern → Pattern
  | [] => .empty
  | [part] => part
  | part :: rest => .sequence part (ofParts rest)

def ofAlternatives : List Pattern → Pattern
  | [] => .empty
  | [alternative] => alternative
  | alternative :: rest => .choice alternative (ofAlternatives rest)

/-- The list a pattern may continue. -/
inductive Row where
  | parts
  | alternatives
deriving DecidableEq, Repr

/-- The levels of nesting. Each group, repetition and row of several parts or alternatives is
one level; `row` is the row that the pattern continues. -/
def depth (row : Option Row) : Pattern → Nat
  | .repetition _ part => 1 + part.depth none
  | .group _ part => 1 + part.depth none
  | .sequence left right =>
      (if row = some .parts then 0 else 1) +
        max (left.depth (some .parts)) (right.depth (some .parts))
  | .choice left right =>
      (if row = some .alternatives then 0 else 1) +
        max (left.depth (some .alternatives)) (right.depth (some .alternatives))
  | .charClass set => set.depth false
  | .empty => 0
  | .literal _ => 0
  | .byte _ => 0
  | .dot => 0
  | .anchor _ => 0
  | .modes _ => 0

end Pattern
end ReadableRegex

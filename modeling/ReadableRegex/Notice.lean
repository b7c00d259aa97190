import ReadableRegex.Draft

/-!
Notices: what a call has to say besides its effect.
-/

namespace ReadableRegex

inductive IgnoredOperation where
  | quantify
  | multiple
  | endCapture
deriving DecidableEq, Repr

/-- What a call had to say besides its effect. -/
inductive Notice where
  | ignored (operation : IgnoredOperation) (error : DraftError)
  | emptyList
  /-- A bound without partner was left out. -/
  | danglingBound (bound : Char)
  /-- Captures were closed because a new alternative starts. -/
  | closingCaptures (count : Nat)
deriving DecidableEq, Repr

def Notice.message : Notice → String
  | .ignored _ _ => "call ignored"
  | .emptyList => "empty character list adds nothing"
  | .danglingBound _ => "odd number of bounds; last one ignored"
  | .closingCaptures _ => "closing open capture groups before alternation"

def Notice.warns : Notice → Bool
  | .ignored _ _ => true
  | .emptyList => true
  | .danglingBound _ => true
  | .closingCaptures _ => false

def Notice.ofAlternation (draft : Draft) : List Notice :=
  if draft.openCaptures = 0 then [] else [.closingCaptures draft.openCaptures]

end ReadableRegex

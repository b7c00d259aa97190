import ReadableRegex.Text

/-!
Matches: the part of a subject that an expression matched, and what its groups matched.
-/

namespace ReadableRegex

/-- A match: the part of the subject it covers and the positions noted on the way, the latest
first. -/
structure Hit (subject : Array Char) where
  start : Nat
  stop : Nat
  marks : List (Nat × Nat)
  start_le_stop : start ≤ stop
  stop_le_size : stop ≤ subject.size

namespace Hit

variable {subject : Array Char}

def between (subject : Array Char) (start stop : Nat) : Text :=
  (subject.extract start stop).toList

def text (hit : Hit subject) : Text :=
  between subject hit.start hit.stop

/-- Where the group matched, if it took part; group 0 is the whole match. -/
def group? (hit : Hit subject) (index : Nat) : Option (Nat × Nat) :=
  if index = 0 then some (hit.start, hit.stop)
  else
    match hit.marks.lookup (2 * index), hit.marks.lookup (2 * index + 1) with
    | some start, some stop => some (start, stop)
    | _, _ => none

/-- What the group matched, nothing if it took no part. -/
def groupText (hit : Hit subject) (index : Nat) : Text :=
  match hit.group? index with
  | some (start, stop) => between subject start stop
  | none => []

end Hit
end ReadableRegex

import ReadableRegex.Search

/-!
Matches in a row. A plain row goes on searching from the end of each match and passes over an
empty match at that very place. A sticky row takes only matches that begin at its cursor, which
moves to the end of each match, or one character further after an empty one. Each search takes
over the marks of the one before, so what has failed once is not tried again.
-/

namespace ReadableRegex

namespace Program

variable {program : Program} {subject : Array Char}

/-- The next match after one that ended at the cursor, with the marks for the search after it. -/
def searchAfter (program : Program) (subject : Array Char) (visits : Visits program.code.size)
    (cursor : Nat) : Option (Hit subject) × Visits program.code.size :=
  match program.searchFrom subject visits cursor with
  | (some hit, later) =>
      if hit.stop = cursor then program.searchFrom subject later (cursor + 1)
      else (some hit, later)
  | (none, later) => (none, later)

theorem lt_stop_of_searchAfter {visits : Visits program.code.size} {cursor : Nat}
    {hit : Hit subject} (found : (program.searchAfter subject visits cursor).1 = some hit) :
    cursor < hit.stop := by
  unfold searchAfter at found
  split at found
  · rename_i first later searched
    split at found
    · have bound := le_start_of_searchFrom found
      have order := hit.start_le_stop
      omega
    · rename_i moved
      cases found
      have bound := le_start_of_searchFrom (congrArg Prod.fst searched)
      have order := hit.start_le_stop
      omega
  · cases found

def hitsAfter (program : Program) (subject : Array Char) (visits : Visits program.code.size)
    (cursor : Nat) : List (Hit subject) :=
  match _found : program.searchAfter subject visits cursor with
  | (some hit, later) => hit :: hitsAfter program subject later hit.stop
  | (none, _) => []
termination_by subject.size - cursor
decreasing_by
  have progress := lt_stop_of_searchAfter (congrArg Prod.fst _found)
  have within := hit.stop_le_size
  omega

def hits (program : Program) (subject : Array Char) : List (Hit subject) :=
  match program.searchFrom subject (Visits.blank program.code.size) 0 with
  | (some hit, later) => hit :: program.hitsAfter subject later hit.stop
  | (none, _) => []

/-- Where a sticky row goes on after a match at the cursor. -/
def cursorAfter (cursor : Nat) (hit : Hit subject) : Nat :=
  if hit.stop = cursor then cursor + 1 else hit.stop

theorem lt_cursorAfter {cursor : Nat} {hit : Hit subject} (bound : cursor ≤ hit.start) :
    cursor < cursorAfter cursor hit := by
  have order := hit.start_le_stop
  unfold cursorAfter
  split <;> omega

/-- The matches of a sticky row from the cursor on, or only the first of them. -/
def stickyHitsFrom (program : Program) (subject : Array Char) (global : Bool)
    (visits : Visits program.code.size) (cursor : Nat) : List (Hit subject) :=
  if cursor ≤ subject.size then
    match _found : program.searchFrom subject visits cursor with
    | (some hit, later) =>
        if hit.start = cursor then
          hit ::
            if global then
              stickyHitsFrom program subject global later (cursorAfter cursor hit)
            else []
        else []
    | (none, _) => []
  else []
termination_by subject.size + 1 - cursor
decreasing_by
  have progress := lt_cursorAfter (le_start_of_searchFrom (congrArg Prod.fst _found))
  omega

def stickyHits (program : Program) (subject : Array Char) (global : Bool) : List (Hit subject) :=
  program.stickyHitsFrom subject global (Visits.blank program.code.size) 0

end Program
end ReadableRegex

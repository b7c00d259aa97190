import ReadableRegex.Hits
import ReadableRegex.Search.Starts

/-!
Rows of matches, told by single searches that take over no marks. A plain row is what searches
from the end of each match find. A sticky row is what the program matches exactly at its cursor,
for as long as it matches there.
-/

namespace ReadableRegex

namespace Program

variable {program : Program} {subject : Array Char}

/-! ### Plain rows -/

def hitAfter (program : Program) (subject : Array Char) (cursor : Nat) : Option (Hit subject) :=
  match program.search subject cursor with
  | some hit => if hit.stop = cursor then program.search subject (cursor + 1) else some hit
  | none => none

theorem lt_stop_of_hitAfter {cursor : Nat} {hit : Hit subject}
    (found : program.hitAfter subject cursor = some hit) : cursor < hit.stop := by
  unfold hitAfter at found
  have order := hit.start_le_stop
  split at found
  · rename_i first searched
    split at found
    · have bound := le_start_of_search found
      omega
    · rename_i moved
      cases found
      have bound := le_start_of_search searched
      omega
  · cases found

def rowAfter (program : Program) (subject : Array Char) (cursor : Nat) : List (Hit subject) :=
  match _found : program.hitAfter subject cursor with
  | some hit => hit :: rowAfter program subject hit.stop
  | none => []
termination_by subject.size - cursor
decreasing_by
  have progress := lt_stop_of_hitAfter _found
  have within := hit.stop_le_size
  omega

theorem rowAfter_of_some {cursor : Nat} {hit : Hit subject}
    (found : program.hitAfter subject cursor = some hit) :
    program.rowAfter subject cursor = hit :: program.rowAfter subject hit.stop := by
  rw [rowAfter]
  split
  · rename_i other same
    rw [found] at same
    cases same
    rfl
  · rename_i missing
    rw [found] at missing
    cases missing

theorem rowAfter_of_none {cursor : Nat}
    (missing : program.hitAfter subject cursor = none) :
    program.rowAfter subject cursor = [] := by
  rw [rowAfter]
  split
  · rename_i other found
    rw [missing] at found
    cases found
  · rfl

/-- All matches, each searched for from the end of the one before. -/
def row (program : Program) (subject : Array Char) : List (Hit subject) :=
  match program.search subject 0 with
  | some hit => hit :: program.rowAfter subject hit.stop
  | none => []

/-- With settled marks the next match is that of single searches, and the marks stay settled. -/
theorem searchAfter_of_settled {visits : Visits program.code.size} {cursor : Nat}
    (settled : Settled program subject visits cursor) :
    (program.searchAfter subject visits cursor).1 = program.hitAfter subject cursor ∧
      ∀ hit, (program.searchAfter subject visits cursor).1 = some hit →
        Settled program subject (program.searchAfter subject visits cursor).2 hit.stop := by
  have first := searchFrom_eq_search (Nat.le_refl cursor) settled
  have left := (searchFrom_of_settled program subject (Nat.le_refl cursor) settled).2
  unfold searchAfter hitAfter
  rw [← first]
  cases searched : program.searchFrom subject visits cursor with
  | mk result later =>
      rw [searched] at left
      cases result with
      | none =>
          refine ⟨rfl, ?_⟩
          intro hit found
          cases found
      | some hit =>
          have later_settled := left hit rfl
          by_cases still : hit.stop = cursor
          · rw [still] at later_settled
            simp only [if_pos still]
            exact ⟨searchFrom_eq_search (Nat.le_succ cursor) later_settled,
              (searchFrom_of_settled program subject (Nat.le_succ cursor) later_settled).2⟩
          · simp only [if_neg still]
            refine ⟨trivial, ?_⟩
            intro other same
            cases same
            exact later_settled

theorem hitsAfter_eq_rowAfter {visits : Visits program.code.size} {cursor : Nat}
    (settled : Settled program subject visits cursor) :
    program.hitsAfter subject visits cursor = program.rowAfter subject cursor := by
  induction remaining : subject.size - cursor using Nat.strongRecOn generalizing visits cursor with
  | ind bound inductionHypothesis =>
      obtain ⟨same, left⟩ := searchAfter_of_settled settled
      rw [hitsAfter, rowAfter]
      split
      · rename_i hit later searched
        rw [searched] at same left
        have progress := lt_stop_of_hitAfter same.symm
        have within := hit.stop_le_size
        rw [inductionHypothesis _ (by omega) (left hit rfl) rfl]
        split
        · rename_i other found
          rw [found] at same
          cases same
          rfl
        · rename_i missing
          rw [missing] at same
          cases same
      · rename_i later searched
        rw [searched] at same
        split
        · rename_i other found
          rw [found] at same
          cases same
        · rfl

/-- A plain row is what single searches find. -/
theorem hits_eq_row (program : Program) (subject : Array Char) :
    program.hits subject = program.row subject := by
  obtain ⟨same, left⟩ := searchFrom_of_settled program subject (Nat.le_refl 0) (settled_blank 0)
  unfold hits row search
  cases searched : program.searchFrom subject (Visits.blank program.code.size) 0 with
  | mk result later =>
      rw [searched] at left
      cases result with
      | none => rfl
      | some hit => exact congrArg (hit :: ·) (hitsAfter_eq_rowAfter (left hit rfl))

/-! ### Sticky rows -/

/-- A match at the cursor itself is what a search finds if it begins there. -/
theorem matchAt_eq_some_iff {cursor : Nat} {hit : Hit subject} :
    program.matchAt subject cursor = some hit ↔
      program.search subject cursor = some hit ∧ hit.start = cursor := by
  constructor
  · intro found
    have inside : cursor ≤ subject.size := by
      have bound := Nat.le_trans hit.start_le_stop hit.stop_le_size
      rwa [start_of_matchAt found] at bound
    refine ⟨?_, start_of_matchAt found⟩
    rw [search_eq_findSome?, Nat.succ_sub inside, List.range'_succ, List.findSome?_cons, found]
  · intro ⟨found, here⟩
    have inside := search_le_size found
    rw [search_eq_findSome?, Nat.succ_sub inside, List.range'_succ, List.findSome?_cons] at found
    split at found
    · rename_i other matched
      cases found
      exact matched
    · obtain ⟨later, member, matched⟩ := List.exists_of_findSome?_eq_some found
      have bound := (List.mem_range'_1.mp member).1
      have begins := start_of_matchAt matched
      omega

/-- The matches that begin exactly at the cursor, one after the other, or only the first. -/
def chainFrom (program : Program) (subject : Array Char) (global : Bool) (cursor : Nat) :
    List (Hit subject) :=
  match _found : program.matchAt subject cursor with
  | some hit =>
      hit ::
        if global then chainFrom program subject global (cursorAfter cursor hit)
        else []
  | none => []
termination_by subject.size + 1 - cursor
decreasing_by
  have begins := start_of_matchAt _found
  have progress := lt_cursorAfter (Nat.le_of_eq begins.symm)
  have within := Nat.le_trans hit.start_le_stop hit.stop_le_size
  omega

theorem chainFrom_of_some {global : Bool} {cursor : Nat} {hit : Hit subject}
    (found : program.matchAt subject cursor = some hit) :
    program.chainFrom subject global cursor =
      hit :: if global then program.chainFrom subject global (cursorAfter cursor hit) else [] := by
  rw [chainFrom]
  split
  · rename_i other same
    rw [found] at same
    cases same
    rfl
  · rename_i missing
    rw [found] at missing
    cases missing

theorem chainFrom_of_none {global : Bool} {cursor : Nat}
    (missing : program.matchAt subject cursor = none) :
    program.chainFrom subject global cursor = [] := by
  rw [chainFrom]
  split
  · rename_i other found
    rw [missing] at found
    cases found
  · rfl

theorem stop_le_cursorAfter {cursor : Nat} (hit : Hit subject) :
    hit.stop ≤ cursorAfter cursor hit := by
  unfold cursorAfter
  split <;> omega

theorem stickyHitsFrom_eq_chainFrom (global : Bool) {visits : Visits program.code.size}
    {cursor : Nat} (settled : Settled program subject visits cursor) :
    program.stickyHitsFrom subject global visits cursor =
      program.chainFrom subject global cursor := by
  induction remaining : subject.size + 1 - cursor using Nat.strongRecOn
    generalizing visits cursor with
  | ind bound inductionHypothesis =>
      have same := searchFrom_eq_search (Nat.le_refl cursor) settled
      have left := (searchFrom_of_settled program subject (Nat.le_refl cursor) settled).2
      rw [stickyHitsFrom]
      split
      · split
        · rename_i hit later searched
          rw [searched] at same left
          split
          · rename_i begins
            have progress : cursor < cursorAfter cursor hit :=
              lt_cursorAfter (Nat.le_of_eq begins.symm)
            have further := inductionHypothesis (subject.size + 1 - cursorAfter cursor hit)
              (by omega) (settled_mono (stop_le_cursorAfter hit) (left hit rfl)) rfl
            rw [chainFrom_of_some (matchAt_eq_some_iff.mpr ⟨same.symm, begins⟩), further]
          · rename_i elsewhere
            rw [chainFrom_of_none]
            refine Option.eq_none_iff_forall_ne_some.mpr ?_
            intro other matched
            obtain ⟨found, begins⟩ := matchAt_eq_some_iff.mp matched
            rw [← same] at found
            cases found
            exact elsewhere begins
        · rename_i later searched
          rw [searched] at same
          rw [chainFrom_of_none]
          refine Option.eq_none_iff_forall_ne_some.mpr ?_
          intro other matched
          have found := (matchAt_eq_some_iff.mp matched).1
          rw [← same] at found
          cases found
      · rename_i outside
        rw [chainFrom_of_none]
        refine Option.eq_none_iff_forall_ne_some.mpr ?_
        intro other matched
        exact outside (search_le_size (matchAt_eq_some_iff.mp matched).1)

/-- A sticky row is what the program matches exactly at each cursor. -/
theorem stickyHits_eq_chainFrom (program : Program) (subject : Array Char) (global : Bool) :
    program.stickyHits subject global = program.chainFrom subject global 0 :=
  stickyHitsFrom_eq_chainFrom global (settled_blank 0)

end Program
end ReadableRegex

import ReadableRegex.Proofs.StickyRow
import ReadableRegex.Proofs.Offsets.Cuts

/-!
Sticky rows by byte positions. The cursor of a sticky row counts bytes where the subject is kept in
its UTF-8 form, and there it can go wrong: it can come to stand inside a character, where nothing can
be searched or cut, or not get on. It does neither, and the row is the one of character positions.
-/

namespace ReadableRegex

def offsetAt (subject : Array Char) (position : Nat) : Nat :=
  Text.byteSize (subject.toList.take position)

namespace Program

/-- Asks for a match from a byte position on. There is an answer only if the position stands
between two characters, or at an end of the subject. -/
def searchAt? (program : Program) (subject : Array Char) (cursor : Nat) :
    Option (Option (Hit subject)) :=
  (Text.cut? subject.toList cursor).map (fun parts => program.search subject parts.1.length)

/-- Where the cursor goes after an empty match: behind the next character, or one past the end.
There is no answer if the subject cannot be cut at the cursor. -/
def stepOver? (subject : Array Char) (cursor : Nat) : Option Nat :=
  match Text.cut? subject.toList cursor with
  | none => none
  | some (_, []) => some (cursor + 1)
  | some (_, next :: _) => some (cursor + next.utf8Size)

end Program

inductive Round (subject : Array Char) where
  | ended
  | final (hit : Hit subject)
  | onward (hit : Hit subject) (cursor : Nat)
  /-- The search was asked for where it cannot begin. -/
  | refused
  /-- The subject was to be cut where it cannot be cut. -/
  | torn

def Program.round (program : Program) (subject : Array Char) (global : Bool) (cursor : Nat) :
    Round subject :=
  if cursor ≤ Text.byteSize subject.toList then
    match program.searchAt? subject cursor with
    | none => .refused
    | some none => .ended
    | some (some hit) =>
        if offsetAt subject hit.start = cursor then
          if global then
            if offsetAt subject hit.stop = cursor then
              match stepOver? subject cursor with
              | none => .torn
              | some next => .onward hit next
            else .onward hit (offsetAt subject hit.stop)
          else .final hit
        else .ended
  else .ended

section

variable {program : Program} {subject : Array Char} {global : Bool}

/-- The cursors that a row comes to, with the number of matches made by then. -/
inductive ComesTo (program : Program) (subject : Array Char) (global : Bool) : Nat → Nat → Prop where
  | start : ComesTo program subject global 0 0
  | onward {count cursor next : Nat} {hit : Hit subject}
      (comes : ComesTo program subject global count cursor)
      (round : program.round subject global cursor = .onward hit next) :
      ComesTo program subject global (count + 1) next

inductive RoundRow (program : Program) (subject : Array Char) (global : Bool) :
    Nat → List (Hit subject) → Prop where
  | ended {cursor : Nat} (round : program.round subject global cursor = .ended) :
      RoundRow program subject global cursor []
  | final {cursor : Nat} {hit : Hit subject}
      (round : program.round subject global cursor = .final hit) :
      RoundRow program subject global cursor [hit]
  | onward {cursor next : Nat} {hit : Hit subject} {rest : List (Hit subject)}
      (round : program.round subject global cursor = .onward hit next)
      (row : RoundRow program subject global next rest) :
      RoundRow program subject global cursor (hit :: rest)

end

/-! ### Positions -/

/-- The byte position of a cursor, which may stand past the end. -/
def cursorAt (subject : Array Char) (position : Nat) : Nat :=
  offsetAt subject position + (position - subject.size)

section

variable {program : Program} {subject : Array Char} {global : Bool} {position later : Nat}

theorem offsetAt_succ (inside : position < subject.size) :
    offsetAt subject (position + 1) = offsetAt subject position + subject[position].utf8Size := by
  unfold offsetAt
  rw [List.take_add_one, Text.byteSize_append, Array.getElem?_toList,
    Array.getElem?_eq_getElem inside]
  rfl

theorem offsetAt_of_size_le (beyond : subject.size ≤ position) :
    offsetAt subject position = Text.byteSize subject.toList := by
  unfold offsetAt
  rw [List.take_of_length_le (by rwa [Array.length_toList])]

theorem cursorAt_of_le (inside : position ≤ subject.size) :
    cursorAt subject position = offsetAt subject position := by
  rw [cursorAt, Nat.sub_eq_zero_of_le inside, Nat.add_zero]

theorem cursorAt_zero (subject : Array Char) : cursorAt subject 0 = 0 :=
  cursorAt_of_le (Nat.zero_le _)

theorem cursorAt_size (subject : Array Char) :
    cursorAt subject subject.size = Text.byteSize subject.toList := by
  rw [cursorAt_of_le (Nat.le_refl _), offsetAt_of_size_le (Nat.le_refl _)]

theorem cursorAt_lt_succ (subject : Array Char) (position : Nat) :
    cursorAt subject position < cursorAt subject (position + 1) := by
  unfold cursorAt
  by_cases inside : position < subject.size
  · have positive := subject[position].utf8Size_pos
    rw [offsetAt_succ inside]
    omega
  · rw [offsetAt_of_size_le (by omega), offsetAt_of_size_le (by omega)]
    omega

theorem cursorAt_lt (before : position < later) :
    cursorAt subject position < cursorAt subject later := by
  induction before with
  | refl => exact cursorAt_lt_succ subject position
  | step _ inductionHypothesis =>
      exact Nat.lt_trans inductionHypothesis (cursorAt_lt_succ subject _)

theorem cursorAt_le_iff : cursorAt subject position ≤ cursorAt subject later ↔ position ≤ later := by
  constructor
  · intro bound
    apply Nat.le_of_not_lt
    intro after
    have smaller : cursorAt subject later < cursorAt subject position := cursorAt_lt after
    omega
  · intro order
    rcases Nat.lt_or_eq_of_le order with before | same
    · exact Nat.le_of_lt (cursorAt_lt before)
    · exact Nat.le_of_eq (congrArg (cursorAt subject) same)

theorem cursorAt_inj : cursorAt subject position = cursorAt subject later ↔ position = later := by
  rw [Nat.eq_iff_le_and_ge, Nat.eq_iff_le_and_ge, cursorAt_le_iff, cursorAt_le_iff]

theorem cut?_offsetAt (subject : Array Char) (position : Nat) :
    Text.cut? subject.toList (offsetAt subject position) =
      some (subject.toList.take position, subject.toList.drop position) := by
  have cut := Text.cut?_append (subject.toList.take position) (subject.toList.drop position)
  rwa [List.take_append_drop] at cut

/-- Between the characters and at the ends the subject can be cut; one past the end it cannot, but
there nothing is cut. -/
theorem isBoundary_or_past (inside : position ≤ subject.size + 1) :
    Text.IsBoundary subject.toList (cursorAt subject position) ∨
      cursorAt subject position = Text.byteSize subject.toList + 1 := by
  rcases Nat.lt_or_eq_of_le inside with before | past
  · left
    rw [cursorAt_of_le (Nat.le_of_lt_succ before)]
    exact ⟨_, _, (List.take_append_drop position subject.toList).symm, rfl⟩
  · right
    rw [past, cursorAt, offsetAt_of_size_le (Nat.le_succ _)]
    omega

/-! ### Rounds -/

theorem searchAt?_cursorAt (program : Program) (inside : position ≤ subject.size) :
    program.searchAt? subject (cursorAt subject position) =
      some (program.search subject position) := by
  rw [cursorAt_of_le inside, Program.searchAt?, cut?_offsetAt, Option.map_some, List.length_take,
    Array.length_toList, Nat.min_eq_left inside]

theorem stepOver?_cursorAt (inside : position ≤ subject.size) :
    Program.stepOver? subject (cursorAt subject position) =
      some (cursorAt subject (position + 1)) := by
  rw [cursorAt_of_le inside, Program.stepOver?, cut?_offsetAt]
  rcases Nat.lt_or_eq_of_le inside with before | last
  · have next : subject.toList.drop position =
        subject[position] :: subject.toList.drop (position + 1) :=
      List.drop_eq_getElem_cons (by rwa [Array.length_toList])
    rw [next, cursorAt_of_le before, offsetAt_succ before]
  · have nothing : subject.toList.drop position = [] :=
      List.drop_of_length_le (by rw [Array.length_toList]; exact Nat.le_of_eq last.symm)
    rw [nothing, last, cursorAt, Nat.succ_sub (Nat.le_refl _), Nat.sub_self,
      offsetAt_of_size_le (Nat.le_succ _), offsetAt_of_size_le (Nat.le_refl _)]

/-- Inside a character a subject cannot be cut. -/
example : Program.stepOver? #['é', 'a'] 0 = some 2 ∧ Program.stepOver? #['é', 'a'] 1 = none := by
  decide

theorem cursorAt_le_byteSize_iff :
    cursorAt subject position ≤ Text.byteSize subject.toList ↔ position ≤ subject.size := by
  rw [← cursorAt_size, cursorAt_le_iff]

theorem offsetAt_eq_cursorAt_iff {place : Nat} (inside : place ≤ subject.size) :
    offsetAt subject place = cursorAt subject position ↔ place = position := by
  rw [← cursorAt_of_le inside, cursorAt_inj]

theorem round_of_none (missing : program.matchAt subject position = none) :
    program.round subject global (cursorAt subject position) = .ended := by
  unfold Program.round
  by_cases inside : position ≤ subject.size
  · rw [if_pos (cursorAt_le_byteSize_iff.mpr inside), searchAt?_cursorAt program inside]
    cases searched : program.search subject position with
    | none => rfl
    | some hit =>
        -- the search looks ahead, so it can find a match that begins further on
        have elsewhere : offsetAt subject hit.start ≠ cursorAt subject position := by
          intro same
          have begins := (offsetAt_eq_cursorAt_iff
            (Nat.le_trans hit.start_le_stop hit.stop_le_size)).mp same
          rw [Program.matchAt_eq_some_iff.mpr ⟨searched, begins⟩] at missing
          cases missing
        exact if_neg elsewhere
  · rw [if_neg (fun guarded => inside (cursorAt_le_byteSize_iff.mp guarded))]

theorem round_of_some {hit : Hit subject} (found : program.matchAt subject position = some hit) :
    program.round subject global (cursorAt subject position) =
      if global then .onward hit (cursorAt subject (Program.cursorAfter position hit))
      else .final hit := by
  have searched := (Program.matchAt_eq_some_iff.mp found).1
  have begins := Program.start_of_matchAt found
  have within := Nat.le_trans hit.start_le_stop hit.stop_le_size
  have inside : position ≤ subject.size := begins ▸ within
  have here : offsetAt subject hit.start = cursorAt subject position :=
    (offsetAt_eq_cursorAt_iff within).mpr begins
  rw [Program.round, if_pos (cursorAt_le_byteSize_iff.mpr inside), searchAt?_cursorAt program inside, searched]
  simp only [if_pos here, stepOver?_cursorAt inside, Program.cursorAfter,
    offsetAt_eq_cursorAt_iff hit.stop_le_size]
  cases global with
  | false => rfl
  | true =>
      by_cases empty : hit.stop = position
      · simp only [if_pos empty]
      · simp only [if_neg empty, cursorAt_of_le hit.stop_le_size]

/-- All that a round at a position can come to. -/
inductive RoundAt (program : Program) (subject : Array Char) (global : Bool) (position : Nat) :
    Round subject → Prop where
  | ended (missing : program.matchAt subject position = none) :
      RoundAt program subject global position .ended
  | final {hit : Hit subject} (found : program.matchAt subject position = some hit)
      (single : global = false) : RoundAt program subject global position (.final hit)
  | onward {hit : Hit subject} (found : program.matchAt subject position = some hit)
      (many : global = true) :
      RoundAt program subject global position
        (.onward hit (cursorAt subject (Program.cursorAfter position hit)))

theorem roundAt_cursorAt (program : Program) (subject : Array Char) (global : Bool)
    (position : Nat) :
    RoundAt program subject global position
      (program.round subject global (cursorAt subject position)) := by
  cases found : program.matchAt subject position with
  | none =>
      rw [round_of_none found]
      exact .ended found
  | some hit =>
      rw [round_of_some found]
      cases global with
      | false => exact .final found rfl
      | true => exact .onward found rfl

end

/-! ### Rows -/

section

variable {program : Program} {subject : Array Char} {global : Bool} {position : Nat}

theorem cursorAfter_bounds {hit : Hit subject}
    (found : program.matchAt subject position = some hit) :
    position < Program.cursorAfter position hit ∧
      Program.cursorAfter position hit ≤ subject.size + 1 := by
  have begins := Program.start_of_matchAt found
  have order := hit.start_le_stop
  have within := hit.stop_le_size
  constructor
  · exact Program.lt_cursorAfter (Nat.le_of_eq begins.symm)
  · unfold Program.cursorAfter
    split <;> omega

/-- The cursor is at a position at least as far as the number of matches so far: each match has
moved it. -/
theorem ComesTo.exists_position {count cursor : Nat}
    (comes : ComesTo program subject global count cursor) :
    ∃ position, count ≤ position ∧ position ≤ subject.size + 1 ∧
      cursor = cursorAt subject position := by
  induction comes with
  | start => exact ⟨0, Nat.le_refl 0, Nat.zero_le _, (cursorAt_zero subject).symm⟩
  | onward comes round inductionHypothesis =>
      obtain ⟨position, counted, inside, same⟩ := inductionHypothesis
      have answer := roundAt_cursorAt program subject global position
      rw [← same, round] at answer
      cases answer with
      | onward found many =>
          obtain ⟨further, bound⟩ := cursorAfter_bounds found
          exact ⟨_, Nat.lt_of_le_of_lt counted further, bound, rfl⟩

theorem RoundRow.anchored {cursor : Nat} {row : List (Hit subject)}
    (rounds : RoundRow program subject global cursor row)
    (same : cursor = cursorAt subject position) :
    AnchoredRow program subject global position row := by
  -- what a round can be is known at positions only, so the position goes along in the induction
  have answer := roundAt_cursorAt program subject global position
  rw [← same] at answer
  induction rounds generalizing position with
  | ended round =>
      rw [round] at answer
      cases answer with
      | ended missing => exact .stop missing
  | final round =>
      rw [round] at answer
      cases answer with
      | final found single => exact .only found single
  | onward round row inductionHypothesis =>
      rw [round] at answer
      cases answer with
      | @onward hit found many =>
          have begins := Program.start_of_matchAt found
          apply AnchoredRow.onward found many _ _
            (inductionHypothesis rfl (roundAt_cursorAt program subject global _))
          · intro nonempty
            exact if_neg (by omega)
          · intro empty
            exact if_pos (by omega)

theorem AnchoredRow.rounds {row : List (Hit subject)}
    (anchored : AnchoredRow program subject global position row) :
    RoundRow program subject global (cursorAt subject position) row := by
  induction anchored with
  | stop missing => exact .ended (round_of_none missing)
  | only found single =>
      apply RoundRow.final
      rw [round_of_some found, single]
      rfl
  | @onward position next hit rest found many moved stepped row inductionHypothesis =>
      rw [AnchoredRow.next_eq_cursorAfter found moved stepped] at inductionHypothesis
      apply RoundRow.onward _ inductionHypothesis
      rw [round_of_some found, many]
      rfl

theorem AnchoredRow.length_le {row : List (Hit subject)}
    (anchored : AnchoredRow program subject global position row) :
    row.length ≤ subject.size + 1 - position := by
  induction anchored with
  | stop missing => exact Nat.zero_le _
  | only found single =>
      obtain ⟨further, bound⟩ := cursorAfter_bounds found
      rw [List.length_singleton]
      omega
  | onward found many moved stepped row inductionHypothesis =>
      rw [AnchoredRow.next_eq_cursorAfter found moved stepped] at inductionHypothesis
      obtain ⟨further, bound⟩ := cursorAfter_bounds found
      rw [List.length_cons]
      omega

end

/-- Counted in bytes, the cursor of a sticky row only gets further. It is never inside a character
and at most one past the end; nothing is searched or cut where it cannot be; and the rounds end,
after no more matches than there are positions, with the row that the expression gives. -/
theorem Program.sticky_rounds_safe (program : Program) (subject : Array Char) (global : Bool) :
    (∀ count cursor, ComesTo program subject global count cursor →
      count ≤ subject.size + 1 ∧
      (Text.IsBoundary subject.toList cursor ∨ cursor = Text.byteSize subject.toList + 1) ∧
      program.round subject global cursor ≠ .refused ∧
      program.round subject global cursor ≠ .torn ∧
      ∀ hit next, program.round subject global cursor = .onward hit next → cursor < next) ∧
    (∀ row, RoundRow program subject global 0 row ↔ row = program.stickyHits subject global) ∧
    (program.stickyHits subject global).length ≤ subject.size + 1 := by
  have chained : AnchoredRow program subject global 0 (program.stickyHits subject global) := by
    rw [stickyHits_eq_chainFrom]
    exact AnchoredRow.chainFrom program subject global 0
  refine ⟨?_, ?_, chained.length_le⟩
  · intro count cursor comes
    obtain ⟨position, counted, inside, same⟩ := comes.exists_position
    have answer := roundAt_cursorAt program subject global position
    rw [← same] at answer
    have boundary := isBoundary_or_past inside
    rw [← same] at boundary
    refine ⟨Nat.le_trans counted inside, boundary, ?_, ?_, ?_⟩
    · intro refused
      rw [refused] at answer
      cases answer
    · intro torn
      rw [torn] at answer
      cases answer
    · intro hit next onward
      rw [onward] at answer
      cases answer with
      | onward found many =>
          rw [same]
          exact cursorAt_lt (cursorAfter_bounds found).1
  · intro row
    constructor
    · intro rounds
      rw [stickyHits_eq_chainFrom]
      exact (rounds.anchored (cursorAt_zero subject).symm).eq_chainFrom
    · intro equal
      subst equal
      have rounds := chained.rounds
      rwa [cursorAt_zero] at rounds

end ReadableRegex

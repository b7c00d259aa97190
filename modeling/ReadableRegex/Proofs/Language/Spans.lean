import ReadableRegex.Regex

/-!
Languages as relations between positions of a subject: where a match may begin and where it then
may end. Every form of expression is an operation on such relations, and neither captures nor
preferences play a part.
-/

namespace ReadableRegex

/-- The positions between which something matches. -/
abbrev Spans := Nat → Nat → Prop

/-- Whether a repetition may have so many rounds. Bounds out of order allow the lower one. -/
def Counts.allows (counts : Counts) (rounds : Nat) : Prop :=
  counts.lower ≤ rounds ∧
    ∀ upper, counts.upper = some upper → rounds ≤ max counts.lower upper

namespace Spans

variable (subject : Array Char)

def here : Spans := fun start stop => start = stop

def never : Spans := fun _ _ => False

def read (members : CharSet) : Spans := fun start stop =>
  stop = start + 1 ∧ subject[start]?.any members.holds = true

def readIf (members : Char → Prop) : Spans := fun start stop =>
  stop = start + 1 ∧ ∃ character, subject[start]? = some character ∧ members character

def before (position : Nat) : Option Char :=
  if position = 0 then none else subject[position - 1]?

def check (look : Look) : Spans := fun start stop =>
  start = stop ∧ look.holds (before subject start) subject[start]? = true

def join (first rest : Spans) : Spans := fun start stop =>
  ∃ middle, first start middle ∧ rest middle stop

def either (left right : Spans) : Spans := fun start stop =>
  left start stop ∨ right start stop

def row (parts : List Spans) : Spans := parts.foldr join here

def choice (parts : List Spans) : Spans := parts.foldr either never

def copies (part : Spans) : Nat → Spans
  | 0 => here
  | rounds + 1 => join part (copies part rounds)

def many (part : Spans) : Spans := fun start stop =>
  ∃ rounds, copies part rounds start stop

def several (part : Spans) : Spans := fun start stop =>
  ∃ rounds, copies part (rounds + 1) start stop

def atMost (part : Spans) (count : Nat) : Spans := fun start stop =>
  ∃ rounds, rounds ≤ count ∧ copies part rounds start stop

def repeated (counts : Counts) (part : Spans) : Spans := fun start stop =>
  ∃ rounds, counts.allows rounds ∧ copies part rounds start stop

def spell (text : Text) : Spans :=
  row (text.map (fun character => read subject (.ofChars [character])))

variable {subject}

theorem ext {left right : Spans} (same : ∀ start stop, left start stop ↔ right start stop) :
    left = right := by
  funext start stop
  exact propext (same start stop)

/-! ### Rows -/

theorem here_join (rest : Spans) : join here rest = rest := by
  apply ext
  intro start stop
  constructor
  · rintro ⟨middle, same, later⟩
    cases same
    exact later
  · intro later
    exact ⟨start, rfl, later⟩

theorem join_here (first : Spans) : join first here = first := by
  apply ext
  intro start stop
  constructor
  · rintro ⟨middle, earlier, same⟩
    cases same
    exact earlier
  · intro earlier
    exact ⟨stop, earlier, rfl⟩

theorem join_assoc (first second third : Spans) :
    join (join first second) third = join first (join second third) := by
  apply ext
  intro start stop
  constructor
  · rintro ⟨late, ⟨early, one, two⟩, three⟩
    exact ⟨early, one, late, two, three⟩
  · rintro ⟨early, one, late, two, three⟩
    exact ⟨late, ⟨early, one, two⟩, three⟩

theorem row_append (left right : List Spans) :
    row (left ++ right) = join (row left) (row right) := by
  induction left with
  | nil => exact (here_join _).symm
  | cons part rest inductionHypothesis =>
      have later : row (part :: (rest ++ right)) = join part (row (rest ++ right)) := rfl
      rw [List.cons_append, later, inductionHypothesis, ← join_assoc]
      rfl

theorem row_singleton (part : Spans) : row [part] = part := join_here part

theorem spell_append (text more : Text) :
    spell subject (text ++ more) = join (spell subject text) (spell subject more) := by
  unfold spell
  rw [List.map_append, row_append]

/-! ### Choices -/

theorem choice_append (left right : List Spans) :
    choice (left ++ right) = either (choice left) (choice right) := by
  apply ext
  intro start stop
  induction left with
  | nil =>
      constructor
      · exact Or.inr
      · rintro (none | later)
        · cases none
        · exact later
  | cons part rest inductionHypothesis =>
      constructor
      · rintro (first | later)
        · exact Or.inl (Or.inl first)
        · rcases inductionHypothesis.mp later with inLeft | inRight
          · exact Or.inl (Or.inr inLeft)
          · exact Or.inr inRight
      · rintro ((first | inLeft) | inRight)
        · exact Or.inl first
        · exact Or.inr (inductionHypothesis.mpr (Or.inl inLeft))
        · exact Or.inr (inductionHypothesis.mpr (Or.inr inRight))

theorem choice_singleton (part : Spans) : choice [part] = part := by
  apply ext
  intro start stop
  constructor
  · rintro (first | none)
    · exact first
    · cases none
  · exact Or.inl

/-- What all alternatives begin with can be matched before the choice. -/
theorem join_choice (first : Spans) (parts : List Spans) :
    join first (choice parts) = choice (parts.map (join first)) := by
  apply ext
  intro start stop
  induction parts with
  | nil =>
      constructor
      · rintro ⟨middle, _, none⟩
        cases none
      · intro none
        cases none
  | cons part rest inductionHypothesis =>
      constructor
      · rintro ⟨middle, earlier, chosen | later⟩
        · exact Or.inl ⟨middle, earlier, chosen⟩
        · exact Or.inr (inductionHypothesis.mp ⟨middle, earlier, later⟩)
      · rintro (⟨middle, earlier, chosen⟩ | later)
        · exact ⟨middle, earlier, Or.inl chosen⟩
        · obtain ⟨middle, earlier, chosen⟩ := inductionHypothesis.mpr later
          exact ⟨middle, earlier, Or.inr chosen⟩

/-! ### Characters -/

theorem read_congr {left right : CharSet}
    (same : ∀ character, left.holds character = right.holds character) :
    read subject left = read subject right := by
  unfold read
  rw [show left.holds = right.holds from funext same]

theorem read_eq_readIf (members : CharSet) :
    read subject members = readIf subject (members.holds · = true) := by
  apply ext
  intro start stop
  unfold read readIf
  rw [Option.any_eq_true]

theorem spell_singleton (character : Char) :
    spell subject [character] = read subject (.ofChars [character]) := row_singleton _

theorem either_read {left right both : CharSet}
    (union : ∀ character, both.holds character = (left.holds character || right.holds character)) :
    either (read subject left) (read subject right) = read subject both := by
  apply ext
  intro start stop
  have parts : subject[start]?.any both.holds =
      (subject[start]?.any left.holds || subject[start]?.any right.holds) := by
    cases subject[start]? with
    | none => rfl
    | some character => exact union character
  unfold either read
  rw [parts, Bool.or_eq_true]
  constructor
  · rintro (⟨behind, held⟩ | ⟨behind, held⟩)
    · exact ⟨behind, Or.inl held⟩
    · exact ⟨behind, Or.inr held⟩
  · rintro ⟨behind, held | held⟩
    · exact Or.inl ⟨behind, held⟩
    · exact Or.inr ⟨behind, held⟩

theorem read_empty : read subject .empty = never := by
  apply ext
  intro start stop
  constructor
  · rintro ⟨_, held⟩
    cases found : subject[start]? with
    | none =>
        rw [found] at held
        cases held
    | some character =>
        rw [found] at held
        cases held
  · intro none
    cases none

/-! ### Repetitions -/

theorem copies_one (part : Spans) : copies part 1 = part := join_here part

theorem copies_add (part : Spans) (left right : Nat) :
    copies part (left + right) = join (copies part left) (copies part right) := by
  induction left with
  | zero => rw [Nat.zero_add]; exact (here_join _).symm
  | succ left inductionHypothesis =>
      rw [Nat.succ_add, copies, inductionHypothesis, copies, join_assoc]

theorem many_eq (part : Spans) : many part = either here (several part) := by
  apply ext
  intro start stop
  constructor
  · rintro ⟨rounds, matched⟩
    cases rounds with
    | zero => exact Or.inl matched
    | succ rounds => exact Or.inr ⟨rounds, matched⟩
  · rintro (none | ⟨rounds, some⟩)
    · exact ⟨0, none⟩
    · exact ⟨rounds + 1, some⟩

theorem atMost_zero (part : Spans) : atMost part 0 = here := by
  apply ext
  intro start stop
  constructor
  · rintro ⟨rounds, few, matched⟩
    cases Nat.le_zero.mp few
    exact matched
  · intro none
    exact ⟨0, Nat.le_refl 0, none⟩

theorem atMost_succ (part : Spans) (count : Nat) :
    atMost part (count + 1) = either here (join part (atMost part count)) := by
  apply ext
  intro start stop
  constructor
  · rintro ⟨rounds, few, matched⟩
    cases rounds with
    | zero => exact Or.inl matched
    | succ rounds =>
        obtain ⟨middle, first, later⟩ := matched
        exact Or.inr ⟨middle, first, rounds, Nat.le_of_succ_le_succ few, later⟩
  · rintro (none | ⟨middle, first, rounds, few, later⟩)
    · exact ⟨0, Nat.zero_le _, none⟩
    · exact ⟨rounds + 1, Nat.succ_le_succ few, middle, first, later⟩

theorem repeated_between (lower upper : Nat) (greedy : Bool) (part : Spans) :
    repeated ⟨lower, some upper, greedy⟩ part =
      join (copies part lower) (atMost part (upper - lower)) := by
  apply ext
  intro start stop
  constructor
  · rintro ⟨rounds, ⟨enough, few⟩, matched⟩
    have bounded := few upper rfl
    dsimp only at enough bounded
    have split : rounds = lower + (rounds - lower) := by omega
    rw [split, copies_add] at matched
    obtain ⟨middle, must, may⟩ := matched
    exact ⟨middle, must, rounds - lower, by omega, may⟩
  · rintro ⟨middle, must, rounds, few, may⟩
    refine ⟨lower + rounds, ⟨Nat.le_add_right _ _, ?_⟩, ?_⟩
    · intro bound same
      cases same
      dsimp only
      omega
    · rw [copies_add]
      exact ⟨middle, must, may⟩

theorem repeated_zero (greedy : Bool) (part : Spans) :
    repeated ⟨0, none, greedy⟩ part = many part := by
  apply ext
  intro start stop
  constructor
  · rintro ⟨rounds, _, matched⟩
    exact ⟨rounds, matched⟩
  · rintro ⟨rounds, matched⟩
    refine ⟨rounds, ⟨Nat.zero_le _, ?_⟩, matched⟩
    intro bound same
    cases same

theorem repeated_succ (lower : Nat) (greedy : Bool) (part : Spans) :
    repeated ⟨lower + 1, none, greedy⟩ part = join (copies part lower) (several part) := by
  apply ext
  intro start stop
  constructor
  · rintro ⟨rounds, ⟨enough, _⟩, matched⟩
    dsimp only at enough
    have split : rounds = lower + (rounds - (lower + 1) + 1) := by omega
    rw [split, copies_add] at matched
    obtain ⟨middle, must, may⟩ := matched
    exact ⟨middle, must, rounds - (lower + 1), may⟩
  · rintro ⟨middle, must, rounds, may⟩
    refine ⟨lower + (rounds + 1), ⟨?_, ?_⟩, ?_⟩
    · dsimp only
      omega
    · intro bound same
      cases same
    · rw [copies_add]
      exact ⟨middle, must, may⟩

/-- Rounds without characters are as good as one. -/
theorem copies_succ_of_void {part : Spans} (void : ∀ start stop, part start stop → start = stop)
    (rounds : Nat) : copies part (rounds + 1) = part := by
  induction rounds with
  | zero => exact copies_one part
  | succ rounds inductionHypothesis =>
      rw [copies, inductionHypothesis]
      apply ext
      intro start stop
      constructor
      · rintro ⟨middle, earlier, later⟩
        rw [void start middle earlier]
        exact later
      · intro once
        have same := void start stop once
        subst same
        exact ⟨start, once, once⟩

theorem repeated_iff_of_void {part : Spans}
    (void : ∀ start stop, part start stop → start = stop) (counts : Counts) (start stop : Nat) :
    repeated counts part start stop ↔
      (counts.lower = 0 ∧ start = stop) ∨
      ((∀ upper, counts.upper = some upper → 0 < max counts.lower upper) ∧ part start stop) := by
  constructor
  · rintro ⟨rounds, ⟨enough, few⟩, matched⟩
    cases rounds with
    | zero => exact Or.inl ⟨Nat.le_zero.mp enough, matched⟩
    | succ rounds =>
        rw [copies_succ_of_void void] at matched
        refine Or.inr ⟨?_, matched⟩
        intro upper bounded
        exact Nat.lt_of_lt_of_le (Nat.succ_pos rounds) (few upper bounded)
  · rintro (⟨none, same⟩ | ⟨some, once⟩)
    · exact ⟨0, ⟨Nat.le_of_eq none, fun _ _ => Nat.zero_le _⟩, same⟩
    · refine ⟨max counts.lower 1, ⟨Nat.le_max_left _ _, ?_⟩, ?_⟩
      · intro upper bounded
        have positive := some upper bounded
        omega
      · obtain ⟨rounds, same⟩ : ∃ rounds, max counts.lower 1 = rounds + 1 :=
          ⟨max counts.lower 1 - 1, by omega⟩
        rw [same, copies_succ_of_void void]
        exact once

end Spans

/-! ### Expressions -/

def Regex.spans (subject : Array Char) : Regex → Spans
  | .empty => .here
  | .literal text => .spell subject text
  | .set _ members => .read subject members
  | .look condition => .check subject condition
  | .repetition counts part => .repeated counts (part.spans subject)
  | .capture _ _ part => part.spans subject
  | .sequence first rest => .join (first.spans subject) (rest.spans subject)
  | .choice first rest => .either (first.spans subject) (rest.spans subject)

end ReadableRegex

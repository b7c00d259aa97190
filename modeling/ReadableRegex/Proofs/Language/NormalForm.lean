import ReadableRegex.CharSet.Members
import ReadableRegex.Proofs.Language.Spans
import ReadableRegex.Regex.Row

/-!
Putting expressions into normal form keeps their language: running texts together, taking out
what all alternatives begin with, making one set of single characters, and cutting down the
rounds of a part without characters.
-/

namespace ReadableRegex.Regex

open Spans (read row)

variable {subject : Array Char}

/-! ### Sets -/

theorem spans_nothing : nothing.spans subject = Spans.never := Spans.read_empty

theorem spans_ofSet (unicode : Bool) (members : CharSet) :
    (ofSet unicode members).spans subject = read subject members := by
  unfold ofSet
  split
  · next character single =>
      have shape : members.intervals = [⟨character, character⟩] := by
        unfold CharSet.single? at single
        split at single
        · next first last shape =>
            split at single
            · next same =>
                cases single
                rw [shape, same]
            · cases single
        · cases single
      refine (Spans.spell_singleton character).trans (Spans.read_congr ?_)
      intro other
      unfold CharSet.ofChars
      rw [CharSet.holds_ofIntervals, CharSet.holds_eq_any members, shape]
      rfl
  · split
    · next empty => rw [empty, spans_nothing, Spans.read_empty]
    · rfl

/-! ### Rows -/

theorem spans_ofItems (parts : List Regex) :
    (ofItems parts).spans subject = row (parts.map (spans subject)) := by
  induction parts with
  | nil => rfl
  | cons part rest inductionHypothesis =>
      cases rest with
      | nil => exact (Spans.row_singleton _).symm
      | cons second others =>
          have later : (ofItems (part :: second :: others)).spans subject =
            Spans.join (part.spans subject) ((ofItems (second :: others)).spans subject) := rfl
          rw [later, inductionHypothesis]
          rfl

theorem row_items (regex : Regex) :
    row (regex.items.map (spans subject)) = regex.spans subject := by
  induction regex with
  | empty => rfl
  | sequence first rest firstHypothesis restHypothesis =>
      rw [items, List.map_append, Spans.row_append, firstHypothesis, restHypothesis]
      rfl
  | _ => exact Spans.row_singleton _

theorem spans_before (part rest : Regex) :
    (part.before rest).spans subject = Spans.join (part.spans subject) (rest.spans subject) := by
  unfold before
  split
  · exact (Spans.join_here _).symm
  · exact Spans.spell_append _ _
  · next text more rest =>
      have texts : (Regex.sequence (.literal (text ++ more)) rest).spans subject =
        Spans.join (Spans.spell subject (text ++ more)) (rest.spans subject) := rfl
      rw [texts, Spans.spell_append, Spans.join_assoc]
      rfl
  · rfl

theorem spans_andThen (first rest : Regex) :
    (first.andThen rest).spans subject = Spans.join (first.spans subject) (rest.spans subject) := by
  induction first generalizing rest with
  | empty => exact (Spans.here_join _).symm
  | sequence first more firstHypothesis moreHypothesis =>
      rw [andThen, firstHypothesis, moreHypothesis, ← Spans.join_assoc]
      rfl
  | _ => exact spans_before _ _

theorem spans_sequenceOf (parts : List Regex) :
    (sequenceOf parts).spans subject = row (parts.map (spans subject)) := by
  induction parts with
  | nil => rfl
  | cons part rest inductionHypothesis =>
      have shape : sequenceOf (part :: rest) = part.andThen (sequenceOf rest) := rfl
      rw [shape, spans_andThen, inductionHypothesis]
      rfl

/-! ### Choices -/

theorem choice_alternatives (regex : Regex) :
    Spans.choice (regex.alternatives.map (spans subject)) = regex.spans subject := by
  induction regex with
  | choice first rest firstHypothesis restHypothesis =>
      rw [alternatives, List.map_append, Spans.choice_append, firstHypothesis, restHypothesis]
      rfl
  | _ => exact Spans.choice_singleton _

theorem choice_flatMap_alternatives (parts : List Regex) :
    Spans.choice ((parts.flatMap alternatives).map (spans subject)) =
      Spans.choice (parts.map (spans subject)) := by
  induction parts with
  | nil => rfl
  | cons part rest inductionHypothesis =>
      rw [List.flatMap_cons, List.map_append, Spans.choice_append, choice_alternatives,
        inductionHypothesis]
      rfl

theorem spans_ofAlternatives (parts : List Regex) :
    (ofAlternatives parts).spans subject = Spans.choice (parts.map (spans subject)) := by
  induction parts with
  | nil => exact spans_nothing
  | cons part rest inductionHypothesis =>
      cases rest with
      | nil => exact (Spans.choice_singleton _).symm
      | cons second others =>
          have later : (ofAlternatives (part :: second :: others)).spans subject =
            Spans.either (part.spans subject)
              ((ofAlternatives (second :: others)).spans subject) := rfl
          rw [later, inductionHypothesis]
          rfl

/-- What is read off every part tells the languages of all. -/
theorem map_spans_of_mapM {Value : Type} {meaning : Value → Spans}
    {view : Regex → Option Value}
    (each : ∀ part value, view part = some value → part.spans subject = meaning value)
    {parts : List Regex} {values : List Value} (all : parts.mapM view = some values) :
    parts.map (spans subject) = values.map meaning := by
  induction parts generalizing values with
  | nil =>
      cases all
      rfl
  | cons part rest inductionHypothesis =>
      rw [List.mapM_cons] at all
      cases first : view part with
      | none =>
          rw [first] at all
          cases all
      | some value =>
          cases later : rest.mapM view with
          | none =>
              rw [first, later] at all
              cases all
          | some others =>
              rw [first, later] at all
              cases all
              rw [List.map_cons, List.map_cons, each part value first, inductionHypothesis later]

theorem spans_of_character? {part : Regex} {character : Char}
    (single : part.character? = some character) :
    part.spans subject = read subject (.ofChars [character]) := by
  unfold character? at single
  split at single
  · cases single
    exact Spans.spell_singleton _
  · cases single

theorem spans_of_members? {part : Regex} {members : CharSet}
    (isSet : part.members? = some members) : part.spans subject = read subject members := by
  unfold members? at isSet
  split at isSet
  · cases isSet
    rfl
  · cases isSet

theorem spans_of_row? {part : Regex} {parts : List Regex} (isRow : part.row? = some parts) :
    part.spans subject = row (parts.map (spans subject)) := by
  unfold row? at isRow
  split at isRow
  · cases isRow
    rw [← items, row_items]
  · cases isRow

theorem choice_read (sets : List CharSet) :
    Spans.choice (sets.map (read subject)) = read subject (sets.foldr .union .empty) := by
  induction sets with
  | nil => exact Spans.read_empty.symm
  | cons members rest inductionHypothesis =>
      have first : Spans.choice ((members :: rest).map (read subject)) =
        Spans.either (read subject members) (Spans.choice (rest.map (read subject))) := rfl
      rw [first, inductionHypothesis, List.foldr_cons]
      exact Spans.either_read fun character => CharSet.holds_union _ _ character

theorem spans_merged (parts : List Regex) :
    (merged parts).spans subject = Spans.choice (parts.map (spans subject)) := by
  unfold merged
  split
  · next characters all =>
      rw [spans_ofSet, map_spans_of_mapM (fun _ _ => spans_of_character?) all]
      have sets : characters.map (fun character => read subject (.ofChars [character])) =
          (characters.map (fun character => CharSet.ofChars [character])).map (read subject) := by
        rw [List.map_map]
        rfl
      rw [sets, choice_read]
      apply Spans.read_congr
      intro character
      clear all sets
      induction characters with
      | nil => rfl
      | cons first rest inductionHypothesis =>
          rw [List.map_cons, List.foldr_cons, CharSet.holds_union, ← inductionHypothesis,
            CharSet.holds_ofChars, CharSet.holds_ofChars, CharSet.holds_ofChars,
            List.contains_cons, List.contains_cons, List.contains_nil, Bool.or_false]
  · split
    · next sets all =>
        rw [spans_ofSet, map_spans_of_mapM (fun _ _ => spans_of_members?) all, choice_read]
    · exact spans_ofAlternatives parts

theorem sharedStart_prefix (left right : List Regex) :
    sharedStart left right <+: left ∧ sharedStart left right <+: right := by
  induction left generalizing right with
  | nil => exact ⟨List.nil_prefix, List.nil_prefix⟩
  | cons part rest inductionHypothesis =>
      cases right with
      | nil => exact ⟨List.nil_prefix, List.nil_prefix⟩
      | cons other others =>
          unfold sharedStart
          by_cases same : part = other
          · rw [if_pos same]
            obtain ⟨inLeft, inRight⟩ := inductionHypothesis others
            refine ⟨List.cons_prefix_cons.mpr ⟨rfl, inLeft⟩, ?_⟩
            rw [same]
            exact List.cons_prefix_cons.mpr ⟨rfl, inRight⟩
          · rw [if_neg same]
            exact ⟨List.nil_prefix, List.nil_prefix⟩

theorem foldl_sharedStart_prefix (start : List Regex) (rows : List (List Regex)) :
    rows.foldl sharedStart start <+: start ∧
      ∀ row ∈ rows, rows.foldl sharedStart start <+: row := by
  induction rows generalizing start with
  | nil =>
      refine ⟨List.prefix_refl start, ?_⟩
      intro row member
      cases member
  | cons first rest inductionHypothesis =>
      obtain ⟨shared, others⟩ := inductionHypothesis (sharedStart start first)
      obtain ⟨ofStart, ofFirst⟩ := sharedStart_prefix start first
      refine ⟨shared.trans ofStart, ?_⟩
      intro row member
      rcases List.mem_cons.mp member with same | later
      · rw [same]
        exact shared.trans ofFirst
      · exact others row later

theorem commonStart_prefix {rows : List (List Regex)} {parts : List Regex}
    (member : parts ∈ rows) : commonStart rows <+: parts := by
  cases rows with
  | nil => cases member
  | cons first rest =>
      obtain ⟨ofFirst, others⟩ := foldl_sharedStart_prefix first rest
      rcases List.mem_cons.mp member with same | later
      · rw [same]
        exact ofFirst
      · exact others parts later

theorem spans_choiceOf (parts : List Regex) :
    (choiceOf parts).spans subject = Spans.choice (parts.map (spans subject)) := by
  unfold choiceOf
  split
  · exact (Spans.choice_singleton _).symm
  · rw [← choice_flatMap_alternatives parts]
    generalize parts.flatMap alternatives = several
    dsimp only
    split
    · exact spans_merged several
    · next rows all =>
        split
        · exact spans_merged several
        · rw [map_spans_of_mapM (fun _ _ => spans_of_row?) all, spans_sequenceOf, List.map_append,
            Spans.row_append, List.map_singleton, Spans.row_singleton, spans_merged,
            choice_flatMap_alternatives, Spans.join_choice, List.map_map, List.map_map]
          congr 1
          apply List.map_congr_left
          intro parts member
          obtain ⟨remainder, whole⟩ := commonStart_prefix member
          rw [← whole]
          simp only [Function.comp_apply, List.drop_left, spans_ofItems, List.map_append,
            Spans.row_append]

/-! ### Repetitions -/

theorem eq_of_isVoid {regex : Regex} (void : regex.isVoid = true) {start stop : Nat}
    (spans : regex.spans subject start stop) : start = stop := by
  induction regex generalizing start stop with
  | empty => exact spans
  | literal text => cases void
  | set unicode members => cases void
  | look condition => exact spans.1
  | repetition counts part inductionHypothesis =>
      have inner := (Bool.and_eq_true_iff.mp void).2
      obtain ⟨rounds, -, copies⟩ := spans
      induction rounds generalizing start with
      | zero => exact copies
      | succ rounds laterRounds =>
          obtain ⟨middle, first, later⟩ := copies
          rw [inductionHypothesis inner first]
          exact laterRounds later
  | capture index name part inductionHypothesis => exact inductionHypothesis void spans
  | sequence first rest firstHypothesis restHypothesis =>
      obtain ⟨firstVoid, restVoid⟩ := Bool.and_eq_true_iff.mp void
      obtain ⟨middle, earlier, later⟩ := spans
      rw [firstHypothesis firstVoid earlier]
      exact restHypothesis restVoid later
  | choice first rest firstHypothesis restHypothesis =>
      obtain ⟨firstVoid, restVoid⟩ := Bool.and_eq_true_iff.mp void
      rcases spans with chosen | chosen
      · exact firstHypothesis firstVoid chosen
      · exact restHypothesis restVoid chosen

/-- Of a part without characters, one round is as good as many. -/
theorem repeated_usefulCounts (counts : Counts) (part : Regex) :
    Spans.repeated (usefulCounts counts part) (part.spans subject) =
      Spans.repeated counts (part.spans subject) := by
  unfold usefulCounts
  by_cases void : part.isVoid = true
  · rw [if_pos void]
    have inPlace : ∀ start stop, part.spans subject start stop → start = stop :=
      fun start stop => eq_of_isVoid void
    apply Spans.ext
    intro start stop
    rw [Spans.repeated_iff_of_void inPlace, Spans.repeated_iff_of_void inPlace]
    have none : min counts.lower 1 = 0 ↔ counts.lower = 0 := by omega
    have some : (∀ upper, some (min (counts.upper.getD 1) 1) = some upper →
          0 < max (min counts.lower 1) upper) ↔
        ∀ upper, counts.upper = some upper → 0 < max counts.lower upper := by
      cases counts.upper with
      | none =>
          constructor
          · intro _ upper bounded
            cases bounded
          · intro _ upper bounded
            cases bounded
            exact Nat.lt_of_lt_of_le Nat.one_pos (Nat.le_max_right _ _)
      | some upper =>
          simp only [Option.getD_some, Option.some.injEq, forall_eq']
          omega
    rw [none, some]
  · rw [if_neg void]

theorem spans_repeated (counts : Counts) (part : Regex) :
    (repeated counts part).spans subject = Spans.repeated counts (part.spans subject) := by
  rw [← repeated_usefulCounts]
  unfold repeated
  generalize usefulCounts counts part = useful
  obtain ⟨lower, upper, greedy⟩ := useful
  dsimp only
  split
  · next none =>
      obtain ⟨rfl, rfl⟩ := none
      apply Spans.ext
      intro start stop
      constructor
      · intro same
        exact ⟨0, ⟨Nat.le_refl 0, fun _ _ => Nat.zero_le _⟩, same⟩
      · rintro ⟨rounds, ⟨_, few⟩, copies⟩
        have atMost := few 0 rfl
        cases Nat.le_zero.mp atMost
        exact copies
  · split
    · next once =>
        obtain ⟨rfl, rfl⟩ := once
        apply Spans.ext
        intro start stop
        constructor
        · intro spans
          refine ⟨1, ⟨Nat.le_refl 1, fun _ _ => Nat.le_max_left _ _⟩, ?_⟩
          rw [Spans.copies_one]
          exact spans
        · rintro ⟨rounds, ⟨enough, few⟩, copies⟩
          have atMost := few 1 rfl
          have single : rounds = 1 := Nat.le_antisymm atMost enough
          rw [single, Spans.copies_one] at copies
          exact copies
    · rfl

end ReadableRegex.Regex

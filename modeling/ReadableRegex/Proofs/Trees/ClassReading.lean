import ReadableRegex.Proofs.Coverage
import ReadableRegex.Proofs.Trees.Spelling

/-!
The texts of classes are read as the classes of the characters and intervals they were made of.
An interval with its bounds out of order cannot be read.
-/

namespace ReadableRegex

def Interval.charClass (interval : Interval) : CharClass :=
  .range interval.low interval.high

namespace CharClass

variable [PropertyTable]

theorem set_ofMembers (comparison : Comparison) (intervals : List Interval) :
    (ofMembers (intervals.map Interval.charClass)).set comparison = .ofIntervals intervals := by
  induction intervals with
  | nil => rfl
  | cons latest earlier inductionHypothesis =>
      cases earlier with
      | nil => rfl
      | cons second others =>
          have single : (Interval.charClass latest).set comparison = .ofIntervals [latest] := rfl
          have joined : ofMembers ((latest :: second :: others).map Interval.charClass) =
              .union (ofMembers ((second :: others).map Interval.charClass)) latest.charClass := rfl
          rw [joined, set, inductionHypothesis, single, CharSet.union_ofIntervals,
            CharSet.ofIntervals_append_comm, List.singleton_append]

theorem set_bracketed (comparison : Comparison) (negated : Bool) (intervals : List Interval) :
    (bracketed negated (ofMembers (intervals.reverse.map Interval.charClass))).set comparison =
      (comparison.closure (.ofIntervals intervals)).negateIf negated := by
  rw [set, set_ofMembers, CharSet.ofIntervals_reverse, CharSet.joined_ofIntervals]

/-- No table is asked for the characters of intervals. -/
theorem isKnown_ofMembers (intervals : List Interval) :
    (ofMembers (intervals.map Interval.charClass)).isKnown = true := by
  induction intervals with
  | nil => rfl
  | cons latest earlier inductionHypothesis =>
      cases earlier with
      | nil => rfl
      | cons second others => exact Bool.and_eq_true_iff.mpr ⟨inductionHypothesis, rfl⟩

theorem isKnown_bracketed (negated : Bool) (intervals : List Interval) :
    (bracketed negated (ofMembers (intervals.reverse.map Interval.charClass))).isKnown = true :=
  isKnown_ofMembers intervals.reverse

end CharClass

namespace Lexeme

theorem readEscape_classSpecial {character : Char} (special : character ∈ Text.classSpecials)
    (rest : Text) : readEscape (character :: rest) = .ok (.literal character, rest) := by
  simp only [Text.classSpecials, List.mem_cons, List.not_mem_nil, or_false] at special
  rcases special with same | same | same | same | same | same | same <;> subst same <;> rfl

theorem readClassAtom_escapeChar (character : Char) (rest : Text) :
    readClassAtom (Text.escapeChar Text.classSpecials character ++ rest) =
      .ok (.single character, rest) := by
  unfold Text.escapeChar
  split
  · rename_i special
    simp only [List.cons_append, List.nil_append, readClassAtom, readEscape_classSpecial special]
    rfl
  · rename_i plain
    unfold readClassAtom
    split
    · rename_i same
      cases same
    · rename_i same
      injection same with same _
      subst same
      exact absurd (by decide) plain
    · rename_i same
      cases same
      rfl

/-- A unit begins with no character that means something in a class, except a backslash. -/
theorem escapeChar_head (character : Char) :
    ∃ head tail, Text.escapeChar Text.classSpecials character = head :: tail ∧
      head ∉ [']', '[', '-', '^', '&', '~'] := by
  unfold Text.escapeChar
  split
  · exact ⟨'\\', [character], rfl, by decide⟩
  · rename_i plain
    refine ⟨character, [], rfl, ?_⟩
    intro member
    simp only [Text.classSpecials, List.mem_cons, List.not_mem_nil, or_false, not_or] at plain member
    rcases member with same | same | same | same | same | same <;> simp [same] at plain

/-! ### Members -/

/-- In a class the text is read as the interval, whatever follows but a hyphen. -/
def SpellsMember (text : Text) (interval : Interval) : Prop :=
  ∀ (frame : ClassFrame) (rest : Text), rest.head? ≠ some '-' →
    readMembers frame [] (text ++ rest) = readMembers (frame.add interval.charClass) [] rest

theorem readMembers_plain {verbose : Bool} {text tail : Text} {head : Char}
    (goesOn : resume verbose text = head :: tail) (inside : head ≠ ']') (single : head ≠ '[')
    (frame : ClassFrame) (outer : List ClassFrame) :
    readMembers frame outer text verbose =
      match operator? (head :: tail) with
      | some operator => readMembers (frame.operate operator) outer (tail.drop 1) verbose
      | none =>
          match readMember (head :: tail) verbose with
          | .ok (set, remaining) => readMembers (frame.add set) outer remaining verbose
          | .error fault => .error fault := by
  rw [readMembers.eq_def]
  split
  · next same =>
      rw [goesOn] at same
      cases same
  · next same =>
      rw [goesOn] at same
      cases same
      exact absurd rfl inside
  · next same =>
      rw [goesOn] at same
      cases same
      exact absurd rfl single
  · next other rest _ _ same =>
      rw [goesOn] at same
      cases same
      cases operator? (head :: tail) with
      | some operator => rfl
      | none =>
          dsimp only
          split <;> simp_all

theorem readMembers_of_head {head : Char} (plain : head ∉ [']', '[', '-', '^', '&', '~'])
    (frame : ClassFrame) (tail : Text) :
    readMembers frame [] (head :: tail) =
      match readMember (head :: tail) with
      | .ok (member, rest) => readMembers (frame.add member) [] rest
      | .error fault => .error fault := by
  simp only [List.mem_cons, List.not_mem_nil, or_false, not_or] at plain
  have noOperator : operator? (head :: tail) = none := by
    unfold operator?
    split <;> simp_all
  rw [readMembers_plain (resume_false _) plain.1 plain.2.1, noOperator]

theorem spellsMember_escapeChar (character : Char) :
    SpellsMember (Text.escapeChar Text.classSpecials character) (.single character) := by
  intro frame rest noHyphen
  obtain ⟨head, tail, shape, plain⟩ := escapeChar_head character
  have read : readMember (Text.escapeChar Text.classSpecials character ++ rest) =
      .ok (.range character character, rest) := by
    unfold readMember
    rw [readClassAtom_escapeChar]
    split
    · rename_i same
      cases same
      split
      · rename_i hyphen
        rw [resume_false] at hyphen
        exact absurd (congrArg List.head? hyphen) noHyphen
      · rfl
    · rename_i same
      cases same
  rw [shape, List.cons_append] at read ⊢
  rw [readMembers_of_head plain, read]
  rfl

theorem readMember_interval (bounds : Char × Char) (rest : Text) :
    readMember (ClassText.interval bounds ++ rest) =
      if bounds.1 ≤ bounds.2 then .ok (.range bounds.1 bounds.2, rest) else .error .invertedRange := by
  obtain ⟨head, tail, shape, plain⟩ := escapeChar_head bounds.2
  simp only [List.mem_cons, List.not_mem_nil, or_false, not_or] at plain
  have text : ClassText.interval bounds ++ rest =
      Text.escapeChar Text.classSpecials bounds.1 ++ '-' :: (head :: tail ++ rest) := by
    rw [← shape]
    simp [ClassText.interval, Text.escapeMembers, Text.escapeWith]
  have last : readClassAtom (head :: tail ++ rest) = .ok (.single bounds.2, rest) := by
    rw [← shape]
    exact readClassAtom_escapeChar bounds.2 rest
  rw [text]
  unfold readMember
  rw [readClassAtom_escapeChar]
  simp only [List.cons_append, resume_false, signBehind?, List.head?_cons, Option.some.injEq, plain,
    or_self, if_false] at last ⊢
  unfold readRangeEnd
  rw [last]

theorem interval_head (bounds : Char × Char) :
    ∃ head tail, ClassText.interval bounds = head :: tail ∧
      head ∉ [']', '[', '-', '^', '&', '~'] := by
  obtain ⟨head, tail, shape, plain⟩ := escapeChar_head bounds.1
  refine ⟨head, tail ++ '-' :: Text.escapeMembers [bounds.2], ?_, plain⟩
  simp [ClassText.interval, Text.escapeMembers, Text.escapeWith, shape]

theorem spellsMember_interval {bounds : Char × Char} (ordered : bounds.1 ≤ bounds.2) :
    SpellsMember (ClassText.interval bounds) ⟨bounds.1, bounds.2⟩ := by
  intro frame rest _
  have read := readMember_interval bounds rest
  rw [if_pos ordered] at read
  obtain ⟨head, tail, shape, plain⟩ := interval_head bounds
  rw [shape, List.cons_append] at read ⊢
  rw [readMembers_of_head plain, read]
  rfl

section

variable {Item : Type} {text : Item → Text} {interval : Item → Interval} {items : List Item}

def BeginPlainly (text : Item → Text) : Prop :=
  ∀ item, ∃ head tail, text item = head :: tail ∧ head ∉ [']', '[', '-', '^', '&', '~']

theorem flatMap_head (plainly : BeginPlainly text) (items : List Item) (rest : Text) :
    (items.flatMap text ++ ']' :: rest).head? ≠ some '-' := by
  cases items with
  | nil => simp
  | cons item others =>
      obtain ⟨head, tail, shape, plain⟩ := plainly item
      simp only [List.flatMap_cons, shape, List.cons_append, List.head?_cons]
      intro same
      cases same
      exact plain (by decide)

theorem readMembers_flatMap (plainly : BeginPlainly text)
    (spells : ∀ item ∈ items, SpellsMember (text item) (interval item)) (frame : ClassFrame)
    (rest : Text) :
    readMembers frame [] (items.flatMap text ++ ']' :: rest) =
      .ok (ClassFrame.close { frame with
        members := (items.map interval).reverse.map Interval.charClass ++ frame.members },
        rest) := by
  induction items generalizing frame with
  | nil =>
      rw [List.flatMap_nil, List.nil_append, readMembers]
      rfl
  | cons item others inductionHypothesis =>
      have later := inductionHypothesis
        (fun other member => spells other (List.mem_cons_of_mem _ member))
      rw [List.flatMap_cons, List.append_assoc,
        spells item List.mem_cons_self frame _ (flatMap_head plainly others rest), later]
      simp [ClassFrame.add]

theorem openClass_of_plain (plainly : BeginPlainly text) (negated : Bool) (present : items ≠ [])
    (rest : Text) :
    openClass ((if negated then ['^'] else []) ++ items.flatMap text ++ rest) =
      (⟨negated, none, []⟩, items.flatMap text ++ rest) := by
  cases items with
  | nil => exact absurd rfl present
  | cons item others =>
      obtain ⟨head, tail, shape, plain⟩ := plainly item
      simp only [List.mem_cons, List.not_mem_nil, or_false, not_or] at plain
      rw [List.flatMap_cons, shape]
      have members (sign : Bool) (behind : Text) :
          openMembers sign (head :: behind) = (⟨sign, none, []⟩, head :: behind) := by
        unfold openMembers collect
        simp only [List.takeWhile_cons, List.dropWhile_cons, beq_iff_eq, plain, if_false]
        split
        · rename_i same
          cases same
          exact absurd rfl plain.1
        · rename_i same
          cases same
          rfl
      cases negated with
      | true => exact members true _
      | false =>
          simp only [Bool.false_eq_true, if_false, List.nil_append, List.cons_append]
          unfold openClass
          rw [resume_false]
          split
          · rename_i same
            cases same
            exact absurd rfl plain.2.2.2.1
          · exact members false _

theorem spellsFirmly_brackets (plainly : BeginPlainly text) (negated : Bool)
    (present : items ≠ []) (spells : ∀ item ∈ items, SpellsMember (text item) (interval item)) :
    SpellsFirmly ('[' :: ((if negated then ['^'] else []) ++ items.flatMap text ++ [']']))
      [.part (.charClass (.bracketed negated
        (.ofMembers ((items.map interval).reverse.map Interval.charClass))))] := by
  refine spellsFirmly_of_read ?_
  intro rest
  have opened := openClass_of_plain plainly negated present (']' :: rest)
  have members := readMembers_flatMap plainly spells ⟨negated, none, []⟩ rest
  have whole : (if negated then ['^'] else []) ++ items.flatMap text ++ [']'] ++ rest =
      (if negated then ['^'] else []) ++ items.flatMap text ++ ']' :: rest := by
    simp
  simp only [read, whole, readClass, opened, members, List.append_nil]
  rfl

end

/-! ### Classes of calls -/

theorem spellsFirmly_members (negated : Bool) {members : Text} (present : members ≠ []) :
    SpellsFirmly
      ('[' :: ((if negated then ['^'] else []) ++ Text.escapeMembers members ++ [']']))
      [.part (.charClass (.bracketed negated
        (.ofMembers ((members.map Interval.single).reverse.map Interval.charClass))))] :=
  spellsFirmly_brackets escapeChar_head negated present
    (fun character _ => spellsMember_escapeChar character)

theorem spellsFirmly_intervals {pairs : List (Char × Char)} (present : pairs ≠ [])
    (ordered : ∀ pair ∈ pairs, pair.1 ≤ pair.2) :
    SpellsFirmly ('[' :: (pairs.flatMap ClassText.interval ++ [']']))
      [.part (.charClass (.bracketed false
        (.ofMembers ((pairs.map (fun pair => ⟨pair.1, pair.2⟩)).reverse.map
          Interval.charClass))))] :=
  spellsFirmly_brackets interval_head false present
    (fun pair member => spellsMember_interval (ordered pair member))

/-- A pair out of order is found, whatever stands before it. -/
theorem readMembers_crossed {pairs : List (Char × Char)}
    (crossed : ∃ pair ∈ pairs, ¬ pair.1 ≤ pair.2) (frame : ClassFrame) (rest : Text) :
    readMembers frame [] (pairs.flatMap ClassText.interval ++ ']' :: rest) =
      .error .invertedRange := by
  induction pairs generalizing frame with
  | nil =>
      obtain ⟨pair, member, _⟩ := crossed
      cases member
  | cons pair others inductionHypothesis =>
      rw [List.flatMap_cons, List.append_assoc]
      by_cases ordered : pair.1 ≤ pair.2
      · have later : ∃ other ∈ others, ¬ other.1 ≤ other.2 := by
          obtain ⟨other, member, outOfOrder⟩ := crossed
          rcases List.mem_cons.mp member with same | behind
          · exact absurd ordered (same ▸ outOfOrder)
          · exact ⟨other, behind, outOfOrder⟩
        rw [spellsMember_interval ordered frame _ (flatMap_head interval_head others rest),
          inductionHypothesis later]
      · have read := readMember_interval pair
          (others.flatMap ClassText.interval ++ ']' :: rest)
        rw [if_neg ordered] at read
        obtain ⟨head, tail, shape, plain⟩ := interval_head pair
        rw [shape, List.cons_append] at read ⊢
        rw [readMembers_of_head plain, read]

theorem readAll_crossed {pairs : List (Char × Char)}
    (crossed : ∃ pair ∈ pairs, ¬ pair.1 ≤ pair.2) (rest : Text) :
    readAll ('[' :: (pairs.flatMap ClassText.interval ++ [']']) ++ rest) =
      .error .invertedRange := by
  have present : pairs ≠ [] := by
    intro empty
    obtain ⟨pair, member, _⟩ := crossed
    rw [empty] at member
    cases member
  have opened := openClass_of_plain interval_head false present (']' :: rest)
  have members := readMembers_crossed crossed ⟨false, none, []⟩ rest
  have failed :
      read '[' (pairs.flatMap ClassText.interval ++ [']'] ++ rest) = .error .invertedRange := by
    simp only [Bool.false_eq_true, if_false, List.nil_append] at opened
    simp only [read, List.append_assoc, List.cons_append, List.nil_append, readClass, opened,
      members]
  exact readAll_of_read_error failed

theorem unreadable_intervals {pairs : List (Char × Char)}
    (crossed : ∃ pair ∈ pairs, ¬ pair.1 ≤ pair.2) :
    Unreadable ('[' :: (pairs.flatMap ClassText.interval ++ [']'])) := by
  intro rest
  exact ⟨.invertedRange, readAll_crossed crossed rest⟩

end Lexeme
end ReadableRegex

import ReadableRegex.Proofs.Raw.Context
import ReadableRegex.Proofs.Raw.Extending
import ReadableRegex.Proofs.Trees.Repetition

/-!
Units as operands. A text of a single unit is one character or one escape; if it is a pattern and no
bar, it is read as one part, and still is in front of a quantifier.
-/

namespace ReadableRegex

namespace Text

theorem eq_nil_of_units {text : Text} (none : units text = []) : text = [] := by
  fun_cases units text with
  | case1 => rfl
  | case2 => simp only [units, reduceCtorEq] at none
  | case3 character rest plain =>
      rw [units] at none
      · cases none
      · exact plain

theorem single_of_units {text : Text} (single : (units text).length = 1) :
    ∃ character, text = [character] ∨ text = ['\\', character] := by
  fun_cases units text with
  | case1 => cases single
  | case2 escaped rest =>
      rw [units, List.length_cons, Nat.add_eq_right, List.length_eq_zero_iff] at single
      exact ⟨escaped, Or.inr (by rw [eq_nil_of_units single])⟩
  | case3 character rest plain =>
      rw [units, List.length_cons, Nat.add_eq_right, List.length_eq_zero_iff] at single
      · exact ⟨character, Or.inl (by rw [eq_nil_of_units single])⟩
      · exact plain

end Text

namespace Lexeme

variable {verbose : Bool} {text rest : Text}

theorem isEdgeChar_of_isDigit {digit : Char} (isDigit : digit.isDigit = true) :
    isEdgeChar digit = false := by
  have bounds : 48 ≤ digit.toNat ∧ digit.toNat ≤ 57 := by
    simpa [Char.isDigit, UInt32.le_iff_toNat_le] using isDigit
  have every : ∀ value : Fin 10, isEdgeChar (Char.ofNat (48 + value)) = false := by decide
  have same : digit = Char.ofNat (48 + (digit.toNat - 48)) := by
    rw [Nat.add_sub_cancel' bounds.1, Char.ofNat_toNat]
  rw [same]
  exact every ⟨digit.toNat - 48, by omega⟩

theorem namesNoEdge_quantifier (quantifier : Quantifier) (more : Text) :
    NamesNoEdge (quantifier.text ++ more) := by
  have counted (count : Nat) (rest : Text) :
      NamesNoEdge ('\x7b' :: (Text.decimal count ++ rest)) := by
    cases shape : Text.decimal count with
    | nil => exact absurd shape (Text.decimal_ne_nil _)
    | cons digit others =>
        have isDigit : digit.isDigit = true :=
          Text.isDigit_of_mem_decimal (shape ▸ List.mem_cons_self)
        simp [NamesNoEdge, readWordEdge, collect, isEdgeChar_of_isDigit isDigit]
  cases quantifier with
  | optional => rfl
  | oneOrMore => rfl
  | exactly count =>
      simp only [Quantifier.text, List.cons_append, List.append_assoc]
      exact counted count.toNat _
  | atLeast lower =>
      simp only [Quantifier.text, List.cons_append, List.append_assoc]
      exact counted lower.toNat _
  | between lower upper =>
      simp only [Quantifier.text, List.cons_append, List.append_assoc]
      exact counted lower.toNat _

/-- A character that is a part with nothing behind it does not look at what is behind it. -/
theorem read_of_part {character : Char} {part : Pattern}
    (first : read character [] = .ok (.part part, [])) (more : Text) :
    read character more = .ok (.part part, more) := by
  unfold read at first
  split at first
  · cases first
  · cases first
  · cases first
  · split at first
    · next set remaining found =>
        have closed := (openClass_suffix [] false).mem (mem_of_readMembers found)
        cases closed
    · cases first
  · cases first
  · cases first
  · cases first
  · cases first
  · cases first
  · cases first
    rfl
  · cases first
    rfl
  · cases first
    rfl
  · cases first
    rw [read]
    all_goals assumption

theorem readGroup_cases {lexeme : Lexeme} (group : readGroup text verbose = .ok (lexeme, rest)) :
    (∃ opening, lexeme = .opening opening) ∨ ∃ change, lexeme = .part (.modes change) := by
  unfold readGroup readOpening at group
  split at group
  case h_5 | h_6 =>
    unfold readGroupName at group
    split at group
    · cases group
    · dsimp only at group
      split at group
      · cases group
        exact Or.inl ⟨_, rfl⟩
      · cases group
  case h_7 =>
    unfold readModeGroup at group
    split at group
    · cases group
      exact Or.inl ⟨_, rfl⟩
    · cases group
    · cases group
      exact Or.inr ⟨_, rfl⟩
    · cases group
  case h_8 =>
    cases group
    exact Or.inl ⟨_, rfl⟩
  all_goals cases group

/-- A part that is read without a group has nothing in it that could be numbered, and switches no
modes. -/
theorem leaf_of_read {head : Char} {part : Pattern}
    (first : read head text verbose = .ok (.part part, rest)) :
    (∀ shift, part.renumber shift = part) ∧ (head ≠ '(' → ∀ change, part ≠ .modes change) := by
  unfold read at first
  split at first
  · rcases readGroup_cases first with ⟨opening, same⟩ | ⟨change, same⟩
    · cases same
    · cases same
      exact ⟨fun _ => rfl, fun other => absurd rfl other⟩
  · cases first
  · cases first
  · split at first
    · cases first
      exact ⟨fun _ => rfl, nofun⟩
    · cases first
  · cases first
  · cases first
  · cases first
  · split at first
    · cases first
    · cases first
  · split at first
    · next escape _ _ =>
        cases first
        cases escape with
        | _ => exact ⟨fun _ => rfl, nofun⟩
    · cases first
  · cases first
    exact ⟨fun _ => rfl, nofun⟩
  · cases first
    exact ⟨fun _ => rfl, nofun⟩
  · cases first
    exact ⟨fun _ => rfl, nofun⟩
  · cases first
    exact ⟨fun _ => rfl, nofun⟩

theorem renumber_of_readFrom {state : Verbosity} {lexemes : List Lexeme}
    (reading : readFrom state text = .ok lexemes) (shift : Nat) :
    ∀ part, .part part ∈ lexemes → part.renumber shift = part := by
  fun_induction readFrom state text generalizing lexemes with
  | case1 =>
      cases reading
      intro part member
      cases member
  | case2 state text head tail goesOn lexeme remaining first others later inductionHypothesis =>
      cases reading
      intro part member
      rcases List.mem_cons.mp member with rfl | further
      · exact (leaf_of_read first).1 shift
      · exact inductionHypothesis later part further
  | case3 => cases reading
  | case4 => cases reading

theorem bar_of_read {head : Char} (first : read head text = .ok (.bar, rest)) : head = '|' := by
  unfold read at first
  split at first
  · rcases readGroup_cases first with ⟨opening, same⟩ | ⟨change, same⟩ <;> cases same
  · cases first
  · rfl
  · split at first <;> cases first
  · cases first
  · cases first
  · cases first
  · split at first <;> cases first
  · split at first <;> cases first
  all_goals cases first

theorem part_of_read {head : Char} {tail : Text} {lexeme : Lexeme} {operand : Pattern}
    (first : read head tail = .ok (lexeme, [])) (noBar : head ≠ '|')
    (parsed : Pattern.ofText (head :: tail) = .ok operand) : lexeme = .part operand := by
  unfold Pattern.ofText at parsed
  have goesOn : resume Verbosity.quiet.here (head :: tail) = head :: tail := rfl
  rw [readAll, readFrom_of_read goesOn first, readFrom_nil] at parsed
  cases lexeme with
  | part part =>
      cases parsed
      rfl
  | opening opening =>
      cases opening with
      | plain change => cases parsed
      | capture name? => cases name? <;> cases parsed
  | closing => cases parsed
  | bar => exact absurd (bar_of_read first) noBar
  | quantifier counts => cases parsed

/-- An escape of one character looks for the name of a word edge at most. -/
theorem read_of_escape {character : Char} {lexeme : Lexeme}
    (first : read '\\' [character] = .ok (lexeme, rest)) :
    rest = [] ∧ ∀ more, NamesNoEdge more →
      read '\\' (character :: more) = .ok (lexeme, more) := by
  cases escaped : readEscape [character] with
  | error fault =>
      rw [read, escaped] at first
      cases first
  | ok result =>
      have whole : result.2 = [] := List.suffix_nil.mp (suffix_of_readEscape escaped)
      rw [read, escaped] at first
      cases first
      refine ⟨whole, ?_⟩
      intro more boundary
      have parted : Parted NamesNoEdge false result.2 more := by
        constructor
        · exact Or.inr ⟨rfl, boundary⟩
        · rw [whole]
          intro behind same
          cases same
      have longer := readEscape_append escaped (Or.inr parted)
      rw [whole] at longer
      simp only [List.singleton_append, List.nil_append] at longer
      rw [read, longer]

theorem part_of_unit {operand : Pattern} (single : (Text.units text).length = 1)
    (noBar : text ≠ ['|']) (parsed : Pattern.ofText text = .ok operand) :
    readAll text = .ok [.part operand] ∧ (∀ change, operand ≠ .modes change) ∧
      ∀ more, NamesNoEdge more →
        readAll (text ++ more) = (readAll more).map ([.part operand] ++ ·) := by
  obtain ⟨lexemes, reading, _⟩ := Pattern.Assembly.exists_of_ofText parsed
  have begins {head : Char} {tail : Text} :
      resume Verbosity.quiet.here (head :: tail) = head :: tail := rfl
  obtain ⟨character, rfl | rfl⟩ := Text.single_of_units single
  · obtain ⟨lexeme, rest, others, first, later, rfl⟩ := exists_of_readFrom begins reading
    cases List.suffix_nil.mp (suffix_of_read first)
    cases later.symm.trans (readFrom_nil _)
    cases part_of_read first (mt (congrArg ([·])) noBar) parsed
    have repeatable : ∀ change, operand ≠ .modes change := by
      refine (leaf_of_read first).2 ?_
      rintro rfl
      cases first
    refine ⟨reading, repeatable, ?_⟩
    intro more _
    exact readAll_of_read (read_of_part first more) (wakes_part repeatable)
  · obtain ⟨lexeme, rest, others, first, later, rfl⟩ := exists_of_readFrom begins reading
    obtain ⟨rfl, further⟩ := read_of_escape first
    cases later.symm.trans (readFrom_nil _)
    cases part_of_read first (by decide) parsed
    have repeatable := (leaf_of_read first).2 (by decide)
    refine ⟨reading, repeatable, ?_⟩
    intro more boundary
    exact readAll_of_read (further more boundary) (wakes_part repeatable)

end Lexeme
end ReadableRegex

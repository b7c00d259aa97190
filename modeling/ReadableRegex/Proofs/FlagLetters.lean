import ReadableRegex.FlagSet

/-!
Flag sets written as letters. Reading goes from the left and stops at the first character that is
no flag's letter; without such a character each flag is in the set exactly if its letter is in the
text, whatever the order and however often. Writing gives every letter once, in a fixed order.
-/

namespace ReadableRegex

namespace Flag

/-- The letters of the flags, in the order in which they are written. -/
def alphabet : List Char := ['g', 'i', 'm', 's', 'y']

theorem map_letter_all : all.map letter = alphabet := rfl

theorem letter_mem_alphabet (flag : Flag) : flag.letter ∈ alphabet := by
  cases flag <;> decide

theorem letter_injective {left right : Flag} (same : left.letter = right.letter) :
    left = right := by
  have read := ofLetter_letter left
  rw [same, ofLetter_letter right] at read
  exact (Except.ok.inj read).symm

theorem letter_mem_map_iff (flags : List Flag) (flag : Flag) :
    flag.letter ∈ flags.map letter ↔ flag ∈ flags := by
  constructor
  · intro member
    obtain ⟨other, present, same⟩ := List.mem_map.mp member
    rw [← letter_injective same]
    exact present
  · exact List.mem_map_of_mem

theorem exists_map_letter {text : Text} (known : ∀ letter ∈ text, letter ∈ alphabet) :
    ∃ flags : List Flag, flags.map letter = text := by
  induction text with
  | nil => exact ⟨[], rfl⟩
  | cons head tail inductionHypothesis =>
      obtain ⟨here, later⟩ := List.forall_mem_cons.mp known
      obtain ⟨flags, rest⟩ := inductionHypothesis later
      rw [← map_letter_all] at here
      obtain ⟨flag, _, first⟩ := List.mem_map.mp here
      exact ⟨flag :: flags, by rw [List.map_cons, first, rest]⟩

end Flag

namespace FlagSet

variable {text : Text}

/-! ### Reading -/

theorem foldlM_enableLetter (members : List Flag) (flags : FlagSet) :
    (members.map Flag.letter).foldlM enableLetter flags = .ok (members.foldl enable flags) := by
  induction members generalizing flags with
  | nil => rfl
  | cons first rest inductionHypothesis =>
      have here : flags.enableLetter first.letter = .ok (flags.enable first) := by
        rw [enableLetter, Flag.ofLetter_letter]
      rw [List.map_cons, List.foldlM_cons, here]
      exact inductionHypothesis (flags.enable first)

/-- What follows the first unknown letter is not looked at. -/
theorem foldlM_enableLetter_unknown {letter : Char} (unknown : letter ∉ Flag.alphabet)
    (members : List Flag) (behind : Text) (flags : FlagSet) :
    (members.map Flag.letter ++ letter :: behind).foldlM enableLetter flags =
      .error (.unknown letter) := by
  have refused (flags : FlagSet) : flags.enableLetter letter = .error (.unknown letter) := by
    rw [enableLetter, Flag.ofLetter_of_not_mem unknown]
  rw [List.foldlM_append, foldlM_enableLetter]
  show (letter :: behind).foldlM enableLetter (members.foldl enable flags) = _
  rw [List.foldlM_cons, refused]
  rfl

theorem known_or_exists_unknown (text : Text) :
    (∀ letter ∈ text, letter ∈ Flag.alphabet) ∨
      ∃ before letter behind, text = before ++ letter :: behind ∧
        (∀ other ∈ before, other ∈ Flag.alphabet) ∧ letter ∉ Flag.alphabet := by
  induction text with
  | nil => exact Or.inl (fun letter member => nomatch member)
  | cons head tail inductionHypothesis =>
      by_cases here : head ∈ Flag.alphabet
      · rcases inductionHypothesis with known | ⟨before, letter, behind, split, known, unknown⟩
        · exact Or.inl (List.forall_mem_cons.mpr ⟨here, known⟩)
        · refine Or.inr ⟨head :: before, letter, behind, congrArg (head :: ·) split, ?_, unknown⟩
          exact List.forall_mem_cons.mpr ⟨here, known⟩
      · exact Or.inr ⟨[], head, tail, rfl, fun other member => (nomatch member), here⟩

theorem ofLetters_of_unknown {before behind : Text} {letter : Char}
    (known : ∀ other ∈ before, other ∈ Flag.alphabet) (unknown : letter ∉ Flag.alphabet) :
    ofLetters (before ++ letter :: behind) = .error (.unknown letter) := by
  obtain ⟨members, rfl⟩ := Flag.exists_map_letter known
  exact foldlM_enableLetter_unknown unknown members behind empty

theorem exists_ofLetters (known : ∀ letter ∈ text, letter ∈ Flag.alphabet) :
    ∃ flags, ofLetters text = .ok flags := by
  obtain ⟨members, rfl⟩ := Flag.exists_map_letter known
  exact ⟨_, foldlM_enableLetter members empty⟩

theorem known_of_ofLetters {flags : FlagSet} (read : ofLetters text = .ok flags) :
    ∀ letter ∈ text, letter ∈ Flag.alphabet := by
  rcases known_or_exists_unknown text with known | ⟨before, letter, behind, rfl, known, unknown⟩
  · exact known
  · rw [ofLetters_of_unknown known unknown] at read
    cases read

theorem ofLetters_eq_error_iff (text : Text) (error : FlagError) :
    ofLetters text = .error error ↔
      ∃ before letter behind, text = before ++ letter :: behind ∧
        (∀ other ∈ before, other ∈ Flag.alphabet) ∧ letter ∉ Flag.alphabet ∧
        error = .unknown letter := by
  constructor
  · intro refused
    rcases known_or_exists_unknown text with known | ⟨before, letter, behind, rfl, known, unknown⟩
    · obtain ⟨flags, read⟩ := exists_ofLetters known
      rw [read] at refused
      cases refused
    · rw [ofLetters_of_unknown known unknown] at refused
      cases refused
      exact ⟨before, letter, behind, rfl, known, unknown, rfl⟩
  · rintro ⟨before, letter, behind, rfl, known, unknown, rfl⟩
    exact ofLetters_of_unknown known unknown

theorem ofLetters_eq_ok_iff (text : Text) (flags : FlagSet) :
    ofLetters text = .ok flags ↔
      (∀ letter ∈ text, letter ∈ Flag.alphabet) ∧
        (∀ flag : Flag, flags.has flag = decide (flag.letter ∈ text)) ∧
        flags.unknownBits = 0#8 := by
  have has (members : List Flag) (flag : Flag) : (members.foldl enable empty).has flag =
      decide (flag.letter ∈ members.map Flag.letter) := by
    rw [has_foldl_enable, has_empty, Bool.false_or, decide_eq_decide]
    exact (Flag.letter_mem_map_iff members flag).symm
  have unknown (members : List Flag) : (members.foldl enable empty).unknownBits = 0#8 :=
    unknownBits_foldl_enable members empty
  constructor
  · intro read
    have known := known_of_ofLetters read
    obtain ⟨members, rfl⟩ := Flag.exists_map_letter known
    cases read.symm.trans (foldlM_enableLetter members empty)
    exact ⟨known, has members, unknown members⟩
  · rintro ⟨known, same, none⟩
    obtain ⟨members, rfl⟩ := Flag.exists_map_letter known
    have equal : members.foldl enable empty = flags :=
      ext_of_has (fun flag => (has members flag).trans (same flag).symm)
        ((unknown members).trans none.symm)
    rw [← equal]
    exact foldlM_enableLetter members empty

/-! ### Writing -/

theorem letter_mem_letters_iff (flags : FlagSet) (flag : Flag) :
    flag.letter ∈ flags.letters ↔ flags.has flag = true := by
  rw [letters, Flag.letter_mem_map_iff, mem_toList_iff]

theorem mem_alphabet_of_mem_letters {flags : FlagSet} {letter : Char}
    (member : letter ∈ flags.letters) : letter ∈ Flag.alphabet := by
  obtain ⟨flag, _, rfl⟩ := List.mem_map.mp member
  exact Flag.letter_mem_alphabet flag

/-- The letters of a set that holds the flags of a text are those of the alphabet that are in the
text, in the order of the alphabet. -/
theorem letters_eq_filter {flags : FlagSet}
    (has : ∀ flag : Flag, flags.has flag = decide (flag.letter ∈ text)) :
    flags.letters = Flag.alphabet.filter (fun letter => decide (letter ∈ text)) := by
  have same : flags.has = (fun letter => decide (letter ∈ text)) ∘ Flag.letter := funext has
  rw [letters, toList, same, ← List.filter_map, Flag.map_letter_all]

theorem nodup_letters (flags : FlagSet) : flags.letters.Nodup := by
  have distinct : (Flag.all.map Flag.letter).Nodup := by decide
  exact distinct.sublist (List.filter_sublist.map Flag.letter)

def knownOnly (flags : FlagSet) : FlagSet := ⟨flags.bits &&& 0x1F#8⟩

theorem has_knownOnly (flags : FlagSet) (flag : Flag) :
    flags.knownOnly.has flag = flags.has flag := by
  have known : (0x1F#8).getLsbD flag.index = true := by cases flag <;> rfl
  rw [has, knownOnly, BitVec.getLsbD_and, known, Bool.and_true]
  rfl

theorem unknownBits_knownOnly (flags : FlagSet) : flags.knownOnly.unknownBits = 0#8 := by
  have apart : 0x1F#8 &&& 0xE0#8 = 0#8 := by decide
  rw [unknownBits, knownOnly, BitVec.and_assoc, apart, BitVec.and_zero]

theorem ofLetters_letters (flags : FlagSet) : ofLetters flags.letters = .ok flags.knownOnly := by
  rw [ofLetters_eq_ok_iff]
  refine ⟨fun letter => mem_alphabet_of_mem_letters, ?_, unknownBits_knownOnly flags⟩
  intro flag
  rw [has_knownOnly, Bool.eq_iff_iff, decide_eq_true_iff]
  exact (letter_mem_letters_iff flags flag).symm

/-- A text gives a flag set exactly if it has no character but the letters of flags, and otherwise
the first such character is reported. The set depends on which letters there are and on nothing
else; writing it gives each of them once, in the fixed order, and reading that gives the set back.
Bits of no flag are not written. -/
theorem letters_read_exactly :
    (∀ text, (∃ flags, ofLetters text = .ok flags) ↔
      ∀ letter ∈ text, letter ∈ ['g', 'i', 'm', 's', 'y']) ∧
    (∀ text error, ofLetters text = .error error ↔
      ∃ before letter behind, text = before ++ letter :: behind ∧
        (∀ other ∈ before, other ∈ ['g', 'i', 'm', 's', 'y']) ∧
        letter ∉ ['g', 'i', 'm', 's', 'y'] ∧ error = .unknown letter) ∧
    (∀ text flags, ofLetters text = .ok flags →
      (∀ flag : Flag, flags.has flag = true ↔ flag.letter ∈ text) ∧
      (∀ other : Text, (∀ letter, letter ∈ other ↔ letter ∈ text) → ofLetters other = .ok flags) ∧
      flags.letters =
        ['g', 'i', 'm', 's', 'y'].filter (fun letter => decide (letter ∈ text)) ∧
      flags.letters.Nodup ∧ ofLetters flags.letters = .ok flags) ∧
    ∀ flags : FlagSet, ofLetters flags.letters = .ok ⟨flags.bits &&& 0x1F#8⟩ := by
  refine ⟨?_, ofLetters_eq_error_iff, ?_, ofLetters_letters⟩
  · intro text
    constructor
    · rintro ⟨flags, read⟩
      exact known_of_ofLetters read
    · exact exists_ofLetters
  · intro text flags read
    obtain ⟨known, has, unknown⟩ := (ofLetters_eq_ok_iff text flags).mp read
    have whole : flags.knownOnly = flags :=
      ext_of_has (has_knownOnly flags) ((unknownBits_knownOnly flags).trans unknown.symm)
    refine ⟨?_, ?_, letters_eq_filter has, nodup_letters flags, ?_⟩
    · intro flag
      rw [has, decide_eq_true_iff]
    · intro other same
      apply (ofLetters_eq_ok_iff other flags).mpr
      refine ⟨fun letter member => known letter ((same letter).mp member), ?_, unknown⟩
      intro flag
      rw [has, decide_eq_decide]
      exact (same flag.letter).symm
    · rw [ofLetters_letters, whole]

/-- Letters in another order, one of them twice. -/
example : (ofLetters ['s', 'g', 'm', 's']).map letters = .ok ['g', 'm', 's'] := rfl

end FlagSet
end ReadableRegex

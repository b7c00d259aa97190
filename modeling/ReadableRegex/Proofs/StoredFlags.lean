import ReadableRegex.FlagSet.Record
import ReadableRegex.Proofs.Numeral

/-!
Stored flag sets are read back. The parts of the stored form have no bars and no blanks in them, so
dividing the text at the bars and taking the blanks off gives the parts again; each of them is read
as what it was written for, and together they are the set.
-/

namespace ReadableRegex

namespace Text

variable {text part behind : Text}

/-! ### Parts -/

theorem parts_of_not_mem {separator : Char} (free : separator ∉ text) :
    parts separator text = [text] := by
  induction text with
  | nil => rfl
  | cons head tail inductionHypothesis =>
      rw [List.mem_cons, not_or] at free
      obtain ⟨here, later⟩ := free
      rw [parts, if_neg (Ne.symm here), inductionHypothesis later]

theorem parts_append_cons {separator : Char} (free : separator ∉ text) (behind : Text) :
    parts separator (text ++ separator :: behind) = text :: parts separator behind := by
  induction text with
  | nil => rw [List.nil_append, parts, if_pos rfl]
  | cons head tail inductionHypothesis =>
      rw [List.mem_cons, not_or] at free
      obtain ⟨here, later⟩ := free
      rw [List.cons_append, parts, if_neg (Ne.symm here), inductionHypothesis later]

/-- A part without blanks and bars, so that it can stand between them. -/
structure IsSolid (part : Text) : Prop where
  present : part ≠ []
  inside : ∀ character ∈ part, Unicode.isBlank character = false ∧ character ≠ '|'

theorem IsSolid.of_all (present : part ≠ [])
    (all : part.all (fun character => !Unicode.isBlank character && character != '|') = true) :
    IsSolid part where
  present := present
  inside := by
    intro character member
    simpa using List.all_eq_true.mp all character member

theorem IsSolid.bar_not_mem (solid : part.IsSolid) : '|' ∉ part :=
  fun member => (solid.inside '|' member).2 rfl

theorem IsSolid.dropWhile_isBlank (solid : part.IsSolid) {front : Text}
    (blank : ∀ character ∈ front, Unicode.isBlank character = true) (behind : Text) :
    (front ++ (part ++ behind)).dropWhile Unicode.isBlank = part ++ behind := by
  rw [List.dropWhile_append_of_pos blank]
  cases part with
  | nil => exact absurd rfl solid.present
  | cons head tail =>
      have shown := (solid.inside head List.mem_cons_self).1
      exact List.dropWhile_cons_of_neg (Bool.not_eq_true _ ▸ shown)

theorem IsSolid.reverse (solid : part.IsSolid) : IsSolid part.reverse where
  present := mt List.reverse_eq_nil_iff.mp solid.present
  inside := fun character member => solid.inside character (List.mem_reverse.mp member)

theorem IsSolid.trim_eq (solid : part.IsSolid) {front : Text}
    (before : ∀ character ∈ front, Unicode.isBlank character = true)
    (after : ∀ character ∈ behind, Unicode.isBlank character = true) :
    trim (front ++ (part ++ behind)) = part := by
  have back : ∀ character ∈ behind.reverse, Unicode.isBlank character = true :=
    fun character member => after character (List.mem_reverse.mp member)
  have turned := solid.reverse.dropWhile_isBlank back []
  rw [List.append_nil] at turned
  rw [trim, solid.dropWhile_isBlank before, List.reverse_append, turned, List.reverse_reverse]

theorem IsSolid.trim_ne_nil (solid : part.IsSolid) (behind : Text) :
    trim (part ++ behind) ≠ [] := by
  have shown := solid.dropWhile_isBlank (List.forall_mem_nil _) behind
  rw [List.nil_append] at shown
  have turned := solid.reverse.dropWhile_isBlank (List.forall_mem_nil _) []
  rw [List.nil_append, List.append_nil] at turned
  rw [trim, shown, List.reverse_append, List.dropWhile_append, turned]
  split
  · rw [List.reverse_reverse]
    exact solid.present
  · rw [List.reverse_append, List.reverse_reverse]
    exact List.append_ne_nil_of_left_ne_nil solid.present _

/-- A row of parts with bars and blanks between them comes apart into its parts. A blank that was
left over in front does not matter. -/
theorem map_trim_parts {rest : List Text} (solid : part.IsSolid)
    (others : ∀ other ∈ rest, other.IsSolid) {front : Text} (free : '|' ∉ front)
    (blank : ∀ character ∈ front, Unicode.isBlank character = true) :
    (parts '|' (front ++ [' ', '|', ' '].intercalate (part :: rest))).map trim = part :: rest := by
  induction rest generalizing part front with
  | nil =>
      have whole : '|' ∉ front ++ part := by
        rw [List.mem_append, not_or]
        exact ⟨free, solid.bar_not_mem⟩
      have trimmed := solid.trim_eq blank (List.forall_mem_nil _)
      rw [List.append_nil] at trimmed
      rw [List.intercalate_singleton, parts_of_not_mem whole, List.map_singleton, trimmed]
  | cons next rest inductionHypothesis =>
      have here : '|' ∉ front ++ (part ++ [' ']) := by
        simp only [List.mem_append, List.mem_singleton, not_or]
        exact ⟨free, solid.bar_not_mem, by decide⟩
      have space : ∀ character ∈ [' '], Unicode.isBlank character = true :=
        List.forall_mem_singleton.mpr (by decide)
      obtain ⟨second, later⟩ := List.forall_mem_cons.mp others
      have split : front ++ [' ', '|', ' '].intercalate (part :: next :: rest) =
          (front ++ (part ++ [' '])) ++
            '|' :: ([' '] ++ [' ', '|', ' '].intercalate (next :: rest)) := by
        simp [List.intercalate_cons_cons]
      rw [split, parts_append_cons here, List.map_cons, solid.trim_eq blank space,
        inductionHypothesis second later (by decide) space]

end Text

namespace FlagSet

/-! ### Single parts -/

theorem isSolid_storedName (flag : Flag) : flag.storedName.IsSolid := by
  cases flag <;> exact .of_all (by decide) (by decide)

theorem ofStoredPart_storedName (flag : Flag) :
    ofStoredPart flag.storedName = .ok (single flag) := by
  cases flag <;> rfl

def storedNumber (bits : BitVec 8) : Text :=
  numberMark ++ Text.numeral 16 bits.toNat

theorem digit_signs (value : Fin 16) :
    Unicode.isBlank (Text.digitOf value) = false ∧ Text.digitOf value ≠ '|' ∧
      Text.digitOf value ≠ '+' := by
  have every : ∀ value : Fin 16, Unicode.isBlank (Text.digitOf value) = false ∧
      Text.digitOf value ≠ '|' ∧ Text.digitOf value ≠ '+' := by
    decide
  exact every value

theorem isSolid_storedNumber (bits : BitVec 8) : (storedNumber bits).IsSolid where
  present := List.cons_ne_nil _ _
  inside := by
    intro character member
    have mark : numberMark.IsSolid := .of_all (by decide) (by decide)
    rcases List.mem_append.mp member with front | digit
    · exact mark.inside character front
    · obtain ⟨value, small, rfl⟩ := Text.exists_digit_of_mem_numeral (by decide) digit
      have signs := digit_signs ⟨value, small⟩
      exact ⟨signs.1, signs.2.1⟩

theorem bitsOfDigits?_numeral (bits : BitVec 8) :
    bitsOfDigits? (Text.numeral 16 bits.toNat) = some bits := by
  have unsigned (rest : Text) : Text.numeral 16 bits.toNat ≠ '+' :: rest := by
    intro plus
    have member : '+' ∈ Text.numeral 16 bits.toNat := plus ▸ List.mem_cons_self
    obtain ⟨value, small, same⟩ := Text.exists_digit_of_mem_numeral (by decide) member
    exact (digit_signs ⟨value, small⟩).2.2 same.symm
  have small : bits.toNat < 256 := bits.isLt
  have read : Text.number? 16 (Text.numeral 16 bits.toNat) = some bits.toNat :=
    Text.number?_numeral (by decide) (by decide) _
  unfold bitsOfDigits?
  split
  · rename_i rest plus
    exact absurd plus (unsigned rest)
  · simp only [read, if_pos small, BitVec.ofNat_toNat, BitVec.setWidth_eq]

theorem ofStoredPart_storedNumber (bits : BitVec 8) :
    ofStoredPart (storedNumber bits) = .ok ⟨bits⟩ := by
  have present : (storedNumber bits).isEmpty = false := rfl
  have digits : Text.after? numberMark (storedNumber bits) =
      some (Text.numeral 16 bits.toNat) :=
    Text.after?_append numberMark _
  simp only [ofStoredPart, present, Bool.false_eq_true, if_false, digits, bitsOfDigits?_numeral]

/-! ### Rows of parts -/

theorem storedParts_eq (flags : FlagSet) :
    flags.storedParts = flags.toList.map Flag.storedName ++
      if flags.unknownBits = 0#8 then [] else [storedNumber flags.unknownBits] := rfl

theorem isSolid_of_mem_storedParts {flags : FlagSet} {part : Text}
    (member : part ∈ flags.storedParts) : part.IsSolid := by
  rw [storedParts_eq] at member
  rcases List.mem_append.mp member with name | number
  · obtain ⟨flag, _, rfl⟩ := List.mem_map.mp name
    exact isSolid_storedName flag
  · split at number
    · cases number
    · rw [List.mem_singleton.mp number]
      exact isSolid_storedNumber _

theorem foldlM_joinStoredPart (parts : List Text) (flags : FlagSet) :
    parts.foldlM joinStoredPart flags =
      (parts.map Text.trim).foldlM (fun flags part => (ofStoredPart part).map flags.union)
        flags := by
  have step : joinStoredPart =
      fun flags part => (ofStoredPart (Text.trim part)).map flags.union := by
    funext flags part
    rw [joinStoredPart]
    cases ofStoredPart (Text.trim part) <;> rfl
  rw [List.foldlM_map, step]

theorem foldlM_storedNames (members : List Flag) (flags : FlagSet) :
    (members.map Flag.storedName).foldlM (fun flags part => (ofStoredPart part).map flags.union)
      flags = .ok (members.foldl enable flags) := by
  induction members generalizing flags with
  | nil => rfl
  | cons first rest inductionHypothesis =>
      rw [List.map_cons, List.foldlM_cons, ofStoredPart_storedName]
      exact inductionHypothesis (flags.enable first)

theorem unknownBits_union (left right : FlagSet) :
    (left.union right).unknownBits = left.unknownBits ||| right.unknownBits := by
  rw [unknownBits, union, BitVec.and_comm, BitVec.and_or_distrib_left, BitVec.and_comm,
    BitVec.and_comm (0xE0#8)]
  rfl

theorem union_unknownBits (flags : FlagSet) :
    (flags.toList.foldl enable empty).union ⟨flags.unknownBits⟩ = flags := by
  apply ext_of_has
  · intro flag
    have apart : FlagSet.has ⟨flags.unknownBits⟩ flag = false := by
      have masked : (0xE0#8).getLsbD flag.index = false := by cases flag <;> rfl
      rw [has, unknownBits, BitVec.getLsbD_and, masked, Bool.and_false]
    rw [has_union, apart, has_foldl_enable, has_empty, Bool.false_or, Bool.or_false,
      Bool.eq_iff_iff, decide_eq_true_iff, mem_toList_iff]
  · have same : FlagSet.unknownBits ⟨flags.unknownBits⟩ = flags.unknownBits := by
      rw [unknownBits, unknownBits, BitVec.and_assoc, BitVec.and_self]
    rw [unknownBits_union, unknownBits_foldl_enable, same]
    exact BitVec.zero_or

theorem foldlM_storedParts (flags : FlagSet) :
    flags.storedParts.foldlM (fun flags part => (ofStoredPart part).map flags.union) empty =
      .ok flags := by
  have whole := union_unknownBits flags
  rw [storedParts_eq, List.foldlM_append, foldlM_storedNames]
  split
  · rename_i none
    rw [none] at whole
    have same : (flags.toList.foldl enable empty).union empty = flags.toList.foldl enable empty :=
      congrArg FlagSet.mk BitVec.or_zero
    exact congrArg Except.ok (same.symm.trans whole)
  · show ([storedNumber flags.unknownBits].foldlM
      (fun flags part => (ofStoredPart part).map flags.union) (flags.toList.foldl enable empty) :
        Except StoredFlagError FlagSet) = _
    rw [List.foldlM_cons, ofStoredPart_storedNumber]
    exact congrArg Except.ok whole

/-- The stored form of every set is read back, whatever its bits are. -/
theorem ofStored_stored (flags : FlagSet) : ofStored flags.stored = .ok flags := by
  have read := foldlM_storedParts flags
  have solid : ∀ part ∈ flags.storedParts, part.IsSolid :=
    fun _ => isSolid_of_mem_storedParts
  rw [stored, ofStored]
  cases shape : flags.storedParts with
  | nil =>
      rw [shape] at read
      exact read
  | cons part rest =>
      rw [shape] at read solid
      obtain ⟨first, others⟩ := List.forall_mem_cons.mp solid
      have apart := Text.map_trim_parts first others List.not_mem_nil (List.forall_mem_nil _)
      obtain ⟨behind, begins⟩ :
          ∃ behind, [' ', '|', ' '].intercalate (part :: rest) = part ++ behind := by
        cases rest with
        | nil => exact ⟨[], by rw [List.intercalate_singleton, List.append_nil]⟩
        | cons next others =>
            exact ⟨_, by rw [List.intercalate_cons_cons, List.append_assoc]⟩
      have shown := first.trim_ne_nil behind
      rw [← begins] at shown
      rw [List.nil_append] at apart
      rw [if_neg (mt List.isEmpty_iff.mp shown), foldlM_joinStoredPart, apart]
      exact read

end FlagSet
end ReadableRegex

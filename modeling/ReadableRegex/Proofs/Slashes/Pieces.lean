import ReadableRegex.Proofs.Slashes.Protecting
import ReadableRegex.Proofs.Raw.Pieces

/-!
Gaps, escapes, bounds and group openings of a protected text. A piece of this kind holds whole units
of the text, and a slash in it only behind a backslash: it is read as it is in the text, and what is
left over is the protected rest.

A gap holds whole units too, since the character behind a backslash in a comment may well be the end
of its line. Only a comment that ends the text can leave a backslash with nothing behind it.
-/

namespace ReadableRegex

open Slashed (protect)
open Text (IsPlain)

namespace Lexeme

variable {verbose inComment : Bool} {sign : Char} {text signs rest : Text}

/-! ### Gaps -/

theorem pastGap_protect (inComment : Bool) (text : Text) :
    pastGap inComment (protect text) = protect (pastGap inComment text) := by
  induction text using Slashed.unitInduction generalizing inComment with
  | nil => rfl
  | dangling => cases inComment <;> rfl
  | escape character rest inductionHypothesis =>
      cases inComment with
      | true => exact inductionHypothesis (character != '\n')
      | false => rfl
  | slash rest inductionHypothesis =>
      cases inComment with
      | true => exact inductionHypothesis true
      | false => rfl
  | plain character rest plain inductionHypothesis =>
      rw [Slashed.protect_cons plain]
      unfold pastGap
      split
      · exact inductionHypothesis _
      · split
        · exact inductionHypothesis true
        · split
          · exact inductionHypothesis false
          · exact (Slashed.protect_cons plain rest).symm

theorem resume_protect (verbose : Bool) (text : Text) :
    resume verbose (protect text) = protect (resume verbose text) := by
  cases verbose with
  | true => exact pastGap_protect false text
  | false => rfl

theorem leaves_of_pastGap (goesOn : pastGap inComment text = sign :: rest) :
    text.Leaves (sign :: rest) := by
  induction text using Slashed.unitInduction generalizing inComment with
  | nil => cases goesOn
  | dangling =>
      cases inComment <;> cases goesOn
      exact .all _
  | escape character tail inductionHypothesis =>
      cases inComment with
      | true => exact .escape character (inductionHypothesis goesOn)
      | false =>
          cases goesOn
          exact .all _
  | slash tail inductionHypothesis =>
      cases inComment with
      | true => exact .single (by decide) (inductionHypothesis goesOn)
      | false =>
          cases goesOn
          exact .all _
  | plain character tail plain inductionHypothesis =>
      unfold pastGap at goesOn
      split at goesOn
      · exact .single plain.2 (inductionHypothesis goesOn)
      · split at goesOn
        · exact .single plain.2 (inductionHypothesis goesOn)
        · split at goesOn
          · exact .single plain.2 (inductionHypothesis goesOn)
          · cases goesOn
            exact .all _

theorem leaves_of_resume (goesOn : resume verbose text = sign :: rest) :
    text.Leaves (sign :: rest) := by
  cases verbose with
  | true => exact leaves_of_pastGap goesOn
  | false =>
      cases goesOn
      exact .all _

theorem leaves_resume (present : resume verbose text ≠ []) :
    text.Leaves (resume verbose text) := by
  cases goesOn : resume verbose text with
  | nil => exact absurd goesOn present
  | cons sign rest => exact leaves_of_resume goesOn

theorem resume_protect_of_isPlain (goesOn : resume verbose text = sign :: rest)
    (plain : IsPlain sign) : resume verbose (protect text) = sign :: protect rest := by
  rw [resume_protect, goesOn, Slashed.protect_cons plain]

/-! ### Signs with gaps between them -/

/-- Plain signs are found between the same gaps, if what is left ends them with slashes protected
too. -/
theorem collect_protect {test : Char → Bool} {text signs rest : Text}
    (collected : collect verbose test text = (signs, rest))
    (plain : ∀ sign ∈ signs, IsPlain sign)
    (stops : ∀ first behind, protect rest = first :: behind → ¬ test first = true) :
    (rest ≠ [] → text.Leaves rest) ∧
      collect verbose test (protect text) = (signs, protect rest) := by
  cases goesOn : resume verbose text with
  | nil =>
      rw [collect_of_resume_nil goesOn] at collected
      cases collected
      have ends : resume verbose (protect text) = [] := by rw [resume_protect, goesOn]; rfl
      exact ⟨fun present => absurd rfl present, collect_of_resume_nil ends⟩
  | cons head tail =>
      have leaves := leaves_of_resume goesOn
      rw [collect_cons test goesOn] at collected
      split at collected
      · next passes =>
          cases collected
          obtain ⟨first, others⟩ := List.forall_mem_cons.mp plain
          have _shorter := length_lt_of_resume goesOn
          obtain ⟨later, same⟩ := collect_protect rfl others stops
          rw [collect_cons test (resume_protect_of_isPlain goesOn first), if_pos passes, same]
          exact ⟨fun present => leaves.past first (later present), rfl⟩
      · next fails =>
          cases collected
          obtain ⟨first, behind, shape, _⟩ := Slashed.exists_protect_cons head tail
          have begins : resume verbose (protect text) = first :: behind := by
            rw [resume_protect, goesOn, shape]
          rw [collect_cons test begins, if_neg (stops first behind shape), shape]
          exact ⟨fun _ => leaves, rfl⟩
termination_by text.length

theorem collect_protect_of_test {test : Char → Bool} (slash : test '/' = false)
    (backslash : test '\\' = false) (collected : collect verbose test text = (signs, rest)) :
    (rest ≠ [] → text.Leaves rest) ∧
      collect verbose test (protect text) = (signs, protect rest) := by
  obtain ⟨passes, fails⟩ := collect_spec collected
  apply collect_protect collected
  · intro sign member
    exact Slashed.isPlain_of_test test slash backslash (passes sign member)
  · intro first behind begins
    cases rest with
    | nil => cases begins
    | cons head tail =>
        obtain ⟨sign, others, shape, signs⟩ := Slashed.exists_protect_cons head tail
        obtain ⟨rfl, _⟩ := List.cons.inj (shape.symm.trans begins)
        rcases signs with rfl | rfl
        · exact fails sign tail rfl
        · exact Bool.eq_false_iff.mp backslash

theorem collect_protect_upTo {closing first : Char} (ends : IsPlain closing)
    (collected : collect verbose (· != closing) text = (signs, first :: rest))
    (plain : ∀ sign ∈ signs, IsPlain sign) :
    text.Leaves rest ∧
      collect verbose (· != closing) (protect text) = (signs, first :: protect rest) := by
  have same : first = closing := by
    have failed := (collect_spec collected).2 first rest rfl
    simpa using failed
  subst same
  have shape := Slashed.protect_cons ends rest
  obtain ⟨leaves, found⟩ := collect_protect collected plain (by simp [shape])
  rw [shape] at found
  exact ⟨(leaves (List.cons_ne_nil _ _)).past ends (.all rest), found⟩

theorem takeSigns?_protect {count : Nat} (taken : takeSigns? verbose count text = some (signs, rest))
    (plain : ∀ sign ∈ signs, IsPlain sign) :
    text.Leaves rest ∧ takeSigns? verbose count (protect text) = some (signs, protect rest) := by
  induction count generalizing text signs with
  | zero =>
      cases taken
      exact ⟨.all _, rfl⟩
  | succ count inductionHypothesis =>
      rw [takeSigns?] at taken
      split at taken
      · cases taken
      · next goesOn =>
          obtain ⟨⟨others, remaining⟩, later, shape⟩ := Option.map_eq_some_iff.mp taken
          cases shape
          obtain ⟨first, further⟩ := List.forall_mem_cons.mp plain
          obtain ⟨leaves, same⟩ := inductionHypothesis later further
          rw [takeSigns?, resume_protect_of_isPlain goesOn first]
          exact ⟨(leaves_of_resume goesOn).past first leaves,
            congrArg (Option.map _) same⟩

/-! ### Escapes -/

theorem isPlain_of_digitValue? {base value : Nat} {digit : Char}
    (known : Text.digitValue? base digit = some value) : IsPlain digit := by
  constructor
  · rintro rfl
    simp [Text.digitValue?] at known
  · rintro rfl
    simp [Text.digitValue?] at known

theorem isPlain_of_numberFrom? {base accumulated value : Nat} {digits : Text}
    (known : Text.numberFrom? base accumulated digits = some value) :
    ∀ digit ∈ digits, IsPlain digit := by
  induction digits generalizing accumulated with
  | nil => exact List.forall_mem_nil _
  | cons digit others inductionHypothesis =>
      unfold Text.numberFrom? at known
      split at known
      · next first =>
          exact List.forall_mem_cons.mpr ⟨isPlain_of_digitValue? first, inductionHypothesis known⟩
      · cases known

theorem isPlain_of_charOfHex? {digits : Text} {character : Char}
    (read : charOfHex? digits = some character) : ∀ digit ∈ digits, IsPlain digit := by
  unfold charOfHex? Text.number? at read
  split at read
  · next value known =>
      split at known
      · cases known
      · exact isPlain_of_numberFrom? known
  · cases read

theorem readFixedHex_protect {count : Nat} {character : Char}
    (read : readFixedHex count text verbose = .ok (character, rest)) :
    text.Leaves rest ∧
      readFixedHex count (protect text) verbose = .ok (character, protect rest) := by
  unfold readFixedHex at read
  split at read
  · cases read
  · next taken =>
      split at read
      · next known =>
          cases read
          obtain ⟨leaves, same⟩ := takeSigns?_protect taken (isPlain_of_charOfHex? known)
          refine ⟨leaves, ?_⟩
          simp only [readFixedHex, same, known]
      · cases read

theorem readBracedHex_protect {character : Char}
    (read : readBracedHex text verbose = .ok (character, rest)) :
    text.Leaves rest ∧ readBracedHex (protect text) verbose = .ok (character, protect rest) := by
  unfold readBracedHex at read
  split at read
  · cases read
  · next collected =>
      split at read
      · next known =>
          cases read
          obtain ⟨leaves, same⟩ :=
            collect_protect_upTo (by decide) collected (isPlain_of_charOfHex? known)
          refine ⟨leaves, ?_⟩
          simp only [readBracedHex, same, known]
      · cases read

theorem readHex_protect {count : Nat} {escape : Escape}
    (positive : 0 < count) (read : readHex count text verbose = .ok (escape, rest)) :
    text.Leaves rest ∧ readHex count (protect text) verbose = .ok (escape, protect rest) := by
  unfold readHex at read
  split at read
  · next goesOn =>
      split at read
      · next character remaining braced =>
          cases read
          obtain ⟨leaves, same⟩ := readBracedHex_protect braced
          refine ⟨(leaves_of_resume goesOn).past (by decide) leaves, ?_⟩
          simp only [readHex, resume_protect_of_isPlain goesOn (by decide), same]
      · cases read
  · next start other =>
      split at read
      · next character remaining fixed =>
          obtain ⟨leaves, same⟩ := readFixedHex_protect fixed
          have present : resume verbose text ≠ [] := by
            intro ends
            rw [ends, readFixedHex_nil positive] at fixed
            cases fixed
          have whole := (leaves_resume present).trans leaves
          unfold readHex
          rw [resume_protect]
          split
          · next behind begins =>
              exact absurd begins (Slashed.protect_ne_cons (by decide) other behind)
          · simp only [same]
            split at read
            · next big =>
                cases read
                exact ⟨whole, if_pos big⟩
            · next small =>
                cases read
                exact ⟨whole, if_neg small⟩
      · cases read

theorem readWordEdge_protect {edge : WordEdge}
    (read : readWordEdge text verbose = .ok (edge, rest)) :
    text.Leaves rest ∧ readWordEdge (protect text) verbose = .ok (edge, protect rest) := by
  have slash : isEdgeChar '/' = false := by decide
  have backslash : isEdgeChar '\\' = false := by decide
  unfold readWordEdge at read
  split at read
  · rw [Slashed.protect_cons (by decide)]
    split at read
    · next collected =>
        cases read
        obtain ⟨-, same⟩ := collect_protect_of_test slash backslash collected
        refine ⟨.all _, ?_⟩
        simp only [readWordEdge, same, Slashed.protect_cons (show IsPlain '\x7b' by decide)]
    · next collected =>
        obtain ⟨leaves, same⟩ := collect_protect_of_test slash backslash collected
        rw [Slashed.protect_cons (by decide)] at same
        split at read
        · next named =>
            cases read
            have closing := (leaves (List.cons_ne_nil _ _)).past (by decide) (.all _)
            refine ⟨.single (by decide) closing, ?_⟩
            simp only [readWordEdge, same, named]
        · cases read
    · cases read
  · next other =>
      cases read
      refine ⟨.all _, ?_⟩
      rw [readWordEdge]
      exact Slashed.protect_ne_cons (by decide) other

theorem propertyNamed_protect {negated : Bool} {name behind : Text} {escape : Escape}
    (named : propertyNamed name negated behind = .ok (escape, rest)) :
    (∀ sign ∈ name, IsPlain sign) ∧ rest = behind ∧
      propertyNamed name negated (protect behind) = .ok (escape, protect rest) := by
  unfold propertyNamed at named ⊢
  split at named
  · next signs =>
      cases named
      refine ⟨?_, rfl, if_pos signs⟩
      intro sign member
      exact Slashed.isPlain_of_test isPropertySign (by decide) (by decide)
        (List.all_eq_true.mp signs sign member)
  · cases named

theorem readProperty_protect {negated : Bool} {escape : Escape}
    (read : readProperty negated text verbose = .ok (escape, rest)) :
    text.Leaves rest ∧ readProperty negated (protect text) verbose = .ok (escape, protect rest) := by
  unfold readProperty at read
  split at read
  · cases read
  · next goesOn =>
      split at read
      · cases read
      · next collected =>
          obtain ⟨plain, rfl, same⟩ := propertyNamed_protect read
          obtain ⟨leaves, found⟩ := collect_protect_upTo (by decide) collected plain
          refine ⟨(leaves_of_resume goesOn).past (by decide) leaves, ?_⟩
          simp only [readProperty, resume_protect_of_isPlain goesOn (by decide), found, same]
  · next sign behind other goesOn =>
      obtain ⟨plain, rfl, same⟩ := propertyNamed_protect read
      have alone := plain sign List.mem_cons_self
      refine ⟨(leaves_of_resume goesOn).past alone (.all _), ?_⟩
      unfold readProperty
      rw [resume_protect_of_isPlain goesOn alone]
      split
      · next none => cases none
      · next shape =>
          cases shape
          exact absurd rfl other
      · next shape =>
          cases shape
          exact same

/-- The character behind a backslash is never protected again. -/
theorem readEscape_protect {escape : Escape} {character : Char}
    (read : readEscape (character :: text) verbose = .ok (escape, rest)) :
    text.Leaves rest ∧
      readEscape (character :: protect text) verbose = .ok (escape, protect rest) := by
  unfold readEscape at read
  split at read
  · next none => cases none
  · next same =>
      cases same
      exact readHex_protect (by decide) read
  · next same =>
      cases same
      exact readHex_protect (by decide) read
  · next same =>
      cases same
      exact readHex_protect (by decide) read
  · next same =>
      cases same
      split at read
      · next edge remaining word =>
          cases read
          obtain ⟨leaves, longer⟩ := readWordEdge_protect word
          refine ⟨leaves, ?_⟩
          simp only [readEscape, longer]
      · cases read
  · next same =>
      cases same
      exact readProperty_protect read
  · next same =>
      cases same
      exact readProperty_protect read
  · next same =>
      cases same
      split at read
      · next plain =>
          cases read
          refine ⟨.all _, ?_⟩
          rw [readEscape, if_pos plain] <;> assumption
      · next special =>
          split at read
          · cases read
          · next letter =>
              split at read
              · next found named =>
                  cases read
                  refine ⟨.all _, ?_⟩
                  rw [readEscape, if_neg special, if_neg letter, named] <;> assumption
              · cases read

/-! ### Bounds -/

theorem dropWhile_isBlank_protect (text : Text) :
    text.Leaves (text.dropWhile Unicode.isBlank) ∧
      (protect text).dropWhile Unicode.isBlank = protect (text.dropWhile Unicode.isBlank) := by
  obtain ⟨leaves, -, same⟩ := Slashed.span_protect Unicode.isBlank (by decide) (by decide) text
  exact ⟨leaves, same⟩

/-- A count that ends the text may end in a comment. -/
theorem readCount_protect {count : Nat}
    (read : readCount text verbose = .ok (count, sign :: rest)) :
    text.Leaves (sign :: rest) ∧
      readCount (protect text) verbose = .ok (count, protect (sign :: rest)) := by
  obtain ⟨blanks, begins⟩ := dropWhile_isBlank_protect (resume verbose text)
  simp only [readCount, resume_protect, begins] at read ⊢
  cases collected : collect verbose Char.isDigit ((resume verbose text).dropWhile Unicode.isBlank)
    with
  | mk digits behind =>
      obtain ⟨found, same⟩ := collect_protect_of_test (by decide) (by decide) collected
      obtain ⟨later, remains⟩ := dropWhile_isBlank_protect behind
      simp only [collected, same, remains] at read ⊢
      split at read
      · cases read
      · split at read
        · next small =>
            injection read with shape
            obtain ⟨rfl, left⟩ := Prod.mk.inj shape
            rw [left] at later ⊢
            have present : behind ≠ [] := by
              rintro rfl
              cases left
            have starts : resume verbose text ≠ [] := by
              intro ends
              rw [ends, List.dropWhile_nil] at collected
              cases verbose <;> cases collected <;> exact present rfl
            have digitsLeave := blanks.trans ((found present).trans later)
            exact ⟨(leaves_resume starts).trans digitsLeave, if_pos small⟩
        · cases read

theorem readGreed_protect (text : Text) (verbose : Bool) :
    text.Leaves (readGreed text verbose).2 ∧
      readGreed (protect text) verbose =
        ((readGreed text verbose).1, protect (readGreed text verbose).2) := by
  unfold readGreed
  split
  · next goesOn =>
      rw [resume_protect_of_isPlain goesOn (by decide)]
      exact ⟨(leaves_of_resume goesOn).past (by decide) (.all _), rfl⟩
  · next other =>
      refine ⟨.all _, ?_⟩
      rw [resume_protect]
      split
      · next behind begins =>
          exact absurd begins (Slashed.protect_ne_cons (by decide) other behind)
      · rfl

theorem finishCounts_protect {lower : Nat} {upper : Option Nat} {counts : Counts}
    (finished : finishCounts lower upper text verbose = (counts, rest)) :
    text.Leaves rest ∧
      finishCounts lower upper (protect text) verbose = (counts, protect rest) := by
  obtain ⟨leaves, same⟩ := readGreed_protect text verbose
  unfold finishCounts at finished ⊢
  rw [same]
  cases finished
  exact ⟨leaves, rfl⟩

theorem readUpper_protect {lower : Nat} {counts : Counts}
    (read : readUpper lower text verbose = .ok (counts, rest)) :
    text.Leaves rest ∧ readUpper lower (protect text) verbose = .ok (counts, protect rest) := by
  unfold readUpper at read
  split at read
  · next counted =>
      obtain ⟨leaves, same⟩ := readCount_protect counted
      rw [Slashed.protect_cons (by decide)] at same
      split at read
      · next ordered =>
          injection read with result
          obtain ⟨finished, ends⟩ := finishCounts_protect result
          refine ⟨leaves.past (by decide) finished, ?_⟩
          simp only [readUpper, same, if_pos ordered, ends]
      · cases read
  · cases read
  · cases read

theorem readUpper_nil (lower : Nat) : readUpper lower [] verbose = .error .badCount := by
  rw [readUpper, readCount_nil]

theorem readCounts_protect {counts : Counts} (read : readCounts text verbose = .ok (counts, rest)) :
    text.Leaves rest ∧ readCounts (protect text) verbose = .ok (counts, protect rest) := by
  unfold readCounts at read
  split at read
  · next counted =>
      obtain ⟨leaves, same⟩ := readCount_protect counted
      rw [Slashed.protect_cons (by decide)] at same
      injection read with result
      obtain ⟨finished, ends⟩ := finishCounts_protect result
      refine ⟨leaves.past (by decide) finished, ?_⟩
      simp only [readCounts, same, ends]
  · next behind counted =>
      obtain ⟨leaves, same⟩ := readCount_protect counted
      have comma := leaves.past (by decide) (.all _)
      rw [Slashed.protect_cons (by decide)] at same
      split at read
      · next goesOn =>
          injection read with result
          obtain ⟨finished, ends⟩ := finishCounts_protect result
          have closing := (leaves_of_resume goesOn).past (by decide) finished
          refine ⟨comma.trans closing, ?_⟩
          simp only [readCounts, same, resume_protect_of_isPlain goesOn (by decide), ends]
      · next other =>
          obtain ⟨finished, ends⟩ := readUpper_protect read
          have present : resume verbose behind ≠ [] := by
            intro ends
            rw [ends, readUpper_nil] at read
            cases read
          refine ⟨comma.trans ((leaves_resume present).trans finished), ?_⟩
          unfold readCounts
          simp only [same, resume_protect]
          split
          · next begins =>
              exact absurd begins (Slashed.protect_ne_cons (by decide) other _)
          · exact ends
  · cases read
  · cases read

/-! ### Group openings -/

theorem readModes_protect {reading : ModeReading} {change : ModeChange} {opens : Bool}
    (read : readModes reading text = .ok (change, opens, rest)) :
    text.Leaves rest ∧ readModes reading (protect text) = .ok (change, opens, protect rest) := by
  fun_induction readModes reading text with
  | case1 => cases read
  | case2 => cases read
  | case3 reading behind complete =>
      cases read
      rw [Slashed.protect_cons (by decide)]
      exact ⟨.single (by decide) (.all _), if_neg complete⟩
  | case4 => cases read
  | case5 reading behind complete =>
      cases read
      rw [Slashed.protect_cons (by decide)]
      exact ⟨.single (by decide) (.all _), if_neg complete⟩
  | case6 => cases read
  | case7 reading behind positive inductionHypothesis =>
      obtain ⟨leaves, same⟩ := inductionHypothesis read
      rw [Slashed.protect_cons (by decide)]
      refine ⟨.single (by decide) leaves, ?_⟩
      rw [readModes, if_neg positive, same]
  | case8 => cases read
  | case9 => cases read
  | case10 reading letter behind colon parenthesis hyphen mode known fresh inductionHypothesis =>
      obtain ⟨leaves, same⟩ := inductionHypothesis read
      have plain : IsPlain letter := by
        constructor <;> rintro rfl <;> cases known
      rw [Slashed.protect_cons plain]
      refine ⟨.single plain.2 leaves, ?_⟩
      rw [readModes]
      · simp only [known]
        rw [if_neg fresh, same]
      all_goals assumption

theorem readModeGroup_protect {lexeme : Lexeme}
    (read : readModeGroup text = .ok (lexeme, rest)) :
    text.Leaves rest ∧ readModeGroup (protect text) = .ok (lexeme, protect rest) := by
  unfold readModeGroup at read
  split at read
  · next modes =>
      cases read
      obtain ⟨leaves, same⟩ := readModes_protect modes
      refine ⟨leaves, ?_⟩
      simp only [readModeGroup, same]
  · cases read
  · next change remaining some modes =>
      cases read
      obtain ⟨leaves, same⟩ := readModes_protect modes
      refine ⟨leaves, ?_⟩
      cases change with
      | nil => exact (some rfl).elim
      | cons first others => simp only [readModeGroup, same]
  · cases read

theorem isPlain_of_isGroupName {name : Text} (named : isGroupName name = true) :
    ∀ character ∈ name, IsPlain character := by
  cases name with
  | nil => exact List.forall_mem_nil _
  | cons first others =>
      obtain ⟨letter, further⟩ := Bool.and_eq_true_iff.mp named
      refine List.forall_mem_cons.mpr ⟨?_, ?_⟩
      · exact Slashed.isPlain_of_test (fun first => first == '_' || Unicode.isLetter first)
          (by decide +kernel) (by decide +kernel) letter
      · intro character member
        exact Slashed.isPlain_of_test
          (fun character => Unicode.isAlphanumeric character || character ∈ ['_', '.', '[', ']'])
          (by decide +kernel) (by decide +kernel) (List.all_eq_true.mp further character member)

theorem readGroupName_protect {lexeme : Lexeme} (read : readGroupName text = .ok (lexeme, rest)) :
    text.Leaves rest ∧ readGroupName (protect text) = .ok (lexeme, protect rest) := by
  unfold readGroupName at read
  split at read
  · cases read
  · next closing behind stops =>
      dsimp only at read
      split at read
      · next named =>
          cases read
          obtain ⟨leaves, run, remains⟩ :=
            Slashed.upTo_protect (by decide) (isPlain_of_isGroupName named) stops
          refine ⟨leaves, ?_⟩
          simp only [readGroupName, run, remains, if_pos named]
      · cases read

theorem readOpening_protect {lexeme : Lexeme} (read : readOpening text = .ok (lexeme, rest)) :
    text.Leaves rest ∧ readOpening (protect text) = .ok (lexeme, protect rest) := by
  unfold readOpening at read
  split at read
  · cases read
  · cases read
  · cases read
  · cases read
  · obtain ⟨leaves, same⟩ := readGroupName_protect read
    refine ⟨.single (by decide) (.single (by decide) (.single (by decide) leaves)), ?_⟩
    rw [Slashed.protect_cons (by decide), Slashed.protect_cons (by decide),
      Slashed.protect_cons (by decide)]
    exact same
  · next name notAhead notBehind =>
      obtain ⟨leaves, same⟩ := readGroupName_protect read
      refine ⟨.single (by decide) (.single (by decide) leaves), ?_⟩
      rw [Slashed.protect_cons (by decide), Slashed.protect_cons (by decide), readOpening]
      · exact same
      · exact Slashed.protect_ne_cons (by decide) notAhead
      · exact Slashed.protect_ne_cons (by decide) notBehind
  · next change notAhead notAfter _ _ notNamed notCapture =>
      obtain ⟨leaves, same⟩ := readModeGroup_protect read
      have noCapture := Slashed.protect_ne_cons (by decide) notCapture
      refine ⟨.single (by decide) leaves, ?_⟩
      rw [Slashed.protect_cons (by decide), readOpening]
      · exact same
      · exact Slashed.protect_ne_cons (by decide) notAhead
      · exact Slashed.protect_ne_cons (by decide) notAfter
      · exact fun _ => noCapture _
      · exact fun _ => noCapture _
      · exact Slashed.protect_ne_pair (by decide) notNamed
      · exact noCapture
  · next unmarked =>
      cases read
      refine ⟨.all _, readGroup_of_detached ?_⟩
      intro marked
      obtain ⟨behind, begins⟩ := List.head?_eq_some_iff.mp marked
      exact Slashed.protect_ne_cons (by decide) unmarked behind begins

theorem eq_of_readOpening_nil {lexeme : Lexeme} (read : readOpening [] = .ok (lexeme, rest)) :
    lexeme = .opening (.capture none) ∧ rest = [] := by
  cases read
  exact ⟨rfl, rfl⟩

/-- The comment behind a parenthesis that ends the text is the only one that a lexeme takes along. -/
theorem readGroup_protect {lexeme : Lexeme} (read : readGroup text verbose = .ok (lexeme, rest)) :
    (text.Leaves rest ∨ verbose = true ∧ lexeme = .opening (.capture none) ∧ rest = []) ∧
      readGroup (protect text) verbose = .ok (lexeme, protect rest) := by
  unfold readGroup at read ⊢
  rw [resume_protect]
  obtain ⟨leaves, same⟩ := readOpening_protect read
  refine ⟨?_, same⟩
  cases goesOn : resume verbose text with
  | nil =>
      rw [goesOn] at read leaves
      obtain ⟨capture, rfl⟩ := eq_of_readOpening_nil read
      cases verbose with
      | true => exact Or.inr ⟨rfl, capture, rfl⟩
      | false =>
          cases goesOn
          exact Or.inl leaves
  | cons sign behind =>
      rw [goesOn] at leaves
      exact Or.inl ((leaves_of_resume goesOn).trans leaves)

end Lexeme
end ReadableRegex

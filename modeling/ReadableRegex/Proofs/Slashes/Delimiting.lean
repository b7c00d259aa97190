import ReadableRegex.Proofs.FlagLetters
import ReadableRegex.Proofs.Slashes.Classes

/-!
Expressions between slashes. Every lexeme of a pattern holds whole units of its text, and protecting
slashes changes none of the lexemes. A backslash is left over at the end of a pattern only if verbose
mode is on there: a comment may end in one.
-/

namespace ReadableRegex

open Slashed (protect)
open Text (IsPlain EscapesNext)

namespace Lexeme

variable {verbose : Bool} {text rest : Text}

theorem readSign_protect {lower : Nat} {upper : Option Nat} {lexeme : Lexeme}
    (read : readSign lower upper text = .ok (lexeme, rest)) :
    text.Leaves rest ∧ readSign lower upper (protect text) = .ok (lexeme, protect rest) := by
  obtain ⟨leaves, same⟩ := finishCounts_protect (Eq.refl (finishCounts lower upper text))
  unfold readSign at read ⊢
  rw [same]
  cases read
  exact ⟨leaves, rfl⟩

/-- In verbose mode the parenthesis of a capture takes along the comment that ends the text. -/
def EndsInCapture (verbose : Bool) (lexeme : Lexeme) (rest : Text) : Prop :=
  verbose = true ∧ lexeme = .opening (.capture none) ∧ rest = []

theorem read_protect_of_isPlain {head : Char} (plain : IsPlain head) {lexeme : Lexeme}
    (first : read head text verbose = .ok (lexeme, rest)) :
    (text.Leaves rest ∨ EndsInCapture verbose lexeme rest) ∧
      read head (protect text) verbose = .ok (lexeme, protect rest) := by
  unfold read at first
  split at first
  · exact readGroup_protect first
  · cases first
    exact ⟨Or.inl (.all _), rfl⟩
  · cases first
    exact ⟨Or.inl (.all _), rfl⟩
  · split at first
    · next set remaining found =>
        cases first
        obtain ⟨leaves, same⟩ := readClass_protect found
        refine ⟨Or.inl leaves, ?_⟩
        simp only [read, same]
    · cases first
  · exact (readSign_protect first).imp_left Or.inl
  · exact (readSign_protect first).imp_left Or.inl
  · exact (readSign_protect first).imp_left Or.inl
  · split at first
    · next counts remaining found =>
        cases first
        obtain ⟨leaves, same⟩ := readCounts_protect found
        refine ⟨Or.inl leaves, ?_⟩
        simp only [read, same]
    · cases first
  · exact absurd rfl plain.2
  · cases first
    exact ⟨Or.inl (.all _), rfl⟩
  · cases first
    exact ⟨Or.inl (.all _), rfl⟩
  · cases first
    exact ⟨Or.inl (.all _), rfl⟩
  · cases first
    refine ⟨Or.inl (.all _), ?_⟩
    rw [read] <;> assumption

theorem read_protect {head : Char} {lexeme : Lexeme}
    (first : read head text verbose = .ok (lexeme, rest)) :
    (Text.Leaves (head :: text) rest ∨ EndsInCapture verbose lexeme rest) ∧
      ∃ sign others, protect (head :: text) = sign :: others ∧
        read sign others verbose = .ok (lexeme, protect rest) := by
  by_cases slash : head = '/'
  · subst slash
    cases first
    exact ⟨Or.inl (.single (by decide) (.all _)), '\\', '/' :: protect text, rfl, rfl⟩
  · by_cases backslash : head = '\\'
    · subst backslash
      rw [read] at first
      split at first
      · next escape remaining escaped =>
          cases first
          cases text with
          | nil => cases escaped
          | cons character tail =>
              obtain ⟨leaves, same⟩ := readEscape_protect escaped
              refine ⟨Or.inl (.escape character leaves), '\\', character :: protect tail, rfl, ?_⟩
              simp only [read, same]
      · cases first
    · obtain ⟨leaves, same⟩ := read_protect_of_isPlain ⟨slash, backslash⟩ first
      exact ⟨leaves.imp_left (.single backslash), head, protect text,
        Slashed.protect_cons ⟨slash, backslash⟩ text, same⟩

theorem readFrom_protect {state : Verbosity} {lexemes : List Lexeme}
    (reading : readFrom state text = .ok lexemes) :
    (text.Leaves [] ∨ (state.afterAll lexemes).here = true) ∧
      readFrom state (protect text) = .ok lexemes := by
  fun_induction readFrom state text generalizing lexemes with
  | case1 state text ends =>
      cases reading
      have remains := resume_protect state.here text
      rw [ends] at remains
      refine ⟨?_, readFrom_of_resume_nil remains⟩
      cases here : state.here with
      | true => exact Or.inr here
      | false =>
          rw [here, resume_false] at ends
          subst ends
          exact Or.inl (.all [])
  | case2 state text head tail goesOn lexeme remaining first others later inductionHypothesis =>
      cases reading
      obtain ⟨leaves, sign, behind, shape, same⟩ := read_protect first
      obtain ⟨whole, further⟩ := inductionHypothesis later
      have begins := resume_protect state.here text
      rw [goesOn, shape] at begins
      constructor
      · rcases leaves with leaves | ⟨here, rfl, rfl⟩
        · exact whole.imp_left (((leaves_of_resume goesOn).trans leaves).trans ·)
        · rw [readFrom_nil] at later
          cases later
          exact Or.inr here
      · rw [readFrom_of_read begins same, further]
        rfl
  | case3 => cases reading
  | case4 => cases reading

def EndsVerbose (text : Text) : Prop :=
  ∃ lexemes, readAll text = .ok lexemes ∧ (Verbosity.quiet.afterAll lexemes).here = true

end Lexeme

theorem Pattern.ofText_protect {text : Text} {tree : Pattern} (parsed : ofText text = .ok tree) :
    (text.Leaves [] ∨ Lexeme.EndsVerbose text) ∧ ofText (protect text) = .ok tree := by
  unfold ofText at parsed ⊢
  split at parsed
  · next lexemes reading =>
      obtain ⟨whole, same⟩ := Lexeme.readFrom_protect reading
      rw [Lexeme.readAll, same]
      exact ⟨whole.imp_right (fun here => ⟨lexemes, reading, here⟩), parsed⟩
  · cases parsed

namespace Slashed

/-! ### Between slashes -/

/-- The shortcut for texts without slashes changes nothing. -/
theorem source_eq_protect {text : Text} (present : text ≠ []) : source text = protect text := by
  unfold source
  rw [if_neg (mt List.isEmpty_iff.mp present)]
  split
  · rfl
  · next free => exact (protect_of_not_mem free).symm

theorem source_source (text : Text) : source (source text) = source text := by
  cases text with
  | nil => rfl
  | cons head tail =>
      have present : protect (head :: tail) ≠ [] := by
        obtain ⟨first, behind, shape, _⟩ := exists_protect_cons head tail
        rw [shape]
        exact List.cons_ne_nil _ _
      rw [source_eq_protect (List.cons_ne_nil _ _), source_eq_protect present, protect_protect]

theorem ofText_emptyGroup :
    Pattern.ofText ['(', '?', ':', ')'] = .ok (.group (.plain []) .empty) := by
  have opens : Lexeme.read '(' ['?', ':', ')'] = .ok (.opening (.plain []), [')']) := rfl
  have closes : Lexeme.read ')' [] = .ok (.closing, []) := rfl
  unfold Pattern.ofText
  rw [Lexeme.readAll_of_read opens, Lexeme.readAll_of_read closes, Lexeme.readAll_nil]
  rfl

/-- What is displayed is a pattern before its slashes are protected: the pattern itself, or an empty
group in place of an empty one. -/
theorem exists_shown {pattern : Text} {tree : Pattern}
    (parsed : Pattern.ofText pattern = .ok tree) :
    ∃ shown, source pattern = protect shown ∧ (EscapesNext shown ↔ EscapesNext pattern) ∧
      Pattern.ofText shown =
        .ok (if pattern = [] then .group (.plain []) .empty else tree) := by
  by_cases none : pattern = []
  · subst none
    exact ⟨source [], rfl, by decide, ofText_emptyGroup⟩
  · rw [if_neg none]
    exact ⟨pattern, source_eq_protect none, Iff.rfl, parsed⟩

theorem slash_not_mem_letters (flags : FlagSet) : '/' ∉ flags.letters :=
  fun member => absurd (FlagSet.mem_alphabet_of_mem_letters member) (by decide)

/-- Two slashes around a text enclose it if the text does not escape what stands behind it and all
slashes within are escaped. -/
theorem not_escapesNext_iff {inside letters ahead behind : Text} (escaped : SlashesEscaped inside)
    (free : '/' ∉ letters) (split : '/' :: inside ++ '/' :: letters = ahead ++ '/' :: behind) :
    ¬ EscapesNext ahead ↔ ahead = [] ∨ behind = letters ∧ ¬ EscapesNext ('/' :: inside) := by
  rcases List.cons_eq_append_iff.mp split with ⟨rfl, _⟩ | ⟨before, rfl, same⟩
  · exact iff_of_true (by decide) (Or.inl rfl)
  · rcases List.append_eq_append_iff.mp same with ⟨gap, rfl, rest⟩ | ⟨gap, rfl, rest⟩
    · rcases List.cons_eq_append_iff.mp rest with ⟨rfl, final⟩ | ⟨others, rfl, further⟩
      · cases final
        simp
      · rw [further] at free
        exact absurd (List.mem_append_right _ List.mem_cons_self) free
    · rcases List.cons_eq_append_iff.mp rest with ⟨rfl, final⟩ | ⟨others, rfl, rfl⟩
      · cases final
        simp
      · have here : EscapesNext (['/'] ++ before) := escaped ['/'] before others (by decide) rfl
        refine iff_of_false (not_not_intro here) ?_
        rintro (none | ⟨same, _⟩)
        · cases none
        · have lengths := congrArg List.length same
          rw [List.length_append, List.length_cons] at lengths
          omega

/-- The display of an expression keeps its pattern. The opening slash and the one before the flags
are the only slashes that no backslash escapes, and the text between them is the pattern again. The
one before the flags is escaped if the pattern ends in a backslash with nothing behind it, as it can
where verbose mode is on. Whatever the text is, displaying it twice is displaying it once, on either
way of doing so. -/
theorem text_delimits :
    (∀ pattern tree, Pattern.ofText pattern = .ok tree →
      (EscapesNext pattern → Lexeme.EndsVerbose pattern) ∧
      (∀ flags ahead behind, text pattern flags = ahead ++ '/' :: behind →
        (¬ EscapesNext ahead ↔
          ahead = [] ∨ behind = flags.letters ∧ ¬ EscapesNext pattern)) ∧
      Pattern.ofText (source pattern) =
        .ok (if pattern = [] then .group (.plain []) .empty else tree)) ∧
    (∀ other, source (source other) = source other) ∧
    (∀ other, other ≠ [] → source other = protect other) ∧
    ∀ other, '/' ∉ other → protect other = other := by
  refine ⟨?_, source_source, fun _ => source_eq_protect, fun _ => protect_of_not_mem⟩
  intro pattern tree parsed
  obtain ⟨complete, _⟩ := Pattern.ofText_protect parsed
  obtain ⟨shown, displayed, final, reads⟩ := exists_shown parsed
  refine ⟨?_, ?_, ?_⟩
  · intro dangling
    rcases complete with whole | here
    · have unescaped : ¬ EscapesNext ([] ++ pattern) := whole.not_escapesNext (by decide)
      exact absurd dangling unescaped
    · exact here
  · intro flags ahead behind split
    rw [text, displayed] at split
    have enclosed := not_escapesNext_iff (slashesEscaped_protect shown)
      (slash_not_mem_letters flags) split
    have opening : ¬ EscapesNext ['/'] := by decide
    have same : EscapesNext ('/' :: protect shown) ↔ EscapesNext pattern :=
      (escapesNext_append_protect opening shown).trans final
    rwa [same] at enclosed
  · rw [displayed, (Pattern.ofText_protect reads).2]

/-- In verbose mode a comment may end in a backslash, which then escapes the slash behind it. -/
theorem text_ends_escaped :
    (Pattern.ofText "(?x)a#\\".toList).isOk = true ∧
      text "(?x)a#\\".toList .initial =
        "/(?x)a#\\".toList ++ '/' :: FlagSet.initial.letters ∧
      EscapesNext "/(?x)a#\\".toList := by
  decide +kernel

theorem text_delimits_of_range :
    ∃ tree, tree = Pattern.sequence
        (.charClass (.bracketed false (.range '/' '9')))
        (.sequence (.literal '\\') (.repetition ⟨1, none, true⟩ (.literal '/'))) ∧
      Pattern.ofText "[/-9]\\\\/+".toList = .ok tree ∧
      Pattern.ofText "[\\/-9]\\\\\\/+".toList = .ok tree ∧
      ∀ ahead behind, "/[\\/-9]\\\\\\/+/gi".toList = ahead ++ '/' :: behind →
        (¬ EscapesNext ahead ↔ ahead = [] ∨ behind = ['g', 'i']) := by
  have read : (Pattern.ofText "[/-9]\\\\/+".toList).toOption = some (.sequence
      (.charClass (.bracketed false (.range '/' '9')))
      (.sequence (.literal '\\') (.repetition ⟨1, none, true⟩ (.literal '/')))) := by
    decide +kernel
  cases parsed : Pattern.ofText "[/-9]\\\\/+".toList with
  | error fault =>
      rw [parsed] at read
      cases read
  | ok tree =>
      rw [parsed] at read
      obtain ⟨-, delimited, same⟩ := text_delimits.1 _ _ parsed
      have complete : ¬ EscapesNext "[/-9]\\\\/+".toList := by decide
      refine ⟨tree, Option.some.inj read, rfl, same, ?_⟩
      intro ahead behind split
      have enclosed := delimited ⟨0x03#8⟩ ahead behind split
      rwa [and_iff_left complete] at enclosed

end Slashed
end ReadableRegex

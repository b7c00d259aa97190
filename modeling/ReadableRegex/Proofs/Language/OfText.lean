import ReadableRegex.Proofs.Language.Exploring
import ReadableRegex.Proofs.Language.Meaning

/-!
The language of a pattern text, as the engine runs it. For texts whose outline is known it is the
language of the outline, and a compiled text has a match at a start if and only if the language
has a stretch from there.
-/

namespace ReadableRegex

variable [PropertyTable]

/-- The stretches of a subject along which the program of the text has a run. -/
def Text.language (source : Text) (flags : FlagSet) (subject : Array Char) : Spans :=
  fun start stop => ∃ pattern regex, Pattern.ofText source = .ok pattern ∧
    pattern.regex (Modes.ofFlags flags) = .ok regex ∧
    (Program.ofRegex regex).Succeeds subject (0, start) stop

variable {source : Text} {flags : FlagSet} {subject : Array Char}

theorem Text.language_iff {pattern : Pattern} {regex : Regex}
    (parsed : Pattern.ofText source = .ok pattern)
    (meant : pattern.regex (Modes.ofFlags flags) = .ok regex) (start stop : Nat) :
    source.language flags subject start stop ↔
      (Program.ofRegex regex).Succeeds subject (0, start) stop := by
  constructor
  · rintro ⟨other, expression, readAgain, meantAgain, succeeds⟩
    rw [parsed] at readAgain
    cases readAgain
    rw [meant] at meantAgain
    cases meantAgain
    exact succeeds
  · intro succeeds
    exact ⟨pattern, regex, parsed, meant, succeeds⟩

theorem Text.language_eq {pattern : Pattern} (parsed : Pattern.ofText source = .ok pattern)
    (steady : pattern.Steady (Modes.ofFlags flags)) :
    source.language flags subject =
      Node.rowSpans subject (pattern.outline (Modes.ofFlags flags)) := by
  have meant : ∃ regex, pattern.regex (Modes.ofFlags flags) = .ok regex := by
    obtain ⟨single, alternatives⟩ := steady.meant
    unfold Pattern.regex
    rw [alternatives]
    exact ⟨_, rfl⟩
  obtain ⟨regex, meant⟩ := meant
  apply Spans.ext
  intro start stop
  rw [Text.language_iff parsed meant, Program.succeeds_ofRegex_iff, Pattern.spans_regex meant]

namespace Program

variable [SizeRule] {options : Options} {program : Program}

theorem language_of_compile (compiled : compile source options = .ok program) (start stop : Nat) :
    source.language options.flags subject start stop ↔
      program.Succeeds subject (0, start) stop := by
  unfold compile Pattern.ofTextWithin at compiled
  cases parsed : Pattern.ofText source with
  | error fault =>
      rw [parsed] at compiled
      cases compiled
  | ok pattern =>
      rw [parsed] at compiled
      dsimp only at compiled
      by_cases shallow : pattern.depth none ≤ options.nestLimit.toNat
      · rw [if_pos shallow] at compiled
        dsimp only at compiled
        cases meant : pattern.regex (Modes.ofFlags options.flags) with
        | error fault =>
            rw [meant] at compiled
            cases compiled
        | ok regex =>
            rw [meant] at compiled
            dsimp only at compiled
            split at compiled
            · cases compiled
              exact Text.language_iff parsed meant start stop
            · cases compiled
      · rw [if_neg shallow] at compiled
        cases compiled

theorem isSome_matchAt_of_compile (compiled : compile source options = .ok program)
    (start : Nat) :
    (program.matchAt subject start).isSome = true ↔
      start ≤ subject.size ∧ ∃ stop, source.language options.flags subject start stop := by
  rw [isSome_matchAt_iff]
  refine and_congr_right ?_
  intro _
  exact exists_congr fun stop => (language_of_compile compiled start stop).symm

theorem language_of_matchAt (compiled : compile source options = .ok program) {start : Nat}
    {hit : Hit subject} (found : program.matchAt subject start = some hit) :
    source.language options.flags subject hit.start hit.stop := by
  rw [language_of_compile compiled, start_of_matchAt found]
  exact succeeds_of_matchAt found

end Program
end ReadableRegex

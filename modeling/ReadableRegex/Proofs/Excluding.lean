import ReadableRegex.Proofs.Anchored
import ReadableRegex.Proofs.ClassMeaning

/-!
Characters that must not occur. Between both anchors, without any lines, such an expression matches
the subjects of one character or more that have none of the listed ones. Line breaks are characters
as any other, unless the list is empty: what stands for an empty list leaves out the line feed.
-/

namespace ReadableRegex

/-! ### One character after another -/

namespace Spans

variable {subject : Array Char} {members : Char → Prop}

theorem copies_readIf (rounds start stop : Nat) :
    copies (readIf subject members) rounds start stop ↔
      stop = start + rounds ∧ ∀ index < rounds,
        ∃ character, subject[start + index]? = some character ∧ members character := by
  induction rounds generalizing start with
  | zero =>
      constructor
      · intro same
        exact ⟨same.symm, fun index bound => absurd bound (Nat.not_lt_zero index)⟩
      · intro matched
        exact matched.1.symm
  | succ rounds inductionHypothesis =>
      constructor
      · intro matched
        obtain ⟨middle, ⟨next, first⟩, later⟩ := matched
        subst next
        obtain ⟨last, held⟩ := (inductionHypothesis (start + 1)).mp later
        constructor
        · omega
        · intro index bound
          cases index with
          | zero => exact first
          | succ index =>
              have shifted : start + (index + 1) = start + 1 + index := by omega
              rw [shifted]
              exact held index (by omega)
      · intro matched
        obtain ⟨last, held⟩ := matched
        refine ⟨start + 1, ⟨rfl, held 0 (Nat.succ_pos rounds)⟩, ?_⟩
        refine (inductionHypothesis (start + 1)).mpr ⟨by omega, ?_⟩
        intro index bound
        have shifted : start + 1 + index = start + (index + 1) := by omega
        rw [shifted]
        exact held (index + 1) (by omega)

theorem repeated_readIf_whole (greedy : Bool) (stop : Nat) :
    (subject.size ≤ stop ∧ repeated ⟨1, none, greedy⟩ (readIf subject members) 0 stop) ↔
      stop = subject.size ∧ subject ≠ #[] ∧ ∀ character ∈ subject, members character := by
  have allowed (rounds : Nat) : (⟨1, none, greedy⟩ : Counts).allows rounds ↔ 1 ≤ rounds := by
    simp [Counts.allows]
  constructor
  · intro matched
    obtain ⟨ends, rounds, several, reads⟩ := matched
    obtain ⟨last, held⟩ := (copies_readIf rounds 0 stop).mp reads
    rw [Nat.zero_add] at last
    subst last
    have present := (allowed stop).mp several
    -- A round behind the end would have nothing to read.
    have within : stop ≤ subject.size := by
      apply Nat.le_of_not_lt
      intro beyond
      obtain ⟨character, here, _⟩ := held subject.size beyond
      simp at here
    have whole := Nat.le_antisymm within ends
    refine ⟨whole, ?_, ?_⟩
    · intro empty
      rw [whole, empty] at present
      cases present
    · intro character member
      obtain ⟨index, bound, same⟩ := Array.mem_iff_getElem.mp member
      obtain ⟨other, here, listed⟩ := held index (by omega)
      rw [Nat.zero_add, Array.getElem?_eq_getElem bound, same] at here
      cases here
      exact listed
  · intro matched
    obtain ⟨last, present, held⟩ := matched
    subst last
    have several : 1 ≤ subject.size := Array.size_pos_iff.mpr present
    refine ⟨Nat.le_refl _, subject.size, (allowed _).mpr several, ?_⟩
    apply (copies_readIf _ _ _).mpr
    constructor
    · exact (Nat.zero_add _).symm
    · intro index bound
      rw [Nat.zero_add, Array.getElem?_eq_getElem bound]
      exact ⟨subject[index], rfl, held _ (Array.getElem_mem bound)⟩

end Spans

/-! ### Excluded characters -/

namespace Node

variable {subject : Array Char} {modes : Modes}

/-- The list that counts: an empty one stands for the line feed. -/
theorem rowSpans_ofExcluded (exact : modes.ignoreCase = false) (apart : modes.dotAll = false)
    (feeds : modes.crlf = false) (excluded : Text) :
    rowSpans subject (ofExcluded modes excluded) =
      Spans.repeated ⟨1, none, true⟩ (Spans.readIf subject
        (Text.InComplement (if excluded = [] then ['\n'] else excluded))) := by
  cases excluded with
  | nil =>
      have row : ofExcluded modes [] = [.repetition ⟨1, none, true⟩ [.dot modes]] := rfl
      have breaks : modes.lineBreaks = ['\n'] := by
        simp [Modes.lineBreaks, apart, feeds]
      rw [row, rowSpans_singleton, spans, rowSpans_singleton, spans, breaks, if_pos rfl,
        Spans.read_eq_readIf]
      simp only [CharSet.holds_complement_ofChars]
  | cons first rest =>
      have row : ofExcluded modes (first :: rest) =
          [.repetition ⟨1, none, true⟩ [.set (modes.comparison.Leaves (first :: rest))]] := rfl
      have same : modes.comparison.Leaves (first :: rest) = Text.InComplement (first :: rest) := by
        funext character
        exact propext (modes.comparison.leaves_iff_inComplement _ character exact)
      rw [row, rowSpans_singleton, spans, rowSpans_singleton, spans, same,
        if_neg (List.cons_ne_nil _ _)]

end Node

theorem Text.inComplement_listed_iff (excluded : Text) (character : Char) :
    Text.InComplement (if excluded = [] then ['\n'] else excluded) character ↔
      excluded.InComplement character ∧ (excluded = [] → character ≠ '\n') := by
  by_cases empty : excluded = []
  · have other : belowSurrogates ∉ ['\n'] := by decide
    simp only [empty, if_true, InComplement, other, false_and, or_false, List.mem_singleton,
      List.not_mem_nil, not_false_eq_true, forall_const, true_and]
  · simp only [empty, if_false, false_imp_iff, and_true]

namespace Phrase

variable {phrase : Phrase} {options : Options} {calls : List Call} {excluded : Text}
  {matcher : Matcher}

section

variable [PropertyTable] [SizeRule]

/-- As one line, the subject is matched as a whole or not at all. -/
theorem language_of_excluding (run : phrase = (ofOptions options).run calls)
    (only : calls.filter (fun call => call.part = .body) = [.anythingBut excluded])
    (startAnchor : phrase.draft.startAnchor = true) (endAnchor : phrase.draft.endAnchor = true)
    (oneLine : phrase.flags.has .multiline = false)
    (exact : phrase.flags.has .ignoreCase = false) (apart : phrase.flags.has .dotAll = false)
    (compiled : phrase.compile = .ok matcher) {subject : Array Char} {start : Nat}
    (inside : start ≤ subject.size) (stop : Nat) :
    phrase.source.language phrase.flags subject start stop ↔
      start = 0 ∧ stop = subject.size ∧ subject ≠ #[] ∧ ∀ character ∈ subject,
        excluded.InComplement character ∧ (excluded = [] → character ≠ '\n') := by
  have branches : ((Sketch.blank 0).run (Modes.ofFlags phrase.flags)
      [.anythingBut excluded]).branches = [Node.ofExcluded (Modes.ofFlags phrase.flags) excluded] :=
    Sketch.branches_append_blank _
  obtain ⟨pattern, parsed⟩ := parses_of_compile compiled
  have cooked : ∀ call ∈ [Call.anythingBut excluded], call.isRaw = false :=
    List.forall_mem_singleton.mpr rfl
  have language := (language_of_anchored run only cooked startAnchor endAnchor parsed rfl subject).2
  rw [language, branches, List.map_singleton, Spans.choice_singleton,
    Modes.holds_caret_of_oneLine oneLine inside, Modes.holds_dollar_of_oneLine oneLine,
    Node.rowSpans_ofExcluded exact apart oneLine]
  apply and_congr_right
  intro first
  subst first
  simp only [Spans.repeated_readIf_whole, Text.inComplement_listed_iff]

/-- A phrase that excludes some characters between both anchors compiles within its limits, and
matches the subjects of one character or more without any of these. Two things are left to know: an
empty list excludes the line feed, and a list of both characters around the surrogates excludes
neither of them. -/
theorem isMatch_iff_excludes (run : phrase = (ofOptions options).run calls)
    (only : calls.filter (fun call => call.part = .body) = [.anythingBut excluded])
    (startAnchor : phrase.draft.startAnchor = true) (endAnchor : phrase.draft.endAnchor = true)
    (oneLine : phrase.flags.has .multiline = false)
    (exact : phrase.flags.has .ignoreCase = false) (apart : phrase.flags.has .dotAll = false)
    (free : phrase.flags.has .sticky = false) :
    (phrase.KeepsLimits → ∃ matcher, phrase.compile = .ok matcher) ∧
    ∀ matcher, phrase.compile = .ok matcher → ∀ subject : Array Char,
      matcher.isMatch subject = true ↔
        subject ≠ #[] ∧ ∀ character ∈ subject,
          excluded.InComplement character ∧ (excluded = [] → character ≠ '\n') := by
  constructor
  · intro limits
    have closed : ((Sketch.blank 0).run (Modes.ofFlags phrase.flags)
        [.anythingBut excluded]).enclosing = [] :=
      Sketch.enclosing_append_blank _
    have cooked : ∀ call ∈ [Call.anythingBut excluded], call.isRaw = false :=
      List.forall_mem_singleton.mpr rfl
    exact compiles_of_anchored run only cooked startAnchor endAnchor rfl closed limits
  · intro matcher compiled subject
    have language {start : Nat} (inside : start ≤ subject.size) (stop : Nat) :=
      language_of_excluding run only startAnchor endAnchor oneLine exact apart compiled inside stop
    rw [isMatch_iff_language compiled free]
    constructor
    · intro found
      obtain ⟨start, inside, stop, matched⟩ := found
      exact ((language inside stop).mp matched).2.2
    · intro held
      have inside := Nat.zero_le subject.size
      exact ⟨0, inside, subject.size, (language inside _).mpr ⟨rfl, rfl, held⟩⟩

end

/-- Signs of classes are excluded as any other character, and lines may break. -/
theorem isMatch_iff_excludes_of_signs :
    ∃ matcher, (initial.run [.startOfLine true, .anythingBut ['^', '-', ']'], .endOfLine true,
        .searchOneLine true]).compile = .ok matcher ∧
      matcher.isMatch #['a', '\r', '\n'] = true ∧ matcher.isMatch #['a', '-'] = false := by
  let phrase := initial.run [.startOfLine true, .anythingBut ['^', '-', ']'], .endOfLine true,
    .searchOneLine true]
  have limits : phrase.KeepsLimits := keepsLimits_of_isWithinLimits (by decide +kernel)
  obtain ⟨compiles, excludes⟩ := isMatch_iff_excludes (rfl : phrase = _) rfl (by decide +kernel)
    (by decide +kernel) (by decide +kernel) (by decide +kernel) (by decide +kernel)
    (by decide +kernel)
  obtain ⟨matcher, compiled⟩ := compiles limits
  refine ⟨matcher, compiled, ?_, ?_⟩
  · rw [excludes matcher compiled]
    simp [Text.InComplement]
  · apply Bool.eq_false_iff.mpr
    rw [ne_eq, excludes matcher compiled]
    intro held
    have outside := (held.2 '-' (by simp)).1
    simp [Text.InComplement, belowSurrogates] at outside

/-- An empty list excludes the line feed, and a list of the characters around the surrogates does
not exclude them. -/
theorem excludes_other_than_listed :
    (initial.run [.startOfLine true, .anythingBut [], .endOfLine true,
        .searchOneLine true]).compile.toOption.map (·.isMatch #['\n']) = some false ∧
      (initial.run [.startOfLine true, .anythingBut [belowSurrogates, aboveSurrogates],
        .endOfLine true, .searchOneLine true]).compile.toOption.map
          (·.isMatch #[belowSurrogates]) = some true := by
  decide +kernel

end Phrase
end ReadableRegex

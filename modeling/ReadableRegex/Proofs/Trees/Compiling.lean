import ReadableRegex.Phrase.Compile
import ReadableRegex.Proofs.Trees.Parsing

/-!
When a phrase compiles. Raw fragments left out, its text is a pattern unless a capture is left
open, a token was repeated with the bounds out of order, or a range was given a pair out of order.
No later call hides such a fault, and no other call causes one.
-/

namespace ReadableRegex

variable {modes : Modes} {phrase : Phrase} {sketch : Sketch} {sound : Bool}

/-! ### Faults of calls -/

def Notice.isIgnored : Notice → Bool
  | .ignored _ _ => true
  | _ => false

def Call.quantifier? : Call → Option Quantifier
  | .optional _ => some .optional
  | .repeatPrevious lower upper => some (.times lower upper)
  | .oneOrMore => some .oneOrMore
  | .multiple _ lower upper => some (.ofBounds lower upper)
  | _ => none

/-- The call repeats a token and is not ignored, but its bounds are out of order. -/
def Phrase.CrossesCounts (phrase : Phrase) (call : Call) : Prop :=
  ∃ quantifier report upper,
    call.quantifier? = some quantifier ∧
    phrase.apply call = .ok report ∧ (∀ notice ∈ report.notices, notice.isIgnored = false) ∧
    quantifier.maximum? = some upper ∧ upper < quantifier.minimum

/-- The call is a range, and the bounds of one of its pairs are out of order. -/
def Call.CrossesRange (call : Call) : Prop :=
  ∃ bounds, call = .range bounds ∧ ∃ pair ∈ (ClassText.pairs bounds).1, pair.2 < pair.1

/-- What keeps the text of a run from being a pattern. -/
inductive Phrase.Faulty (options : Options) (calls : List Call) : Prop where
  | capture (leaves : options.closesCaptures = false)
      (opened : 0 < ((ofOptions options).run calls).draft.openCaptures) : Faulty options calls
  | counts {earlier later : List Call} {call : Call} (split : calls = earlier ++ call :: later)
      (crossed : ((ofOptions options).run earlier).CrossesCounts call) : Faulty options calls
  | range {call : Call} (member : call ∈ calls) (crossed : call.CrossesRange) :
      Faulty options calls

theorem Quantifier.isOrdered_eq_false_iff (quantifier : Quantifier) :
    quantifier.isOrdered = false ↔
      ∃ upper, quantifier.maximum? = some upper ∧ upper < quantifier.minimum := by
  cases quantifier <;> simp [isOrdered, maximum?, minimum]

theorem ClassText.areOrdered_eq_false_iff (bounds : List Char) :
    areOrdered bounds = false ↔ ∃ pair ∈ (pairs bounds).1, pair.2 < pair.1 := by
  simp [areOrdered, List.all_eq_false]

namespace Phrase

theorem quantify_heeded_iff (phrase : Phrase) (quantifier : Quantifier) :
    (∀ notice ∈ (phrase.quantify quantifier).notices, notice.isIgnored = false) ↔
      phrase.draft.last.isNone = false := by
  unfold quantify
  cases last : phrase.draft.last with
  | none => simp [Draft.quantifyLast_of_none last, Notice.isIgnored]
  | some token => simp [Draft.quantifyLast_of_some last]

theorem pushRepeated_heeded_iff (phrase : Phrase) (value : Text) (quantifier : Quantifier)
    (error : DraftError) :
    (∀ notice ∈ (phrase.pushRepeated value quantifier [.ignored .multiple error]).notices,
      notice.isIgnored = false) ↔ value.isEmpty = false := by
  cases value with
  | nil => simp [pushRepeated, Draft.pushLiteral, Draft.push, Text.escapeLiteral,
      Text.escapeWith, Notice.isIgnored]
  | cons character rest =>
      have present : (Text.escapeLiteral (character :: rest)).isEmpty = false := by
        simp [Text.escapeLiteral, Text.escapeWith_cons, Text.escapeChar_ne_nil]
      simp only [pushRepeated, Draft.pushLiteral, Draft.push, present, Bool.false_eq_true,
        if_false, quantify_heeded_iff]
      exact iff_of_true rfl rfl

theorem crossesCounts_iff (phrase : Phrase) (call : Call) :
    phrase.CrossesCounts call ↔
      ∃ quantifier report, call.quantifier? = some quantifier ∧ phrase.apply call = .ok report ∧
        (∀ notice ∈ report.notices, notice.isIgnored = false) ∧ quantifier.isOrdered = false := by
  constructor
  · rintro ⟨quantifier, report, upper, repeats, applied, heeded, crossed⟩
    exact ⟨quantifier, report, repeats, applied, heeded,
      quantifier.isOrdered_eq_false_iff.mpr ⟨upper, crossed⟩⟩
  · rintro ⟨quantifier, report, repeats, applied, heeded, crossed⟩
    obtain ⟨upper, crossed⟩ := quantifier.isOrdered_eq_false_iff.mp crossed
    exact ⟨quantifier, report, upper, repeats, applied, heeded, crossed⟩

theorem isOrderedBehind_eq_false_iff {last : Option NodeRow}
    (same : phrase.draft.last.isNone = last.isNone) (call : Call) :
    call.isOrderedBehind last = false ↔ phrase.CrossesCounts call ∨ call.CrossesRange := by
  rw [crossesCounts_iff]
  unfold Call.quantifier?
  cases call with
  | range bounds =>
      simp only [Call.isOrderedBehind, ClassText.areOrdered_eq_false_iff]
      simp [Call.CrossesRange]
  | repeatPrevious lower upper =>
      simp [Call.isOrderedBehind, Call.CrossesRange, apply,
        quantify_heeded_iff, same]
  | multiple value lower upper =>
      simp [Call.isOrderedBehind, Call.CrossesRange, apply,
        pushRepeated_heeded_iff]
  | optional value =>
      simp [Call.isOrderedBehind, Call.CrossesRange, Quantifier.isOrdered]
  | oneOrMore =>
      simp [Call.isOrderedBehind, Call.CrossesRange, Quantifier.isOrdered]
  | _ => simp [Call.isOrderedBehind, Call.CrossesRange]

end Phrase

section

variable [PropertyTable]

namespace Phrase

theorem staysOrdered_eq_false_iff {calls : List Call}
    (follows : Follows modes phrase.draft sketch sound)
    (cooked : ∀ call ∈ calls, call.isRaw = false) (usual : modes.Usual) :
    sketch.staysOrdered modes calls = false ↔
      ∃ earlier call later, calls = earlier ++ call :: later ∧
        ((phrase.run earlier).CrossesCounts call ∨ call.CrossesRange) := by
  induction calls generalizing phrase sketch sound with
  | nil => simp [Sketch.staysOrdered]
  | cons first rest inductionHypothesis =>
      have next := follows.after (cooked first List.mem_cons_self) usual
      rw [← draft_after] at next
      have later := inductionHypothesis next
        (fun other member => cooked other (List.mem_cons_of_mem _ member))
      rw [Sketch.staysOrdered, Bool.and_eq_false_iff,
        isOrderedBehind_eq_false_iff follows.last_isNone, later]
      constructor
      · rintro (here | ⟨earlier, call, behind, split, crossed⟩)
        · exact ⟨[], first, rest, rfl, here⟩
        · exact ⟨first :: earlier, call, behind, congrArg (first :: ·) split, crossed⟩
      · rintro ⟨earlier, call, behind, split, crossed⟩
        cases earlier with
        | nil =>
            cases split
            exact Or.inl crossed
        | cons other before =>
            cases split
            exact Or.inr ⟨before, call, behind, rfl, crossed⟩

/-- A run is faulty if it leaves something out of order or a capture open. -/
theorem faulty_iff (options : Options) {calls : List Call}
    (cooked : ∀ call ∈ calls, call.isRaw = false) (usual : modes.Usual) :
    Faulty options calls ↔
      (Sketch.blank 0).staysOrdered modes calls = false ∨
      (options.closesCaptures = false ∧ ((ofOptions options).run calls).draft.enclosing ≠ []) := by
  have follows : Follows modes (ofOptions options).draft (Sketch.blank 0) true :=
    .blank options.closesCaptures
  rw [staysOrdered_eq_false_iff follows cooked usual]
  constructor
  · rintro (⟨leaves, opened⟩ | ⟨split, crossed⟩ | ⟨member, crossed⟩)
    · exact Or.inr ⟨leaves, List.length_pos_iff.mp opened⟩
    · exact Or.inl ⟨_, _, _, split, Or.inl crossed⟩
    · obtain ⟨earlier, later, split⟩ := List.append_of_mem member
      exact Or.inl ⟨earlier, _, later, split, Or.inr crossed⟩
  · rintro (⟨earlier, call, later, split, crossed | crossed⟩ | ⟨leaves, opened⟩)
    · exact .counts split crossed
    · exact .range (split ▸ List.mem_append_right _ List.mem_cons_self) crossed
    · exact .capture leaves (List.length_pos_iff.mpr opened)

/-! ### Compiling -/

variable [SizeRule]

/-- The text nests no deeper and its program is no larger than the options allow. -/
structure KeepsLimits (phrase : Phrase) : Prop where
  nesting : ∀ pattern, Pattern.ofText phrase.source = .ok pattern →
    pattern.depth none ≤ phrase.options.nestLimit.toNat
  size : ∀ pattern regex, Pattern.ofText phrase.source = .ok pattern →
    pattern.regex (Modes.ofFlags phrase.flags) = .ok regex →
    SizeRule.fits phrase.options.sizeLimit regex = true

def isWithinLimits (phrase : Phrase) : Bool :=
  match Pattern.ofText phrase.source with
  | .error _ => true
  | .ok pattern =>
      decide (pattern.depth none ≤ phrase.options.nestLimit.toNat) &&
        match pattern.regex (Modes.ofFlags phrase.flags) with
        | .error _ => true
        | .ok regex => SizeRule.fits phrase.options.sizeLimit regex

theorem keepsLimits_of_isWithinLimits (within : phrase.isWithinLimits = true) :
    phrase.KeepsLimits := by
  unfold isWithinLimits at within
  constructor
  · intro pattern parsed
    rw [parsed, Bool.and_eq_true, decide_eq_true_iff] at within
    exact within.1
  · intro pattern regex parsed meant
    rw [parsed, Bool.and_eq_true, meant] at within
    exact within.2

theorem compile_of_parse_error {fault : Fault}
    (failed : Pattern.ofText phrase.source = .error fault) :
    phrase.compile = .error ⟨phrase.source, .badPattern fault⟩ := by
  simp only [compile, Matcher.compile, Program.compile, Pattern.ofTextWithin, failed]

theorem compile_of_meant {pattern : Pattern} {regex : Regex} (limits : phrase.KeepsLimits)
    (parsed : Pattern.ofText phrase.source = .ok pattern)
    (meant : pattern.regex (Modes.ofFlags phrase.flags) = .ok regex) :
    phrase.compile = .ok ⟨phrase.source, phrase.flags, .ofRegex regex⟩ := by
  have shallow := limits.nesting pattern parsed
  have fits := limits.size pattern regex parsed meant
  unfold flags at meant
  simp only [compile, Matcher.compile, Program.compile, Pattern.ofTextWithin, parsed, shallow,
    meant, fits, if_true, flags]

end Phrase

namespace Follows

variable {draft : Draft}

theorem parse_error_of_unsound (follows : Follows modes draft sketch sound)
    (unsound : sound = false ∨ (draft.closesCaptures = false ∧ draft.enclosing ≠ [])) :
    ∃ fault, Pattern.ofText draft.render = .error fault := by
  cases parsed : Pattern.ofText draft.render with
  | error fault => exact ⟨fault, rfl⟩
  | ok pattern =>
      obtain ⟨ordered, closed, _⟩ := follows.written_of_parses parsed
      rcases unsound with crossed | ⟨leaves, opened⟩
      · rw [ordered] at crossed
        cases crossed
      · rcases closed with closes | none
        · rw [leaves] at closes
          cases closes
        · exact absurd none opened

theorem meant_of_sound (follows : Follows modes draft sketch true)
    (closed : draft.closesCaptures = true ∨ draft.enclosing = []) :
    ∃ pattern regex, Pattern.ofText draft.render = .ok pattern ∧
      pattern.regex modes = .ok regex := by
  cases follows.legible_render closed with
  | good whole =>
      obtain ⟨parts, written, parsed⟩ := whole
      obtain ⟨regex, meant⟩ := (Pattern.Steady.ofParts written.steady_anchored).meant
      refine ⟨_, .choiceOf [regex], parsed, ?_⟩
      rw [Pattern.regex, meant]
      rfl

end Follows

namespace Phrase

variable [SizeRule]

/-- Within its limits a phrase compiles exactly if no capture is left open, no repetition that
was applied has its bounds out of order, and no range has a pair out of order. -/
theorem compile_fails_iff_faulty {options : Options} {calls : List Call}
    (run : phrase = (ofOptions options).run calls)
    (cooked : ∀ call ∈ calls, call.isRaw = false) (limits : phrase.KeepsLimits) :
    ((∃ fault, phrase.compile = .error ⟨phrase.source, .badPattern fault⟩) ↔
      Faulty options calls) ∧
    (¬ Faulty options calls → ∃ matcher, phrase.compile = .ok matcher) := by
  have usual := Modes.usual_ofFlags phrase.flags
  have follows : Follows (Modes.ofFlags phrase.flags) ((ofOptions options).run calls).draft _ _ :=
    follows_run options cooked usual
  have faults := faulty_iff options cooked usual
  have closes : phrase.draft.closesCaptures = options.closesCaptures := by
    rw [run, closesCaptures_run]
    rfl
  rw [← run] at follows faults
  rw [← closes] at faults
  have fails (faulty : Faulty options calls) :
      ∃ fault, phrase.compile = .error ⟨phrase.source, .badPattern fault⟩ := by
    obtain ⟨fault, failed⟩ := follows.parse_error_of_unsound (faults.mp faulty)
    exact ⟨fault, compile_of_parse_error failed⟩
  have compiles (sound : ¬ Faulty options calls) : ∃ matcher, phrase.compile = .ok matcher := by
    have ordered := Bool.of_not_eq_false
      (fun crossed => sound (faults.mpr (Or.inl crossed)))
    have closed : phrase.draft.closesCaptures = true ∨ phrase.draft.enclosing = [] := by
      by_cases opened : phrase.draft.enclosing = []
      · exact Or.inr opened
      · exact Or.inl (Bool.of_not_eq_false
          (fun leaves => sound (faults.mpr (Or.inr ⟨leaves, opened⟩))))
    rw [ordered] at follows
    obtain ⟨pattern, regex, parsed, meant⟩ := follows.meant_of_sound closed
    exact ⟨_, compile_of_meant limits parsed meant⟩
  refine ⟨⟨?_, fails⟩, compiles⟩
  rintro ⟨fault, failed⟩
  refine Classical.byContradiction ?_
  intro sound
  obtain ⟨matcher, compiled⟩ := compiles sound
  rw [compiled] at failed
  cases failed

end Phrase

end

namespace Phrase

/-- A repetition with its bounds out of order counts even where another alternative follows. The
same bounds do no harm where there is nothing to repeat. -/
theorem compile_fails_iff_faulty_of_crossed :
    (∃ fault, ((ofOptions Options.initial).run
        [.literal ['a'], .repeatPrevious 3 (some 2), .alternative ['b']]).compile =
      .error ⟨"(?:a\x7b3,2\x7d|b)".toList, .badPattern fault⟩) ∧
    ∃ matcher, ((ofOptions Options.initial).run
        [.repeatPrevious 3 (some 2), .beginCapture, .multiple [] (some 3) (some 2),
          .literal ['('], .endCapture, .endCapture]).compile = .ok matcher := by
  let faulty : List Call := [.literal ['a'], .repeatPrevious 3 (some 2), .alternative ['b']]
  let sound : List Call := [.repeatPrevious 3 (some 2), .beginCapture,
    .multiple [] (some 3) (some 2), .literal ['('], .endCapture, .endCapture]
  have usual : (Modes.ofFlags Options.initial.flags).Usual := Modes.usual_ofFlags _
  constructor
  · have cooked : ∀ call ∈ faulty, call.isRaw = false := by decide
    have source : ((ofOptions Options.initial).run faulty).source =
        "(?:a\x7b3,2\x7d|b)".toList := by
      decide +kernel
    have limits : ((ofOptions Options.initial).run faulty).KeepsLimits :=
      keepsLimits_of_isWithinLimits (by decide +kernel)
    have crossed : Faulty Options.initial faulty :=
      (faulty_iff _ cooked usual).mpr (Or.inl (by decide +kernel))
    have fails := (compile_fails_iff_faulty rfl cooked limits).1.mpr crossed
    rw [source] at fails
    exact fails
  · have cooked : ∀ call ∈ sound, call.isRaw = false := by decide
    have limits : ((ofOptions Options.initial).run sound).KeepsLimits :=
      keepsLimits_of_isWithinLimits (by decide +kernel)
    refine (compile_fails_iff_faulty rfl cooked limits).2 ?_
    rw [faulty_iff _ cooked usual]
    decide +kernel

end Phrase
end ReadableRegex

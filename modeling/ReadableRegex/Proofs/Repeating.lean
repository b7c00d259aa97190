import ReadableRegex.Proofs.Anchored
import ReadableRegex.Proofs.LiteralSearch

/-!
A text repeated, and the repetition repeated again. However the groups nest, what is matched in the
end are copies of the text, and their numbers are sums: each quantifier adds up as many of the
numbers before it as it allows rounds.
-/

namespace ReadableRegex

/-! ### Numbers of copies -/

/-- The number is a sum of so many others that can be reached. -/
def IsSum (reached : Nat → Prop) : Nat → Nat → Prop
  | 0, total => total = 0
  | rounds + 1, total =>
      ∃ first rest, reached first ∧ IsSum reached rounds rest ∧ total = first + rest

theorem isSum_one (reached : Nat → Prop) (total : Nat) : IsSum reached 1 total ↔ reached total := by
  constructor
  · rintro ⟨first, rest, found, none, rfl⟩
    cases none
    exact found
  · intro found
    exact ⟨total, 0, found, rfl, rfl⟩

theorem isSum_of_single {reached : Nat → Prop} {single : Nat}
    (same : ∀ number, reached number ↔ number = single) (rounds total : Nat) :
    IsSum reached rounds total ↔ total = rounds * single := by
  induction rounds generalizing total with
  | zero => rw [IsSum, Nat.zero_mul]
  | succ rounds inductionHypothesis =>
      simp only [IsSum, same, inductionHypothesis, Nat.succ_mul]
      constructor
      · rintro ⟨first, rest, rfl, rfl, rfl⟩
        exact Nat.add_comm ..
      · rintro rfl
        exact ⟨single, rounds * single, rfl, rfl, Nat.add_comm ..⟩

namespace Call

def value? : Call → Option Text
  | .literal value => some value
  | .optional value => some value
  | .multiple value _ _ => some value
  | _ => none

def isRepetition : Call → Bool
  | .repeatPrevious _ _ => true
  | .oneOrMore => true
  | _ => false

/-- Whether the call asks for so many rounds of what it repeats. -/
def allows : Call → Nat → Prop
  | .optional _, rounds => rounds ≤ 1
  | .oneOrMore, rounds => 1 ≤ rounds
  | .repeatPrevious lower none, rounds => rounds = lower.toNat
  | .repeatPrevious lower (some upper), rounds => lower.toNat ≤ rounds ∧ rounds ≤ upper.toNat
  | .multiple _ none none, rounds => 1 ≤ rounds
  | .multiple _ (some lower) none, rounds => lower.toNat ≤ rounds
  | .multiple _ none (some upper), rounds => rounds ≤ upper.toNat
  | .multiple _ (some lower) (some upper), rounds =>
      lower.toNat ≤ rounds ∧ rounds ≤ upper.toNat
  | _, rounds => rounds = 1

/-- The numbers of copies after the call, which repeats what came in the given numbers before. -/
def spread (reached : Nat → Prop) (call : Call) (total : Nat) : Prop :=
  ∃ rounds, call.allows rounds ∧ IsSum reached rounds total

/-- The numbers of copies of a text that the calls allow between them. -/
def totals (calls : List Call) : Nat → Prop :=
  calls.foldl spread (· = 1)

theorem spread_of_single {call : Call} (single : ∀ rounds, call.allows rounds ↔ rounds = 1)
    (reached : Nat → Prop) : call.spread reached = reached := by
  funext total
  apply propext
  constructor
  · rintro ⟨rounds, allowed, sum⟩
    rw [(single rounds).mp allowed] at sum
    exact (isSum_one reached total).mp sum
  · intro found
    exact ⟨1, (single 1).mpr rfl, (isSum_one reached total).mpr found⟩

theorem allows_iff {call : Call} {quantifier : Quantifier}
    (repeats : call.quantifier? = some quantifier) (ordered : quantifier.isOrdered = true)
    (rounds : Nat) : quantifier.counts.allows rounds ↔ call.allows rounds := by
  have exactly (lower upper : Nat) (inOrder : lower ≤ upper) :
      (⟨lower, some upper, true⟩ : Counts).allows rounds ↔ lower ≤ rounds ∧ rounds ≤ upper := by
    constructor
    · rintro ⟨enough, few⟩
      exact ⟨enough, Nat.max_eq_right inOrder ▸ few upper rfl⟩
    · rintro ⟨enough, few⟩
      refine ⟨enough, ?_⟩
      rintro bound same
      cases same
      exact Nat.le_trans few (Nat.le_max_right _ _)
  have atLeast (lower : Nat) :
      (⟨lower, none, true⟩ : Counts).allows rounds ↔ lower ≤ rounds := by
    simp [Counts.allows]
  cases call with
  | optional value =>
      cases repeats
      exact (exactly 0 1 (Nat.zero_le _)).trans (by simp [allows])
  | oneOrMore =>
      cases repeats
      exact atLeast 1
  | repeatPrevious lower upper =>
      cases repeats
      cases upper with
      | none =>
          refine (exactly lower.toNat lower.toNat (Nat.le_refl _)).trans ?_
          simp only [allows]
          omega
      | some upper => exact exactly lower.toNat upper.toNat (of_decide_eq_true ordered)
  | multiple value lower upper =>
      cases repeats
      cases lower with
      | none =>
          cases upper with
          | none => exact atLeast 1
          | some upper =>
              exact (exactly 0 upper.toNat (Nat.zero_le _)).trans (by simp [allows])
      | some lower =>
          cases upper with
          | none => exact atLeast lower.toNat
          | some upper => exact exactly lower.toNat upper.toNat (of_decide_eq_true ordered)
  | _ => cases repeats

end Call

/-! ### Copies -/

namespace Spans

variable {part word : Spans} {reached : Nat → Prop} {start stop : Nat}

theorem copies_of_copies (copied : ∀ start stop, part start stop ↔
      ∃ count, reached count ∧ copies word count start stop) (rounds start stop : Nat) :
    copies part rounds start stop ↔
      ∃ total, IsSum reached rounds total ∧ copies word total start stop := by
  induction rounds generalizing start with
  | zero =>
      constructor
      · intro here
        exact ⟨0, rfl, here⟩
      · rintro ⟨total, none, here⟩
        cases none
        exact here
  | succ rounds inductionHypothesis =>
      constructor
      · rintro ⟨middle, once, later⟩
        obtain ⟨first, found, front⟩ := (copied start middle).mp once
        obtain ⟨rest, sum, back⟩ := (inductionHypothesis middle).mp later
        refine ⟨first + rest, ⟨first, rest, found, sum, rfl⟩, ?_⟩
        rw [copies_add]
        exact ⟨middle, front, back⟩
      · rintro ⟨total, ⟨first, rest, found, sum, rfl⟩, both⟩
        rw [copies_add] at both
        obtain ⟨middle, front, back⟩ := both
        exact ⟨middle, (copied start middle).mpr ⟨first, found, front⟩,
          (inductionHypothesis middle).mpr ⟨rest, sum, back⟩⟩

theorem repeated_of_copies (copied : ∀ start stop, part start stop ↔
      ∃ count, reached count ∧ copies word count start stop) {counts : Counts} {call : Call}
    (same : ∀ rounds, counts.allows rounds ↔ call.allows rounds) (start stop : Nat) :
    repeated counts part start stop ↔
      ∃ total, call.spread reached total ∧ copies word total start stop := by
  constructor
  · rintro ⟨rounds, allowed, matched⟩
    obtain ⟨total, sum, all⟩ := (copies_of_copies copied rounds start stop).mp matched
    exact ⟨total, ⟨rounds, (same rounds).mp allowed, sum⟩, all⟩
  · rintro ⟨total, ⟨rounds, allowed, sum⟩, all⟩
    exact ⟨rounds, (same rounds).mpr allowed,
      (copies_of_copies copied rounds start stop).mpr ⟨total, sum, all⟩⟩

theorem copies_of_text {text value : Text} (stands : ∀ start stop, word start stop ↔
      stop = start + value.length ∧ value <+: text.drop start) (count start stop : Nat) :
    copies word count start stop ↔
      stop = start + (List.replicate count value).flatten.length ∧
        (List.replicate count value).flatten <+: text.drop start := by
  induction count generalizing start with
  | zero => simp [copies, here, eq_comm]
  | succ count inductionHypothesis =>
      rw [List.replicate_succ, List.flatten_cons, List.length_append]
      constructor
      · rintro ⟨middle, once, later⟩
        obtain ⟨rfl, rest, whole⟩ := (stands start middle).mp once
        obtain ⟨rfl, behind⟩ := (inductionHypothesis _).mp later
        refine ⟨Nat.add_assoc .., ?_⟩
        rw [← List.drop_drop, ← whole, List.drop_left] at behind
        rw [← whole]
        exact (List.prefix_append_right_inj value).mpr behind
      · rintro ⟨rfl, rest, whole⟩
        rw [List.append_assoc] at whole
        refine ⟨start + value.length, (stands _ _).mpr ⟨rfl, _, whole⟩, ?_⟩
        refine (inductionHypothesis _).mpr ⟨(Nat.add_assoc ..).symm, rest, ?_⟩
        rw [← List.drop_drop, ← whole, List.drop_left]

end Spans

/-! ### Sketches of repetitions -/

/-- The sketch is nothing but its last token, which matches copies of the word. -/
structure Sketch.Copies (sketch : Sketch) (subject : Array Char) (word : Spans)
    (reached : Nat → Prop) : Prop where
  finished : sketch.finished = []
  enclosing : sketch.enclosing = []
  written : sketch.written = []
  last : ∃ row, sketch.last = some row ∧ ∀ start stop, Node.rowSpans subject row start stop ↔
    ∃ count, reached count ∧ Spans.copies word count start stop

namespace Sketch.Copies

variable {sketch : Sketch} {subject : Array Char} {word : Spans} {reached : Nat → Prop}
  {modes : Modes} {call : Call}

theorem ofText {value : Text} (nonempty : value ≠ []) :
    ((blank 0).edit (.append (Node.ofText modes value))).Copies subject
      (Node.rowSpans subject (Node.ofText modes value)) (· = 1) := by
  have edited : (blank 0).edit (.append (Node.ofText modes value)) =
      { (blank 0).settle with last := some (Node.ofText modes value) } := by
    simp [edit, Node.ofText, nonempty]
  rw [edited]
  refine ⟨rfl, rfl, rfl, _, rfl, ?_⟩
  intro start stop
  constructor
  · intro once
    exact ⟨1, rfl, by rwa [Spans.copies_one]⟩
  · rintro ⟨count, rfl, once⟩
    rwa [Spans.copies_one] at once

theorem quantify (copies : sketch.Copies subject word reached) {quantifier : Quantifier}
    (repeats : call.quantifier? = some quantifier) (ordered : quantifier.isOrdered = true) :
    (sketch.edit (.quantify quantifier)).Copies subject word (call.spread reached) := by
  obtain ⟨row, last, copied⟩ := copies.last
  have edited : sketch.edit (.quantify quantifier) =
      { sketch with last := some [.repetition quantifier.counts row] } := by
    simp only [edit, last, Quantifier.counts]
  rw [edited]
  refine ⟨copies.finished, copies.enclosing, copies.written, _, rfl, ?_⟩
  rw [Node.rowSpans_singleton, Node.spans]
  exact Spans.repeated_of_copies copied (Call.allows_iff repeats ordered)

theorem repetition (copies : sketch.Copies subject word reached)
    (only : call.isRepetition = true) (ordered : call.isOrderedBehind sketch.last = true) :
    (sketch.after modes call).Copies subject word (call.spread reached) := by
  obtain ⟨row, last, _⟩ := copies.last
  rw [last] at ordered
  cases call with
  | repeatPrevious lower upper => exact copies.quantify rfl ordered
  | oneOrMore => exact copies.quantify rfl rfl
  | _ => cases only

theorem repetitions {calls : List Call} (copies : sketch.Copies subject word reached)
    (only : ∀ call ∈ calls, call.isRepetition = true)
    (ordered : sketch.staysOrdered modes calls = true) :
    (sketch.run modes calls).Copies subject word (calls.foldl Call.spread reached) := by
  induction calls generalizing sketch reached with
  | nil => exact copies
  | cons call rest inductionHypothesis =>
      rw [staysOrdered, Bool.and_eq_true] at ordered
      have first : (sketch.after modes call).Copies subject word (call.spread reached) :=
        copies.repetition (only call List.mem_cons_self) ordered.1
      exact inductionHypothesis first
        (fun other member => only other (List.mem_cons_of_mem _ member)) ordered.2

theorem first {value : Text} (writes : call.value? = some value) (nonempty : value ≠ [])
    (ordered : call.isOrderedBehind none = true) :
    ((blank 0).after modes call).Copies subject
      (Node.rowSpans subject (Node.ofText modes value)) (call.spread (· = 1)) := by
  have once : ((blank 0).edit (.append (Node.ofText modes value))).Copies subject
      (Node.rowSpans subject (Node.ofText modes value)) (· = 1) :=
    ofText nonempty
  cases call with
  | literal text =>
      cases writes
      rw [Call.spread_of_single fun _ => Iff.rfl]
      exact once
  | optional text =>
      cases writes
      exact once.quantify rfl rfl
  | multiple text lower upper =>
      cases writes
      have present : value.isEmpty = false := List.isEmpty_eq_false_iff.mpr nonempty
      rw [Call.isOrderedBehind, present, Bool.false_or] at ordered
      exact once.quantify rfl ordered
  | _ => cases writes

theorem choice (copies : sketch.Copies subject word reached) (start stop : Nat) :
    Spans.choice (sketch.branches.map (Node.rowSpans subject)) start stop ↔
      ∃ count, reached count ∧ Spans.copies word count start stop := by
  obtain ⟨row, last, copied⟩ := copies.last
  have single : sketch.branches = [row] := by
    rw [branches, branch, inner, copies.finished, copies.enclosing, copies.written, last]
    rfl
  rw [single, List.map_singleton, Spans.choice_singleton]
  exact copied start stop

end Sketch.Copies

/-! ### Whole matches -/

namespace Phrase

variable {phrase : Phrase} {options : Options} {calls : List Call} {first : Call}
  {repetitions : List Call} {value : Text} {matcher : Matcher}

theorem language_iff_copies [PropertyTable] (run : phrase = (ofOptions options).run calls)
    (body : calls.filter (fun call => call.part = .body) = first :: repetitions)
    (writes : first.value? = some value) (nonempty : value ≠ [])
    (only : ∀ call ∈ repetitions, call.isRepetition = true)
    (startAnchor : phrase.draft.startAnchor = true) (endAnchor : phrase.draft.endAnchor = true)
    (oneLine : phrase.flags.has .multiline = false) (exact : phrase.flags.has .ignoreCase = false)
    {pattern : Pattern} (parsed : Pattern.ofText phrase.source = .ok pattern)
    {subject : Array Char} {start : Nat} (inside : start ≤ subject.size) (stop : Nat) :
    phrase.source.language phrase.flags subject start stop ↔
      start = 0 ∧ stop = subject.size ∧ ∃ count, Call.totals (first :: repetitions) count ∧
        subject.toList = (List.replicate count value).flatten := by
  have cooked : ∀ call ∈ first :: repetitions, call.isRaw = false := by
    intro call member
    rcases List.mem_cons.mp member with same | later
    · rw [same]
      cases first with
      | raw fragment => cases writes
      | _ => rfl
    · have repeats := only call later
      cases call with
      | raw fragment => cases repeats
      | _ => rfl
  obtain ⟨sound, language⟩ :=
    language_of_anchored run body cooked startAnchor endAnchor parsed rfl subject
  rw [Sketch.staysOrdered, Bool.and_eq_true] at sound
  have copies : ((Sketch.blank 0).run (Modes.ofFlags phrase.flags)
      (first :: repetitions)).Copies subject _ (Call.totals (first :: repetitions)) :=
    (Sketch.Copies.first writes nonempty sound.1).repetitions only sound.2
  have word : ∀ start stop, Node.rowSpans subject
      (Node.ofText (Modes.ofFlags phrase.flags) value) start stop ↔
        stop = start + value.length ∧ value <+: subject.toList.drop start :=
    Node.rowSpans_ofText exact value
  have stands (count : Nat) := Spans.copies_of_text word count 0 stop
  rw [language, Modes.holds_caret_of_oneLine oneLine inside,
    Modes.holds_dollar_of_oneLine oneLine, copies.choice]
  constructor
  · rintro ⟨rfl, ends, count, reached, matched⟩
    obtain ⟨rfl, begins⟩ := (stands count).mp matched
    rw [Nat.zero_add] at ends
    have whole := begins.eq_of_length_le ends
    refine ⟨rfl, ?_, count, reached, whole.symm⟩
    rw [Nat.zero_add, whole]
    rfl
  · rintro ⟨rfl, rfl, count, reached, whole⟩
    refine ⟨rfl, Nat.le_refl _, count, reached, (stands count).mpr ?_⟩
    rw [← whole, Nat.zero_add]
    exact ⟨rfl, List.prefix_refl _⟩

/-- A text that is repeated between both anchors, and repeated again and again, matches its copies
and nothing else. Their numbers add up from one quantifier to the next. -/
theorem isMatch_iff_copies [PropertyTable] [SizeRule] (run : phrase = (ofOptions options).run calls)
    (body : calls.filter (fun call => call.part = .body) = first :: repetitions)
    (writes : first.value? = some value) (nonempty : value ≠ [])
    (only : ∀ call ∈ repetitions, call.isRepetition = true)
    (startAnchor : phrase.draft.startAnchor = true) (endAnchor : phrase.draft.endAnchor = true)
    (oneLine : phrase.flags.has .multiline = false)
    (exact : phrase.flags.has .ignoreCase = false) (free : phrase.flags.has .sticky = false)
    (compiled : phrase.compile = .ok matcher) (subject : Array Char) :
    matcher.isMatch subject = true ↔
      ∃ count, Call.totals (first :: repetitions) count ∧
        subject.toList = (List.replicate count value).flatten := by
  obtain ⟨_, flags, assembled⟩ := Matcher.compile_eq_ok_iff.mp compiled
  obtain ⟨pattern, parsed⟩ := parses_of_compile compiled
  have language {start : Nat} (inside : start ≤ subject.size) (stop : Nat) :=
    language_iff_copies run body writes nonempty only startAnchor endAnchor oneLine exact parsed
      inside stop
  rw [Matcher.isMatch_eq_isSome_exec, Matcher.exec_of_not_sticky subject (flags ▸ free),
    Program.isSome_search_iff_exists]
  constructor
  · rintro ⟨start, found⟩
    obtain ⟨inside, stop, matched⟩ := (Program.isSome_matchAt_of_compile assembled start).mp found
    exact ((language inside stop).mp matched).2.2
  · intro copies
    have start := Nat.zero_le subject.size
    exact ⟨0, (Program.isSome_matchAt_of_compile assembled 0).mpr
      ⟨start, subject.size, (language start subject.size).mpr ⟨rfl, rfl, copies⟩⟩⟩

/-- Twice or three times two copies of a text: four and six are, five are not. -/
theorem isMatch_iff_copies_of_requantified :
    ∃ matcher, (initial.run [.searchOneLine true, .startOfLine true, .endOfLine true,
        .multiple "a.".toList (some 2) (some 2), .repeatPrevious 2 (some 3)]).compile =
          .ok matcher ∧
      matcher.isMatch "a.a.a.a.a.a.".toList.toArray = true ∧
      matcher.isMatch "a.a.a.a.a.".toList.toArray = false := by
  let phrase := initial.run [.searchOneLine true, .startOfLine true, .endOfLine true,
    .multiple "a.".toList (some 2) (some 2), .repeatPrevious 2 (some 3)]
  have compiles : phrase.compile.toOption.isSome = true := by decide +kernel
  cases compiled : phrase.compile with
  | error cause =>
      rw [compiled] at compiles
      cases compiles
  | ok matcher =>
      have matched := isMatch_iff_copies (rfl : phrase = _) rfl rfl (by decide) (by decide)
        (by decide +kernel) (by decide +kernel) (by decide +kernel) (by decide +kernel)
        (by decide +kernel) compiled
      have pairs (count : Nat) :
          Call.spread (· = 1) (.multiple "a.".toList (some 2) (some 2)) count ↔ count = 2 := by
        simp only [Call.spread, isSum_of_single fun _ => Iff.rfl, Nat.mul_one]
        constructor
        · rintro ⟨rounds, ⟨enough, few⟩, rfl⟩
          exact Nat.le_antisymm few enough
        · rintro rfl
          exact ⟨2, ⟨Nat.le_refl _, Nat.le_refl _⟩, rfl⟩
      refine ⟨matcher, rfl, ?_, ?_⟩
      · refine (matched _).mpr ⟨6, ⟨3, ⟨by decide, by decide⟩, ?_⟩, rfl⟩
        exact (isSum_of_single pairs 3 6).mpr rfl
      · apply Bool.eq_false_iff.mpr
        rw [ne_eq, matched]
        rintro ⟨count, ⟨rounds, _, sum⟩, whole⟩
        have even := (isSum_of_single pairs rounds count).mp sum
        have length := congrArg List.length whole
        simp at length
        omega

end Phrase
end ReadableRegex

import ReadableRegex.Proofs.Anchored
import ReadableRegex.Proofs.LiteralSearch

/-!
A text between both anchors. If the subject is searched as one line, it has to be the text. If it is
searched by lines, the text has to fill some of them, from the start of a line to the end of a line;
neither lies within a pair of return and feed, also where the text has line breaks of its own.
-/

namespace ReadableRegex

/-! ### Lines -/

namespace Text

def StartsLine (before after : Text) : Prop :=
  before = [] ∨ before.getLast? = some '\n' ∨
    (before.getLast? = some '\r' ∧ after.head? ≠ some '\n')

def EndsLine (before after : Text) : Prop :=
  after = [] ∨ after.head? = some '\r' ∨
    (after.head? = some '\n' ∧ before.getLast? ≠ some '\r')

/-- The position lies within a pair of return and feed. -/
def SplitsBreak (text : Text) (position : Nat) : Prop :=
  ∃ before after, text = before ++ '\r' :: '\n' :: after ∧ position = before.length + 1

variable {text before after : Text}

theorem cut_of_splitsBreak (cut : text = before ++ after) (splits : text.SplitsBreak before.length) :
    before.getLast? = some '\r' ∧ after.head? = some '\n' := by
  obtain ⟨front, rest, whole, place⟩ := splits
  have shape : front ++ ['\r'] ++ '\n' :: rest = before ++ after := by
    rw [← cut, whole, List.append_assoc]
    rfl
  have length : (front ++ ['\r']).length = before.length := by
    rw [place, List.length_append]
    rfl
  obtain ⟨sameBefore, sameAfter⟩ := List.append_inj shape length
  rw [← sameBefore, ← sameAfter, List.getLast?_concat]
  exact ⟨rfl, rfl⟩

theorem StartsLine.not_splitsBreak (starts : StartsLine before after)
    (cut : text = before ++ after) : ¬ text.SplitsBreak before.length := by
  intro splits
  obtain ⟨ends, begins⟩ := cut_of_splitsBreak cut splits
  rcases starts with empty | feed | ⟨_, apart⟩
  · rw [empty] at ends
    cases ends
  · rw [ends] at feed
    cases feed
  · exact apart begins

theorem EndsLine.not_splitsBreak (ends : EndsLine before after)
    (cut : text = before ++ after) : ¬ text.SplitsBreak before.length := by
  intro splits
  obtain ⟨last, begins⟩ := cut_of_splitsBreak cut splits
  rcases ends with empty | feed | ⟨_, apart⟩
  · rw [empty] at begins
    cases begins
  · rw [begins] at feed
    cases feed
  · exact apart last

end Text

/-! ### Anchors between texts -/

section

variable {subject : Array Char} {before after : Text}

theorem Spans.before_eq_getLast? (cut : subject.toList = before ++ after) :
    Spans.before subject before.length = before.getLast? := by
  unfold Spans.before
  split
  · next empty =>
      rw [List.length_eq_zero_iff.mp empty]
      rfl
  · next present =>
      have inside : before.length - 1 < before.length := by omega
      rw [← Array.getElem?_toList, cut, List.getElem?_append_left inside,
        List.getLast?_eq_getElem?]

theorem getElem?_of_cut (cut : subject.toList = before ++ after) :
    subject[before.length]? = after.head? := by
  rw [← Array.getElem?_toList, cut, List.getElem?_append_right (Nat.le_refl _), Nat.sub_self,
    List.head?_eq_getElem?]

end

namespace FlagSet

variable {flags : FlagSet} {before after : Text}

/-- Whether a match may begin between the two texts. -/
def AllowsStart (flags : FlagSet) (before after : Text) : Prop :=
  if flags.has .multiline then Text.StartsLine before after else before = []

/-- Whether a match may end between the two texts. -/
def AllowsEnd (flags : FlagSet) (before after : Text) : Prop :=
  if flags.has .multiline then Text.EndsLine before after else after = []

theorem holds_caret_iff (flags : FlagSet) (before after : Text) :
    ((Modes.ofFlags flags).anchor .caret).holds before.getLast? after.head? = true ↔
      flags.AllowsStart before after := by
  unfold AllowsStart
  cases lines : flags.has .multiline with
  | false => simp [Modes.anchor, Modes.ofFlags, lines, Look.holds]
  | true => simp [Modes.anchor, Modes.ofFlags, lines, Look.holds, Text.StartsLine, or_assoc]

theorem holds_dollar_iff (flags : FlagSet) (before after : Text) :
    ((Modes.ofFlags flags).anchor .dollar).holds before.getLast? after.head? = true ↔
      flags.AllowsEnd before after := by
  unfold AllowsEnd
  cases lines : flags.has .multiline with
  | false => simp [Modes.anchor, Modes.ofFlags, lines, Look.holds]
  | true => simp [Modes.anchor, Modes.ofFlags, lines, Look.holds, Text.EndsLine, or_assoc]

/-- Where a match may begin a line starts, for a subject that is one line starts one. -/
theorem AllowsStart.startsLine (allows : flags.AllowsStart before after) :
    Text.StartsLine before after := by
  unfold AllowsStart at allows
  split at allows
  · exact allows
  · exact Or.inl allows

theorem AllowsEnd.endsLine (allows : flags.AllowsEnd before after) :
    Text.EndsLine before after := by
  unfold AllowsEnd at allows
  split at allows
  · exact allows
  · exact Or.inl allows

end FlagSet

/-! ### Whole lines -/

namespace Phrase

variable {phrase : Phrase} {options : Options} {calls : List Call} {value : Text}
  {matcher : Matcher}

theorem language_of_anchored_literal [PropertyTable] [SizeRule]
    (run : phrase = (ofOptions options).run calls)
    (only : calls.filter (fun call => call.part = .body) = [.literal value])
    (startAnchor : phrase.draft.startAnchor = true) (endAnchor : phrase.draft.endAnchor = true)
    (exact : phrase.flags.has .ignoreCase = false) (compiled : phrase.compile = .ok matcher)
    (subject : Array Char) {start : Nat} (inside : start ≤ subject.size) (stop : Nat) :
    phrase.source.language phrase.flags subject start stop ↔
      ∃ before after, subject.toList = before ++ value ++ after ∧ start = before.length ∧
        stop = (before ++ value).length ∧ phrase.flags.AllowsStart before (value ++ after) ∧
        phrase.flags.AllowsEnd (before ++ value) after := by
  have cooked : ∀ call ∈ [Call.literal value], call.isRaw = false :=
    List.forall_mem_singleton.mpr rfl
  obtain ⟨pattern, parsed⟩ := parses_of_compile compiled
  have language := (language_of_anchored run only cooked startAnchor endAnchor parsed rfl subject).2
  have branches : ((Sketch.blank 0).run (Modes.ofFlags phrase.flags) [.literal value]).branches =
      [Node.ofText (Modes.ofFlags phrase.flags) value] :=
    Sketch.branches_append_blank _
  rw [language, branches, List.map_singleton, Spans.choice_singleton, Node.rowSpans_ofText exact]
  constructor
  · intro matched
    obtain ⟨caret, dollar, length, after, stands⟩ := matched
    have place : (subject.toList.take start).length = start := List.length_take_of_le inside
    have cut : subject.toList = subject.toList.take start ++ (value ++ after) := by
      rw [stands, List.take_append_drop]
    have later : subject.toList = subject.toList.take start ++ value ++ after := by
      rw [List.append_assoc]
      exact cut
    have ends : stop = (subject.toList.take start ++ value).length := by
      rw [length, List.length_append, place]
    refine ⟨subject.toList.take start, after, later, place.symm, ends, ?_, ?_⟩
    · rw [← FlagSet.holds_caret_iff, ← Spans.before_eq_getLast? cut, ← getElem?_of_cut cut, place]
      exact caret
    · rw [← FlagSet.holds_dollar_iff, ← Spans.before_eq_getLast? later, ← getElem?_of_cut later,
        ← ends]
      exact dollar
  · intro filled
    obtain ⟨before, after, later, first, last, starts, ends⟩ := filled
    have cut : subject.toList = before ++ (value ++ after) := by
      rw [later, List.append_assoc]
    rw [← FlagSet.holds_caret_iff, ← Spans.before_eq_getLast? cut, ← getElem?_of_cut cut,
      ← first] at starts
    rw [← FlagSet.holds_dollar_iff, ← Spans.before_eq_getLast? later, ← getElem?_of_cut later,
      ← last] at ends
    rw [last, List.length_append, ← first] at ends ⊢
    refine ⟨starts, ends, rfl, after, ?_⟩
    rw [cut, first, List.drop_left]

/-- The subject matches if it can be cut so that the text stands between cuts that the anchors
allow. -/
theorem isMatch_iff_cut [PropertyTable] [SizeRule] (run : phrase = (ofOptions options).run calls)
    (only : calls.filter (fun call => call.part = .body) = [.literal value])
    (startAnchor : phrase.draft.startAnchor = true) (endAnchor : phrase.draft.endAnchor = true)
    (exact : phrase.flags.has .ignoreCase = false) (free : phrase.flags.has .sticky = false)
    (compiled : phrase.compile = .ok matcher) (subject : Array Char) :
    matcher.isMatch subject = true ↔
      ∃ before after, subject.toList = before ++ value ++ after ∧
        phrase.flags.AllowsStart before (value ++ after) ∧
        phrase.flags.AllowsEnd (before ++ value) after := by
  have language {start : Nat} (inside : start ≤ subject.size) (stop : Nat) :=
    language_of_anchored_literal run only startAnchor endAnchor exact compiled subject inside stop
  rw [isMatch_iff_language compiled free]
  constructor
  · intro found
    obtain ⟨start, inside, stop, matched⟩ := found
    obtain ⟨before, after, cut, _, _, allowed⟩ := (language inside stop).mp matched
    exact ⟨before, after, cut, allowed⟩
  · intro filled
    obtain ⟨before, after, cut, allowed⟩ := filled
    have inside : before.length ≤ subject.size := by
      rw [← Array.length_toList, cut, List.append_assoc, List.length_append]
      exact Nat.le_add_right _ _
    exact ⟨_, inside, _, (language inside _).mpr ⟨before, after, cut, rfl, rfl, allowed⟩⟩

theorem hits_of_anchored_literal [PropertyTable] [SizeRule]
    (run : phrase = (ofOptions options).run calls)
    (only : calls.filter (fun call => call.part = .body) = [.literal value])
    (startAnchor : phrase.draft.startAnchor = true) (endAnchor : phrase.draft.endAnchor = true)
    (exact : phrase.flags.has .ignoreCase = false) (compiled : phrase.compile = .ok matcher)
    {subject : Array Char} {hit : Hit subject} (member : hit ∈ matcher.hits subject) :
    hit.text = value ∧ ¬ Text.SplitsBreak subject.toList hit.start ∧
      ¬ Text.SplitsBreak subject.toList hit.stop := by
  have inside := Nat.le_trans hit.start_le_stop hit.stop_le_size
  have assembled := (Matcher.compile_eq_ok_iff.mp compiled).2.2
  have matched := Program.language_of_matchAt assembled (Matcher.matchAt_of_mem_hits member)
  obtain ⟨before, after, cut, first, last, starts, ends⟩ :=
    (language_of_anchored_literal run only startAnchor endAnchor exact compiled subject inside
      hit.stop).mp matched
  have early : subject.toList = before ++ (value ++ after) := by
    rw [cut, List.append_assoc]
  refine ⟨?_, ?_, ?_⟩
  · rw [Hit.text, Hit.between_eq_take, early, last, first, List.length_append, List.drop_left,
      Nat.add_sub_cancel_left, List.take_left]
  · rw [first]
    exact starts.startsLine.not_splitsBreak early
  · rw [last]
    exact ends.endsLine.not_splitsBreak cut

/-- A text between both anchors matches just itself if the subject is searched as one line, and
whole lines otherwise. No match begins or ends within a pair of return and feed. -/
theorem isMatch_iff_lines [PropertyTable] [SizeRule] (run : phrase = (ofOptions options).run calls)
    (only : calls.filter (fun call => call.part = .body) = [.literal value])
    (startAnchor : phrase.draft.startAnchor = true) (endAnchor : phrase.draft.endAnchor = true)
    (exact : phrase.flags.has .ignoreCase = false) (free : phrase.flags.has .sticky = false)
    (compiled : phrase.compile = .ok matcher) (subject : Array Char) :
    (phrase.flags.has .multiline = false →
      (matcher.isMatch subject = true ↔ subject.toList = value)) ∧
    (phrase.flags.has .multiline = true →
      (matcher.isMatch subject = true ↔
        ∃ before after, subject.toList = before ++ value ++ after ∧
          Text.StartsLine before (value ++ after) ∧ Text.EndsLine (before ++ value) after)) ∧
    ∀ hit ∈ matcher.hits subject, hit.text = value ∧
      ¬ Text.SplitsBreak subject.toList hit.start ∧
      ¬ Text.SplitsBreak subject.toList hit.stop := by
  have cuts := isMatch_iff_cut run only startAnchor endAnchor exact free compiled subject
  refine ⟨?_, ?_, ?_⟩
  · intro oneLine
    simp [cuts, FlagSet.AllowsStart, FlagSet.AllowsEnd, oneLine]
  · intro lines
    simp only [cuts, FlagSet.AllowsStart, FlagSet.AllowsEnd, lines, if_true]
  · intro hit member
    exact hits_of_anchored_literal run only startAnchor endAnchor exact compiled member

/-- A return that ends the text does not end a line if a feed follows it. -/
theorem isMatch_iff_lines_of_return :
    ∃ matcher, (initial.run [.startOfLine true, .literal "b\r".toList, .endOfLine true]).compile =
        .ok matcher ∧
      matcher.isMatch "a\r\nb\r\rc".toList.toArray = true ∧
      matcher.isMatch "b\r\n".toList.toArray = false := by
  let phrase := initial.run [.startOfLine true, .literal "b\r".toList, .endOfLine true]
  have compiles : phrase.compile.toOption.isSome = true := by decide +kernel
  cases compiled : phrase.compile with
  | error cause =>
      rw [compiled] at compiles
      cases compiles
  | ok matcher =>
      have lines (subject : Array Char) := (isMatch_iff_lines (rfl : phrase = _) rfl
        (by decide +kernel) (by decide +kernel) (by decide +kernel) (by decide +kernel)
        compiled subject).2.1 (by decide +kernel)
      refine ⟨matcher, rfl, ?_, ?_⟩
      · exact (lines _).mpr ⟨"a\r\n".toList, "\rc".toList, rfl, Or.inr (Or.inl rfl),
          Or.inr (Or.inl rfl)⟩
      · apply Bool.eq_false_iff.mpr
        rw [ne_eq, lines]
        intro filled
        obtain ⟨before, after, cut, _, ends⟩ := filled
        cases before with
        | nil =>
            obtain rfl : ['\n'] = after := by simpa using cut
            revert ends
            simp [Text.EndsLine]
        | cons head tail =>
            cases tail with
            | nil => simp at cut
            | cons second rest =>
                have length := congrArg List.length cut
                simp at length
                omega

end Phrase
end ReadableRegex

import ReadableRegex.Proofs.Alternation.Branches
import ReadableRegex.Proofs.Alternation.Continuing
import ReadableRegex.Proofs.Language.OfText

/-!
A run with another alternative in it, split there. Its text is the text of what comes before, then
a bar, then the text that the rest writes on a fresh phrase; read as a pattern, it is one group
around all alternatives, and its language is the union of the languages of the two parts.
-/

namespace ReadableRegex

open Pattern (ofParts ofAlternatives)

/-! ### Languages of drafts -/

def Draft.unanchored (draft : Draft) : Draft :=
  (draft.setStartAnchor false).setEndAnchor false

namespace Sketch

variable {modes : Modes} {subject : Array Char}

/-- Anchors are checked around the choice, for every alternative alike. -/
theorem rowSpans_row (sketch : Sketch) (start stop : Nat) :
    Node.rowSpans subject (sketch.row modes) start stop ↔
      (sketch.startAnchor = true →
        (modes.anchor .caret).holds (Spans.before subject start) subject[start]? = true) ∧
      (sketch.endAnchor = true →
        (modes.anchor .dollar).holds (Spans.before subject stop) subject[stop]? = true) ∧
      Spans.choice (sketch.branches.map (Node.rowSpans subject)) start stop := by
  have anchored (enabled : Bool) (assertion : Anchor) (first last : Nat) :
      Node.rowSpans subject (if enabled then [.anchor modes assertion] else []) first last ↔
        first = last ∧ (enabled = true →
          (modes.anchor assertion).holds (Spans.before subject first) subject[first]? = true) := by
    cases enabled with
    | false =>
        constructor
        · intro same
          exact ⟨same, fun impossible => by cases impossible⟩
        · intro both
          exact both.1
    | true =>
        rw [if_pos rfl, Node.rowSpans_singleton]
        constructor
        · rintro ⟨same, holds⟩
          exact ⟨same, fun _ => holds⟩
        · rintro ⟨same, holds⟩
          exact ⟨same, holds rfl⟩
  unfold row
  rw [Node.rowSpans_append, Node.rowSpans_append, Node.rowSpans_ofBranches]
  constructor
  · rintro ⟨late, ⟨early, front, inside⟩, back⟩
    obtain ⟨sameStart, caret⟩ := (anchored _ _ _ _).mp front
    obtain ⟨sameStop, dollar⟩ := (anchored _ _ _ _).mp back
    subst sameStart sameStop
    exact ⟨caret, dollar, inside⟩
  · rintro ⟨caret, dollar, inside⟩
    exact ⟨stop, ⟨start, (anchored _ _ _ _).mpr ⟨rfl, caret⟩, inside⟩,
      (anchored _ _ _ _).mpr ⟨rfl, dollar⟩⟩

end Sketch

namespace Follows

variable [PropertyTable] {draft : Draft} {sketch : Sketch} {sound : Bool} {modes : Modes}
  {flags : FlagSet} {subject : Array Char}

theorem setClosesCaptures (follows : Follows modes draft sketch sound) (enabled : Bool) :
    Follows modes (draft.setClosesCaptures enabled) sketch sound :=
  ⟨follows.startAnchor, follows.endAnchor, follows.alternating, follows.separate, follows.parts⟩

theorem language (follows : Follows (Modes.ofFlags flags) draft sketch true)
    (closed : draft.closesCaptures = true ∨ draft.enclosing = []) :
    draft.render.language flags subject =
      Node.rowSpans subject (sketch.row (Modes.ofFlags flags)) := by
  cases follows.legible_render closed with
  | good whole =>
      obtain ⟨parts, written, read⟩ := whole
      rw [Text.language_eq read (.ofParts written.steady_anchored), written.outline_anchored]

theorem language_unanchored (follows : Follows (Modes.ofFlags flags) draft sketch true)
    (closed : draft.closesCaptures = true ∨ draft.enclosing = []) :
    draft.unanchored.render.language flags subject =
      Spans.choice (sketch.branches.map (Node.rowSpans subject)) := by
  have bare := (follows.setStartAnchor false).setEndAnchor false
  have meant : draft.unanchored.render.language flags subject = _ := bare.language closed
  apply Spans.ext
  intro start stop
  rw [meant, Sketch.rowSpans_row]
  constructor
  · rintro ⟨_, _, inside⟩
    exact inside
  · intro inside
    refine ⟨?_, ?_, inside⟩
    · intro anchored
      cases anchored
    · intro anchored
      cases anchored

end Follows

/-! ### The group around the alternatives -/

namespace Pattern

/-- Alternatives can be told apart if none is a choice. -/
theorem ofAlternatives_injective {lefts rights : List Pattern} (leftPresent : lefts ≠ [])
    (rightPresent : rights ≠ [])
    (leftSingle : ∀ part ∈ lefts, ∀ first rest, part ≠ .choice first rest)
    (rightSingle : ∀ part ∈ rights, ∀ first rest, part ≠ .choice first rest)
    (same : ofAlternatives lefts = ofAlternatives rights) : lefts = rights := by
  induction lefts generalizing rights with
  | nil => exact absurd rfl leftPresent
  | cons left others inductionHypothesis =>
      cases rights with
      | nil => exact absurd rfl rightPresent
      | cons right remaining =>
          cases others with
          | nil =>
              cases remaining with
              | nil =>
                  have only : left = right := same
                  rw [only]
              | cons next rest => exact absurd same (leftSingle left List.mem_cons_self _ _)
          | cons second more =>
              cases remaining with
              | nil => exact absurd same.symm (rightSingle right List.mem_cons_self _ _)
              | cons next rest =>
                  have both : Pattern.choice left (ofAlternatives (second :: more)) =
                    .choice right (ofAlternatives (next :: rest)) := same
                  injection both with first later
                  rw [first, inductionHypothesis (List.cons_ne_nil _ _) (List.cons_ne_nil _ _)
                    (fun part member => leftSingle part (List.mem_cons_of_mem _ member))
                    (fun part member => rightSingle part (List.mem_cons_of_mem _ member)) later]

theorem ofParts_injective {startAnchor endAnchor : Bool} {left right : Pattern}
    (same : ofParts (anchorParts startAnchor .caret ++ ([left] ++ anchorParts endAnchor .dollar)) =
      ofParts (anchorParts startAnchor .caret ++ ([right] ++ anchorParts endAnchor .dollar))) :
    left = right := by
  cases startAnchor <;> cases endAnchor
  · exact same
  · injection same
  · injection same
  · injection same with _ inner
    injection inner

end Pattern

namespace Phrase

variable {options : Options} {earlier later : List Call} {value : Text} {whole left right : Phrase}

theorem body_alternative
    (wholeRun : whole = (ofOptions options).run (earlier ++ .alternative value :: later))
    (leftRun : left = (ofOptions options).run earlier)
    (rightRun : right = (ofOptions options).run (.literal value :: later)) :
    whole.draft.body = (left.draft.setClosesCaptures true).body ++ '|' :: right.draft.body := by
  have continues := continues_run options earlier value later
  rw [← wholeRun, ← leftRun, ← rightRun] at continues
  have leftBody : (left.draft.setClosesCaptures true).body =
      left.draft.finished.flatMap (fun alternative => alternative ++ ['|']) ++
        left.draft.branch ++ left.draft.closers := rfl
  rw [continues.body, leftBody, List.flatMap_append]
  simp

theorem isAlternating_alternative
    (wholeRun : whole = (ofOptions options).run (earlier ++ .alternative value :: later)) :
    whole.draft.isAlternating = true := by
  have continues := continues_run options earlier value later
  rw [← wholeRun] at continues
  unfold Draft.isAlternating
  rw [continues.finished]
  simp

theorem follows_of_run [PropertyTable] {calls : List Call}
    (ran : whole = (ofOptions options).run calls) (cooked : ∀ call ∈ calls, call.isRaw = false)
    (flags : FlagSet) :
    Follows (Modes.ofFlags flags) whole.draft ((Sketch.blank 0).run (Modes.ofFlags flags) calls)
      ((Sketch.blank 0).staysOrdered (Modes.ofFlags flags) calls) := by
  rw [ran]
  exact follows_run options cooked (Modes.usual_ofFlags flags)

section Cooked

variable (cooked : ∀ call ∈ earlier ++ later, call.isRaw = false)

include cooked

theorem cooked_whole (value : Text) :
    ∀ call ∈ earlier ++ .alternative value :: later, call.isRaw = false := by
  intro call member
  rcases List.mem_append.mp member with before | behind
  · exact cooked call (List.mem_append_left _ before)
  · rcases List.mem_cons.mp behind with same | after
    · rw [same]
      rfl
    · exact cooked call (List.mem_append_right _ after)

theorem cooked_right (value : Text) : ∀ call ∈ .literal value :: later, call.isRaw = false := by
  intro call member
  rcases List.mem_cons.mp member with same | after
  · rw [same]
    rfl
  · exact cooked call (List.mem_append_right _ after)

variable [PropertyTable]

/-- A text with another alternative is read as one group between the anchors, with one
alternative more than there are calls that start one. -/
theorem group_of_parses
    (wholeRun : whole = (ofOptions options).run (earlier ++ .alternative value :: later))
    {pattern : Pattern} (parsed : Pattern.ofText whole.source = .ok pattern) :
    ∃ alternatives : List Pattern,
      pattern = ofParts (anchorParts whole.draft.startAnchor .caret ++
        ([.group (.plain []) (ofAlternatives alternatives)] ++
          anchorParts whole.draft.endAnchor .dollar)) ∧
      alternatives.length =
        (earlier ++ .alternative value :: later).countP Call.isAlternative + 1 ∧
      (∀ part ∈ alternatives, ∀ first rest, part ≠ .choice first rest) ∧
      ∀ flags : FlagSet, alternatives.map (Pattern.outline (Modes.ofFlags flags)) =
        ((Sketch.blank 0).run (Modes.ofFlags flags)
          (earlier ++ .alternative value :: later)).branches := by
  have grouped (flags : FlagSet) : ∃ alternatives : List Pattern,
      pattern = ofParts (anchorParts whole.draft.startAnchor .caret ++
        ([.group (.plain []) (ofAlternatives alternatives)] ++
          anchorParts whole.draft.endAnchor .dollar)) ∧
      (∀ part ∈ alternatives, ∀ first rest, part ≠ .choice first rest) ∧
      alternatives.map (Pattern.outline (Modes.ofFlags flags)) =
        ((Sketch.blank 0).run (Modes.ofFlags flags)
          (earlier ++ .alternative value :: later)).branches := by
    have follows := follows_of_run wholeRun (cooked_whole cooked value) flags
    obtain ⟨_, _, parts, written, shape⟩ := follows.written_of_parses parsed
    have several : ((Sketch.blank 0).run (Modes.ofFlags flags)
        (earlier ++ .alternative value :: later)).finished ≠ [] := by
      intro none
      have alternating := isAlternating_alternative wholeRun
      unfold Draft.isAlternating at alternating
      rw [follows.alternating.mpr none] at alternating
      cases alternating
    obtain ⟨alternatives, same, steady, outlines⟩ := written.grouped several
    refine ⟨alternatives, ?_, fun part member => (steady part member).ne_choice, outlines⟩
    rw [shape, same, follows.startAnchor, follows.endAnchor]
  have length {flags : FlagSet} {alternatives : List Pattern}
      (outlines : alternatives.map (Pattern.outline (Modes.ofFlags flags)) =
        ((Sketch.blank 0).run (Modes.ofFlags flags)
          (earlier ++ .alternative value :: later)).branches) :
      alternatives.length =
        (earlier ++ .alternative value :: later).countP Call.isAlternative + 1 := by
    have count := Sketch.length_branches_run (Modes.ofFlags flags) (Sketch.blank 0)
      (earlier ++ .alternative value :: later)
    rw [← outlines, List.length_map] at count
    rw [count]
    exact congrArg (· + 1) (Nat.zero_add _)
  obtain ⟨alternatives, shape, single, outlines⟩ := grouped FlagSet.empty
  refine ⟨alternatives, shape, length outlines, single, ?_⟩
  -- The pattern is the same under all flags, and so are its alternatives.
  intro flags
  obtain ⟨others, otherShape, otherSingle, otherOutlines⟩ := grouped flags
  have same : ofAlternatives alternatives = ofAlternatives others := by
    have groups := Pattern.ofParts_injective (shape.symm.trans otherShape)
    injection groups
  have present :=
    List.length_pos_iff.mp (Nat.lt_of_lt_of_eq (Nat.succ_pos _) (length outlines).symm)
  have otherPresent :=
    List.length_pos_iff.mp (Nat.lt_of_lt_of_eq (Nat.succ_pos _) (length otherOutlines).symm)
  rw [Pattern.ofAlternatives_injective present otherPresent single otherSingle same]
  exact otherOutlines

theorem language_of_parses
    (wholeRun : whole = (ofOptions options).run (earlier ++ .alternative value :: later))
    (leftRun : left = (ofOptions options).run earlier)
    (rightRun : right = (ofOptions options).run (.literal value :: later))
    {pattern : Pattern} (parsed : Pattern.ofText whole.source = .ok pattern) (flags : FlagSet)
    (subject : Array Char) (start stop : Nat) :
    whole.source.language flags subject start stop ↔
      (whole.draft.startAnchor = true → ((Modes.ofFlags flags).anchor .caret).holds
        (Spans.before subject start) subject[start]? = true) ∧
      (whole.draft.endAnchor = true → ((Modes.ofFlags flags).anchor .dollar).holds
        (Spans.before subject stop) subject[stop]? = true) ∧
      ((left.draft.setClosesCaptures true).unanchored.render.language flags subject start stop ∨
        right.draft.unanchored.render.language flags subject start stop) := by
  have follows := follows_of_run wholeRun (cooked_whole cooked value) flags
  have leftFollows := follows_of_run leftRun
    (fun call member => cooked call (List.mem_append_left later member)) flags
  have rightFollows := follows_of_run rightRun (cooked_right cooked value) flags
  obtain ⟨sound, closed, _⟩ := follows.written_of_parses parsed
  have bothSound := sound
  rw [Sketch.staysOrdered_alternative, Bool.and_eq_true] at bothSound
  rw [sound] at follows
  rw [bothSound.1] at leftFollows
  rw [bothSound.2] at rightFollows
  have continues := continues_run options earlier value later
  rw [← wholeRun, ← leftRun, ← rightRun] at continues
  rw [continues.closesCaptures, continues.enclosing] at closed
  have sketches := (Sketch.continues_run (Modes.ofFlags flags) subject (Sketch.blank 0) earlier
    value later).branches
  have wholeClosed : whole.draft.closesCaptures = true ∨ whole.draft.enclosing = [] := by
    rw [continues.closesCaptures, continues.enclosing]
    exact closed
  have language : whole.source.language flags subject = _ := follows.language wholeClosed
  rw [language, (leftFollows.setClosesCaptures true).language_unanchored (Or.inl rfl),
    rightFollows.language_unanchored closed, Sketch.rowSpans_row, sketches, Spans.choice_append,
    follows.startAnchor, follows.endAnchor]
  exact Iff.rfl

end Cooked

/-- Another alternative splits a run in two: the texts are joined by a bar, what is still open is
what the second part leaves open, and if the text is a pattern, it is one group of all
alternatives whose language is the union of those of the parts. -/
theorem joins_at_alternative [PropertyTable]
    (wholeRun : whole = (ofOptions options).run (earlier ++ .alternative value :: later))
    (leftRun : left = (ofOptions options).run earlier)
    (rightRun : right = (ofOptions options).run (.literal value :: later)) :
    whole.draft.body = (left.draft.setClosesCaptures true).body ++ '|' :: right.draft.body ∧
    whole.draft.last = right.draft.last ∧
    whole.draft.lastHandle = right.draft.lastHandle.map (fun handle =>
      { handle with branch := left.draft.finished.length + 1 + handle.branch }) ∧
    whole.draft.openCaptures = right.draft.openCaptures ∧
    whole.draft.openOffsets = right.draft.openOffsets ∧
    whole.draft.opening =
      (if whole.draft.startAnchor then ['^'] else []) ++ ['(', '?', ':'] ∧
    whole.draft.closing = [')'] ++ (if whole.draft.endAnchor then ['$'] else []) ∧
    ((∀ call ∈ earlier ++ later, call.isRaw = false) →
      ∀ pattern, Pattern.ofText whole.source = .ok pattern →
        (∃ alternatives : List Pattern,
          pattern = ofParts (anchorParts whole.draft.startAnchor .caret ++
            ([.group (.plain []) (ofAlternatives alternatives)] ++
              anchorParts whole.draft.endAnchor .dollar)) ∧
          alternatives.length =
            (earlier ++ .alternative value :: later).countP Call.isAlternative + 1 ∧
          (∀ part ∈ alternatives, ∀ first rest, part ≠ .choice first rest) ∧
          ∀ flags : FlagSet, alternatives.map (Pattern.outline (Modes.ofFlags flags)) =
            ((Sketch.blank 0).run (Modes.ofFlags flags)
              (earlier ++ .alternative value :: later)).branches) ∧
        ∀ (flags : FlagSet) (subject : Array Char) (start stop : Nat),
          whole.source.language flags subject start stop ↔
            (whole.draft.startAnchor = true → ((Modes.ofFlags flags).anchor .caret).holds
              (Spans.before subject start) subject[start]? = true) ∧
            (whole.draft.endAnchor = true → ((Modes.ofFlags flags).anchor .dollar).holds
              (Spans.before subject stop) subject[stop]? = true) ∧
            ((left.draft.setClosesCaptures true).unanchored.render.language flags subject
                start stop ∨
              right.draft.unanchored.render.language flags subject start stop)) := by
  have continues := continues_run options earlier value later
  rw [← wholeRun, ← leftRun, ← rightRun] at continues
  have alternating := isAlternating_alternative wholeRun
  refine ⟨body_alternative wholeRun leftRun rightRun, continues.last, ?_,
    continues.openCaptures, continues.openOffsets, ?_, ?_, ?_⟩
  · rw [continues.lastHandle, List.length_append]
    rfl
  · unfold Draft.opening
    rw [alternating, if_pos rfl]
  · unfold Draft.closing
    rw [alternating, if_pos rfl]
  · intro cooked pattern parsed
    exact ⟨group_of_parses cooked wholeRun parsed,
      language_of_parses cooked wholeRun leftRun rightRun parsed⟩

/-- A capture left open before the first bar, and a third alternative behind it. -/
theorem joins_at_alternative_of_open :
    ∃ alternatives : List Pattern, alternatives.length = 3 ∧
      Pattern.ofText "^(?:(a)|b+|c)$".toList =
        .ok (ofParts [.anchor .caret, .group (.plain []) (ofAlternatives alternatives),
          .anchor .dollar]) ∧
      ∀ (flags : FlagSet) (subject : Array Char) (start stop : Nat),
        Text.language "^(?:(a)|b+|c)$".toList flags subject start stop ↔
          ((Modes.ofFlags flags).anchor .caret).holds
            (Spans.before subject start) subject[start]? = true ∧
          ((Modes.ofFlags flags).anchor .dollar).holds
            (Spans.before subject stop) subject[stop]? = true ∧
          (Text.language "(a)".toList flags subject start stop ∨
            Text.language "(?:b+|c)".toList flags subject start stop) := by
  let earlier : List Call := [.startOfLine true, .beginCapture, .literal ['a']]
  let later : List Call := [.oneOrMore, .alternative ['c'], .endOfLine true]
  let whole := (ofOptions Options.initial).run (earlier ++ .alternative ['b'] :: later)
  let left := (ofOptions Options.initial).run earlier
  let right := (ofOptions Options.initial).run (.literal ['b'] :: later)
  have joined := joins_at_alternative (rfl : whole = _) (rfl : left = _) (rfl : right = _)
  obtain ⟨_, _, _, _, _, _, _, reading⟩ := joined
  have cooked : ∀ call ∈ earlier ++ later, call.isRaw = false := by decide
  have source : whole.source = "^(?:(a)|b+|c)$".toList := by decide +kernel
  have leftText : (left.draft.setClosesCaptures true).unanchored.render = "(a)".toList := by
    decide +kernel
  have rightText : right.draft.unanchored.render = "(?:b+|c)".toList := by decide +kernel
  have startAnchor : whole.draft.startAnchor = true := by decide +kernel
  have endAnchor : whole.draft.endAnchor = true := by decide +kernel
  have reads : (Pattern.ofText "^(?:(a)|b+|c)$".toList).toBool = true := by decide +kernel
  rw [source] at reading
  cases parsed : Pattern.ofText "^(?:(a)|b+|c)$".toList with
  | error fault =>
      rw [parsed] at reads
      cases reads
  | ok pattern =>
      obtain ⟨⟨alternatives, shape, length, _⟩, language⟩ := reading cooked pattern parsed
      rw [startAnchor, endAnchor] at shape
      refine ⟨alternatives, length, ?_, ?_⟩
      · rw [shape]
        rfl
      · intro flags subject start stop
        rw [language, leftText, rightText, startAnchor, endAnchor, eq_self, true_implies,
          true_implies]

end Phrase
end ReadableRegex

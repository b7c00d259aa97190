import ReadableRegex.Proofs.Captures.Fragments
import ReadableRegex.Proofs.Captures.Stamps

/-!
Stamped texts in which captures are numbered in their order and each holds what was written while
it was open.
-/

namespace ReadableRegex

open ScanState
open StampedText (erase ofText erase_append erase_ofText)

/-- A text written between the times `low` and `high`. Its captures are numbered from `first`,
and each is opened and closed by a pair of calls. -/
inductive Grouped : (low high first : Nat) → List (Nat × Nat) → StampedText → Prop where
  | nil {low high first : Nat} (ordered : low ≤ high) : Grouped low high first [] []
  | plain {low high first call : Nat} {text : Text} (inert : Inert text)
      (after : low ≤ 2 * call + 1) (before : 2 * call + 1 ≤ high) :
      Grouped low high first [] (ofText call text)
  | append {low middle high first : Nat} {pairs more : List (Nat × Nat)}
      {left right : StampedText} (leftGrouped : Grouped low middle first pairs left)
      (rightGrouped : Grouped middle high (first + pairs.length) more right) :
      Grouped low high first (pairs ++ more) (left ++ right)
  | group {low middle high first call : Nat} {pairs : List (Nat × Nat)} {text : StampedText}
      (inside : Grouped low middle first pairs text) (after : middle ≤ 2 * call + 1)
      (before : 2 * call + 1 ≤ high) :
      Grouped low high first pairs (ofText call ['(', '?', ':'] ++ text ++ ofText call [')'])
  | capture {low high first opens closes : Nat} {pairs : List (Nat × Nat)} {text : StampedText}
      (inside : Grouped (2 * opens + 2) (2 * closes) (first + 1) pairs text)
      (detached : (erase text).Detached) (after : low ≤ 2 * opens)
      (before : 2 * closes ≤ high) :
      Grouped low high first ((opens, closes) :: pairs)
        (('(', ⟨opens, some first⟩) :: text ++ [(')', ⟨closes, some first⟩)])

namespace Grouped

variable {low high first : Nat} {pairs : List (Nat × Nat)} {text : StampedText}

theorem low_le_high (grouped : Grouped low high first pairs text) : low ≤ high := by
  induction grouped with
  | nil ordered => exact ordered
  | plain inert after before => exact Nat.le_trans after before
  | append leftGrouped rightGrouped leftOrder rightOrder => exact Nat.le_trans leftOrder rightOrder
  | group inside after before order => omega
  | capture inside detached after before order => omega

theorem mono {lower higher : Nat} (grouped : Grouped low high first pairs text)
    (below : lower ≤ low) (above : high ≤ higher) : Grouped lower higher first pairs text := by
  induction grouped generalizing lower higher with
  | nil ordered => exact .nil (by omega)
  | plain inert after before => exact .plain inert (by omega) (by omega)
  | append leftGrouped rightGrouped leftHypothesis rightHypothesis =>
      exact .append (leftHypothesis below (Nat.le_refl _)) (rightHypothesis (Nat.le_refl _) above)
  | group inside after before inductionHypothesis =>
      exact .group (inductionHypothesis below (Nat.le_refl _)) after (by omega)
  | capture inside detached after before =>
      exact .capture inside detached (by omega) (by omega)

theorem time_of_mem_ofText {call : Nat} {written : Text} {item : Char × Stamp}
    (member : item ∈ ofText call written) : item.2.time = 2 * call + 1 := by
  obtain ⟨character, _, same⟩ := List.mem_map.mp member
  rw [← same]
  rfl

theorem time_of_mem (grouped : Grouped low high first pairs text) {item : Char × Stamp}
    (member : item ∈ text) : low ≤ item.2.time ∧ item.2.time ≤ high := by
  induction grouped with
  | nil => cases member
  | plain inert after before =>
      rw [time_of_mem_ofText member]
      exact ⟨after, before⟩
  | append leftGrouped rightGrouped leftHypothesis rightHypothesis =>
      have leftOrder := leftGrouped.low_le_high
      have rightOrder := rightGrouped.low_le_high
      rcases List.mem_append.mp member with inLeft | inRight
      · have times := leftHypothesis inLeft
        omega
      · have times := rightHypothesis inRight
        omega
  | group inside after before inductionHypothesis =>
      have order := inside.low_le_high
      rcases List.mem_append.mp member with front | closing
      · rcases List.mem_append.mp front with opening | inner
        · rw [time_of_mem_ofText opening]
          omega
        · have times := inductionHypothesis inner
          omega
      · rw [time_of_mem_ofText closing]
        omega
  | @capture low high first opens closes pairs text inside detached after before
      inductionHypothesis =>
      have order := inside.low_le_high
      rcases List.mem_append.mp member with front | closing
      · rcases List.mem_cons.mp front with opening | inner
        · have written : item.2.time = 2 * opens := by rw [opening]; rfl
          omega
        · have times := inductionHypothesis inner
          omega
      · have written : item.2.time = 2 * closes := by rw [List.mem_singleton.mp closing]; rfl
        omega

theorem time_of_pair_mem (grouped : Grouped low high first pairs text) {pair : Nat × Nat}
    (member : pair ∈ pairs) : low ≤ 2 * pair.1 ∧ 2 * pair.2 ≤ high := by
  induction grouped with
  | nil => cases member
  | plain => cases member
  | append leftGrouped rightGrouped leftHypothesis rightHypothesis =>
      have leftOrder := leftGrouped.low_le_high
      have rightOrder := rightGrouped.low_le_high
      rcases List.mem_append.mp member with inLeft | inRight
      · have times := leftHypothesis inLeft
        omega
      · have times := rightHypothesis inRight
        omega
  | group inside after before inductionHypothesis =>
      have times := inductionHypothesis member
      omega
  | capture inside detached after before inductionHypothesis =>
      have order := inside.low_le_high
      rcases List.mem_cons.mp member with same | inner
      · rw [same]
        exact ⟨after, before⟩
      · have times := inductionHypothesis inner
        omega

/-- A capture ends outside of any group it began in. -/
theorem closingOffset?_append (grouped : Grouped low high first pairs text) (depth : Nat)
    (rest : Text) :
    closingOffset? .outside depth (erase text ++ rest) =
      (closingOffset? .outside depth rest).map (· + text.length) := by
  induction grouped generalizing depth rest with
  | nil => simp [erase]
  | plain inert =>
      rw [erase_ofText, inert.closing]
      simp [ofText]
  | append leftGrouped rightGrouped leftHypothesis rightHypothesis =>
      rw [erase_append, List.append_assoc, leftHypothesis, rightHypothesis, Option.map_map,
        List.length_append]
      congr 1
      funext offset
      rw [Function.comp_apply]
      omega
  | group inside after before inductionHypothesis =>
      rw [erase_append, erase_append, erase_ofText, erase_ofText]
      simp only [List.cons_append, List.append_assoc, List.nil_append, closingOffset?, next,
        List.length_cons, List.length_append, List.length_nil, ofText, List.length_map]
      simp only [true_and, if_true, Char.reduceEq, if_false, and_false, inductionHypothesis,
        closingOffset?, Nat.add_one_ne_zero, Nat.add_sub_cancel, Option.map_map]
      congr 1
      funext offset
      simp only [Function.comp_apply]
      omega
  | capture inside detached after before inductionHypothesis =>
      simp only [erase, List.map_append, List.map_cons, List.map_nil, List.cons_append,
        List.append_assoc, List.nil_append, List.length_cons, List.length_append,
        List.length_nil] at inductionHypothesis ⊢
      simp only [closingOffset?, inductionHypothesis, true_and, if_true, Char.reduceEq, if_false,
        Nat.add_one_ne_zero, Nat.add_sub_cancel, Option.map_map]
      congr 1
      funext offset
      simp only [Function.comp_apply]
      omega

end Grouped

/-! ### The place of a capture -/

/-- The capture of the number stands in the text at the span, counted from `position`: the calls
of the pair wrote its parentheses, and it encloses just what was written after the one and before
the other. The call that closes it may have closed captures inside and around it as well. -/
def Encloses (text : StampedText) (position index : Nat) (pair : Nat × Nat)
    (span : Nat × Option Nat) : Prop :=
  ∃ before inner after : StampedText,
    text = before ++ ('(', ⟨pair.1, some index⟩) :: inner ++ (')', ⟨pair.2, some index⟩) :: after ∧
    span = (position + before.length, some (position + before.length + 1 + inner.length)) ∧
    (∀ item ∈ inner, pair.1 < item.2.call ∧
      (item.2.call < pair.2 ∨ item.2.call = pair.2 ∧ item.2.capture ≠ none)) ∧
    (∀ item ∈ before ++ after, item.2.call ≤ pair.1 ∨ pair.2 ≤ item.2.call)

def Placed (text : StampedText) (position first : Nat) (pairs : List (Nat × Nat))
    (spans : List (Nat × Option Nat)) : Prop :=
  spans.length = pairs.length ∧
    ∀ index pair span, pairs[index]? = some pair → spans[index]? = some span →
      Encloses text position (first + index) pair span

theorem Encloses.widen {text : StampedText} {position index : Nat} {pair : Nat × Nat}
    {span : Nat × Option Nat} {left right : StampedText}
    (encloses : Encloses text (position + left.length) index pair span)
    (outside : ∀ item ∈ left ++ right, item.2.call ≤ pair.1 ∨ pair.2 ≤ item.2.call) :
    Encloses (left ++ text ++ right) position index pair span := by
  obtain ⟨before, inner, after, shape, place, inside, around⟩ := encloses
  refine ⟨left ++ before, inner, after ++ right, ?_, ?_, inside, ?_⟩
  · rw [shape]
    simp only [List.append_assoc, List.cons_append]
  · rw [place, List.length_append, ← Nat.add_assoc]
  · intro item member
    simp only [List.mem_append] at member around outside
    rcases member with (inLeft | inBefore) | (inAfter | inRight)
    · exact outside item (Or.inl inLeft)
    · exact around item (Or.inl inBefore)
    · exact around item (Or.inr inAfter)
    · exact outside item (Or.inr inRight)

namespace Placed

variable {text : StampedText} {position first : Nat} {pairs : List (Nat × Nat)}
  {spans : List (Nat × Option Nat)}

theorem nil : Placed text position first [] [] := by
  refine ⟨rfl, ?_⟩
  intro index pair span found
  cases found

theorem widen (left right : StampedText)
    (placed : Placed text (position + left.length) first pairs spans)
    (outside : ∀ pair ∈ pairs, ∀ item ∈ left ++ right,
      item.2.call ≤ pair.1 ∨ pair.2 ≤ item.2.call) :
    Placed (left ++ text ++ right) position first pairs spans := by
  refine ⟨placed.1, ?_⟩
  intro index pair span foundPair foundSpan
  exact (placed.2 index pair span foundPair foundSpan).widen
    (outside pair (List.mem_of_getElem? foundPair))

theorem append {more : List (Nat × Nat)} {others : List (Nat × Option Nat)}
    (placed : Placed text position first pairs spans)
    (later : Placed text position (first + pairs.length) more others) :
    Placed text position first (pairs ++ more) (spans ++ others) := by
  refine ⟨by rw [List.length_append, List.length_append, placed.1, later.1], ?_⟩
  intro index pair span foundPair foundSpan
  by_cases early : index < pairs.length
  · rw [List.getElem?_append_left early] at foundPair
    rw [List.getElem?_append_left (placed.1 ▸ early)] at foundSpan
    exact placed.2 index pair span foundPair foundSpan
  · have late : pairs.length ≤ index := Nat.le_of_not_lt early
    rw [List.getElem?_append_right late] at foundPair
    rw [List.getElem?_append_right (placed.1 ▸ late), placed.1] at foundSpan
    have found := later.2 (index - pairs.length) pair span foundPair foundSpan
    rwa [Nat.add_assoc, Nat.add_sub_cancel' late] at found

theorem cons {pair : Nat × Nat} {span : Nat × Option Nat}
    (encloses : Encloses text position first pair span)
    (later : Placed text position (first + 1) pairs spans) :
    Placed text position first (pair :: pairs) (span :: spans) := by
  have single : Placed text position first [pair] [span] := by
    refine ⟨rfl, ?_⟩
    intro index other place foundPair foundSpan
    cases index with
    | zero =>
        cases foundPair
        cases foundSpan
        exact encloses
    | succ index => cases foundPair
  exact single.append later

end Placed

/-- A scan finds the captures of such a text in order, and goes on behind it. -/
theorem Grouped.captureSpans_append {low high first : Nat} {pairs : List (Nat × Nat)}
    {text : StampedText} (grouped : Grouped low high first pairs text) (position : Nat)
    (rest : Text) :
    ∃ spans, captureSpans .outside position (erase text ++ rest) =
        spans ++ captureSpans .outside (position + text.length) rest ∧
      Placed text position first pairs spans := by
  induction grouped generalizing position rest with
  | nil => exact ⟨[], by simp [erase], .nil⟩
  | plain inert =>
      refine ⟨[], ?_, .nil⟩
      rw [erase_ofText, inert.spans]
      simp [ofText]
  | @append low middle high first pairs more left right leftGrouped rightGrouped leftHypothesis
      rightHypothesis =>
      obtain ⟨spans, leftScan, leftPlaced⟩ := leftHypothesis position (erase right ++ rest)
      obtain ⟨others, rightScan, rightPlaced⟩ := rightHypothesis (position + left.length) rest
      refine ⟨spans ++ others, ?_, ?_⟩
      · rw [erase_append, List.append_assoc, leftScan, rightScan, List.append_assoc,
          List.length_append, Nat.add_assoc]
      · have wideLeft : Placed (left ++ right) position first pairs spans := by
          have wide := Placed.widen [] right leftPlaced ?_
          · exact wide
          · intro pair pairMember item member
            have pairTime := leftGrouped.time_of_pair_mem pairMember
            have itemTime := rightGrouped.time_of_mem member
            have callTime := item.2.time_le
            omega
        have wideRight : Placed (left ++ right) position (first + pairs.length) more others := by
          have wide := Placed.widen left [] rightPlaced ?_
          · rwa [List.append_nil] at wide
          · intro pair pairMember item member
            rw [List.append_nil] at member
            have pairTime := rightGrouped.time_of_pair_mem pairMember
            have itemTime := leftGrouped.time_of_mem member
            have callTime := item.2.two_mul_call_le
            omega
        exact wideLeft.append wideRight
  | @group low middle high first call pairs text inside after before inductionHypothesis =>
      obtain ⟨spans, scan, placed⟩ := inductionHypothesis (position + 3) (')' :: rest)
      refine ⟨spans, ?_, ?_⟩
      · rw [erase_append, erase_append, erase_ofText, erase_ofText]
        simp only [List.cons_append, List.append_assoc, List.nil_append, captureSpans, next,
          List.length_cons, List.length_append, List.length_nil, ofText, List.length_map]
        simp only [List.head?_cons, ne_eq, not_true_eq_false, and_false, false_and, if_false,
          Char.reduceEq, List.nil_append]
        rw [show position + 1 + 1 + 1 = position + 3 by omega, scan]
        simp only [captureSpans, next, Char.reduceEq, and_false, false_and, if_false,
          List.nil_append]
        congr 2
        omega
      · refine Placed.widen (ofText call ['(', '?', ':']) (ofText call [')']) placed ?_
        intro pair pairMember item member
        have pairTime := inside.time_of_pair_mem pairMember
        have written : item.2.time = 2 * call + 1 := by
          rcases List.mem_append.mp member with opening | closing
          · exact time_of_mem_ofText opening
          · exact time_of_mem_ofText closing
        have callTime := item.2.time_le
        omega
  | @capture low high first opens closes pairs text inside detached after before
      inductionHypothesis =>
      obtain ⟨spans, scan, placed⟩ := inductionHypothesis (position + 1) (')' :: rest)
      have notMarked : (erase text ++ ')' :: rest).head? ≠ some '?' := by
        have closed : Text.Detached (')' :: rest) := by simp [Text.Detached]
        exact detached.append closed
      refine ⟨(position, some (position + 1 + text.length)) :: spans, ?_, ?_⟩
      · have closing := inside.closingOffset?_append 0 (')' :: rest)
        have shape : erase (('(', ⟨opens, some first⟩) :: text ++ [(')', ⟨closes, some first⟩)]) ++
            rest = '(' :: (erase text ++ ')' :: rest) := by
          simp [erase]
        have opened : captureSpans .outside position ('(' :: (erase text ++ ')' :: rest)) =
            (position, (closingOffset? .outside 0 (erase text ++ ')' :: rest)).map
              (position + 1 + ·)) ::
              captureSpans .outside (position + 1) (erase text ++ ')' :: rest) := by
          rw [captureSpans, if_pos ⟨rfl, rfl, notMarked⟩, List.singleton_append]
          rfl
        have behind : captureSpans .outside (position + 1 + text.length) (')' :: rest) =
            captureSpans .outside (position + 1 + text.length + 1) rest := by
          simp [captureSpans, next]
        rw [shape, opened, scan, behind, closing]
        simp [closingOffset?, Nat.add_assoc, Nat.add_comm 1]
      · refine Placed.cons ?_ ?_
        · refine ⟨[], text, [], by simp, by simp, ?_, by simp⟩
          intro item member
          have times := inside.time_of_mem member
          by_cases plain : item.2.capture = none
          · have written : item.2.time = 2 * item.2.call + 1 := by simp [Stamp.time, plain]
            exact ⟨by omega, Or.inl (by omega)⟩
          · have written : item.2.time = 2 * item.2.call := by simp [Stamp.time, plain]
            have early : item.2.call ≤ closes := by omega
            rcases Nat.lt_or_eq_of_le early with before | same
            · exact ⟨by omega, Or.inl before⟩
            · exact ⟨by omega, Or.inr ⟨same, plain⟩⟩
        · refine Placed.widen [('(', ⟨opens, some first⟩)] [(')', ⟨closes, some first⟩)] placed ?_
          intro pair pairMember item member
          have pairTime := inside.time_of_pair_mem pairMember
          rcases List.mem_append.mp member with opening | closing
          · rw [List.mem_singleton.mp opening]
            exact Or.inl (by simp only; omega)
          · rw [List.mem_singleton.mp closing]
            exact Or.inr (by simp only; omega)

end ReadableRegex

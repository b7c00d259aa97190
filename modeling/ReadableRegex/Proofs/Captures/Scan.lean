import ReadableRegex.Text

/-!
Finding the capturing groups of a pattern text without parsing it. A parenthesis counts if no
backslash stands before it and no bracketed class holds it, and it captures if no question mark
follows. Texts in which nothing counts can be passed over, and so can groups that do not capture.
-/

namespace ReadableRegex

inductive ScanState where
  | outside
  | escape
  | inClass
  | classEscape
deriving DecidableEq

namespace ScanState

def next : ScanState → Char → ScanState
  | .outside, character =>
      if character = '\\' then .escape else if character = '[' then .inClass else .outside
  | .escape, _ => .outside
  | .inClass, character =>
      if character = '\\' then .classEscape else if character = ']' then .outside else .inClass
  | .classEscape, _ => .inClass

/-- The number of characters before the parenthesis that closes the group the scan is in, `depth`
groups further out. -/
def closingOffset? : ScanState → Nat → Text → Option Nat
  | _, _, [] => none
  | state, depth, character :: rest =>
      if state = .outside ∧ character = '(' then
        (closingOffset? .outside (depth + 1) rest).map (· + 1)
      else if state = .outside ∧ character = ')' then
        if depth = 0 then some 0
        else (closingOffset? .outside (depth - 1) rest).map (· + 1)
      else (closingOffset? (state.next character) depth rest).map (· + 1)

/-- The capturing groups in the order in which they open, with the positions of their parentheses;
the second one is missing if the group is never closed. -/
def captureSpans : ScanState → Nat → Text → List (Nat × Option Nat)
  | _, _, [] => []
  | state, position, character :: rest =>
      (if state = .outside ∧ character = '(' ∧ rest.head? ≠ some '?' then
        [(position, (closingOffset? .outside 0 rest).map (position + 1 + ·))]
      else []) ++ captureSpans (state.next character) (position + 1) rest

/-- Where the scan stands behind a text in which no parenthesis counts. -/
def pass? : ScanState → Text → Option ScanState
  | state, [] => some state
  | state, character :: rest =>
      if state = .outside ∧ (character = '(' ∨ character = ')') then none
      else pass? (state.next character) rest

theorem pass?_append {state between : ScanState} {left : Text} (right : Text)
    (passed : pass? state left = some between) :
    pass? state (left ++ right) = pass? between right := by
  induction left generalizing state with
  | nil =>
      cases passed
      rfl
  | cons character rest inductionHypothesis =>
      rw [pass?] at passed
      rw [List.cons_append, pass?]
      split at passed
      · cases passed
      · rename_i quiet
        rw [if_neg quiet]
        exact inductionHypothesis passed

theorem closingOffset?_pass {state after : ScanState} {text : Text} (depth : Nat) (rest : Text)
    (passed : pass? state text = some after) :
    closingOffset? state depth (text ++ rest) =
      (closingOffset? after depth rest).map (· + text.length) := by
  induction text generalizing state with
  | nil =>
      cases passed
      simp
  | cons character text inductionHypothesis =>
      rw [pass?] at passed
      split at passed
      · cases passed
      · rename_i quiet
        have noOpening : ¬ (state = .outside ∧ character = '(') :=
          fun opening => quiet ⟨opening.1, Or.inl opening.2⟩
        have noClosing : ¬ (state = .outside ∧ character = ')') :=
          fun closing => quiet ⟨closing.1, Or.inr closing.2⟩
        rw [List.cons_append, closingOffset?, if_neg noOpening, if_neg noClosing,
          inductionHypothesis passed, Option.map_map]
        rfl

theorem captureSpans_pass {state after : ScanState} {text : Text} (position : Nat) (rest : Text)
    (passed : pass? state text = some after) :
    captureSpans state position (text ++ rest) =
      captureSpans after (position + text.length) rest := by
  induction text generalizing state position with
  | nil =>
      cases passed
      rfl
  | cons character text inductionHypothesis =>
      rw [pass?] at passed
      split at passed
      · cases passed
      · rename_i quiet
        have noOpening : ¬ (state = .outside ∧ character = '(' ∧
            (text ++ rest).head? ≠ some '?') :=
          fun opening => quiet ⟨opening.1, Or.inl opening.2.1⟩
        rw [List.cons_append, captureSpans, if_neg noOpening, List.nil_append,
          inductionHypothesis _ passed, List.length_cons]
        congr 1
        omega

end ScanState

open ScanState

/-- A text that a scan from outside passes over: it leaves every group that it enters, enters no
capturing one, and ends outside. -/
structure Inert (text : Text) : Prop where
  closing : ∀ depth rest, closingOffset? .outside depth (text ++ rest) =
    (closingOffset? .outside depth rest).map (· + text.length)
  spans : ∀ position rest, captureSpans .outside position (text ++ rest) =
    captureSpans .outside (position + text.length) rest

namespace Inert

theorem of_pass {text : Text} (passed : pass? .outside text = some .outside) : Inert text where
  closing depth rest := closingOffset?_pass depth rest passed
  spans position rest := captureSpans_pass position rest passed

theorem nil : Inert [] := of_pass rfl

theorem append {left right : Text} (leftInert : Inert left) (rightInert : Inert right) :
    Inert (left ++ right) where
  closing depth rest := by
    rw [List.append_assoc, leftInert.closing, rightInert.closing, Option.map_map,
      List.length_append]
    congr 1
    funext offset
    rw [Function.comp_apply]
    omega
  spans position rest := by
    rw [List.append_assoc, leftInert.spans, rightInert.spans, List.length_append,
      Nat.add_assoc]

theorem group (text : Text) (inert : Inert text) : Inert ('(' :: '?' :: text ++ [')']) where
  closing depth rest := by
    have inside := inert.closing (depth + 1) (')' :: rest)
    simp only [List.cons_append, List.append_assoc, List.nil_append, closingOffset?, next,
      List.length_cons, List.length_append, List.length_nil] at inside ⊢
    simp only [true_and, if_true, Char.reduceEq, if_false, Nat.add_one_ne_zero,
      Nat.add_sub_cancel, inside, Option.map_map]
    congr 1
    funext offset
    simp only [Function.comp_apply]
    omega
  spans position rest := by
    have inside := inert.spans (position + 1 + 1) (')' :: rest)
    simp only [List.cons_append, List.append_assoc, List.nil_append, captureSpans, next,
      List.length_cons, List.length_append, List.length_nil] at inside ⊢
    simp only [List.head?_cons, ne_eq, not_true_eq_false, and_false, false_and, if_false,
      Char.reduceEq, List.nil_append, inside]
    congr 1
    omega

end Inert
end ReadableRegex

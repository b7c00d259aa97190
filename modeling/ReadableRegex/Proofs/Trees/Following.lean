import ReadableRegex.Proofs.Trees.Tokens

/-!
A draft and a sketch that follow the same calls: every piece of text in the draft writes the nodes
at the same place of the sketch, or cannot be read because some bounds in it are out of order.
-/

namespace ReadableRegex

open Lexeme (Spells SpellsFirmly Unreadable)

/-! ### Texts that leave groups open -/

/-- The text opens so many groups that it does not close. -/
def Unclosed (depth : Nat) (text : Text) : Prop :=
  ∃ lexemes, Spells text lexemes ∧
    lexemes.countP Lexeme.opens = lexemes.countP Lexeme.closes + depth

theorem Unclosed.append {depth more : Nat} {left right : Text} (leftUnclosed : Unclosed depth left)
    (rightUnclosed : Unclosed more right) (detached : right.Detached) :
    Unclosed (depth + more) (left ++ right) := by
  obtain ⟨lexemes, spells, sums⟩ := leftUnclosed
  obtain ⟨moreLexemes, moreSpells, moreSums⟩ := rightUnclosed
  refine ⟨lexemes ++ moreLexemes, spells.append moreSpells detached, ?_⟩
  rw [List.countP_append, List.countP_append]
  omega

theorem Unclosed.openCapture {depth : Nat} {text : Text} (unclosed : Unclosed depth text)
    (detached : text.Detached) : Unclosed (depth + 1) ('(' :: text) := by
  obtain ⟨lexemes, spells, sums⟩ := unclosed
  refine ⟨_, spells_openCapture spells detached, ?_⟩
  rw [List.countP_cons_of_pos rfl, List.countP_cons_of_neg Bool.false_ne_true]
  omega

variable [PropertyTable] {modes : Modes} {row : NodeRow} {first start low middle last : Nat}
  {text : Text} {sound other : Bool}

/-! ### Open captures -/

/-- The texts and rows between the openings of captures, the innermost first. -/
inductive Surrounds (modes : Modes) (start : Nat) :
    Bool → List Text → List (Nat × NodeRow) → Nat → Prop where
  | nil : Surrounds modes start true [] [] start
  | cons {sound other : Bool} {texts : List Text} {rows : List (Nat × NodeRow)} {before : Text}
      {row : NodeRow} {low middle : Nat} (outside : Surrounds modes start sound texts rows low)
      (legible : Legible (Writes modes row low middle) other before)
      (detached : before.Detached) :
      Surrounds modes start (sound && other) (before :: texts) ((middle + 1, row) :: rows)
        (middle + 1)

namespace Surrounds

variable {texts : List Text} {rows : List (Nat × NodeRow)}

theorem length_eq (surrounds : Surrounds modes start sound texts rows low) :
    texts.length = rows.length := by
  induction surrounds with
  | nil => rfl
  | cons outside legible detached inductionHypothesis =>
      rw [List.length_cons, List.length_cons, inductionHypothesis]

theorem close {inner : Text} (surrounds : Surrounds modes start sound texts rows low)
    (inside : Legible (Writes modes row low last) other inner) (detached : inner.Detached) :
    Legible (Writes modes (Sketch.enclose rows row) start last) (sound && other)
      (Draft.enclose texts inner ++ List.replicate texts.length ')') := by
  induction surrounds generalizing row inner other with
  | nil => simpa [Draft.enclose, Sketch.enclose] using inside
  | @cons sound between texts rows before rowBefore low middle outside legible separate
      inductionHypothesis =>
      have captured := (inside.capture detached).imp WritesUnit.writes
      have opening : Text.Detached ('(' :: inner ++ [')']) := by simp [Text.Detached]
      have whole := inductionHypothesis (legible.append captured opening)
        (separate.append opening)
      have shape : Draft.enclose texts (before ++ ('(' :: inner ++ [')'])) =
          Draft.enclose (before :: texts) inner ++ [')'] := by
        rw [Draft.enclose, ← Draft.enclose_append, List.append_assoc]
      rw [shape, List.append_assoc, List.singleton_append, ← Bool.and_assoc] at whole
      rw [List.length_cons, List.replicate_succ]
      exact whole

end Surrounds

theorem Writes.unclosed (writes : Writes modes row first last text) : Unclosed 0 text := by
  obtain ⟨lexemes, parts, spells, builds, _⟩ := writes
  exact ⟨lexemes, spells, builds.balanced.symm⟩

/-- Without closing, every open capture is one group too many. -/
theorem Surrounds.leaveOpen {texts : List Text} {rows : List (Nat × NodeRow)} {inner : Text}
    {depth : Nat} (surrounds : Surrounds modes start sound texts rows low)
    (inside : Legible (Unclosed depth) other inner) (detached : inner.Detached) :
    Legible (Unclosed (texts.length + depth)) (sound && other) (Draft.enclose texts inner) := by
  induction surrounds generalizing inner other depth with
  | nil => simpa [Draft.enclose] using inside
  | @cons sound between texts rows before rowBefore low middle outside legible separate
      inductionHypothesis =>
      have opening : Text.Detached ('(' :: inner) := by simp [Text.Detached]
      have opened : Legible (Unclosed (depth + 1)) (between && other) (before ++ '(' :: inner) := by
        cases legible with
        | unreadable unreadable => exact .unreadable (unreadable.append _)
        | good writes =>
            cases inside with
            | good unclosed =>
                have both := writes.unclosed.append (unclosed.openCapture detached) opening
                rw [Nat.zero_add] at both
                exact .good both
            | unreadable unreadable =>
                obtain ⟨lexemes, parts, spells, _⟩ := writes
                exact .unreadable (spells.append_unreadable
                  (unreadable_openCapture unreadable detached) opening)
      have whole := inductionHypothesis opened (separate.append opening)
      rw [← Bool.and_assoc, Nat.add_comm depth 1, ← Nat.add_assoc] at whole
      exact whole

/-! ### The last token -/

inductive FollowsLast (modes : Modes) (first last : Nat) :
    Bool → Option Token → Option NodeRow → Prop where
  | missing (same : first = last) : FollowsLast modes first last true none none
  | found {sound : Bool} {token : Token} {row : NodeRow}
      (legible : Legible (Writes modes row first last) sound token.text)
      (detached : token.text.Detached) (present : token.text ≠ [])
      (unit : token.kind = .atom → Legible (WritesUnit modes row first last) sound token.text) :
      FollowsLast modes first last sound (some token) (some row)

namespace FollowsLast

variable {token : Token}

theorem legible {token? : Option Token} {row? : Option NodeRow}
    (follows : FollowsLast modes first last sound token? row?) :
    Legible (Writes modes (row?.getD []) first last) sound ((token?.map Token.text).getD []) := by
  cases follows with
  | missing same =>
      subst same
      exact .nil
  | found legible detached present unit => exact legible

theorem detached {token? : Option Token} {row? : Option NodeRow}
    (follows : FollowsLast modes first last sound token? row?) :
    ((token?.map Token.text).getD []).Detached := by
  cases follows with
  | missing same => exact Text.detached_nil
  | found legible detached present unit => exact detached

theorem operand (follows : FollowsLast modes first last sound (some token) (some row)) :
    Legible (WritesUnit modes row first last) sound token.operand := by
  cases follows with
  | found legible detached present unit =>
      unfold Token.operand
      cases kind : token.kind with
      | atom => exact unit kind
      | sequence =>
          have grouped := legible.group
          rwa [← List.append_assoc] at grouped
      | quantified =>
          have grouped := legible.group
          rwa [← List.append_assoc] at grouped

theorem operand_detached (follows : FollowsLast modes first last sound (some token) (some row)) :
    token.operand.Detached ∧ token.operand ≠ [] := by
  cases follows with
  | found legible detached present unit => exact Token.detached_operand present detached

theorem quantify (follows : FollowsLast modes first last sound (some token) (some row))
    (usual : modes.Usual) (quantifier : Quantifier) :
    FollowsLast modes first last (sound && quantifier.isOrdered)
      (some (token.quantify quantifier)) (some [.repetition quantifier.counts row]) := by
  obtain ⟨detached, present⟩ := follows.operand_detached
  refine .found (follows.operand.quantify usual quantifier) (detached.append_of_ne present) ?_ ?_
  · simp [Token.quantify, present]
  · intro atom
    cases atom

theorem capture {inner : Text} (inside : Legible (Writes modes row (first + 1) last) sound inner)
    (detached : inner.Detached) :
    FollowsLast modes first last sound (some ⟨'(' :: inner ++ [')'], .atom⟩)
      (some [.capture (first + 1) none row]) := by
  have captured := inside.capture detached
  exact .found (captured.imp WritesUnit.writes) (by simp [Text.Detached]) (by simp)
    (fun _ => captured)

end FollowsLast

/-! ### Drafts and sketches -/

/-- The draft writes what the sketch holds, if it is sound, and cannot be read otherwise. -/
structure Follows (modes : Modes) (draft : Draft) (sketch : Sketch) (sound : Bool) : Prop where
  startAnchor : draft.startAnchor = sketch.startAnchor
  endAnchor : draft.endAnchor = sketch.endAnchor
  alternating : draft.finished = [] ↔ sketch.finished = []
  separate : draft.written.Detached
  parts : ∃ (finished enclosed written token : Bool) (start low middle : Nat),
    Legible (WritesAlternatives modes sketch.finished 0 start) finished
      (draft.finished.flatMap (fun alternative => alternative ++ ['|'])) ∧
    Surrounds modes start enclosed draft.enclosing sketch.enclosing low ∧
    Legible (Writes modes sketch.written low middle) written draft.written ∧
    FollowsLast modes middle sketch.captures token draft.last sketch.last ∧
    sound = (finished && enclosed && written && token)

namespace Follows

variable {draft : Draft} {sketch : Sketch}

theorem blank (closes : Bool) : Follows modes (Draft.blank closes) (Sketch.blank 0) true where
  startAnchor := rfl
  endAnchor := rfl
  alternating := iff_of_true rfl rfl
  separate := Text.detached_nil
  parts := ⟨true, true, true, true, 0, 0, 0, .good writesAlternatives_nil, .nil, .nil,
    .missing rfl, rfl⟩

theorem inside (follows : Follows modes draft sketch sound) :
    ∃ (finished enclosed inner : Bool) (start low : Nat),
      Legible (WritesAlternatives modes sketch.finished 0 start) finished
        (draft.finished.flatMap (fun alternative => alternative ++ ['|'])) ∧
      Surrounds modes start enclosed draft.enclosing sketch.enclosing low ∧
      Legible (Writes modes sketch.inner low sketch.captures) inner draft.inner ∧
      draft.inner.Detached ∧
      sound = (finished && enclosed && inner) := by
  obtain ⟨finished, enclosed, written, token, start, low, middle, alternatives, surrounds, front,
    lastFollows, split⟩ := follows.parts
  refine ⟨finished, enclosed, written && token, start, low, alternatives, surrounds,
    front.append lastFollows.legible lastFollows.detached,
    follows.separate.append lastFollows.detached, ?_⟩
  rw [split, Bool.and_assoc]

theorem last_isNone (follows : Follows modes draft sketch sound) :
    draft.last.isNone = sketch.last.isNone := by
  obtain ⟨_, _, _, _, _, _, _, _, _, _, lastFollows, _⟩ := follows.parts
  generalize draft.last = token? at lastFollows
  generalize sketch.last = row? at lastFollows
  cases lastFollows <;> rfl

theorem enclosing_length (follows : Follows modes draft sketch sound) :
    draft.enclosing.length = sketch.enclosing.length := by
  obtain ⟨_, _, _, _, _, _, _, _, surrounds, _⟩ := follows.parts
  exact surrounds.length_eq

theorem settle (follows : Follows modes draft sketch sound) :
    Follows modes draft.settle sketch.settle sound where
  startAnchor := follows.startAnchor
  endAnchor := follows.endAnchor
  alternating := follows.alternating
  separate := by
    obtain ⟨_, _, _, _, _, _, _, _, detached, _⟩ := follows.inside
    exact detached
  parts := by
    obtain ⟨finished, enclosed, inner, start, low, alternatives, surrounds, legible, _, split⟩ :=
      follows.inside
    refine ⟨finished, enclosed, inner, true, start, low, sketch.captures, alternatives, surrounds,
      legible, .missing rfl, ?_⟩
    rw [split, Bool.and_true]

theorem append (follows : Follows modes draft sketch sound) {token : Token}
    (means : token.Means modes row other) (usual : modes.Usual) :
    Follows modes (draft.edit (.append token)) (sketch.edit (.append row)) (sound && other) := by
  by_cases empty : token.text = []
  · have nothing : row = [] := means.text_eq_nil_iff.mp empty
    have settled := follows.settle
    cases means.legible usual 0 with
    | unreadable unreadable => exact absurd empty unreadable.ne_nil
    | good writes =>
        rw [Draft.edit_append_of_empty empty, nothing, Bool.and_true]
        exact settled
  · have something : row ≠ [] := fun nothing => empty (means.text_eq_nil_iff.mpr nothing)
    have settled := follows.settle
    have edited : sketch.edit (.append row) = { sketch.settle with last := some row } := by
      simp [Sketch.edit, something]
    rw [Draft.edit_append_of_ne empty, edited]
    obtain ⟨finished, enclosed, inner, start, low, alternatives, surrounds, legible, detached,
      split⟩ := follows.inside
    refine ⟨settled.startAnchor, settled.endAnchor, settled.alternating, settled.separate,
      finished, enclosed, inner, other, start, low, sketch.captures, alternatives, surrounds,
      legible, ?_, ?_⟩
    · exact .found (means.legible usual _) means.cooked.detached empty
        (fun atom => means.legibleUnit atom empty usual _)
    · rw [split]

theorem quantify (follows : Follows modes draft sketch sound) (usual : modes.Usual)
    (quantifier : Quantifier) :
    Follows modes (draft.edit (.quantify quantifier)) (sketch.edit (.quantify quantifier))
      (sound && (sketch.last.isNone || quantifier.isOrdered)) := by
  obtain ⟨finished, enclosed, written, token, start, low, middle, alternatives, surrounds, front,
    lastFollows, split⟩ := follows.parts
  cases draftLast : draft.last with
  | none =>
      have sketchLast : sketch.last = none := by
        have same := follows.last_isNone
        rw [draftLast] at same
        exact Option.isNone_iff_eq_none.mp same.symm
      have edited : sketch.edit (.quantify quantifier) = sketch := by
        simp only [Sketch.edit, sketchLast]
      rw [Draft.edit_quantify_of_none draftLast, edited, sketchLast]
      simpa using follows
  | some token =>
      cases sketchLast : sketch.last with
      | none =>
          have same := follows.last_isNone
          rw [draftLast, sketchLast] at same
          cases same
      | some row =>
          rw [draftLast, sketchLast] at lastFollows
          have edited : sketch.edit (.quantify quantifier) =
              { sketch with last := some [.repetition quantifier.counts row] } := by
            simp only [Sketch.edit, sketchLast, Quantifier.counts]
          rw [Draft.edit_quantify_of_some draftLast, edited]
          refine ⟨follows.startAnchor, follows.endAnchor, follows.alternating, follows.separate,
            finished, enclosed, written, _, start, low, middle, alternatives, surrounds, front,
            lastFollows.quantify usual quantifier, ?_⟩
          rw [split]
          simp [Bool.and_assoc]

theorem openCapture (follows : Follows modes draft sketch sound) :
    Follows modes (draft.edit .openCapture) (sketch.edit .openCapture) sound := by
  obtain ⟨finished, enclosed, inner, start, low, alternatives, surrounds, legible, detached,
    split⟩ := follows.inside
  refine ⟨follows.startAnchor, follows.endAnchor, follows.alternating, Text.detached_nil,
    finished, enclosed && inner, true, true, start, _, _, alternatives,
    .cons surrounds legible detached, .nil, .missing rfl, ?_⟩
  rw [split]
  simp [Bool.and_assoc]

theorem closeCapture (follows : Follows modes draft sketch sound) :
    Follows modes (draft.edit .closeCapture) (sketch.edit .closeCapture) sound := by
  obtain ⟨finished, enclosed, inner, start, low, alternatives, surrounds, legible, detached,
    split⟩ := follows.inside
  cases draftEnclosing : draft.enclosing with
  | nil =>
      have sketchEnclosing : sketch.enclosing = [] := by
        have same := follows.enclosing_length
        rw [draftEnclosing] at same
        exact List.eq_nil_of_length_eq_zero same.symm
      have edited : sketch.edit .closeCapture = sketch := by
        simp only [Sketch.edit, sketchEnclosing]
      rw [Draft.edit_closeCapture_of_nil draftEnclosing, edited]
      exact follows
  | cons before outer =>
      cases sketchEnclosing : sketch.enclosing with
      | nil =>
          have same := follows.enclosing_length
          rw [draftEnclosing, sketchEnclosing] at same
          cases same
      | cons capture rows =>
          rw [draftEnclosing, sketchEnclosing] at surrounds
          cases surrounds with
          | cons outside front separate =>
              rw [Draft.edit_closeCapture_of_cons draftEnclosing]
              simp only [Sketch.edit, sketchEnclosing]
              refine ⟨follows.startAnchor, follows.endAnchor, follows.alternating, separate,
                finished, _, _, inner, start, _, _, alternatives, outside, front,
                .capture legible detached, ?_⟩
              rw [split]
              simp [Bool.and_assoc]

theorem alternate (follows : Follows modes draft sketch sound) :
    Follows modes (draft.edit .alternate) (sketch.edit .alternate) sound := by
  obtain ⟨finished, enclosed, inner, start, low, alternatives, surrounds, legible, detached,
    split⟩ := follows.inside
  have closed := surrounds.close legible detached
  refine ⟨follows.startAnchor, follows.endAnchor, ?_, Text.detached_nil,
    finished && (enclosed && inner), true, true, true, sketch.captures, sketch.captures,
    sketch.captures, ?_, .nil, .nil, .missing rfl, ?_⟩
  · simp [Draft.edit, Draft.alternate, Sketch.edit]
  · have sealed := alternatives.alternative closed
    simpa [Draft.edit, Draft.alternate, Sketch.edit, Draft.branch, Draft.closers,
      Draft.openCaptures, Sketch.branch] using sealed
  · rw [split]
    simp [Bool.and_assoc]

theorem setStartAnchor (follows : Follows modes draft sketch sound) (enabled : Bool) :
    Follows modes (draft.edit (.startAnchor enabled)) (sketch.edit (.startAnchor enabled)) sound :=
  ⟨rfl, follows.endAnchor, follows.alternating, follows.separate, follows.parts⟩

theorem setEndAnchor (follows : Follows modes draft sketch sound) (enabled : Bool) :
    Follows modes (draft.edit (.endAnchor enabled)) (sketch.edit (.endAnchor enabled)) sound :=
  ⟨follows.startAnchor, rfl, follows.alternating, follows.separate, follows.parts⟩

end Follows
end ReadableRegex

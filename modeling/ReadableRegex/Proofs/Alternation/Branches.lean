import ReadableRegex.Proofs.Language.Meaning
import ReadableRegex.Proofs.Trees.Parsing

/-!
The alternatives of a sketch. Calls behind the start of an alternative add the languages that they
add to a blank sketch, only under other capture numbers.
-/

namespace ReadableRegex

def Call.isAlternative : Call → Bool
  | .alternative _ => true
  | _ => false

def Edit.isAlternation {Content : Type} : Edit Content → Bool
  | .alternate => true
  | _ => false

namespace Sketch

open Node (rowSpans)

variable {modes : Modes} {subject : Array Char} {whole fresh : Sketch} {finished : List Spans}

/-! ### Counting alternatives -/

theorem length_finished_edit (sketch : Sketch) (edit : Edit NodeRow) :
    (sketch.edit edit).finished.length =
      sketch.finished.length + if edit.isAlternation then 1 else 0 := by
  cases edit with
  | append row =>
      simp only [Sketch.edit]
      split <;> rfl
  | quantify quantifier =>
      simp only [Sketch.edit]
      split <;> rfl
  | closeCapture =>
      simp only [Sketch.edit]
      split <;> rfl
  | alternate => exact List.length_append
  | _ => rfl

theorem length_finished_edits (sketch : Sketch) (edits : List (Edit NodeRow)) :
    (edits.foldl edit sketch).finished.length =
      sketch.finished.length + edits.countP Edit.isAlternation := by
  induction edits generalizing sketch with
  | nil => rfl
  | cons edit rest inductionHypothesis =>
      rw [List.foldl_cons, inductionHypothesis, length_finished_edit, List.countP_cons]
      omega

theorem length_branches_run (modes : Modes) (sketch : Sketch) (calls : List Call) :
    (sketch.run modes calls).branches.length =
      sketch.finished.length + calls.countP Call.isAlternative + 1 := by
  have finished : (sketch.run modes calls).finished.length =
      sketch.finished.length + calls.countP Call.isAlternative := by
    unfold run
    induction calls generalizing sketch with
    | nil => rfl
    | cons call rest inductionHypothesis =>
        have begun : (call.nodeEdits modes).countP Edit.isAlternation =
            if call.isAlternative then 1 else 0 := by
          cases call <;> rfl
        rw [List.foldl_cons, inductionHypothesis, List.countP_cons]
        unfold after
        rw [length_finished_edits, begun]
        omega
  unfold branches
  rw [List.length_append, finished]
  rfl

/-! ### Languages of alternatives -/

/-- The whole has the finished languages and behind them those of the fresh sketch. -/
structure Continues (subject : Array Char) (finished : List Spans) (whole fresh : Sketch) :
    Prop where
  finished : whole.finished.map (rowSpans subject) =
    finished ++ fresh.finished.map (rowSpans subject)
  enclosing : whole.enclosing.map (fun opening => rowSpans subject opening.2) =
    fresh.enclosing.map (fun opening => rowSpans subject opening.2)
  written : rowSpans subject whole.written = rowSpans subject fresh.written
  last : whole.last.map (rowSpans subject) = fresh.last.map (rowSpans subject)

theorem rowSpans_capture (index : Nat) (row : NodeRow) :
    rowSpans subject [.capture index none row] = rowSpans subject row := by
  rw [Node.rowSpans_singleton, Node.spans]

theorem rowSpans_enclose {outer other : List (Nat × NodeRow)} {row inner : NodeRow}
    (sameOuter : outer.map (fun opening => rowSpans subject opening.2) =
      other.map (fun opening => rowSpans subject opening.2))
    (sameInner : rowSpans subject row = rowSpans subject inner) :
    rowSpans subject (enclose outer row) = rowSpans subject (enclose other inner) := by
  induction outer generalizing other row inner with
  | nil =>
      rw [List.map_nil, eq_comm, List.map_eq_nil_iff] at sameOuter
      rw [sameOuter]
      exact sameInner
  | cons opening rest inductionHypothesis =>
      cases other with
      | nil => cases sameOuter
      | cons second others =>
          obtain ⟨index, before⟩ := opening
          obtain ⟨number, front⟩ := second
          rw [List.map_cons, List.map_cons] at sameOuter
          obtain ⟨sameBefore, sameRest⟩ := List.cons.inj sameOuter
          apply inductionHypothesis sameRest
          rw [Node.rowSpans_append, Node.rowSpans_append, rowSpans_capture, rowSpans_capture,
            sameInner]
          exact congrArg (fun spans => Spans.join spans _) sameBefore

namespace Continues

theorem inner (continues : Continues subject finished whole fresh) :
    rowSpans subject whole.inner = rowSpans subject fresh.inner := by
  have last : rowSpans subject (whole.last.getD []) = rowSpans subject (fresh.last.getD []) := by
    have same := continues.last
    cases wholeLast : whole.last with
    | none =>
        rw [wholeLast, Option.map_none, eq_comm, Option.map_eq_none_iff] at same
        rw [same]
    | some row =>
        rw [wholeLast, Option.map_some, eq_comm, Option.map_eq_some_iff] at same
        obtain ⟨other, found, spans⟩ := same
        rw [found]
        exact spans.symm
  unfold Sketch.inner
  rw [Node.rowSpans_append, Node.rowSpans_append, continues.written, last]

theorem branch (continues : Continues subject finished whole fresh) :
    rowSpans subject whole.branch = rowSpans subject fresh.branch :=
  rowSpans_enclose continues.enclosing continues.inner

theorem last_isNone (continues : Continues subject finished whole fresh) :
    whole.last.isNone = fresh.last.isNone := by
  have same := congrArg Option.isNone continues.last
  rw [Option.isNone_map, Option.isNone_map] at same
  exact same

theorem edit (continues : Continues subject finished whole fresh) (edit : Edit NodeRow) :
    Continues subject finished (whole.edit edit) (fresh.edit edit) := by
  have inner := continues.inner
  cases edit with
  | append row =>
      simp only [Sketch.edit]
      split
      · exact ⟨continues.finished, continues.enclosing, inner, rfl⟩
      · exact ⟨continues.finished, continues.enclosing, inner, rfl⟩
  | quantify quantifier =>
      have same := continues.last
      simp only [Sketch.edit]
      cases wholeLast : whole.last with
      | none =>
          rw [wholeLast, Option.map_none, eq_comm, Option.map_eq_none_iff] at same
          rw [same]
          exact continues
      | some row =>
          rw [wholeLast, Option.map_some, eq_comm, Option.map_eq_some_iff] at same
          obtain ⟨other, found, spans⟩ := same
          rw [found]
          refine ⟨continues.finished, continues.enclosing, continues.written, ?_⟩
          rw [Option.map_some, Option.map_some, Node.rowSpans_singleton, Node.rowSpans_singleton,
            Node.spans, Node.spans, spans]
  | openCapture =>
      refine ⟨continues.finished, ?_, rfl, rfl⟩
      simp only [Sketch.edit, List.map_cons, inner, continues.enclosing]
  | closeCapture =>
      have same := continues.enclosing
      simp only [Sketch.edit]
      cases wholeEnclosing : whole.enclosing with
      | nil =>
          rw [wholeEnclosing, List.map_nil, eq_comm, List.map_eq_nil_iff] at same
          rw [same]
          exact continues
      | cons opening outer =>
          cases freshEnclosing : fresh.enclosing with
          | nil =>
              rw [wholeEnclosing, freshEnclosing] at same
              cases same
          | cons other others =>
              rw [wholeEnclosing, freshEnclosing, List.map_cons, List.map_cons] at same
              obtain ⟨before, outside⟩ := List.cons.inj same
              refine ⟨continues.finished, outside, before, ?_⟩
              rw [Option.map_some, Option.map_some, rowSpans_capture, rowSpans_capture, inner]
  | alternate =>
      refine ⟨?_, rfl, rfl, rfl⟩
      simp only [Sketch.edit, List.map_append, List.map_singleton, continues.finished,
        continues.branch, List.append_assoc]
  | startAnchor enabled =>
      exact ⟨continues.finished, continues.enclosing, continues.written, continues.last⟩
  | endAnchor enabled =>
      exact ⟨continues.finished, continues.enclosing, continues.written, continues.last⟩

theorem edits (continues : Continues subject finished whole fresh)
    (edits : List (Edit NodeRow)) :
    Continues subject finished (edits.foldl Sketch.edit whole) (edits.foldl Sketch.edit fresh) := by
  induction edits generalizing whole fresh with
  | nil => exact continues
  | cons edit rest inductionHypothesis => exact inductionHypothesis (continues.edit edit)

theorem run (continues : Continues subject finished whole fresh) (calls : List Call) :
    Continues subject finished (whole.run modes calls) (fresh.run modes calls) := by
  unfold Sketch.run
  induction calls generalizing whole fresh with
  | nil => exact continues
  | cons call rest inductionHypothesis => exact inductionHypothesis (continues.edits _)

theorem staysOrdered (continues : Continues subject finished whole fresh) (calls : List Call) :
    whole.staysOrdered modes calls = fresh.staysOrdered modes calls := by
  induction calls generalizing whole fresh with
  | nil => rfl
  | cons call rest inductionHypothesis =>
      have first : call.isOrderedBehind whole.last = call.isOrderedBehind fresh.last := by
        cases call with
        | repeatPrevious lower upper =>
            simp only [Call.isOrderedBehind, continues.last_isNone]
        | _ => rfl
      rw [Sketch.staysOrdered, Sketch.staysOrdered, first]
      exact congrArg _ (inductionHypothesis (continues.edits (call.nodeEdits modes)))

theorem branches (continues : Continues subject finished whole fresh) :
    whole.branches.map (rowSpans subject) =
      finished ++ fresh.branches.map (rowSpans subject) := by
  unfold Sketch.branches
  rw [List.map_append, continues.finished, List.map_append, List.map_singleton,
    List.map_singleton, continues.branch, List.append_assoc]

end Continues

theorem continues_alternate (sketch : Sketch) :
    Continues subject (sketch.branches.map (rowSpans subject)) (sketch.edit .alternate)
      (blank 0) := by
  refine ⟨?_, rfl, rfl, rfl⟩
  exact (List.append_nil _).symm

/-- What is written from a further alternative on means what it means on a blank sketch. -/
theorem continues_run (modes : Modes) (subject : Array Char) (sketch : Sketch)
    (earlier : List Call) (value : Text) (later : List Call) :
    Continues subject ((sketch.run modes earlier).branches.map (rowSpans subject))
      (sketch.run modes (earlier ++ .alternative value :: later))
      ((blank 0).run modes (.literal value :: later)) := by
  unfold run
  rw [List.foldl_append]
  exact ((continues_alternate _).edit (.append (Node.ofText modes value))).run later

theorem staysOrdered_append (modes : Modes) (sketch : Sketch) (earlier later : List Call) :
    sketch.staysOrdered modes (earlier ++ later) =
      (sketch.staysOrdered modes earlier &&
        (sketch.run modes earlier).staysOrdered modes later) := by
  unfold run
  induction earlier generalizing sketch with
  | nil => rfl
  | cons call rest inductionHypothesis =>
      rw [List.cons_append, staysOrdered, inductionHypothesis, staysOrdered, Bool.and_assoc]
      rfl

theorem staysOrdered_alternative (modes : Modes) (sketch : Sketch) (earlier : List Call)
    (value : Text) (later : List Call) :
    sketch.staysOrdered modes (earlier ++ .alternative value :: later) =
      (sketch.staysOrdered modes earlier &&
        (blank 0).staysOrdered modes (.literal value :: later)) := by
  rw [staysOrdered_append, staysOrdered, staysOrdered]
  have begun : Continues #[] _ ((sketch.run modes earlier).edit .alternate) (blank 0) :=
    continues_alternate _
  exact congrArg _ ((begun.edit (.append (Node.ofText modes value))).staysOrdered later)

end Sketch
end ReadableRegex

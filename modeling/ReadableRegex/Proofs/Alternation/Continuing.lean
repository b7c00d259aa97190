import ReadableRegex.Proofs.Edits

/-!
A draft that has begun another alternative goes on as a blank one would: everything but the
finished alternatives and the anchors is the same, whatever is written next.
-/

namespace ReadableRegex

namespace Draft

/-- The draft has the finished alternatives and behind them what the fresh draft has. Anchors
belong to no alternative. -/
structure Continues (finished : List Text) (whole fresh : Draft) : Prop where
  finished : whole.finished = finished ++ fresh.finished
  enclosing : whole.enclosing = fresh.enclosing
  written : whole.written = fresh.written
  last : whole.last = fresh.last
  closesCaptures : whole.closesCaptures = fresh.closesCaptures

variable {whole fresh : Draft} {finished : List Text}

theorem continues_alternate (draft : Draft) :
    Continues (draft.finished ++ [draft.branch ++ draft.closers]) draft.alternate
      (blank draft.closesCaptures) where
  finished := (List.append_nil _).symm
  enclosing := rfl
  written := rfl
  last := rfl
  closesCaptures := rfl

namespace Continues

theorem inner (continues : Continues finished whole fresh) : whole.inner = fresh.inner := by
  unfold Draft.inner
  rw [continues.written, continues.last]

theorem branch (continues : Continues finished whole fresh) : whole.branch = fresh.branch := by
  unfold Draft.branch
  rw [continues.enclosing, continues.inner]

theorem openCaptures (continues : Continues finished whole fresh) :
    whole.openCaptures = fresh.openCaptures := by
  unfold Draft.openCaptures
  rw [continues.enclosing]

theorem openOffsets (continues : Continues finished whole fresh) :
    whole.openOffsets = fresh.openOffsets := by
  unfold Draft.openOffsets
  rw [continues.enclosing]

theorem closers (continues : Continues finished whole fresh) : whole.closers = fresh.closers := by
  unfold Draft.closers
  rw [continues.openCaptures]

theorem edit (continues : Continues finished whole fresh) (edit : Edit Token) :
    Continues finished (whole.edit edit) (fresh.edit edit) := by
  have inner := continues.inner
  cases edit with
  | append token =>
      by_cases empty : token.text = []
      · rw [edit_append_of_empty empty, edit_append_of_empty empty]
        exact ⟨continues.finished, continues.enclosing, inner, rfl, continues.closesCaptures⟩
      · rw [edit_append_of_ne empty, edit_append_of_ne empty]
        exact ⟨continues.finished, continues.enclosing, inner, rfl, continues.closesCaptures⟩
  | quantify quantifier =>
      cases last : fresh.last with
      | none =>
          rw [edit_quantify_of_none (continues.last.trans last), edit_quantify_of_none last]
          exact continues
      | some token =>
          rw [edit_quantify_of_some (continues.last.trans last), edit_quantify_of_some last]
          exact ⟨continues.finished, continues.enclosing, continues.written, rfl,
            continues.closesCaptures⟩
  | openCapture =>
      refine ⟨continues.finished, ?_, rfl, rfl, continues.closesCaptures⟩
      have opened : whole.inner :: whole.enclosing = fresh.inner :: fresh.enclosing := by
        rw [inner, continues.enclosing]
      exact opened
  | closeCapture =>
      cases enclosing : fresh.enclosing with
      | nil =>
          rw [edit_closeCapture_of_nil (continues.enclosing.trans enclosing),
            edit_closeCapture_of_nil enclosing]
          exact continues
      | cons before outer =>
          rw [edit_closeCapture_of_cons (continues.enclosing.trans enclosing),
            edit_closeCapture_of_cons enclosing]
          refine ⟨continues.finished, rfl, rfl, ?_, continues.closesCaptures⟩
          rw [inner]
  | alternate =>
      refine ⟨?_, rfl, rfl, rfl, continues.closesCaptures⟩
      have sealed : whole.finished ++ [whole.branch ++ whole.closers] =
          finished ++ (fresh.finished ++ [fresh.branch ++ fresh.closers]) := by
        rw [continues.finished, continues.branch, continues.closers, List.append_assoc]
      exact sealed
  | startAnchor enabled =>
      exact ⟨continues.finished, continues.enclosing, continues.written, continues.last,
        continues.closesCaptures⟩
  | endAnchor enabled =>
      exact ⟨continues.finished, continues.enclosing, continues.written, continues.last,
        continues.closesCaptures⟩

theorem edits (continues : Continues finished whole fresh) (edits : List (Edit Token)) :
    Continues finished (edits.foldl Draft.edit whole) (edits.foldl Draft.edit fresh) := by
  induction edits generalizing whole fresh with
  | nil => exact continues
  | cons edit rest inductionHypothesis => exact inductionHypothesis (continues.edit edit)

theorem body (continues : Continues finished whole fresh) :
    whole.body = finished.flatMap (fun alternative => alternative ++ ['|']) ++ fresh.body := by
  unfold Draft.body
  rw [continues.finished, continues.branch, continues.closers, continues.closesCaptures,
    List.flatMap_append, List.append_assoc, List.append_assoc, List.append_assoc]

/-- The last token differs in the number of its alternative only. -/
theorem lastHandle (continues : Continues finished whole fresh) :
    whole.lastHandle = fresh.lastHandle.map
      (fun handle => { handle with branch := finished.length + handle.branch }) := by
  have place (token : Token) : whole.handleOf token =
      { fresh.handleOf token with
        branch := finished.length + (fresh.handleOf token).branch } := by
    simp only [handleOf, continues.enclosing, continues.written, continues.finished,
      List.length_append]
  unfold Draft.lastHandle
  rw [continues.last, Option.map_map]
  exact Option.map_congr fun token _ => place token

end Continues
end Draft

namespace Phrase

variable (options : Options) (earlier : List Call) (value : Text) (later : List Call)

/-- What is written from a further alternative on is written as on a fresh phrase. -/
theorem continues_run :
    Draft.Continues
      (((ofOptions options).run earlier).draft.finished ++
        [((ofOptions options).run earlier).draft.branch ++
          ((ofOptions options).run earlier).draft.closers])
      ((ofOptions options).run (earlier ++ .alternative value :: later)).draft
      ((ofOptions options).run (.literal value :: later)).draft := by
  have closes : ((ofOptions options).run earlier).draft.closesCaptures = options.closesCaptures :=
    closesCaptures_run _ _
  have begun := Draft.continues_alternate ((ofOptions options).run earlier).draft
  rw [closes] at begun
  have continued := begun.edits (.append (.ofLiteral value) :: later.flatMap Call.edits)
  have whole : ((ofOptions options).run (earlier ++ .alternative value :: later)).draft =
      (.append (.ofLiteral value) :: later.flatMap Call.edits).foldl Draft.edit
        ((ofOptions options).run earlier).draft.alternate := by
    rw [draft_run, draft_run, List.flatMap_append, List.foldl_append]
    rfl
  rw [whole, draft_run _ (.literal value :: later)]
  exact continued

end Phrase
end ReadableRegex

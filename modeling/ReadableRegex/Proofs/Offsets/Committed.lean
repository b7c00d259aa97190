import ReadableRegex.Proofs.Offsets.Layout

/-!
The text that no later operation can change. While captures are open it ends at the outermost of
them, since that one can still be closed and then quantified as a whole; else it ends where the last
token starts. From there on an operation only moves the bound further.
-/

namespace ReadableRegex.Draft

variable {draft next : Draft}

/-- The byte position up to which the alternative at hand can no longer change. -/
def committed (draft : Draft) : Nat :=
  match draft.openOffsets.head?, draft.lastHandle with
  | some opening, _ => opening
  | none, some handle => handle.start
  | none, none => Text.byteSize draft.branch

/-! ### The committed text -/

/-- The text before the outermost opening; the text itself if there is none around it. -/
def outermost : List Text → Text → Text
  | [], text => text
  | before :: outer, _ => outermost outer before

def committedText (draft : Draft) : Text :=
  outermost draft.enclosing draft.written

theorem outermost_of_within {texts : List Text} {left right : Text} (within : left <+: right) :
    outermost texts left <+: outermost texts right := by
  cases texts with
  | nil => exact within
  | cons before outer => exact List.prefix_refl _

theorem outermost_enclose (texts : List Text) (text : Text) :
    outermost texts text <+: enclose texts text := by
  induction texts generalizing text with
  | nil => exact List.prefix_refl _
  | cons before outer inductionHypothesis =>
      rw [outermost, enclose, enclose_append]
      exact (inductionHypothesis before).trans (List.prefix_append _ _)

theorem head?_openingOffsets (before : Text) (outer : List Text) (text : Text) :
    (openingOffsets (before :: outer)).head? =
      some (Text.byteSize (outermost (before :: outer) text)) := by
  induction outer generalizing before text with
  | nil => rfl
  | cons further others inductionHypothesis =>
      have found := inductionHypothesis further before
      rw [openingOffsets, List.head?_append, found]
      rfl

theorem written_prefix_inner (draft : Draft) : draft.written <+: draft.inner :=
  List.prefix_append _ _

theorem committedText_prefix_branch (draft : Draft) : draft.committedText <+: draft.branch :=
  (outermost_of_within draft.written_prefix_inner).trans (outermost_enclose _ _)

theorem byteSize_committedText (draft : Draft) :
    Text.byteSize draft.committedText = draft.committed := by
  unfold committedText committed openOffsets
  cases enclosing : draft.enclosing with
  | cons before outer => rw [head?_openingOffsets before outer draft.written]
  | nil =>
      cases last : draft.last with
      | none => simp [openingOffsets, outermost, lastHandle, last, branch, inner, enclosing, enclose]
      | some token =>
          simp [openingOffsets, outermost, lastHandle, last, handleOf, enclosing, enclose]

/-! ### Operations -/

/-- How a draft goes on: in the same alternative behind the committed text, or in a later one after
the alternative was finished with that text in front. -/
inductive Retains (draft next : Draft) : Prop where
  | within (finished : next.finished = draft.finished)
      (kept : draft.committedText <+: next.committedText)
  | beyond {alternative : Text} (finished : draft.finished ++ [alternative] <+: next.finished)
      (kept : draft.committedText <+: alternative)

theorem Retains.refl (draft : Draft) : draft.Retains draft :=
  .within rfl (List.prefix_refl _)

theorem Retains.trans {final : Draft} (first : draft.Retains next) (second : next.Retains final) :
    draft.Retains final := by
  cases first with
  | within sameFirst keptFirst =>
      cases second with
      | within sameSecond keptSecond =>
          exact .within (sameSecond.trans sameFirst) (keptFirst.trans keptSecond)
      | beyond finished keptSecond =>
          rw [sameFirst] at finished
          exact .beyond finished (keptFirst.trans keptSecond)
  | beyond finished kept =>
      cases second with
      | within same _ =>
          rw [← same] at finished
          exact .beyond finished kept
      | beyond further _ =>
          exact .beyond (finished.trans ((List.prefix_append _ _).trans further)) kept

theorem retains_edit (draft : Draft) (edit : Edit Token) : draft.Retains (draft.edit edit) := by
  cases edit with
  | append token =>
      have settled : draft.committedText <+: draft.settle.committedText :=
        outermost_of_within draft.written_prefix_inner
      by_cases empty : token.text = []
      · rw [edit_append_of_empty empty]
        exact .within rfl settled
      · rw [edit_append_of_ne empty]
        exact .within rfl settled
  | quantify quantifier =>
      cases last : draft.last with
      | none =>
          rw [edit_quantify_of_none last]
          exact .refl draft
      | some token =>
          rw [edit_quantify_of_some last]
          exact .within rfl (List.prefix_refl _)
  | openCapture => exact .within rfl (outermost_of_within draft.written_prefix_inner)
  | closeCapture =>
      cases enclosing : draft.enclosing with
      | nil =>
          rw [edit_closeCapture_of_nil enclosing]
          exact .refl draft
      | cons before outer =>
          -- The text before the closed capture is committed as far as it was while it was open.
          have same : draft.committedText = outermost outer before := by
            rw [committedText, enclosing, outermost]
          rw [edit_closeCapture_of_cons enclosing]
          refine .within rfl ?_
          rw [same]
          exact List.prefix_refl _
  | alternate =>
      exact .beyond (List.prefix_refl _)
        (draft.committedText_prefix_branch.trans (List.prefix_append _ _))
  | startAnchor enabled => exact .within rfl (List.prefix_refl _)
  | endAnchor enabled => exact .within rfl (List.prefix_refl _)

theorem retains_operate (draft : Draft) (operation : Operation) :
    draft.Retains (draft.operate operation) := by
  rcases draft.operate_cases operation with ⟨edit, same⟩ | same | ⟨enabled, same⟩
  · rw [same]
    exact draft.retains_edit edit
  · rw [same]
    exact .refl draft
  · rw [same]
    exact .within rfl (List.prefix_refl _)

theorem retains_operateAll (draft : Draft) (operations : List Operation) :
    draft.Retains (draft.operateAll operations) := by
  unfold operateAll
  induction operations generalizing draft with
  | nil => exact .refl draft
  | cons operation rest inductionHypothesis =>
      exact (draft.retains_operate operation).trans (inductionHypothesis (draft.operate operation))

/-! ### Where the text stands afterwards -/

theorem Retains.finished_prefix (retains : draft.Retains next) :
    draft.finished <+: next.finished := by
  cases retains with
  | within same _ => exact same ▸ List.prefix_refl _
  | beyond finished _ => exact (List.prefix_append _ _).trans finished

theorem Retains.alternative (retains : draft.Retains next) :
    ∃ text, (next.finished ++ [next.branch])[draft.finished.length]? = some text ∧
      draft.committedText <+: text := by
  cases retains with
  | within same kept =>
      refine ⟨next.branch, ?_, kept.trans next.committedText_prefix_branch⟩
      rw [same, List.getElem?_concat_length]
  | @beyond alternative finished kept =>
      refine ⟨alternative, ?_, kept⟩
      obtain ⟨others, whole⟩ := finished
      rw [← whole]
      simp

theorem Retains.body (retains : draft.Retains next) :
    draft.finished.flatMap (· ++ ['|']) ++ draft.committedText <+: next.body := by
  unfold Draft.body
  cases retains with
  | within same kept =>
      rw [same, List.append_assoc]
      refine (List.prefix_append_right_inj _).mpr ?_
      exact (kept.trans next.committedText_prefix_branch).trans (List.prefix_append _ _)
  | @beyond alternative finished kept =>
      obtain ⟨others, whole⟩ := finished
      rw [← whole]
      simp only [List.flatMap_append, List.flatMap_cons, List.append_assoc]
      refine (List.prefix_append_right_inj _).mpr ?_
      exact kept.trans (List.prefix_append _ _)

/-- What is written before the outermost open capture, or else before the last token, stays as it
is whatever is done to the draft: it stays the beginning of its alternative, which stays where it
is in the body, and so do the alternatives finished before. -/
theorem committed_of_operations (draft : Draft) (later : List Operation) :
    ∃ kept rest, draft.branch.cut? draft.committed = some (kept, rest) ∧
      draft.finished <+: (draft.operateAll later).finished ∧
      (∃ text, ((draft.operateAll later).finished ++
          [(draft.operateAll later).branch])[draft.finished.length]? = some text ∧
        kept <+: text) ∧
      draft.finished.flatMap (· ++ ['|']) ++ kept <+: (draft.operateAll later).body := by
  have retains := draft.retains_operateAll later
  obtain ⟨rest, whole⟩ := draft.committedText_prefix_branch
  refine ⟨draft.committedText, rest, ?_, retains.finished_prefix, retains.alternative,
    retains.body⟩
  rw [← whole, ← byteSize_committedText]
  exact Text.cut?_append _ _

end ReadableRegex.Draft

import ReadableRegex.Proofs.Edits
import ReadableRegex.Proofs.Offsets.Cuts

/-!
A draft laid out flat: the alternative at hand as one text, with byte positions for its last token
and its open captures. On the layout a quantifier opens its group in the middle of the text, at a
position kept from before. Every operation changes the layout of a draft as it changes the draft,
and the positions stay where the text has what they stand for.
-/

namespace ReadableRegex

theorem Quantifier.text_ne_nil (quantifier : Quantifier) : quantifier.text ≠ [] := by
  cases quantifier <;> exact List.cons_ne_nil _ _

structure Layout where
  finished : List Text
  text : Text
  last : Option Handle
  /-- Where the captures that are still open begin, in the order in which they were opened. -/
  openings : List Nat
deriving DecidableEq

inductive Operation where
  | push (fragment : Text) (kind : TokenKind)
  | pushLiteral (text : Text)
  | pushRaw (fragment : Text)
  | quantify (handle : Handle) (quantifier : Quantifier)
  | quantifyLast (quantifier : Quantifier)
  | beginCapture
  | endCapture
  | alternate
  | startAnchor (enabled : Bool)
  | endAnchor (enabled : Bool)
  | closesCaptures (enabled : Bool)
deriving DecidableEq

namespace Layout

def blank : Layout := ⟨[], [], none, []⟩

def handleFrom (layout : Layout) (start : Nat) (kind : TokenKind) : Handle :=
  ⟨layout.finished.length, start, Text.byteSize layout.text, kind⟩

def append (layout : Layout) (token : Token) : Layout :=
  if token.text = [] then { layout with last := none }
  else
    let next := { layout with text := layout.text ++ token.text }
    { next with last := some (next.handleFrom (Text.byteSize layout.text) token.kind) }

/-- The text with the token of the handle made ready for a quantifier, if the group around it can
be opened where the token starts. -/
def operand? (layout : Layout) (handle : Handle) : Option Text :=
  if handle.kind.needsGroup then
    (layout.text.insertAt? handle.start ['(', '?', ':']).map (· ++ [')'])
  else some layout.text

def quantify? (layout : Layout) (handle : Handle) (quantifier : Quantifier) : Option Layout :=
  (layout.operand? handle).map (fun text =>
    let next := { layout with text := text ++ quantifier.text }
    { next with last := some (next.handleFrom handle.start .quantified) })

def openCapture (layout : Layout) : Layout :=
  { layout with
    text := layout.text ++ ['(']
    last := none
    openings := layout.openings ++ [Text.byteSize layout.text] }

def closeCapture (layout : Layout) : Layout :=
  match layout.openings.getLast? with
  | none => layout
  | some start =>
      let next := { layout with
        text := layout.text ++ [')'], openings := layout.openings.dropLast }
      { next with last := some (next.handleFrom start .atom) }

def alternate (layout : Layout) : Layout :=
  { finished := layout.finished ++ [layout.text ++ List.replicate layout.openings.length ')']
    text := []
    last := none
    openings := [] }

/-- The layout after an edit; none if the text would have to be cut inside a character. -/
def edit? (layout : Layout) : Edit Token → Option Layout
  | .append token => some (layout.append token)
  | .quantify quantifier =>
      match layout.last with
      | some handle => layout.quantify? handle quantifier
      | none => some layout
  | .openCapture => some layout.openCapture
  | .closeCapture => some layout.closeCapture
  | .alternate => some layout.alternate
  | .startAnchor _ => some layout
  | .endAnchor _ => some layout

def operate? (layout : Layout) : Operation → Option Layout
  | .push fragment kind => layout.edit? (.append ⟨fragment, kind⟩)
  | .pushLiteral text => layout.edit? (.append (.ofLiteral text))
  | .pushRaw fragment => layout.edit? (.append (.ofRaw fragment))
  | .quantify handle quantifier =>
      if layout.last = some handle then layout.edit? (.quantify quantifier) else some layout
  | .quantifyLast quantifier => layout.edit? (.quantify quantifier)
  | .beginCapture => layout.edit? .openCapture
  | .endCapture => layout.edit? .closeCapture
  | .alternate => layout.edit? .alternate
  | .startAnchor enabled => layout.edit? (.startAnchor enabled)
  | .endAnchor enabled => layout.edit? (.endAnchor enabled)
  | .closesCaptures _ => some layout

def operateAll? (layout : Layout) (operations : List Operation) : Option Layout :=
  operations.foldlM operate? layout

structure IsSound (layout : Layout) : Prop where
  increasing : layout.openings.Pairwise (· < ·)
  opening : ∀ offset ∈ layout.openings,
    offset < Text.byteSize layout.text ∧ layout.text.charAt? offset = some '('
  last : ∀ handle, layout.last = some handle →
    handle.branch = layout.finished.length ∧
    handle.start < handle.stop ∧ handle.stop = Text.byteSize layout.text ∧
    layout.text.IsBoundary handle.start ∧ layout.text.IsBoundary handle.stop ∧
    ∀ offset ∈ layout.openings, offset < handle.start
  /-- What is inserted before the last token moves no opening. -/
  insertable : ∀ handle, layout.last = some handle → ∀ inserted,
    ∃ whole, layout.text.insertAt? handle.start inserted = some whole ∧
      ∀ offset ∈ layout.openings, whole.charAt? offset = some '('

end Layout

namespace Draft

variable {draft : Draft}

def layout (draft : Draft) : Layout :=
  ⟨draft.finished, draft.branch, draft.lastHandle, draft.openOffsets⟩

def operate (draft : Draft) : Operation → Draft
  | .push fragment kind => (draft.push fragment kind).1
  | .pushLiteral text => (draft.pushLiteral text).1
  | .pushRaw fragment => (draft.pushRaw fragment).1
  | .quantify handle quantifier =>
      match draft.quantify handle quantifier with
      | .ok (next, _) => next
      | .error _ => draft
  | .quantifyLast quantifier =>
      match draft.quantifyLast quantifier with
      | .ok (next, _) => next
      | .error _ => draft
  | .beginCapture => draft.beginCapture
  | .endCapture =>
      match draft.endCapture with
      | .ok (next, _) => next
      | .error _ => draft
  | .alternate => draft.alternate
  | .startAnchor enabled => draft.setStartAnchor enabled
  | .endAnchor enabled => draft.setEndAnchor enabled
  | .closesCaptures enabled => draft.setClosesCaptures enabled

def operateAll (draft : Draft) (operations : List Operation) : Draft :=
  operations.foldl operate draft

/-! ### Layouts of drafts -/

/-- The text before the last token, or the whole alternative if there is none. -/
def front (draft : Draft) : Text :=
  enclose draft.enclosing draft.written

theorem branch_of_some {token : Token} (last : draft.last = some token) :
    draft.branch = draft.front ++ token.text := by
  unfold branch front inner
  rw [last, ← enclose_append]
  rfl

theorem branch_settle (draft : Draft) : draft.settle.branch = draft.branch := by
  unfold branch settle inner
  simp

theorem layout_settle (draft : Draft) :
    draft.settle.layout = { draft.layout with last := none } := by
  unfold layout
  rw [branch_settle]
  rfl

theorem branch_append (draft : Draft) (token : Token) :
    (draft.edit (.append token)).branch = draft.branch ++ token.text := by
  by_cases empty : token.text = []
  · rw [edit_append_of_empty empty, branch_settle, empty, List.append_nil]
  · have last : ({ draft.settle with last := some token } : Draft).last = some token := rfl
    rw [edit_append_of_ne empty, branch_of_some last]
    rfl

theorem layout_append (draft : Draft) (token : Token) :
    (draft.edit (.append token)).layout = draft.layout.append token := by
  unfold Layout.append
  by_cases empty : token.text = []
  · rw [edit_append_of_empty empty, if_pos empty]
    exact draft.layout_settle
  · rw [edit_append_of_ne empty, if_neg empty]
    have last : ({ draft.settle with last := some token } : Draft).last = some token := rfl
    unfold layout
    rw [branch_of_some last]
    simp [lastHandle, handleOf, front, Layout.handleFrom, settle, branch, openOffsets]

/-- The group is opened exactly between the last token and what stands before it. -/
theorem operand?_layout {token : Token} (last : draft.last = some token) :
    draft.layout.operand? (draft.handleOf token) = some (draft.front ++ token.operand) := by
  have text : draft.layout.text = draft.front ++ token.text := branch_of_some last
  have start : (draft.handleOf token).start = Text.byteSize draft.front := rfl
  have kind : (draft.handleOf token).kind = token.kind := rfl
  unfold Layout.operand? Token.operand
  rw [text, start, kind, Text.insertAt?_append]
  split
  · simp
  · rfl

theorem layout_quantify (draft : Draft) (quantifier : Quantifier) :
    draft.layout.edit? (.quantify quantifier) =
      some (draft.edit (.quantify quantifier)).layout := by
  cases last : draft.last with
  | none =>
      rw [edit_quantify_of_none last]
      simp [Layout.edit?, layout, lastHandle, last]
  | some token =>
      have handle : draft.layout.last = some (draft.handleOf token) := by
        simp [layout, lastHandle, last]
      have requantified : ({ draft with last := some (token.quantify quantifier) } : Draft).last =
          some (token.quantify quantifier) := rfl
      rw [edit_quantify_of_some last]
      simp only [Layout.edit?, handle, Layout.quantify?, operand?_layout last, Option.map_some]
      apply congrArg some
      unfold layout
      rw [branch_of_some requantified]
      simp [lastHandle, handleOf, front, Layout.handleFrom, Token.quantify, openOffsets]

theorem layout_openCapture (draft : Draft) :
    (draft.edit .openCapture).layout = draft.layout.openCapture := by
  have text : (draft.edit .openCapture).branch = draft.branch ++ ['('] := by
    simp [edit, beginCapture, branch, inner, enclose, enclose_append]
  unfold layout Layout.openCapture
  rw [text]
  rfl

theorem layout_closeCapture (draft : Draft) :
    (draft.edit .closeCapture).layout = draft.layout.closeCapture := by
  cases enclosing : draft.enclosing with
  | nil =>
      rw [edit_closeCapture_of_nil enclosing]
      simp [Layout.closeCapture, layout, openOffsets, enclosing, openingOffsets]
  | cons before outer =>
      have openings : draft.openOffsets =
          openingOffsets outer ++ [Text.byteSize (enclose outer before)] := by
        rw [openOffsets, enclosing, openingOffsets]
      have text : draft.branch = enclose outer before ++ '(' :: draft.inner := by
        rw [branch, enclosing, enclose, enclose_append]
      have closed : ({ draft with
          enclosing := outer
          written := before
          last := some ⟨'(' :: draft.inner ++ [')'], .atom⟩ } : Draft).last =
            some ⟨'(' :: draft.inner ++ [')'], .atom⟩ := rfl
      rw [edit_closeCapture_of_cons enclosing]
      unfold layout Layout.closeCapture
      rw [branch_of_some closed, openings, text]
      simp [lastHandle, handleOf, front, Layout.handleFrom, openOffsets]

theorem length_openingOffsets (texts : List Text) :
    (openingOffsets texts).length = texts.length := by
  induction texts with
  | nil => rfl
  | cons before outer inductionHypothesis =>
      rw [openingOffsets, List.length_append, inductionHypothesis]
      rfl

theorem layout_alternate (draft : Draft) :
    (draft.edit .alternate).layout = draft.layout.alternate := by
  have count : draft.layout.openings.length = draft.openCaptures :=
    length_openingOffsets draft.enclosing
  unfold Layout.alternate
  rw [count]
  rfl

/-- An edit changes the layout as it changes the draft, and never cuts a character. -/
theorem layout_edit (draft : Draft) (edit : Edit Token) :
    draft.layout.edit? edit = some (draft.edit edit).layout := by
  cases edit with
  | append token => exact congrArg some (draft.layout_append token).symm
  | quantify quantifier => exact draft.layout_quantify quantifier
  | openCapture => exact congrArg some draft.layout_openCapture.symm
  | closeCapture => exact congrArg some draft.layout_closeCapture.symm
  | alternate => exact congrArg some draft.layout_alternate.symm
  | startAnchor enabled => rfl
  | endAnchor enabled => rfl

theorem operate_quantify (draft : Draft) (handle : Handle) (quantifier : Quantifier) :
    draft.operate (.quantify handle quantifier) =
      if draft.lastHandle = some handle then draft.edit (.quantify quantifier) else draft := by
  cases last : draft.last with
  | none => simp [operate, quantify, lastHandle, last]
  | some token =>
      by_cases same : draft.handleOf token = handle
      · simp [operate, quantify, lastHandle, last, same, edit_quantify_of_some last, withLast]
      · simp [operate, quantify, lastHandle, last, same]

theorem layout_operate (draft : Draft) (operation : Operation) :
    draft.layout.operate? operation = some (draft.operate operation).layout := by
  cases operation with
  | quantify handle quantifier =>
      rw [operate_quantify, Layout.operate?]
      by_cases same : draft.layout.last = some handle
      · have named : draft.lastHandle = some handle := same
        rw [if_pos same, if_pos named]
        exact draft.layout_edit (.quantify quantifier)
      · have other : draft.lastHandle ≠ some handle := same
        rw [if_neg same, if_neg other]
  | quantifyLast quantifier => exact draft.layout_edit (.quantify quantifier)
  | endCapture => exact draft.layout_edit .closeCapture
  | push fragment kind => exact draft.layout_edit (.append ⟨fragment, kind⟩)
  | pushLiteral text => exact draft.layout_edit (.append (.ofLiteral text))
  | pushRaw fragment => exact draft.layout_edit (.append (.ofRaw fragment))
  | beginCapture => exact draft.layout_edit .openCapture
  | alternate => exact draft.layout_edit .alternate
  | startAnchor enabled => rfl
  | endAnchor enabled => rfl
  | closesCaptures enabled => rfl

theorem layout_operateAll (draft : Draft) (operations : List Operation) :
    draft.layout.operateAll? operations = some (draft.operateAll operations).layout := by
  induction operations generalizing draft with
  | nil => rfl
  | cons operation rest inductionHypothesis =>
      have first := draft.layout_operate operation
      unfold Layout.operateAll? at inductionHypothesis ⊢
      rw [List.foldlM_cons, first]
      exact inductionHypothesis (draft.operate operation)

/-! ### Positions -/

theorem charAt?_enclose {texts : List Text} {offset : Nat}
    (member : offset ∈ openingOffsets texts) (text : Text) :
    offset < Text.byteSize (enclose texts text) ∧
      (enclose texts text).charAt? offset = some '(' := by
  induction texts generalizing text with
  | nil => cases member
  | cons before outer inductionHypothesis =>
      rw [enclose]
      rw [openingOffsets] at member
      rcases List.mem_append.mp member with further | innermost
      · exact inductionHypothesis further (before ++ '(' :: text)
      · rw [List.mem_singleton.mp innermost, enclose_append]
        constructor
        · have positive := '('.utf8Size_pos
          rw [Text.byteSize_append, Text.byteSize_cons]
          omega
        · exact Text.charAt?_append_cons _ _ _

theorem openingOffsets_increasing (texts : List Text) :
    (openingOffsets texts).Pairwise (· < ·) := by
  induction texts with
  | nil => exact .nil
  | cons before outer inductionHypothesis =>
      rw [openingOffsets, List.pairwise_append]
      refine ⟨inductionHypothesis, List.pairwise_singleton _ _, ?_⟩
      intro offset further innermost single
      rw [List.mem_singleton.mp single]
      exact (charAt?_enclose further before).1

def HasText (draft : Draft) : Prop :=
  ∀ token, draft.last = some token → token.text ≠ []

theorem HasText.edit (hasText : draft.HasText) (edit : Edit Token) : (draft.edit edit).HasText := by
  intro token last
  cases edit with
  | append appended =>
      by_cases empty : appended.text = []
      · rw [edit_append_of_empty empty] at last
        cases last
      · rw [edit_append_of_ne empty] at last
        cases last
        exact empty
  | quantify quantifier =>
      cases before : draft.last with
      | none =>
          rw [edit_quantify_of_none before] at last
          exact hasText token last
      | some repeated =>
          rw [edit_quantify_of_some before] at last
          cases last
          exact List.append_ne_nil_of_right_ne_nil _ quantifier.text_ne_nil
  | closeCapture =>
      cases enclosing : draft.enclosing with
      | nil =>
          rw [edit_closeCapture_of_nil enclosing] at last
          exact hasText token last
      | cons before outer =>
          rw [edit_closeCapture_of_cons enclosing] at last
          cases last
          exact List.cons_ne_nil _ _
  | openCapture => cases last
  | alternate => cases last
  | startAnchor enabled => exact hasText token last
  | endAnchor enabled => exact hasText token last

theorem operate_cases (draft : Draft) (operation : Operation) :
    (∃ edit, draft.operate operation = draft.edit edit) ∨ draft.operate operation = draft ∨
      ∃ enabled, draft.operate operation = draft.setClosesCaptures enabled := by
  cases operation with
  | quantify handle quantifier =>
      rw [operate_quantify]
      split
      · exact Or.inl ⟨.quantify quantifier, rfl⟩
      · exact Or.inr (Or.inl rfl)
  | quantifyLast quantifier => exact Or.inl ⟨.quantify quantifier, rfl⟩
  | endCapture => exact Or.inl ⟨.closeCapture, rfl⟩
  | push fragment kind => exact Or.inl ⟨.append ⟨fragment, kind⟩, rfl⟩
  | pushLiteral text => exact Or.inl ⟨.append (.ofLiteral text), rfl⟩
  | pushRaw fragment => exact Or.inl ⟨.append (.ofRaw fragment), rfl⟩
  | beginCapture => exact Or.inl ⟨.openCapture, rfl⟩
  | alternate => exact Or.inl ⟨.alternate, rfl⟩
  | startAnchor enabled => exact Or.inl ⟨.startAnchor enabled, rfl⟩
  | endAnchor enabled => exact Or.inl ⟨.endAnchor enabled, rfl⟩
  | closesCaptures enabled => exact Or.inr (Or.inr ⟨enabled, rfl⟩)

theorem HasText.operate (hasText : draft.HasText) (operation : Operation) :
    (draft.operate operation).HasText := by
  rcases draft.operate_cases operation with ⟨edit, same⟩ | same | ⟨enabled, same⟩
  · rw [same]
    exact hasText.edit edit
  · rw [same]
    exact hasText
  · rw [same]
    exact hasText

theorem HasText.operateAll (hasText : draft.HasText) (operations : List Operation) :
    (draft.operateAll operations).HasText := by
  unfold Draft.operateAll
  induction operations generalizing draft with
  | nil => exact hasText
  | cons operation rest inductionHypothesis => exact inductionHypothesis (hasText.operate operation)

theorem HasText.isSound_layout (hasText : draft.HasText) : draft.layout.IsSound := by
  refine ⟨openingOffsets_increasing _, ?_, ?_, ?_⟩
  · intro offset member
    exact charAt?_enclose member draft.inner
  · intro handle last
    obtain ⟨token, found, rfl⟩ := Option.map_eq_some_iff.mp last
    have text : draft.layout.text = draft.front ++ token.text := branch_of_some found
    have positive := Text.byteSize_pos (hasText token found)
    have start : (draft.handleOf token).start = Text.byteSize draft.front := rfl
    have stop : (draft.handleOf token).stop = Text.byteSize (draft.front ++ token.text) :=
      (Text.byteSize_append _ _).symm
    rw [text, start, stop]
    refine ⟨rfl, ?_, rfl, ⟨_, _, rfl, rfl⟩, ⟨_, [], (List.append_nil _).symm, rfl⟩, ?_⟩
    · rw [Text.byteSize_append]
      omega
    · intro offset member
      exact (charAt?_enclose member draft.written).1
  · intro handle last inserted
    obtain ⟨token, found, rfl⟩ := Option.map_eq_some_iff.mp last
    have text : draft.layout.text = draft.front ++ token.text := branch_of_some found
    refine ⟨draft.front ++ (inserted ++ token.text), ?_, ?_⟩
    · rw [text]
      exact Text.insertAt?_append _ _ _
    · intro offset member
      have moved := charAt?_enclose member (draft.written ++ (inserted ++ token.text))
      rw [enclose_append] at moved
      exact moved.2

/-- Whatever is done to a draft, no text is ever cut inside a character, and the positions kept
from before are those of the last token and of the openings of the open captures. -/
theorem layout_of_operations (closes : Bool) (operations : List Operation) :
    Layout.blank.operateAll? operations =
        some ((blank closes).operateAll operations).layout ∧
      ((blank closes).operateAll operations).layout.IsSound := by
  constructor
  · exact (blank closes).layout_operateAll operations
  · apply HasText.isSound_layout
    apply HasText.operateAll
    intro token last
    cases last

end Draft
end ReadableRegex

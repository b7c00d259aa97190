import ReadableRegex.Phrase

/-!
Calls as edits. Every call comes down to a few edits of the draft: a token is appended, the last
one repeated, a capture opened or closed, an alternative started, an anchor switched. What holds
of each edit holds of every run of calls.
-/

namespace ReadableRegex

/-- A change to a draft, or to anything built from tokens as a draft is. -/
inductive Edit (Content : Type) where
  | append (token : Content)
  | quantify (quantifier : Quantifier)
  | openCapture
  | closeCapture
  | alternate
  | startAnchor (enabled : Bool)
  | endAnchor (enabled : Bool)
deriving DecidableEq

namespace Token

def ofLiteral (value : Text) : Token :=
  ⟨Text.escapeLiteral value, kindOf (Text.escapeLiteral value)⟩

def ofRaw (fragment : Text) : Token :=
  ⟨fragment, kindOf fragment⟩

def ofMembers (members : Text) : Token :=
  ⟨(ClassText.anyOf members).getD [], .atom⟩

def ofExcluded (excluded : Text) : Token :=
  ⟨((ClassText.noneOf excluded).map (· ++ ['+'])).getD Fragment.something, .quantified⟩

def ofBounds (bounds : List Char) : Token :=
  ⟨(ClassText.ofBounds bounds).1.getD [], .atom⟩

end Token

def Call.edits : Call → List (Edit Token)
  | .startOfLine enabled => [.startAnchor enabled]
  | .endOfLine enabled => [.endAnchor enabled]
  | .literal value => [.append (.ofLiteral value)]
  | .optional value => [.append (.ofLiteral value), .quantify .optional]
  | .raw fragment => [.append (.ofRaw fragment)]
  | .alternative value => [.alternate, .append (.ofLiteral value)]
  | .anything => [.append ⟨Fragment.anything, .quantified⟩]
  | .something => [.append ⟨Fragment.something, .quantified⟩]
  | .anythingBut excluded => [.append (.ofExcluded excluded)]
  | .anyOf members => [.append (.ofMembers members)]
  | .range bounds => [.append (.ofBounds bounds)]
  | .lineBreak => [.append ⟨Fragment.lineBreak, .atom⟩]
  | .tab => [.append ⟨Fragment.tab, .atom⟩]
  | .word => [.append ⟨Fragment.word, .quantified⟩]
  | .digit => [.append ⟨Fragment.digit, .atom⟩]
  | .blank => [.append ⟨Fragment.blank, .atom⟩]
  | .flag _ _ => []
  | .flagLetter _ _ => []
  | .anyCase _ => []
  | .stopAtFirst _ => []
  | .searchOneLine _ => []
  | .repeatPrevious lower upper => [.quantify (.times lower upper)]
  | .oneOrMore => [.quantify .oneOrMore]
  | .multiple value lower upper =>
      [.append (.ofLiteral value), .quantify (.ofBounds lower upper)]
  | .beginCapture => [.openCapture]
  | .endCapture => [.closeCapture]

def Call.isRaw : Call → Bool
  | .raw _ => true
  | _ => false

/-- The tokens that calls append of themselves, raw fragments left out. -/
inductive Token.Cooked : Token → Prop where
  | literal (value : Text) : Cooked (ofLiteral value)
  | members (members : Text) : Cooked (ofMembers members)
  | excluded (excluded : Text) : Cooked (ofExcluded excluded)
  | bounds (bounds : List Char) : Cooked (ofBounds bounds)
  | anything : Cooked ⟨Fragment.anything, .quantified⟩
  | something : Cooked ⟨Fragment.something, .quantified⟩
  | lineBreak : Cooked ⟨Fragment.lineBreak, .atom⟩
  | tab : Cooked ⟨Fragment.tab, .atom⟩
  | word : Cooked ⟨Fragment.word, .quantified⟩
  | digit : Cooked ⟨Fragment.digit, .atom⟩
  | blank : Cooked ⟨Fragment.blank, .atom⟩

theorem Token.cooked_of_mem_edits {call : Call} {token : Token} (cooked : call.isRaw = false)
    (member : .append token ∈ call.edits) : token.Cooked := by
  cases call with
  | literal value =>
      simp only [Call.edits, List.mem_singleton, Edit.append.injEq] at member
      exact member ▸ .literal value
  | optional value =>
      simp only [Call.edits, List.mem_cons, Edit.append.injEq, reduceCtorEq, List.not_mem_nil,
        or_false] at member
      exact member ▸ .literal value
  | multiple value lower upper =>
      simp only [Call.edits, List.mem_cons, Edit.append.injEq, reduceCtorEq, List.not_mem_nil,
        or_false] at member
      exact member ▸ .literal value
  | alternative value =>
      simp only [Call.edits, List.mem_cons, Edit.append.injEq, reduceCtorEq, List.not_mem_nil,
        or_false, false_or] at member
      exact member ▸ .literal value
  | anythingBut excluded =>
      simp only [Call.edits, List.mem_singleton, Edit.append.injEq] at member
      exact member ▸ .excluded excluded
  | anyOf members =>
      simp only [Call.edits, List.mem_singleton, Edit.append.injEq] at member
      exact member ▸ .members members
  | range bounds =>
      simp only [Call.edits, List.mem_singleton, Edit.append.injEq] at member
      exact member ▸ .bounds bounds
  | anything =>
      simp only [Call.edits, List.mem_singleton, Edit.append.injEq] at member
      exact member ▸ .anything
  | something =>
      simp only [Call.edits, List.mem_singleton, Edit.append.injEq] at member
      exact member ▸ .something
  | lineBreak =>
      simp only [Call.edits, List.mem_singleton, Edit.append.injEq] at member
      exact member ▸ .lineBreak
  | tab =>
      simp only [Call.edits, List.mem_singleton, Edit.append.injEq] at member
      exact member ▸ .tab
  | word =>
      simp only [Call.edits, List.mem_singleton, Edit.append.injEq] at member
      exact member ▸ .word
  | digit =>
      simp only [Call.edits, List.mem_singleton, Edit.append.injEq] at member
      exact member ▸ .digit
  | blank =>
      simp only [Call.edits, List.mem_singleton, Edit.append.injEq] at member
      exact member ▸ .blank
  | raw fragment => cases cooked
  | _ => simp [Call.edits] at member

namespace Draft

theorem enclose_append (texts : List Text) (left right : Text) :
    enclose texts (left ++ right) = enclose texts left ++ right := by
  induction texts generalizing left with
  | nil => rfl
  | cons before outer inductionHypothesis =>
      rw [enclose, enclose, ← inductionHypothesis, List.append_assoc, List.cons_append]

theorem enclose_append_cons (inner outer : List Text) (before text : Text) :
    enclose (inner ++ before :: outer) text = enclose outer (before ++ '(' :: enclose inner text) := by
  induction inner generalizing text with
  | nil => rfl
  | cons opening inner inductionHypothesis => exact inductionHypothesis (opening ++ '(' :: text)

/-- The draft after an edit. Without a last token there is nothing to repeat, and without an open
capture nothing to close. -/
def edit (draft : Draft) : Edit Token → Draft
  | .append token => (draft.push token.text token.kind).1
  | .quantify quantifier =>
      match draft.quantifyLast quantifier with
      | .ok (next, _) => next
      | .error _ => draft
  | .openCapture => draft.beginCapture
  | .closeCapture =>
      match draft.endCapture with
      | .ok (next, _) => next
      | .error _ => draft
  | .alternate => draft.alternate
  | .startAnchor enabled => draft.setStartAnchor enabled
  | .endAnchor enabled => draft.setEndAnchor enabled

/-- The last token is always the one its own handle names. -/
theorem quantifyLast_of_some {draft : Draft} {token : Token} (last : draft.last = some token)
    (quantifier : Quantifier) :
    draft.quantifyLast quantifier = .ok (draft.withLast (token.quantify quantifier)) := by
  simp only [quantifyLast, lastHandle, last, Option.map_some, quantify, if_true]

theorem quantifyLast_of_none {draft : Draft} (missing : draft.last = none)
    (quantifier : Quantifier) :
    draft.quantifyLast quantifier = .error .nothingToQuantify := by
  simp only [quantifyLast, lastHandle, missing, Option.map_none]

theorem edit_append_of_empty {draft : Draft} {token : Token} (empty : token.text = []) :
    draft.edit (.append token) = draft.settle := by
  simp only [edit, push, empty, List.isEmpty_nil, if_true]

theorem edit_append_of_ne {draft : Draft} {token : Token} (nonempty : token.text ≠ []) :
    draft.edit (.append token) = { draft.settle with last := some token } := by
  have present : token.text.isEmpty = false := List.isEmpty_eq_false_iff.mpr nonempty
  simp only [edit, push, present, Bool.false_eq_true, if_false, withLast]

theorem edit_quantify_of_some {draft : Draft} {token : Token} (last : draft.last = some token)
    (quantifier : Quantifier) :
    draft.edit (.quantify quantifier) =
      { draft with last := some (token.quantify quantifier) } := by
  simp only [edit, quantifyLast_of_some last, withLast]

theorem edit_quantify_of_none {draft : Draft} (missing : draft.last = none)
    (quantifier : Quantifier) : draft.edit (.quantify quantifier) = draft := by
  simp only [edit, quantifyLast_of_none missing]

theorem edit_quantify (draft : Draft) (quantifier : Quantifier) :
    draft.edit (.quantify quantifier) =
      { draft with last := draft.last.map (·.quantify quantifier) } := by
  cases found : draft.last with
  | none => rw [edit_quantify_of_none found, Option.map_none, ← found]
  | some token => rw [edit_quantify_of_some found, Option.map_some]

theorem edit_closeCapture_of_nil {draft : Draft} (closed : draft.enclosing = []) :
    draft.edit .closeCapture = draft := by
  simp only [edit, endCapture, closed]

theorem edit_closeCapture_of_cons {draft : Draft} {before : Text} {outer : List Text}
    (opened : draft.enclosing = before :: outer) :
    draft.edit .closeCapture =
      { draft with
        enclosing := outer
        written := before
        last := some ⟨'(' :: draft.inner ++ [')'], .atom⟩ } := by
  simp only [edit, endCapture, opened, withLast]

theorem closesCaptures_edit (draft : Draft) (edit : Edit Token) :
    (draft.edit edit).closesCaptures = draft.closesCaptures := by
  cases edit with
  | append token =>
      by_cases empty : token.text = []
      · rw [edit_append_of_empty empty]
        rfl
      · rw [edit_append_of_ne empty]
        rfl
  | quantify quantifier =>
      cases last : draft.last with
      | none => rw [edit_quantify_of_none last]
      | some token => rw [edit_quantify_of_some last]
  | closeCapture =>
      cases enclosing : draft.enclosing with
      | nil => rw [edit_closeCapture_of_nil enclosing]
      | cons before outer => rw [edit_closeCapture_of_cons enclosing]
  | _ => rfl

end Draft

namespace Phrase

theorem draft_quantify (phrase : Phrase) (quantifier : Quantifier) :
    (phrase.quantify quantifier).phrase.draft = phrase.draft.edit (.quantify quantifier) := by
  simp only [quantify, Draft.edit]
  cases phrase.draft.quantifyLast quantifier with
  | error error => rfl
  | ok next => rfl

/-- A text is repeated if it left a token behind; if it did not, there is nothing to repeat. -/
theorem draft_pushRepeated (phrase : Phrase) (value : Text) (quantifier : Quantifier)
    (whenEmpty : List Notice) :
    (phrase.pushRepeated value quantifier whenEmpty).phrase.draft =
      (phrase.draft.edit (.append (.ofLiteral value))).edit (.quantify quantifier) := by
  by_cases empty : (Token.ofLiteral value).text = []
  · have nothing : Text.escapeLiteral value = [] := empty
    have settled : phrase.draft.pushLiteral value = (phrase.draft.settle, none) := by
      simp only [Draft.pushLiteral, Draft.push, nothing, List.isEmpty_nil, if_true]
    rw [Draft.edit_append_of_empty empty, Draft.edit_quantify_of_none rfl]
    simp only [pushRepeated, settled, withDraft]
  · have present : (Text.escapeLiteral value).isEmpty = false :=
      List.isEmpty_eq_false_iff.mpr empty
    simp only [pushRepeated, Draft.pushLiteral, Draft.push, present, Bool.false_eq_true, if_false,
      draft_quantify, withDraft, Draft.edit, Token.ofLiteral]

theorem draft_endCapture (phrase : Phrase) :
    phrase.endCapture.phrase.draft = phrase.draft.edit .closeCapture := by
  simp only [endCapture, Draft.edit]
  cases phrase.draft.endCapture with
  | error error => rfl
  | ok next => rfl

theorem draft_after (phrase : Phrase) (call : Call) :
    (phrase.after call).draft = call.edits.foldl Draft.edit phrase.draft := by
  cases call with
  | optional value => exact draft_pushRepeated phrase value _ _
  | multiple value lower upper => exact draft_pushRepeated phrase value _ _
  | repeatPrevious lower upper => exact draft_quantify phrase _
  | oneOrMore => exact draft_quantify phrase _
  | endCapture => exact draft_endCapture phrase
  | anyOf members =>
      by_cases empty : members.isEmpty = true
      · simp [after, apply, pushMembers, ClassText.anyOf, empty, Call.edits, Token.ofMembers,
          Draft.edit, push, withDraft]
      · simp [after, apply, pushMembers, ClassText.anyOf, empty, Call.edits, Token.ofMembers,
          Draft.edit, push, withDraft]
  | anythingBut excluded =>
      by_cases empty : excluded.isEmpty = true
      · simp [after, apply, pushExcluded, ClassText.noneOf, empty, Call.edits, Token.ofExcluded,
          Draft.edit, push, withDraft]
      · simp [after, apply, pushExcluded, ClassText.noneOf, empty, Call.edits, Token.ofExcluded,
          Draft.edit, push, withDraft]
  | flagLetter letter enabled =>
      simp only [after, apply, Call.edits, List.foldl_nil]
      cases Flag.ofLetter letter <;> rfl
  | _ => rfl

/-- A run changes the draft by the edits of its calls, one after the other. -/
theorem draft_run (phrase : Phrase) (calls : List Call) :
    (phrase.run calls).draft = (calls.flatMap Call.edits).foldl Draft.edit phrase.draft := by
  unfold run
  induction calls generalizing phrase with
  | nil => rfl
  | cons call rest inductionHypothesis =>
      rw [List.foldl_cons, inductionHypothesis, draft_after, List.flatMap_cons,
        List.foldl_append]

theorem closesCaptures_run (phrase : Phrase) (calls : List Call) :
    (phrase.run calls).draft.closesCaptures = phrase.draft.closesCaptures := by
  rw [draft_run]
  induction calls.flatMap Call.edits generalizing phrase with
  | nil => rfl
  | cons edit rest inductionHypothesis =>
      rw [List.foldl_cons]
      have later := inductionHypothesis (phrase.withDraft (phrase.draft.edit edit))
      exact later.trans (Draft.closesCaptures_edit phrase.draft edit)

end Phrase
end ReadableRegex

import ReadableRegex.Proofs.Balance.Scan
import ReadableRegex.Proofs.Offsets.Layout

/-!
The text of a draft never closes more parentheses than it opens, and leaves open only the captures
that are to stay open, as long as every fragment that is put in as it is keeps to itself. The group
around a token that is quantified can be put anywhere a token begins, because every text that the
draft keeps apart is balanced by itself.
-/

namespace ReadableRegex

variable {rules : ClassRules}

theorem Opens.groupStart : Opens rules 1 ['(', '?', ':'] := by
  have mark : Opens rules 0 ['?', ':'] := (Passes.plain (by simp [Passes.marks])).opens
  exact opening.append mark

/-- The pattern text that the operation puts in as it is. -/
def Operation.fragment? : Operation → Option Text
  | .push fragment _ => some fragment
  | .pushRaw fragment => some fragment
  | _ => none

namespace Token

variable {token : Token}

theorem opens_quantify (opens : Opens rules 0 token.text) (quantifier : Quantifier) :
    Opens rules 0 (token.quantify quantifier).text := by
  have operand : Opens rules 0 token.operand := by
    unfold operand
    split
    · exact (Opens.groupStart.append opens).close
    · exact opens
  exact operand.append (Passes.quantifier quantifier).opens

end Token

namespace Draft

/-- Each text that the draft keeps apart is balanced by itself. -/
structure KeepsBalance (rules : ClassRules) (draft : Draft) : Prop where
  finished : ∀ alternative ∈ draft.finished, Opens rules 0 alternative
  enclosing : ∀ before ∈ draft.enclosing, Opens rules 0 before
  written : Opens rules 0 draft.written
  last : ∀ token, draft.last = some token → Opens rules 0 token.text

theorem opens_enclose {texts : List Text} (balanced : ∀ before ∈ texts, Opens rules 0 before)
    {text : Text} {count : Nat} (opens : Opens rules count text) :
    Opens rules (count + texts.length) (enclose texts text) := by
  induction texts generalizing text count with
  | nil => exact opens
  | cons before outer inductionHypothesis =>
      obtain ⟨first, others⟩ := List.forall_mem_cons.mp balanced
      have around : Opens rules (1 + count) (before ++ (['('] ++ text)) :=
        first.behind (Opens.opening.append opens)
      have further := inductionHypothesis others around
      have same : 1 + count + outer.length = count + (outer.length + 1) := by omega
      rwa [same] at further

theorem opens_alternatives {alternatives : List Text}
    (balanced : ∀ alternative ∈ alternatives, Opens rules 0 alternative) :
    Opens rules 0 (alternatives.flatMap (fun alternative => alternative ++ ['|'])) := by
  have bar : Opens rules 0 ['|'] := (Passes.plain (by simp [Passes.marks])).opens
  induction alternatives with
  | nil => exact Opens.nil
  | cons alternative rest inductionHypothesis =>
      obtain ⟨first, others⟩ := List.forall_mem_cons.mp balanced
      rw [List.flatMap_cons]
      exact (first.append bar).append (inductionHypothesis others)

namespace KeepsBalance

variable {draft : Draft}

theorem inner (keeps : KeepsBalance rules draft) : Opens rules 0 draft.inner := by
  unfold Draft.inner
  refine Opens.behind keeps.written ?_
  cases last : draft.last with
  | none => exact Opens.nil
  | some token => exact keeps.last token last

theorem branch (keeps : KeepsBalance rules draft) :
    Opens rules draft.openCaptures draft.branch := by
  have opens := opens_enclose keeps.enclosing keeps.inner
  rwa [Nat.zero_add] at opens

theorem branch_closers (keeps : KeepsBalance rules draft) :
    Opens rules 0 (draft.branch ++ draft.closers) :=
  keeps.branch.closeAll

theorem blank (closes : Bool) : KeepsBalance rules (blank closes) where
  finished _ member := nomatch member
  enclosing _ member := nomatch member
  written := Opens.nil
  last _ found := nomatch found

theorem settle (keeps : KeepsBalance rules draft) : KeepsBalance rules draft.settle :=
  ⟨keeps.finished, keeps.enclosing, keeps.inner, fun _ found => nomatch found⟩

theorem edit (keeps : KeepsBalance rules draft) (edit : Edit Token)
    (appended : ∀ token, edit = .append token → Opens rules 0 token.text) :
    KeepsBalance rules (draft.edit edit) := by
  have inner := keeps.inner
  cases edit with
  | append token =>
      by_cases empty : token.text = []
      · rw [edit_append_of_empty empty]
        exact keeps.settle
      · rw [edit_append_of_ne empty]
        refine ⟨keeps.finished, keeps.enclosing, inner, ?_⟩
        intro last found
        cases found
        exact appended token rfl
  | quantify quantifier =>
      cases last : draft.last with
      | none =>
          rw [edit_quantify_of_none last]
          exact keeps
      | some token =>
          rw [edit_quantify_of_some last]
          refine ⟨keeps.finished, keeps.enclosing, keeps.written, ?_⟩
          intro quantified found
          cases found
          exact Token.opens_quantify (keeps.last token last) quantifier
  | openCapture =>
      refine ⟨keeps.finished, ?_, Opens.nil, fun _ found => nomatch found⟩
      exact List.forall_mem_cons.mpr ⟨inner, keeps.enclosing⟩
  | closeCapture =>
      cases enclosing : draft.enclosing with
      | nil =>
          rw [edit_closeCapture_of_nil enclosing]
          exact keeps
      | cons before outer =>
          have around := keeps.enclosing
          rw [enclosing] at around
          obtain ⟨first, others⟩ := List.forall_mem_cons.mp around
          rw [edit_closeCapture_of_cons enclosing]
          refine ⟨keeps.finished, others, first, ?_⟩
          intro captured found
          cases found
          exact (Opens.opening.append inner).close
  | alternate =>
      refine ⟨?_, fun _ member => (nomatch member), Opens.nil, fun _ found => nomatch found⟩
      intro alternative member
      rcases List.mem_append.mp member with earlier | current
      · exact keeps.finished alternative earlier
      · rw [List.mem_singleton.mp current]
        exact keeps.branch_closers
  | startAnchor enabled =>
      exact ⟨keeps.finished, keeps.enclosing, keeps.written, keeps.last⟩
  | endAnchor enabled =>
      exact ⟨keeps.finished, keeps.enclosing, keeps.written, keeps.last⟩

theorem operate (keeps : KeepsBalance rules draft) {operation : Operation}
    (contained : ∀ fragment, operation.fragment? = some fragment → Opens rules 0 fragment) :
    KeepsBalance rules (draft.operate operation) := by
  have noToken (edit : Edit Token) (other : ∀ token, edit ≠ .append token) :
      KeepsBalance rules (draft.edit edit) :=
    keeps.edit edit (fun token same => absurd same (other token))
  cases operation with
  | push fragment kind =>
      refine keeps.edit (.append ⟨fragment, kind⟩) ?_
      intro token same
      cases same
      exact contained fragment rfl
  | pushLiteral text =>
      refine keeps.edit (.append (.ofLiteral text)) ?_
      intro token same
      cases same
      exact (Passes.escapeLiteral text).opens
  | pushRaw fragment =>
      refine keeps.edit (.append (.ofRaw fragment)) ?_
      intro token same
      cases same
      exact contained fragment rfl
  | quantify handle quantifier =>
      rw [operate_quantify]
      split
      · exact noToken (.quantify quantifier) (fun _ same => nomatch same)
      · exact keeps
  | quantifyLast quantifier =>
      exact noToken (.quantify quantifier) (fun _ same => nomatch same)
  | beginCapture => exact noToken .openCapture (fun _ same => nomatch same)
  | endCapture => exact noToken .closeCapture (fun _ same => nomatch same)
  | alternate => exact noToken .alternate (fun _ same => nomatch same)
  | startAnchor enabled => exact noToken (.startAnchor enabled) (fun _ same => nomatch same)
  | endAnchor enabled => exact noToken (.endAnchor enabled) (fun _ same => nomatch same)
  | closesCaptures enabled =>
      exact ⟨keeps.finished, keeps.enclosing, keeps.written, keeps.last⟩

theorem operateAll (keeps : KeepsBalance rules draft) {operations : List Operation}
    (contained : ∀ operation ∈ operations, ∀ fragment,
      operation.fragment? = some fragment → Opens rules 0 fragment) :
    KeepsBalance rules (draft.operateAll operations) := by
  unfold Draft.operateAll
  induction operations generalizing draft with
  | nil => exact keeps
  | cons operation rest inductionHypothesis =>
      refine inductionHypothesis (keeps.operate (contained operation List.mem_cons_self)) ?_
      exact fun other member => contained other (List.mem_cons_of_mem _ member)

theorem body (keeps : KeepsBalance rules draft) :
    Opens rules (if draft.closesCaptures then 0 else draft.openCaptures) draft.body := by
  have separated := opens_alternatives keeps.finished
  unfold Draft.body
  rw [List.append_assoc]
  cases draft.closesCaptures with
  | true => exact separated.behind keeps.branch_closers
  | false =>
      have whole := separated.behind keeps.branch
      simpa using whole

theorem render (keeps : KeepsBalance rules draft) :
    Opens rules (if draft.closesCaptures then 0 else draft.openCaptures) draft.render := by
  have anchor (enabled : Bool) (sign : Char) (plain : sign ∉ Passes.marks) :
      Opens rules 0 (if enabled then [sign] else []) := by
    cases enabled with
    | true => exact (Passes.plain (List.forall_mem_singleton.mpr plain)).opens
    | false => exact Opens.nil
  have caret := anchor draft.startAnchor '^' (by decide)
  have dollar := anchor draft.endAnchor '$' (by decide)
  unfold Draft.render Draft.opening Draft.closing
  cases draft.isAlternating with
  | false => simpa using (caret.behind keeps.body).append dollar
  | true =>
      have grouped := Opens.groupStart.append keeps.body
      rw [Nat.add_comm] at grouped
      simpa using (caret.behind grouped.close).append dollar

end KeepsBalance

/-- Every parenthesis of the text of a draft has its partner, but for the captures that are left
open, if every fragment put in as it is keeps to itself. Literals and classes have no part in this:
the depth stays what it is all the way through them. -/
theorem render_balanced (rules : ClassRules) (closes : Bool) (operations : List Operation)
    (contained : ∀ operation ∈ operations, ∀ fragment,
      operation.fragment? = some fragment → Opens rules 0 fragment) :
    Opens rules
        (if ((blank closes).operateAll operations).closesCaptures then 0
        else ((blank closes).operateAll operations).openCaptures)
        ((blank closes).operateAll operations).render ∧
      (∀ value, Passes rules .outside (Text.escapeLiteral value) .outside) ∧
      (∀ listed text, ClassText.anyOf listed = some text ∨ ClassText.noneOf listed = some text →
        Passes rules .outside text .outside) ∧
      ∀ bounds text, (ClassText.ofBounds bounds).1 = some text →
        Passes rules .outside text .outside := by
  refine ⟨?_, Passes.escapeLiteral, ?_, fun _ _ => Passes.ofBounds⟩
  · exact ((KeepsBalance.blank closes).operateAll contained).render
  · intro listed text written
    rcases written with listing | excluding
    · exact Passes.anyOf listing
    · exact Passes.noneOf excluding

theorem render_balanced_of_open_capture :
    Opens ⟨true, true⟩ 1 "(?:(?:([)]))?|(\\()".toList := by
  let operations : List Operation :=
    [.pushRaw "([)])".toList, .quantifyLast .optional, .alternate, .beginCapture,
      .pushLiteral ['(']]
  have member : Passes ⟨true, true⟩ (.opened 0 false) [')'] (.inside 0) := Passes.singleton rfl
  have bracketed : Opens ⟨true, true⟩ 0 ['[', ')', ']'] := member.brackets.opens
  have fragments : operations.filterMap Operation.fragment? = ["([)])".toList] := rfl
  have balanced := render_balanced ⟨true, true⟩ false operations (by
    intro operation listed fragment found
    have only : fragment ∈ ["([)])".toList] := by
      rw [← fragments]
      exact List.mem_filterMap.mpr ⟨operation, listed, found⟩
    rw [List.mem_singleton.mp only]
    exact (Opens.opening.append bracketed).close)
  have text : ((blank false).operateAll operations).render =
      "(?:(?:([)]))?|(\\()".toList := by
    decide
  rw [text] at balanced
  exact balanced.1

end Draft
end ReadableRegex

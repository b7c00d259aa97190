import ReadableRegex.Proofs.Detached
import ReadableRegex.Proofs.Offsets.Layout

/-!
The handles that a run of operations gives out. Each names a token that ends further on than all
tokens named before it, in a later alternative or in the same one; so no two of them are equal, and
the draft takes a handle exactly if it is the latest one and its token is still the last.
-/

namespace ReadableRegex

/-- Whether a token that ends at the first place was named before one that ends at the second.
A place is the number of an alternative and a byte position in it. -/
def Precedes (left right : Nat × Nat) : Prop :=
  left.1 < right.1 ∨ (left.1 = right.1 ∧ left.2 < right.2)

theorem Precedes.trans {first second third : Nat × Nat} (earlier : Precedes first second)
    (later : Precedes second third) : Precedes first third := by
  unfold Precedes at *
  omega

theorem Precedes.ne {left right : Nat × Nat} (precedes : Precedes left right) : left ≠ right := by
  rintro rfl
  unfold Precedes at precedes
  omega

def Handle.edge (handle : Handle) : Nat × Nat :=
  (handle.branch, handle.stop)

/-- Whether the operation, when it names no token, leaves nothing to quantify. -/
def Operation.settles : Operation → Bool
  | .push fragment _ => fragment.isEmpty
  | .pushLiteral text => text.isEmpty
  | .pushRaw fragment => fragment.isEmpty
  | .beginCapture => true
  | .alternate => true
  | _ => false

namespace Draft

variable {draft : Draft} {handle : Handle}

def edge (draft : Draft) : Nat × Nat :=
  (draft.finished.length, Text.byteSize draft.branch)

def returned (draft : Draft) : Operation → Option Handle
  | .push fragment kind => (draft.push fragment kind).2
  | .pushLiteral text => (draft.pushLiteral text).2
  | .pushRaw fragment => (draft.pushRaw fragment).2
  | .quantify handle quantifier => (draft.quantify handle quantifier).toOption.map Prod.snd
  | .quantifyLast quantifier => (draft.quantifyLast quantifier).toOption.map Prod.snd
  | .endCapture => draft.endCapture.toOption.map Prod.snd
  | _ => none

def returnedAll (draft : Draft) : List Operation → List (Option Handle)
  | [] => []
  | operation :: rest => draft.returned operation :: (draft.operate operation).returnedAll rest

/-- No operation of the run names a token or leaves nothing to quantify. -/
def KeepsLast (draft : Draft) : List Operation → Prop
  | [] => True
  | operation :: rest =>
      draft.returned operation = none ∧ operation.settles = false ∧
        (draft.operate operation).KeepsLast rest

/-- The run returned the handle in some step, and kept its token the last one from then on. -/
def Issues (draft : Draft) (operations : List Operation) (handle : Handle) : Prop :=
  ∃ earlier operation later, operations = earlier ++ operation :: later ∧
    (draft.operateAll earlier).returned operation = some handle ∧
    (draft.operateAll (earlier ++ [operation])).KeepsLast later

/-! ### One operation -/

theorem edge_of_lastHandle (named : draft.lastHandle = some handle) : handle.edge = draft.edge := by
  obtain ⟨token, last, rfl⟩ := Option.map_eq_some_iff.mp named
  have stop : (draft.handleOf token).stop = Text.byteSize (draft.front ++ token.text) :=
    (Text.byteSize_append _ _).symm
  unfold Handle.edge edge
  rw [stop, branch_of_some last]
  rfl

/-- What an operation does to the last token, told by what it returns: it names a new token that
ends beyond all text so far, or leaves nothing to quantify, or leaves the last token as it was. -/
inductive Advances (draft : Draft) : Draft → Option Handle → Bool → Prop where
  | names {next : Draft} {handle : Handle} {settles : Bool}
      (last : next.lastHandle = some handle) (beyond : Precedes draft.edge next.edge) :
      Advances draft next (some handle) settles
  | settles {next : Draft} (last : next.lastHandle = none)
      (within : draft.edge = next.edge ∨ Precedes draft.edge next.edge) :
      Advances draft next none true
  | keeps {next : Draft} (last : next.lastHandle = draft.lastHandle)
      (same : draft.edge = next.edge) : Advances draft next none false

theorem precedes_of_branch {next : Draft} (finished : next.finished = draft.finished)
    (longer : Text.byteSize draft.branch < Text.byteSize next.branch) :
    Precedes draft.edge next.edge :=
  Or.inr ⟨congrArg List.length finished.symm, longer⟩

theorem advances_push (draft : Draft) (fragment : Text) (kind : TokenKind) :
    Advances draft (draft.push fragment kind).1 (draft.push fragment kind).2 fragment.isEmpty := by
  cases fragment with
  | nil =>
      refine .settles rfl (Or.inl ?_)
      have settled : (draft.push [] kind).1 = draft.settle := rfl
      rw [settled, edge, edge, branch_settle]
      rfl
  | cons character rest =>
      refine .names rfl (precedes_of_branch rfl ?_)
      have longer : (draft.push (character :: rest) kind).1.branch =
          draft.branch ++ character :: rest :=
        draft.branch_append ⟨character :: rest, kind⟩
      have positive := Text.byteSize_pos (List.cons_ne_nil character rest)
      rw [longer, Text.byteSize_append]
      omega

theorem isEmpty_escapeLiteral (text : Text) : (Text.escapeLiteral text).isEmpty = text.isEmpty := by
  cases text with
  | nil => rfl
  | cons character rest =>
      simp [Text.escapeLiteral, Text.escapeWith_cons, Text.escapeChar_ne_nil]

theorem byteSize_operand (token : Token) :
    Text.byteSize token.text ≤ Text.byteSize token.operand := by
  unfold Token.operand
  split
  · rw [Text.byteSize_append, Text.byteSize_append]
    omega
  · exact Nat.le_refl _

theorem advances_quantify {token : Token} (last : draft.last = some token)
    (quantifier : Quantifier) :
    Advances draft (draft.withLast (token.quantify quantifier)).1
      (some (draft.withLast (token.quantify quantifier)).2) false := by
  refine .names rfl (precedes_of_branch rfl ?_)
  have requantified : (draft.withLast (token.quantify quantifier)).1.branch =
      draft.front ++ (token.quantify quantifier).text :=
    branch_of_some rfl
  have operand := byteSize_operand token
  have positive := Text.byteSize_pos quantifier.text_ne_nil
  rw [requantified, branch_of_some last, Token.quantify, Text.byteSize_append,
    Text.byteSize_append, Text.byteSize_append]
  omega

theorem advances_quantifyLast (draft : Draft) (quantifier : Quantifier) :
    Advances draft (draft.operate (.quantifyLast quantifier))
      (draft.returned (.quantifyLast quantifier)) false := by
  cases last : draft.last with
  | none =>
      simp only [operate, returned, quantifyLast_of_none last]
      exact .keeps rfl rfl
  | some token =>
      simp only [operate, returned, quantifyLast_of_some last]
      exact advances_quantify last quantifier

theorem advances_endCapture (draft : Draft) :
    Advances draft (draft.operate .endCapture) (draft.returned .endCapture) false := by
  cases enclosing : draft.enclosing with
  | nil =>
      simp only [operate, returned, endCapture, enclosing]
      exact .keeps rfl rfl
  | cons before outer =>
      have text := congrArg Layout.text draft.layout_closeCapture
      have openings : draft.layout.openings.getLast? =
          some (Text.byteSize (enclose outer before)) := by
        simp [layout, openOffsets, enclosing, openingOffsets]
      rw [Layout.closeCapture, openings] at text
      have closed : (draft.edit .closeCapture).branch = draft.branch ++ [')'] := text
      have longer : Text.byteSize draft.branch < Text.byteSize (draft.edit .closeCapture).branch := by
        have positive := Text.byteSize_pos (List.cons_ne_nil ')' [])
        rw [closed, Text.byteSize_append]
        omega
      have same : draft.operate .endCapture = draft.edit .closeCapture := rfl
      have finished : (draft.edit .closeCapture).finished = draft.finished := by
        rw [edit_closeCapture_of_cons enclosing]
      rw [same]
      simp only [returned, endCapture, enclosing]
      refine .names ?_ (precedes_of_branch finished longer)
      rw [edit_closeCapture_of_cons enclosing]
      rfl

theorem quantify_eq (draft : Draft) (handle : Handle) (quantifier : Quantifier) :
    draft.quantify handle quantifier =
      if draft.lastHandle = some handle then draft.quantifyLast quantifier
      else .error (.staleToken handle) := by
  by_cases named : draft.lastHandle = some handle
  · rw [if_pos named]
    simp only [quantifyLast, named]
  · rw [if_neg named]
    unfold lastHandle at named
    unfold quantify
    split
    · next token last =>
        rw [last, Option.map_some, Option.some.injEq] at named
        exact if_neg named
    · rfl

theorem advances_operate (draft : Draft) (operation : Operation) :
    Advances draft (draft.operate operation) (draft.returned operation) operation.settles := by
  cases operation with
  | push fragment kind => exact advances_push draft fragment kind
  | pushLiteral text =>
      have pushed := advances_push draft (Text.escapeLiteral text)
        (Token.kindOf (Text.escapeLiteral text))
      rw [isEmpty_escapeLiteral] at pushed
      exact pushed
  | pushRaw fragment => exact advances_push draft fragment (Token.kindOf fragment)
  | quantify handle quantifier =>
      by_cases named : draft.lastHandle = some handle
      · have quantified := advances_quantifyLast draft quantifier
        simp only [operate, returned, quantify_eq, if_pos named] at quantified ⊢
        exact quantified
      · simp only [operate, returned, quantify_eq, if_neg named]
        exact .keeps rfl rfl
  | quantifyLast quantifier => exact advances_quantifyLast draft quantifier
  | beginCapture =>
      have text := congrArg Layout.text draft.layout_openCapture
      have opened : (draft.edit .openCapture).branch = draft.branch ++ ['('] := text
      refine .settles rfl (Or.inr (precedes_of_branch rfl ?_))
      have positive := Text.byteSize_pos (List.cons_ne_nil '(' [])
      have longer : draft.beginCapture.branch = draft.branch ++ ['('] := opened
      rw [operate, longer, Text.byteSize_append]
      omega
  | endCapture => exact advances_endCapture draft
  | alternate =>
      refine .settles rfl (Or.inr (Or.inl ?_))
      simp [edge, operate, alternate]
  | startAnchor enabled => exact .keeps rfl rfl
  | endAnchor enabled => exact .keeps rfl rfl
  | closesCaptures enabled => exact .keeps rfl rfl

/-! ### Runs -/

theorem issues_cons_iff (draft : Draft) (operation : Operation) (rest : List Operation)
    (handle : Handle) :
    draft.Issues (operation :: rest) handle ↔
      (draft.returned operation = some handle ∧ (draft.operate operation).KeepsLast rest) ∨
        (draft.operate operation).Issues rest handle := by
  constructor
  · rintro ⟨earlier, named, later, split, returned, keeps⟩
    cases earlier with
    | nil =>
        cases split
        exact Or.inl ⟨returned, keeps⟩
    | cons first others =>
        cases split
        exact Or.inr ⟨others, named, later, rfl, returned, keeps⟩
  · rintro (⟨returned, keeps⟩ | ⟨earlier, named, later, split, returned, keeps⟩)
    · exact ⟨[], operation, rest, rfl, returned, keeps⟩
    · exact ⟨operation :: earlier, named, later, congrArg (operation :: ·) split, returned, keeps⟩

/-- The last token is the one that the run named latest, or the one from before the run, if nothing
took its place. -/
theorem lastHandle_operateAll_iff (draft : Draft) (operations : List Operation) (handle : Handle) :
    (draft.operateAll operations).lastHandle = some handle ↔
      draft.Issues operations handle ∨
        (draft.lastHandle = some handle ∧ draft.KeepsLast operations) := by
  induction operations generalizing draft with
  | nil =>
      constructor
      · intro named
        exact Or.inr ⟨named, trivial⟩
      · rintro (⟨earlier, named, later, split, _⟩ | ⟨named, _⟩)
        · simp at split
        · exact named
  | cons operation rest inductionHypothesis =>
      have later := inductionHypothesis (draft.operate operation)
      have advances := draft.advances_operate operation
      have whole : draft.operateAll (operation :: rest) =
        (draft.operate operation).operateAll rest := rfl
      rw [whole, later, issues_cons_iff, KeepsLast]
      -- Only an operation that is refused or does not touch the text lets the last token stay.
      generalize draft.returned operation = returned at advances ⊢
      generalize operation.settles = settles at advances ⊢
      cases advances with
      | names last beyond =>
          rw [last]
          simp [or_comm]
      | settles last within =>
          rw [last]
          simp
      | keeps last same =>
          rw [last]
          simp

theorem precedes_of_mem_returnedAll {operations : List Operation}
    (member : some handle ∈ draft.returnedAll operations) : Precedes draft.edge handle.edge := by
  induction operations generalizing draft with
  | nil => cases member
  | cons operation rest inductionHypothesis =>
      have advances := draft.advances_operate operation
      rcases List.mem_cons.mp member with here | later
      · rw [← here] at advances
        cases advances with
        | names last beyond =>
            rw [edge_of_lastHandle last]
            exact beyond
      · have behind := inductionHypothesis later
        generalize draft.returned operation = returned at advances
        generalize operation.settles = settles at advances
        cases advances with
        | names last beyond => exact beyond.trans behind
        | settles last within =>
            rcases within with same | beyond
            · rw [same]
              exact behind
            · exact beyond.trans behind
        | keeps last same =>
            rw [same]
            exact behind

theorem pairwise_returnedAll (draft : Draft) (operations : List Operation) :
    ((draft.returnedAll operations).filterMap id).Pairwise
      (fun first second => Precedes first.edge second.edge) := by
  induction operations generalizing draft with
  | nil => exact .nil
  | cons operation rest inductionHypothesis =>
      have later := inductionHypothesis (draft.operate operation)
      have advances := draft.advances_operate operation
      rw [returnedAll]
      cases returned : draft.returned operation with
      | none => exact later
      | some handle =>
          rw [returned] at advances
          have here : handle.edge = (draft.operate operation).edge := by
            cases advances with
            | names last beyond => exact edge_of_lastHandle last
          refine List.pairwise_cons.mpr ⟨?_, later⟩
          intro second member
          obtain ⟨returned?, inside, same⟩ := List.mem_filterMap.mp member
          cases same
          rw [here]
          exact precedes_of_mem_returnedAll inside

/-- No two steps of a run return the same handle, for each names a token that ends beyond all that
were named before. A quantifier is accepted exactly with the handle that was returned latest, as
long as its token is still the last; with any other it is refused and changes nothing. -/
theorem handles_of_operations (closes : Bool) (operations : List Operation) :
    (((blank closes).returnedAll operations).filterMap id).Pairwise
        (fun first second => Precedes first.edge second.edge ∧ first ≠ second) ∧
      ∀ (handle : Handle) (quantifier : Quantifier),
        ((∃ result, ((blank closes).operateAll operations).quantify handle quantifier =
            .ok result) ↔ (blank closes).Issues operations handle) ∧
        (¬ (blank closes).Issues operations handle →
          ((blank closes).operateAll operations).quantify handle quantifier =
              .error (.staleToken handle) ∧
            ((blank closes).operateAll operations).operate (.quantify handle quantifier) =
              (blank closes).operateAll operations) := by
  constructor
  · refine (pairwise_returnedAll (blank closes) operations).imp ?_
    intro first second precedes
    refine ⟨precedes, ?_⟩
    rintro rfl
    exact precedes.ne rfl
  · intro handle quantifier
    have named := lastHandle_operateAll_iff (blank closes) operations handle
    have fresh : (blank closes).lastHandle ≠ some handle := nofun
    simp only [fresh, false_and, or_false] at named
    generalize (blank closes).operateAll operations = draft at named ⊢
    rw [← named, operate_quantify, quantify_eq]
    constructor
    · constructor
      · rintro ⟨result, accepted⟩
        by_cases last : draft.lastHandle = some handle
        · exact last
        · rw [if_neg last] at accepted
          cases accepted
      · intro last
        obtain ⟨token, found, _⟩ := Option.map_eq_some_iff.mp last
        rw [if_pos last, quantifyLast_of_some found]
        exact ⟨_, rfl⟩
    · intro other
      exact ⟨if_neg other, if_neg other⟩

end Draft
end ReadableRegex

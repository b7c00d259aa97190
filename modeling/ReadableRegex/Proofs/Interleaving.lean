import ReadableRegex.Proofs.Alternation.Continuing

/-!
Calls on different parts of a phrase. Each anchor is what the last call about it made it, each flag
what the last call about that flag made it, and the text is what the other calls write; so calls
about different parts can be interleaved in any way.
-/

namespace ReadableRegex

inductive Part where
  | startAnchor
  | endAnchor
  | flags
  | body
deriving DecidableEq, Repr

namespace Call

def part : Call → Part
  | .startOfLine _ => .startAnchor
  | .endOfLine _ => .endAnchor
  | .flag _ _ => .flags
  | .flagLetter _ _ => .flags
  | .anyCase _ => .flags
  | .stopAtFirst _ => .flags
  | .searchOneLine _ => .flags
  | _ => .body

def startAnchor? : Call → Option Bool
  | .startOfLine enabled => some enabled
  | _ => none

def endAnchor? : Call → Option Bool
  | .endOfLine enabled => some enabled
  | _ => none

/-- The flag that the call switches, on or off. A letter that is no flag switches none. -/
def switch? : Call → Option (Flag × Bool)
  | .flag chosen enabled => some (chosen, enabled)
  | .flagLetter letter enabled => (Flag.ofLetter letter).toOption.map (·, enabled)
  | .anyCase enabled => some (.ignoreCase, enabled)
  | .stopAtFirst enabled => some (.global, !enabled)
  | .searchOneLine enabled => some (.multiline, !enabled)
  | _ => none

def setting? (flag : Flag) (call : Call) : Option Bool :=
  call.switch?.bind (fun switch => if switch.1 = flag then some switch.2 else none)

/-- What only the calls about one part give is not changed by leaving out the others. -/
theorem filterMap_eq_of_filter_eq {Result : Type} {part : Part} {get? : Call → Option Result}
    (only : ∀ call, call.part ≠ part → get? call = none) {left right : List Call}
    (same : left.filter (fun call => call.part = part) =
      right.filter (fun call => call.part = part)) :
    left.filterMap get? = right.filterMap get? := by
  have kept (calls : List Call) :
      calls.filterMap get? = (calls.filter (fun call => call.part = part)).filterMap get? := by
    rw [List.filterMap_filter]
    congr 1
    funext call
    by_cases about : call.part = part
    · simp [about]
    · simp [about, only call about]
  rw [kept left, kept right, same]

theorem startAnchor?_of_part_ne {call : Call} (other : call.part ≠ .startAnchor) :
    call.startAnchor? = none := by
  cases call with
  | startOfLine enabled => exact absurd rfl other
  | _ => rfl

theorem endAnchor?_of_part_ne {call : Call} (other : call.part ≠ .endAnchor) :
    call.endAnchor? = none := by
  cases call with
  | endOfLine enabled => exact absurd rfl other
  | _ => rfl

theorem edits_of_flags {call : Call} (about : call.part = .flags) : call.edits = [] := by
  cases call with
  | flag chosen enabled => rfl
  | flagLetter letter enabled => rfl
  | anyCase enabled => rfl
  | stopAtFirst enabled => rfl
  | searchOneLine enabled => rfl
  | _ => cases about

theorem switch?_of_part_ne {call : Call} (other : call.part ≠ .flags) : call.switch? = none := by
  cases call with
  | flag flag enabled => exact absurd rfl other
  | flagLetter letter enabled => exact absurd rfl other
  | anyCase enabled => exact absurd rfl other
  | stopAtFirst enabled => exact absurd rfl other
  | searchOneLine enabled => exact absurd rfl other
  | _ => rfl

end Call

/-! ### Drafts -/

namespace Draft

variable {whole fresh : Draft}

theorem anchors_edit (draft : Draft) (edit : Edit Token) :
    (draft.edit edit).startAnchor =
        (match edit with
        | .startAnchor enabled => enabled
        | _ => draft.startAnchor) ∧
      (draft.edit edit).endAnchor =
        (match edit with
        | .endAnchor enabled => enabled
        | _ => draft.endAnchor) := by
  cases edit with
  | append token =>
      by_cases empty : token.text = []
      · rw [edit_append_of_empty empty]
        exact ⟨rfl, rfl⟩
      · rw [edit_append_of_ne empty]
        exact ⟨rfl, rfl⟩
  | quantify quantifier =>
      cases last : draft.last with
      | none =>
          rw [edit_quantify_of_none last]
          exact ⟨rfl, rfl⟩
      | some token =>
          rw [edit_quantify_of_some last]
          exact ⟨rfl, rfl⟩
  | closeCapture =>
      cases enclosing : draft.enclosing with
      | nil =>
          rw [edit_closeCapture_of_nil enclosing]
          exact ⟨rfl, rfl⟩
      | cons before outer =>
          rw [edit_closeCapture_of_cons enclosing]
          exact ⟨rfl, rfl⟩
  | _ => exact ⟨rfl, rfl⟩

theorem Continues.self (draft : Draft) : Continues [] draft draft :=
  ⟨rfl, rfl, rfl, rfl, rfl⟩

/-- A call that is not about the body leaves everything but the anchors alone. -/
theorem Continues.edits_of_part_ne (continues : Continues [] whole fresh) {call : Call}
    (other : call.part ≠ .body) : Continues [] (call.edits.foldl Draft.edit whole) fresh := by
  cases call with
  | startOfLine enabled =>
      exact ⟨continues.finished, continues.enclosing, continues.written, continues.last,
        continues.closesCaptures⟩
  | endOfLine enabled =>
      exact ⟨continues.finished, continues.enclosing, continues.written, continues.last,
        continues.closesCaptures⟩
  | flag chosen enabled => exact continues
  | flagLetter letter enabled => exact continues
  | anyCase enabled => exact continues
  | stopAtFirst enabled => exact continues
  | searchOneLine enabled => exact continues
  | _ => exact absurd rfl other

/-- Drafts that go on alike differ in their anchors at most. -/
theorem Continues.eq_of_anchors {left right : Draft} (leftContinues : Continues [] left fresh)
    (rightContinues : Continues [] right fresh) (startAnchor : left.startAnchor = right.startAnchor)
    (endAnchor : left.endAnchor = right.endAnchor) : left = right := by
  have finished := leftContinues.finished.trans rightContinues.finished.symm
  have enclosing := leftContinues.enclosing.trans rightContinues.enclosing.symm
  have written := leftContinues.written.trans rightContinues.written.symm
  have last := leftContinues.last.trans rightContinues.last.symm
  have closes := leftContinues.closesCaptures.trans rightContinues.closesCaptures.symm
  cases left
  cases right
  rw [Draft.mk.injEq]
  exact ⟨startAnchor, endAnchor, finished, enclosing, written, last, closes⟩

end Draft

/-! ### Flags -/

namespace Phrase

theorem options_quantify (phrase : Phrase) (quantifier : Quantifier) :
    (phrase.quantify quantifier).phrase.options = phrase.options := by
  unfold quantify
  cases phrase.draft.quantifyLast quantifier <;> rfl

theorem options_pushRepeated (phrase : Phrase) (value : Text) (quantifier : Quantifier)
    (whenEmpty : List Notice) :
    (phrase.pushRepeated value quantifier whenEmpty).phrase.options = phrase.options := by
  unfold pushRepeated
  split
  · exact options_quantify _ quantifier
  · rfl

theorem options_after (phrase : Phrase) (call : Call) :
    (phrase.after call).options =
      call.switch?.elim phrase.options (fun switch =>
        phrase.options.set (.flag switch.1 switch.2)) := by
  cases call with
  | optional value => exact options_pushRepeated phrase value _ _
  | multiple value lower upper => exact options_pushRepeated phrase value _ _
  | repeatPrevious lower upper => exact options_quantify phrase _
  | oneOrMore => exact options_quantify phrase _
  | endCapture =>
      simp only [after, apply, endCapture]
      cases phrase.draft.endCapture <;> rfl
  | anyOf members =>
      simp only [after, apply, pushMembers]
      cases ClassText.anyOf members <;> rfl
  | anythingBut excluded =>
      simp only [after, apply, pushExcluded]
      cases ClassText.noneOf excluded <;> rfl
  | flagLetter letter enabled =>
      simp only [after, apply, Call.switch?]
      cases Flag.ofLetter letter <;> rfl
  | _ => rfl

theorem options_run (phrase : Phrase) (calls : List Call) :
    (phrase.run calls).options =
      (calls.filterMap Call.switch?).foldl
        (fun options switch => options.set (.flag switch.1 switch.2)) phrase.options := by
  unfold run
  induction calls generalizing phrase with
  | nil => rfl
  | cons call rest inductionHypothesis =>
      rw [List.foldl_cons, inductionHypothesis, options_after, List.filterMap_cons]
      cases call.switch? <;> rfl

/-! ### The last call about something -/

/-- What some calls settle and all others leave alone is as the last of these calls settled it. -/
theorem run_eq_last (view : Phrase → Bool) {settled? : Call → Option Bool}
    (step : ∀ phrase call, view (phrase.after call) = (settled? call).getD (view phrase))
    (phrase : Phrase) (calls : List Call) :
    view (phrase.run calls) = (calls.filterMap settled?).getLast?.getD (view phrase) := by
  unfold run
  induction calls generalizing phrase with
  | nil => rfl
  | cons call rest inductionHypothesis =>
      rw [List.foldl_cons, inductionHypothesis, step, List.filterMap_cons]
      cases settled? call with
      | none => rfl
      | some value => simp [List.getLast?_cons]

theorem has_flags_after (flag : Flag) (phrase : Phrase) (call : Call) :
    (phrase.after call).flags.has flag = (call.setting? flag).getD (phrase.flags.has flag) := by
  unfold flags Call.setting?
  rw [options_after]
  cases call.switch? with
  | none => rfl
  | some switch =>
      simp only [Option.elim_some, Options.set, Option.bind_some, FlagSet.has_switch]
      by_cases same : flag = switch.1
      · rw [if_pos same, if_pos same.symm, Option.getD_some]
      · rw [if_neg same, if_neg (Ne.symm same), Option.getD_none]

theorem unknownBits_after (phrase : Phrase) (call : Call) :
    (phrase.after call).flags.unknownBits = phrase.flags.unknownBits := by
  unfold flags
  rw [options_after]
  cases call.switch? with
  | none => rfl
  | some switch => exact FlagSet.unknownBits_switch _ _ _

theorem unknownBits_run (phrase : Phrase) (calls : List Call) :
    (phrase.run calls).flags.unknownBits = phrase.flags.unknownBits := by
  unfold run
  induction calls generalizing phrase with
  | nil => rfl
  | cons call rest inductionHypothesis =>
      rw [List.foldl_cons, inductionHypothesis, unknownBits_after]

theorem anchors_after (phrase : Phrase) (call : Call) :
    (phrase.after call).draft.startAnchor = call.startAnchor?.getD phrase.draft.startAnchor ∧
      (phrase.after call).draft.endAnchor = call.endAnchor?.getD phrase.draft.endAnchor := by
  rw [draft_after]
  cases call <;>
    simp [Call.edits, Draft.anchors_edit, Call.startAnchor?, Call.endAnchor?]

/-! ### The body -/

theorem draft_run_unflagged (phrase : Phrase) (calls : List Call) :
    (phrase.run calls).draft =
      (phrase.run (calls.filter (fun call => call.part ≠ .flags))).draft := by
  rw [draft_run, draft_run]
  apply congrArg (fun edits => List.foldl Draft.edit phrase.draft edits)
  induction calls with
  | nil => rfl
  | cons call rest inductionHypothesis =>
      rw [List.flatMap_cons, inductionHypothesis, List.filter_cons]
      by_cases about : call.part = .flags
      · simp [about, Call.edits_of_flags about]
      · simp [about]

theorem continues_run_body {whole fresh : Phrase}
    (continues : Draft.Continues [] whole.draft fresh.draft) (calls : List Call) :
    Draft.Continues [] (whole.run calls).draft
      (fresh.run (calls.filter (fun call => call.part = .body))).draft := by
  unfold run
  induction calls generalizing whole fresh with
  | nil => exact continues
  | cons call rest inductionHypothesis =>
      by_cases body : call.part = .body
      · rw [List.filter_cons, if_pos (decide_eq_true body), List.foldl_cons, List.foldl_cons]
        apply inductionHypothesis
        rw [draft_after, draft_after]
        exact continues.edits call.edits
      · have left : ¬ decide (call.part = .body) = true := fun holds => body (of_decide_eq_true holds)
        rw [List.filter_cons, if_neg left, List.foldl_cons]
        apply inductionHypothesis
        rw [draft_after]
        exact continues.edits_of_part_ne body

/-- Calls about different parts do not interfere: two runs that make the same calls about each
part end alike, each anchor and each flag is what the last call about it made of it, and nothing
else about the flags ever changes. -/
theorem run_of_parts (phrase : Phrase) :
    (∀ left right : List Call,
      (∀ part, left.filter (fun call => call.part = part) =
        right.filter (fun call => call.part = part)) →
      phrase.run left = phrase.run right) ∧
    (∀ calls : List Call,
      (phrase.run calls).draft.startAnchor =
        (calls.filterMap Call.startAnchor?).getLast?.getD phrase.draft.startAnchor ∧
      (phrase.run calls).draft.endAnchor =
        (calls.filterMap Call.endAnchor?).getLast?.getD phrase.draft.endAnchor ∧
      (∀ flag, (phrase.run calls).flags.has flag =
        (calls.filterMap (Call.setting? flag)).getLast?.getD (phrase.flags.has flag)) ∧
      (phrase.run calls).flags.unknownBits = phrase.flags.unknownBits) ∧
    ∀ letter enabled, letter ∉ Flag.all.map Flag.letter →
      phrase.apply (.flagLetter letter enabled) = .error (.unknown letter) ∧
        phrase.after (.flagLetter letter enabled) = phrase := by
  have startAnchor := run_eq_last (fun phrase => phrase.draft.startAnchor)
    (fun phrase call => (anchors_after phrase call).1) phrase
  have endAnchor := run_eq_last (fun phrase => phrase.draft.endAnchor)
    (fun phrase call => (anchors_after phrase call).2) phrase
  refine ⟨?_, ?_, ?_⟩
  · intro left right same
    have leftBody := continues_run_body (Draft.Continues.self phrase.draft) left
    have rightBody := continues_run_body (Draft.Continues.self phrase.draft) right
    rw [← same .body] at rightBody
    have draft : (phrase.run left).draft = (phrase.run right).draft := by
      apply leftBody.eq_of_anchors rightBody
      · rw [startAnchor left, startAnchor right, Call.filterMap_eq_of_filter_eq
          (fun call => Call.startAnchor?_of_part_ne) (same .startAnchor)]
      · rw [endAnchor left, endAnchor right, Call.filterMap_eq_of_filter_eq
          (fun call => Call.endAnchor?_of_part_ne) (same .endAnchor)]
    have options : (phrase.run left).options = (phrase.run right).options := by
      rw [options_run, options_run, Call.filterMap_eq_of_filter_eq
        (fun call => Call.switch?_of_part_ne) (same .flags)]
    calc
      phrase.run left = ⟨(phrase.run left).draft, (phrase.run left).options⟩ := rfl
      _ = ⟨(phrase.run right).draft, (phrase.run right).options⟩ := by rw [draft, options]
      _ = phrase.run right := rfl
  · intro calls
    exact ⟨startAnchor calls, endAnchor calls,
      fun flag => run_eq_last (fun phrase => phrase.flags.has flag)
        (has_flags_after flag) phrase calls,
      unknownBits_run phrase calls⟩
  · intro letter enabled unknown
    have refused := Flag.ofLetter_of_not_mem unknown
    simp only [after, apply, refused, and_self]

theorem run_of_parts_shuffled :
    initial.run [.literal ['a'], .startOfLine true, .beginCapture, .anyCase true,
        .flagLetter 'x' true, .literal ['b'], .stopAtFirst true, .startOfLine false] =
      initial.run [.startOfLine true, .anyCase true, .startOfLine false, .flagLetter 'x' true,
        .literal ['a'], .beginCapture, .stopAtFirst true, .literal ['b']] ∧
    initial.after (.flagLetter 'x' true) = initial := by
  constructor
  · apply (run_of_parts initial).1
    intro part
    cases part <;> rfl
  · exact ((run_of_parts initial).2.2 'x' true (by decide)).2

end Phrase
end ReadableRegex

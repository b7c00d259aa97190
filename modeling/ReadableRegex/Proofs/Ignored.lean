import ReadableRegex.Proofs.Offsets.Layout
import ReadableRegex.Proofs.Trees.Compiling

/-!
Calls that are ignored with a notice: a repetition of nothing, the end of a capture that was not
begun, and an empty text with a repetition. The first two change nothing. The third leaves the text
alone but not the last token, which is out of reach of any quantifier from then on; where there is
no last token, it changes nothing either.
-/

namespace ReadableRegex

theorem Draft.settle_of_none {draft : Draft} (missing : draft.last = none) :
    draft.settle = draft := by
  have inner : draft.inner = draft.written := by
    rw [inner, missing]
    exact List.append_nil _
  rw [settle, inner, ← missing]

theorem Draft.render_settle (draft : Draft) : draft.settle.render = draft.render := by
  have body : draft.settle.body = draft.body := by
    rw [body, branch_settle]
    rfl
  rw [render, body]
  rfl

def Call.repeatsNothing : Call → Bool
  | .multiple [] _ _ => true
  | _ => false

def Report.isIgnored (report : Except FlagError Report) : Bool :=
  match report with
  | .ok report => report.notices.any Notice.isIgnored
  | .error _ => false

namespace Phrase

variable {phrase : Phrase} {call : Call}

def ignores (phrase : Phrase) (call : Call) : Bool :=
  Report.isIgnored (phrase.apply call)

def reports (phrase : Phrase) : List Call → List (Except FlagError Report)
  | [] => []
  | call :: rest => phrase.apply call :: (phrase.after call).reports rest

def heeded (phrase : Phrase) : List Call → List Call
  | [] => []
  | call :: rest =>
      if phrase.ignores call then (phrase.after call).heeded rest
      else call :: (phrase.after call).heeded rest

/-! ### Which calls are ignored -/

theorem quantify_of_none (missing : phrase.draft.last = none) (quantifier : Quantifier) :
    phrase.quantify quantifier = ⟨phrase, [.ignored .quantify .nothingToQuantify]⟩ := by
  simp only [quantify, Draft.quantifyLast_of_none missing]

theorem notices_quantify_of_some {token : Token} (last : phrase.draft.last = some token)
    (quantifier : Quantifier) : (phrase.quantify quantifier).notices = [] := by
  simp only [quantify, Draft.quantifyLast_of_some last]

theorem pushRepeated_nil (phrase : Phrase) (quantifier : Quantifier) (whenEmpty : List Notice) :
    phrase.pushRepeated [] quantifier whenEmpty =
      ⟨phrase.withDraft phrase.draft.settle, whenEmpty⟩ :=
  rfl

theorem notices_pushRepeated_cons (phrase : Phrase) (character : Char) (rest : Text)
    (quantifier : Quantifier) (whenEmpty : List Notice) :
    (phrase.pushRepeated (character :: rest) quantifier whenEmpty).notices = [] := by
  have present : (Text.escapeLiteral (character :: rest)).isEmpty = false := by
    simp [Text.escapeLiteral, Text.escapeWith_cons, Text.escapeChar_ne_nil]
  simp only [pushRepeated, Draft.pushLiteral, Draft.push, present, Bool.false_eq_true, if_false]
  exact notices_quantify_of_some rfl quantifier

theorem endCapture_of_nil (closed : phrase.draft.enclosing = []) :
    phrase.endCapture = ⟨phrase, [.ignored .endCapture .noOpenCapture]⟩ := by
  simp only [endCapture, Draft.endCapture, closed]

theorem notices_endCapture_of_cons {before : Text} {outer : List Text}
    (opened : phrase.draft.enclosing = before :: outer) : phrase.endCapture.notices = [] := by
  simp only [endCapture, Draft.endCapture, opened]

theorem ignores_quantify_iff (phrase : Phrase) (quantifier : Quantifier) :
    Report.isIgnored (.ok (phrase.quantify quantifier)) = true ↔ phrase.draft.last = none := by
  cases last : phrase.draft.last with
  | none => simp [quantify_of_none last, Report.isIgnored, Notice.isIgnored]
  | some token => simp [Report.isIgnored, notices_quantify_of_some last]

theorem ignores_iff (phrase : Phrase) (call : Call) :
    phrase.ignores call = true ↔
      match call with
      | .repeatPrevious _ _ => phrase.draft.last = none
      | .oneOrMore => phrase.draft.last = none
      | .endCapture => phrase.draft.enclosing = []
      | .multiple value _ _ => value = []
      | _ => False := by
  cases call with
  | repeatPrevious lower upper => exact ignores_quantify_iff phrase _
  | oneOrMore => exact ignores_quantify_iff phrase _
  | endCapture =>
      cases enclosing : phrase.draft.enclosing with
      | nil =>
          simp [ignores, apply, endCapture_of_nil enclosing, Report.isIgnored, Notice.isIgnored]
      | cons before outer =>
          simp [ignores, apply, Report.isIgnored, notices_endCapture_of_cons enclosing]
  | multiple value lower upper =>
      cases value with
      | nil => simp [ignores, apply, pushRepeated_nil, Report.isIgnored, Notice.isIgnored]
      | cons character rest =>
          simp [ignores, apply, Report.isIgnored, notices_pushRepeated_cons]
  | optional value =>
      cases value with
      | nil => simp [ignores, apply, pushRepeated_nil, Report.isIgnored]
      | cons character rest =>
          simp [ignores, apply, Report.isIgnored, notices_pushRepeated_cons]
  | alternative value =>
      simp only [ignores, apply, alternate, Notice.ofAlternation, Report.isIgnored]
      split <;> simp [Notice.isIgnored]
  | anyOf members =>
      simp only [ignores, apply, pushMembers, Report.isIgnored]
      cases ClassText.anyOf members <;> simp [Notice.isIgnored]
  | range bounds =>
      simp only [ignores, apply, pushBounds, Report.isIgnored]
      cases (ClassText.ofBounds bounds).2 <;> simp [Notice.isIgnored]
  | flagLetter letter enabled =>
      simp only [ignores, apply]
      cases Flag.ofLetter letter <;> simp [Report.isIgnored]
  | _ => simp [ignores, apply, Report.isIgnored]

/-! ### What an ignored call changes -/

/-- An ignored call is a step of nothing, unless it is an empty text with a repetition. -/
theorem after_of_ignores (ignored : phrase.ignores call = true) :
    phrase.after call =
      if call.repeatsNothing then phrase.withDraft phrase.draft.settle else phrase := by
  have cause := (phrase.ignores_iff call).mp ignored
  cases call with
  | repeatPrevious lower upper => simp [after, apply, quantify_of_none cause, Call.repeatsNothing]
  | oneOrMore => simp [after, apply, quantify_of_none cause, Call.repeatsNothing]
  | endCapture => simp [after, apply, endCapture_of_nil cause, Call.repeatsNothing]
  | multiple value lower upper =>
      cases cause
      simp [after, apply, pushRepeated_nil, Call.repeatsNothing]
  | _ => exact cause.elim

theorem after_eq_self_iff_of_ignores (ignored : phrase.ignores call = true) :
    phrase.after call = phrase ↔ (call.repeatsNothing = true → phrase.draft.last = none) := by
  rw [after_of_ignores ignored]
  by_cases empty : call.repeatsNothing = true
  · rw [if_pos empty]
    constructor
    · intro same _
      rw [← same]
      rfl
    · intro missing
      rw [Draft.settle_of_none (missing empty)]
      rfl
  · rw [if_neg empty]
    exact iff_of_true rfl (fun claimed => absurd claimed empty)

theorem view_after_of_ignores (ignored : phrase.ignores call = true) :
    (phrase.after call).source = phrase.source ∧
      (phrase.after call).options = phrase.options ∧
      (phrase.after call).draft.openCaptures = phrase.draft.openCaptures := by
  rw [after_of_ignores ignored]
  split
  · exact ⟨phrase.draft.render_settle, rfl, rfl⟩
  · exact ⟨rfl, rfl, rfl⟩

/-! ### Runs -/

/-- Ignored calls that change nothing can be left out: the run ends in the same phrase, and the
other calls are answered alike. -/
theorem run_heeded {calls : List Call}
    (clean : ∀ earlier call later, calls = earlier ++ call :: later →
      call.repeatsNothing = true → (phrase.run earlier).draft.last = none) :
    phrase.run (phrase.heeded calls) = phrase.run calls ∧
      phrase.reports (phrase.heeded calls) =
        (phrase.reports calls).filter (fun report => !Report.isIgnored report) := by
  induction calls generalizing phrase with
  | nil => exact ⟨rfl, rfl⟩
  | cons call rest inductionHypothesis =>
      have first := clean [] call rest rfl
      have cleanBehind : ∀ earlier other behind, rest = earlier ++ other :: behind →
          other.repeatsNothing = true → ((phrase.after call).run earlier).draft.last = none :=
        fun earlier other behind split =>
          clean (call :: earlier) other behind (congrArg (call :: ·) split)
      have later := inductionHypothesis cleanBehind
      have answer : Report.isIgnored (phrase.apply call) = phrase.ignores call := rfl
      by_cases ignored : phrase.ignores call = true
      · have same : phrase.after call = phrase := (after_eq_self_iff_of_ignores ignored).mpr first
        rw [heeded, if_pos ignored, reports, List.filter_cons, answer, ignored]
        rw [same] at later ⊢
        refine ⟨later.1.trans ?_, later.2⟩
        exact congrArg (fun next => next.run rest) same.symm
      · rw [heeded, if_neg ignored, reports, reports, List.filter_cons, answer,
          Bool.eq_false_iff.mpr ignored]
        exact ⟨later.1, congrArg (phrase.apply call :: ·) later.2⟩

/-- No ignored call changes the text, the options or the open captures. It changes nothing at all
unless it is an empty text with a repetition behind a last token, and runs without such a call do
not depend on their ignored calls. -/
theorem ignored_calls_keep (phrase : Phrase) :
    (∀ call, phrase.ignores call = true →
      (phrase.after call).source = phrase.source ∧
      (phrase.after call).options = phrase.options ∧
      (phrase.after call).draft.openCaptures = phrase.draft.openCaptures ∧
      (phrase.after call = phrase ↔
        (call.repeatsNothing = true → phrase.draft.last = none))) ∧
    ∀ calls : List Call,
      (∀ earlier call later, calls = earlier ++ call :: later →
        call.repeatsNothing = true → (phrase.run earlier).draft.last = none) →
      phrase.run (phrase.heeded calls) = phrase.run calls ∧
        phrase.reports (phrase.heeded calls) =
          (phrase.reports calls).filter (fun report => !Report.isIgnored report) := by
  constructor
  · intro call ignored
    obtain ⟨source, options, openCaptures⟩ := view_after_of_ignores ignored
    exact ⟨source, options, openCaptures, after_eq_self_iff_of_ignores ignored⟩
  · intro calls clean
    exact run_heeded clean

theorem ignored_calls_keep_blank :
    initial.after .oneOrMore = initial ∧
    initial.run [.endCapture, .multiple [] none none, .literal ['a']] =
      initial.run [.literal ['a']] := by
  constructor
  · exact ((ignored_calls_keep initial).1 .oneOrMore rfl).2.2.2.mpr (fun empty => nomatch empty)
  · have same := (ignored_calls_keep initial).2
      [.endCapture, .multiple [] none none, .literal ['a']]
    refine (same ?_).1.symm
    intro earlier call later split empty
    match earlier, split with
    | [], split => rfl
    | [_], split =>
        cases split
        rfl
    | [_, _], split =>
        cases split
        cases empty
    | _ :: _ :: _ :: beyond, split =>
        have lengths := congrArg List.length split
        simp at lengths

/-- Behind a token, an empty text with a repetition is ignored and yet puts the token out of reach
of the next quantifier. -/
theorem ignored_call_drops_token :
    (initial.after (.literal ['a'])).ignores (.multiple [] none none) = true ∧
    (initial.run [.literal ['a'], .multiple [] none none]).draft.last = none ∧
    (initial.run [.literal ['a']]).draft.last ≠ none ∧
    (initial.run [.literal ['a'], .multiple [] none none, .oneOrMore]).source = ['a'] ∧
    (initial.run [.literal ['a'], .oneOrMore]).source = ['a', '+'] := by
  decide

end Phrase
end ReadableRegex

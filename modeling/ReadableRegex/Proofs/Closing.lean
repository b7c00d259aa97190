import ReadableRegex.Proofs.Ignored
import ReadableRegex.Proofs.Interleaving

/-!
Open captures close alike, whoever closes them: the calls that end captures, the call that starts
another alternative, or the reading of the text. Drafts that differ in this alone have the same text
if reading closes what is open, and are equal from the next alternative on.
-/

namespace ReadableRegex

namespace Draft

variable {left middle right : Draft}

/-- The drafts write the same text, once the captures that are open in either are closed. -/
structure SealsAlike (left right : Draft) : Prop where
  startAnchor : left.startAnchor = right.startAnchor
  endAnchor : left.endAnchor = right.endAnchor
  finished : left.finished = right.finished
  closesCaptures : left.closesCaptures = right.closesCaptures
  branch : left.branch ++ left.closers = right.branch ++ right.closers

namespace SealsAlike

theorem self (draft : Draft) : SealsAlike draft draft :=
  ⟨rfl, rfl, rfl, rfl, rfl⟩

theorem trans (first : SealsAlike left middle) (second : SealsAlike middle right) :
    SealsAlike left right :=
  ⟨first.startAnchor.trans second.startAnchor, first.endAnchor.trans second.endAnchor,
    first.finished.trans second.finished, first.closesCaptures.trans second.closesCaptures,
    first.branch.trans second.branch⟩

/-- The closing written by a call is one that need not be written later. -/
theorem closeCapture (draft : Draft) : SealsAlike (draft.edit .closeCapture) draft := by
  cases enclosing : draft.enclosing with
  | nil =>
      rw [edit_closeCapture_of_nil enclosing]
      exact self draft
  | cons before outer =>
      have written : (draft.edit .closeCapture).branch = draft.branch ++ [')'] := by
        rw [edit_closeCapture_of_cons enclosing, Draft.branch, Draft.branch, enclosing,
          ← enclose_append]
        rfl
      have opened : draft.closers = ')' :: (draft.edit .closeCapture).closers := by
        rw [edit_closeCapture_of_cons enclosing, closers, closers, openCaptures, openCaptures,
          enclosing]
        rfl
      have branch : (draft.edit .closeCapture).branch ++ (draft.edit .closeCapture).closers =
          draft.branch ++ draft.closers := by
        rw [written, opened, List.append_assoc]
        rfl
      rw [edit_closeCapture_of_cons enclosing] at branch ⊢
      exact ⟨rfl, rfl, rfl, rfl, branch⟩

theorem alternate (alike : SealsAlike left right) : left.alternate = right.alternate := by
  unfold Draft.alternate
  rw [alike.startAnchor, alike.endAnchor, alike.finished, alike.closesCaptures, alike.branch]

theorem render (alike : SealsAlike left right) (closes : right.closesCaptures = true) :
    left.render = right.render := by
  have alternating : left.isAlternating = right.isAlternating := by
    unfold isAlternating
    rw [alike.finished]
  have body : left.body = right.body := by
    unfold Draft.body
    rw [alike.finished, alike.closesCaptures, closes, if_pos rfl, if_pos rfl, List.append_assoc,
      alike.branch, ← List.append_assoc]
  unfold Draft.render opening closing
  rw [body, alternating, alike.startAnchor, alike.endAnchor]

end SealsAlike

theorem openCaptures_closeCapture (draft : Draft) :
    (draft.edit .closeCapture).openCaptures = draft.openCaptures - 1 := by
  unfold openCaptures
  cases enclosing : draft.enclosing with
  | nil =>
      rw [edit_closeCapture_of_nil enclosing, enclosing]
      rfl
  | cons before outer =>
      rw [edit_closeCapture_of_cons enclosing]
      rfl

end Draft

namespace Phrase

/-- The answers of a row of calls, their notices left out. -/
def answers (phrase : Phrase) (calls : List Call) : List (Except FlagError Phrase) :=
  (phrase.reports calls).map (fun report => report.map Report.phrase)

/-- So many captures, if there are so many, are closed by calls, and nothing else changes. -/
theorem run_endCaptures (phrase : Phrase) (count : Nat) :
    Draft.SealsAlike (phrase.run (List.replicate count .endCapture)).draft phrase.draft ∧
      (phrase.run (List.replicate count .endCapture)).options = phrase.options ∧
      (phrase.run (List.replicate count .endCapture)).draft.openCaptures =
        phrase.draft.openCaptures - count := by
  induction count generalizing phrase with
  | zero => exact ⟨.self phrase.draft, rfl, rfl⟩
  | succ count inductionHypothesis =>
      obtain ⟨alike, options, opened⟩ := inductionHypothesis (phrase.after .endCapture)
      have draft : (phrase.after .endCapture).draft = phrase.draft.edit .closeCapture :=
        draft_after phrase .endCapture
      rw [draft] at alike opened
      have run : phrase.run (List.replicate (count + 1) .endCapture) =
          (phrase.after .endCapture).run (List.replicate count .endCapture) := rfl
      rw [run]
      constructor
      · exact alike.trans (.closeCapture phrase.draft)
      · constructor
        · rw [options, options_after]
          rfl
        · rw [opened, Draft.openCaptures_closeCapture]
          omega

theorem after_alternative_eq {left right : Phrase}
    (alike : Draft.SealsAlike left.draft right.draft) (options : left.options = right.options)
    (value : Text) : left.after (.alternative value) = right.after (.alternative value) := by
  simp only [after, apply, alternate, withDraft, alike.alternate, options]

/-- Captures that are still open can be closed call by call, all of them or some, or be left open:
a text that closes them by itself stays the same, and another alternative leads to the same phrase,
whatever is written behind it. -/
theorem closing_agrees (phrase : Phrase) (count : Nat) :
    (phrase.run (List.replicate count .endCapture)).draft.openCaptures =
      phrase.draft.openCaptures - count ∧
    (phrase.draft.closesCaptures = true →
      (phrase.run (List.replicate count .endCapture)).source = phrase.source) ∧
    ∀ value later,
      phrase.run (List.replicate count .endCapture ++ .alternative value :: later) =
        phrase.run (.alternative value :: later) ∧
      (phrase.run (List.replicate count .endCapture)).answers (.alternative value :: later) =
        phrase.answers (.alternative value :: later) := by
  obtain ⟨alike, options, opened⟩ := phrase.run_endCaptures count
  constructor
  · exact opened
  · constructor
    · exact alike.render
    · intro value later
      have next := after_alternative_eq alike options value
      constructor
      · unfold run
        rw [List.foldl_append]
        exact congrArg (fun phrase => phrase.run later) next
      · have answer (phrase : Phrase) :
            phrase.answers (.alternative value :: later) =
              .ok (phrase.after (.alternative value)) ::
                (phrase.after (.alternative value)).answers later := rfl
        rw [answer, answer, next]

theorem closing_agrees_of_nested :
    ((initial.run [.beginCapture, .literal ['a'], .beginCapture]).run
        [.endCapture, .endCapture]).source = "(a())".toList ∧
      initial.run [.beginCapture, .literal ['a'], .beginCapture, .endCapture, .endCapture,
          .alternative ['b'], .oneOrMore] =
        initial.run [.beginCapture, .literal ['a'], .beginCapture, .alternative ['b'],
          .oneOrMore] := by
  let phrase := initial.run [.beginCapture, .literal ['a'], .beginCapture]
  obtain ⟨_, text, later⟩ := closing_agrees phrase 2
  constructor
  · exact (text rfl).trans (by decide)
  · exact (later ['b'] [.oneOrMore]).1

end Phrase
end ReadableRegex

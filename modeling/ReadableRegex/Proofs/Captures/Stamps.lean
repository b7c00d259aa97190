import ReadableRegex.Proofs.Edits

/-!
Pattern texts that remember where they come from. A stamped draft follows the same calls as a
draft and writes the same characters, each with the call that wrote it and, for the parentheses
of captures, with the number of the capture. Without its stamps it is the draft.
-/

namespace ReadableRegex

/-- The call that wrote a character, counted from 0, and the capture that the character opens or
closes, counted from 0 in the order of the calls that opened them. -/
structure Stamp where
  call : Nat
  capture : Option Nat
deriving DecidableEq

namespace Stamp

/-- Parentheses of captures are written at the even time of their call, other characters at the
odd time after it. -/
def time (stamp : Stamp) : Nat :=
  2 * stamp.call + (if stamp.capture = none then 1 else 0)

theorem two_mul_call_le (stamp : Stamp) : 2 * stamp.call ≤ stamp.time :=
  Nat.le_add_right ..

theorem time_le (stamp : Stamp) : stamp.time ≤ 2 * stamp.call + 1 := by
  unfold time
  split <;> omega

end Stamp

abbrev StampedText := List (Char × Stamp)

namespace StampedText

def erase (text : StampedText) : Text :=
  text.map Prod.fst

def ofText (call : Nat) (text : Text) : StampedText :=
  text.map (fun character => (character, ⟨call, none⟩))

theorem erase_append (left right : StampedText) :
    erase (left ++ right) = erase left ++ erase right :=
  List.map_append ..

theorem erase_ofText (call : Nat) (text : Text) : erase (ofText call text) = text := by
  unfold erase ofText
  rw [List.map_map]
  exact List.map_id text

end StampedText

/-- A capture that is still open, with the text between it and the one around it. -/
structure OpenCapture where
  index : Nat
  call : Nat
  before : StampedText

namespace OpenCapture

def opening (capture : OpenCapture) : Char × Stamp :=
  ('(', ⟨capture.call, some capture.index⟩)

def closing (capture : OpenCapture) (call : Nat) : Char × Stamp :=
  (')', ⟨call, some capture.index⟩)

end OpenCapture

/-- A draft with stamps. An alternative is finished by a call, which also writes the bar. -/
structure StampedDraft where
  startAnchor : Bool
  endAnchor : Bool
  finished : List (StampedText × Nat)
  enclosing : List OpenCapture
  written : StampedText
  last : Option (StampedText × TokenKind)
  opened : Nat

namespace StampedDraft

open StampedText (erase ofText erase_append erase_ofText)

def blank : StampedDraft :=
  { startAnchor := false
    endAnchor := false
    finished := []
    enclosing := []
    written := []
    last := none
    opened := 0 }

def inner (draft : StampedDraft) : StampedText :=
  draft.written ++ (draft.last.map Prod.fst).getD []

def enclose : List OpenCapture → StampedText → StampedText
  | [], text => text
  | capture :: outer, text => enclose outer (capture.before ++ capture.opening :: text)

/-- The parentheses with which the call closes all open captures, the innermost first. -/
def closers (draft : StampedDraft) (call : Nat) : StampedText :=
  draft.enclosing.map (OpenCapture.closing · call)

def branch (draft : StampedDraft) : StampedText :=
  enclose draft.enclosing draft.inner

def settle (draft : StampedDraft) : StampedDraft :=
  { draft with written := draft.inner, last := none }

def operand (call : Nat) (token : StampedText × TokenKind) : StampedText :=
  if token.2.needsGroup then ofText call ['(', '?', ':'] ++ token.1 ++ ofText call [')']
  else token.1

def edit (call : Nat) (draft : StampedDraft) : Edit Token → StampedDraft
  | .append token =>
      if token.text = [] then draft.settle
      else { draft.settle with last := some (ofText call token.text, token.kind) }
  | .quantify quantifier =>
      match draft.last with
      | some token =>
          { draft with
            last := some (operand call token ++ ofText call quantifier.text, .quantified) }
      | none => draft
  | .openCapture =>
      { draft with
        enclosing := ⟨draft.opened, call, draft.inner⟩ :: draft.enclosing
        written := []
        last := none
        opened := draft.opened + 1 }
  | .closeCapture =>
      match draft.enclosing with
      | [] => draft
      | capture :: outer =>
          { draft with
            enclosing := outer
            written := capture.before
            last := some (capture.opening :: draft.inner ++ [capture.closing call], .atom) }
  | .alternate =>
      { draft with
        finished := draft.finished ++ [(draft.branch ++ draft.closers call, call)]
        enclosing := []
        written := []
        last := none }
  | .startAnchor enabled => { draft with startAnchor := enabled }
  | .endAnchor enabled => { draft with endAnchor := enabled }

/-- The draft after calls, the first of them counted as `index`. -/
def runFrom (index : Nat) (draft : StampedDraft) : List Call → StampedDraft
  | [] => draft
  | call :: rest => runFrom (index + 1) (call.edits.foldl (edit index) draft) rest

/-- All alternatives but the one being written, each with the bar behind it. -/
def sealed (draft : StampedDraft) : StampedText :=
  draft.finished.flatMap (fun alternative => alternative.1 ++ ofText alternative.2 ['|'])

def body (draft : StampedDraft) (call : Nat) : StampedText :=
  draft.sealed ++ draft.branch ++ draft.closers call

def toDraft (draft : StampedDraft) : Draft :=
  { startAnchor := draft.startAnchor
    endAnchor := draft.endAnchor
    finished := draft.finished.map (fun alternative => erase alternative.1)
    enclosing := draft.enclosing.map (fun capture => erase capture.before)
    written := erase draft.written
    last := draft.last.map (fun token => ⟨erase token.1, token.2⟩)
    closesCaptures := true }

/-- The whole pattern text; what is written when it is read counts as one more call. -/
def source (draft : StampedDraft) (call : Nat) : StampedText :=
  ofText call draft.toDraft.opening ++ draft.body call ++ ofText call draft.toDraft.closing

theorem toDraft_blank : blank.toDraft = Draft.blank true := rfl

theorem inner_toDraft (draft : StampedDraft) : draft.toDraft.inner = erase draft.inner := by
  unfold inner Draft.inner
  rw [erase_append]
  cases last : draft.last with
  | none => simp [toDraft, erase, last]
  | some token => simp [toDraft, last]

theorem erase_enclose (enclosing : List OpenCapture) (text : StampedText) :
    erase (enclose enclosing text) =
      Draft.enclose (enclosing.map (fun capture => erase capture.before)) (erase text) := by
  induction enclosing generalizing text with
  | nil => rfl
  | cons capture outer inductionHypothesis =>
      rw [enclose, inductionHypothesis, List.map_cons, Draft.enclose, erase_append]
      rfl

theorem branch_toDraft (draft : StampedDraft) : draft.toDraft.branch = erase draft.branch := by
  unfold branch Draft.branch
  rw [erase_enclose, inner_toDraft]
  rfl

theorem closers_toDraft (draft : StampedDraft) (call : Nat) :
    draft.toDraft.closers = erase (draft.closers call) := by
  simp only [Draft.closers, Draft.openCaptures, closers, toDraft, erase, List.map_map,
    List.length_map]
  exact List.map_const.symm

theorem settle_toDraft (draft : StampedDraft) : draft.toDraft.settle = draft.settle.toDraft := by
  unfold Draft.settle
  rw [inner_toDraft]
  rfl

theorem toDraft_edit (call : Nat) (draft : StampedDraft) (edit : Edit Token) :
    (draft.edit call edit).toDraft = draft.toDraft.edit edit := by
  cases edit with
  | append token =>
      by_cases empty : token.text = []
      · rw [Draft.edit_append_of_empty empty, settle_toDraft]
        simp only [StampedDraft.edit, if_pos empty]
      · rw [Draft.edit_append_of_ne empty, settle_toDraft]
        simp only [StampedDraft.edit, if_neg empty]
        simp [toDraft, erase_ofText]
  | quantify quantifier =>
      cases last : draft.last with
      | none =>
          have missing : draft.toDraft.last = none := by simp [toDraft, last]
          rw [Draft.edit_quantify_of_none missing]
          simp only [StampedDraft.edit, last]
      | some token =>
          have found : draft.toDraft.last = some ⟨erase token.1, token.2⟩ := by
            simp [toDraft, last]
          rw [Draft.edit_quantify_of_some found]
          simp only [StampedDraft.edit, last]
          by_cases grouped : token.2.needsGroup = true
          · simp [toDraft, Token.quantify, Token.operand, operand, grouped, erase_append,
              erase_ofText]
          · simp [toDraft, Token.quantify, Token.operand, operand, grouped, erase_append,
              erase_ofText]
  | openCapture =>
      simp only [StampedDraft.edit, Draft.edit, Draft.beginCapture, inner_toDraft]
      rfl
  | closeCapture =>
      cases enclosing : draft.enclosing with
      | nil =>
          have closed : draft.toDraft.enclosing = [] := by simp [toDraft, enclosing]
          rw [Draft.edit_closeCapture_of_nil closed]
          simp only [StampedDraft.edit, enclosing]
      | cons capture outer =>
          have opened : draft.toDraft.enclosing =
              erase capture.before :: outer.map (fun capture => erase capture.before) := by
            simp [toDraft, enclosing]
          rw [Draft.edit_closeCapture_of_cons opened, inner_toDraft]
          simp only [StampedDraft.edit, enclosing]
          simp [toDraft, erase, OpenCapture.opening, OpenCapture.closing]
  | alternate =>
      simp only [StampedDraft.edit, Draft.edit, Draft.alternate, branch_toDraft,
        closers_toDraft draft call, ← erase_append]
      simp [toDraft, erase]
  | startAnchor enabled => rfl
  | endAnchor enabled => rfl

theorem toDraft_foldl_edit (call : Nat) (draft : StampedDraft) (edits : List (Edit Token)) :
    (edits.foldl (edit call) draft).toDraft = edits.foldl Draft.edit draft.toDraft := by
  induction edits generalizing draft with
  | nil => rfl
  | cons edit rest inductionHypothesis =>
      rw [List.foldl_cons, inductionHypothesis, toDraft_edit, List.foldl_cons]

theorem toDraft_runFrom (index : Nat) (draft : StampedDraft) (calls : List Call) :
    (draft.runFrom index calls).toDraft =
      (calls.flatMap Call.edits).foldl Draft.edit draft.toDraft := by
  induction calls generalizing index draft with
  | nil => rfl
  | cons call rest inductionHypothesis =>
      rw [runFrom, inductionHypothesis, toDraft_foldl_edit, List.flatMap_cons,
        List.foldl_append]

theorem erase_sealed (draft : StampedDraft) :
    erase draft.sealed =
      draft.toDraft.finished.flatMap (fun alternative => alternative ++ ['|']) := by
  unfold sealed toDraft
  dsimp only
  induction draft.finished with
  | nil => rfl
  | cons alternative rest inductionHypothesis =>
      rw [List.flatMap_cons, List.map_cons, List.flatMap_cons, erase_append, erase_append,
        erase_ofText, inductionHypothesis]

theorem erase_source (draft : StampedDraft) (call : Nat) :
    erase (draft.source call) = draft.toDraft.render := by
  unfold source body Draft.render Draft.body
  rw [erase_append, erase_append, erase_append, erase_append, erase_ofText, erase_ofText,
    erase_sealed, branch_toDraft, closers_toDraft draft call]
  rfl

end StampedDraft
end ReadableRegex

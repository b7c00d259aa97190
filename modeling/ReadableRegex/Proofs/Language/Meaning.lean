import ReadableRegex.Proofs.Language.NormalForm
import ReadableRegex.Proofs.Trees.Outline

/-!
The language of a pattern is that of its outline: whatever normal form the expression of the
pattern takes, it matches where the rows of nodes do.
-/

namespace ReadableRegex

/-- The characters that the dot leaves out. -/
def Modes.lineBreaks (modes : Modes) : List Char :=
  if modes.dotAll then [] else if modes.crlf then ['\n', '\r'] else ['\n']

namespace Node

mutual

def spans (subject : Array Char) : Node → Spans
  | .literal modes character => .read subject (modes.comparison.closure (.ofChars [character]))
  | .dot modes => .read subject (CharSet.ofChars modes.lineBreaks).complement
  | .set members => .readIf subject members
  | .anchor modes assertion => .check subject (modes.anchor assertion)
  | .repetition counts row => .repeated counts (rowSpans subject row)
  | .capture _ _ row => rowSpans subject row
  | .choice rows => choiceSpans subject rows

def rowSpans (subject : Array Char) : List Node → Spans
  | [] => .here
  | node :: rest => .join (spans subject node) (rowSpans subject rest)

def choiceSpans (subject : Array Char) : List (List Node) → Spans
  | [] => .never
  | row :: rest => .either (rowSpans subject row) (choiceSpans subject rest)

end

variable {subject : Array Char}

theorem choiceSpans_eq (rows : List NodeRow) :
    choiceSpans subject rows = Spans.choice (rows.map (rowSpans subject)) := by
  induction rows with
  | nil => rfl
  | cons row rest inductionHypothesis =>
      rw [choiceSpans, inductionHypothesis]
      rfl

theorem rowSpans_append (left right : NodeRow) :
    rowSpans subject (left ++ right) =
      Spans.join (rowSpans subject left) (rowSpans subject right) := by
  induction left with
  | nil => exact (Spans.here_join _).symm
  | cons node rest inductionHypothesis =>
      rw [List.cons_append, rowSpans, rowSpans, inductionHypothesis, Spans.join_assoc]

theorem rowSpans_singleton (node : Node) : rowSpans subject [node] = spans subject node :=
  Spans.join_here _

theorem rowSpans_ofBranches (rows : List NodeRow) :
    rowSpans subject (ofBranches rows) = Spans.choice (rows.map (rowSpans subject)) := by
  unfold ofBranches
  split
  · exact (Spans.choice_singleton _).symm
  · rw [rowSpans_singleton, spans, choiceSpans_eq]

end Node

namespace Pattern

open Regex (choiceOf)

variable {subject : Array Char} {modes after : Modes} {pattern : Pattern} {parts : List Regex}

theorem map_singleton_eq {regex : Regex} {node : Node}
    (same : regex.spans subject = node.spans subject) :
    [regex].map (Regex.spans subject) = [[node]].map (Node.rowSpans subject) := by
  rw [List.map_singleton, List.map_singleton, Node.rowSpans_singleton, same]

theorem spans_choiceOf_eq {rows : List NodeRow}
    (same : parts.map (Regex.spans subject) = rows.map (Node.rowSpans subject)) :
    (choiceOf parts).spans subject = Node.rowSpans subject (Node.ofBranches rows) := by
  rw [Regex.spans_choiceOf, same, Node.rowSpans_ofBranches]

variable [PropertyTable]

/-- The alternatives of a pattern mean what its branches do, and the modes after it agree. -/
theorem spans_alternatives (meant : pattern.alternatives modes = .ok (parts, after)) :
    parts.map (Regex.spans subject) =
        (pattern.branches modes).1.map (Node.rowSpans subject) ∧
      after = (pattern.branches modes).2 := by
  induction pattern generalizing modes parts after with
  | empty =>
      cases meant
      exact ⟨rfl, rfl⟩
  | literal character =>
      cases meant
      exact ⟨map_singleton_eq (Regex.spans_ofSet _ _), rfl⟩
  | byte character =>
      unfold alternatives at meant
      split at meant
      · cases meant
        exact ⟨map_singleton_eq (Regex.spans_ofSet _ _), rfl⟩
      · cases meant
  | dot =>
      unfold alternatives Modes.dot at meant
      split at meant
      · cases meant
        exact ⟨map_singleton_eq (Regex.spans_ofSet _ _), rfl⟩
      · cases meant
  | charClass set =>
      unfold alternatives Modes.charClass at meant
      split at meant
      · split at meant
        · cases meant
          exact ⟨map_singleton_eq ((Regex.spans_ofSet _ _).trans (Spans.read_eq_readIf _)), rfl⟩
        · cases meant
      · cases meant
  | anchor assertion =>
      cases meant
      exact ⟨map_singleton_eq rfl, rfl⟩
  | repetition counts part inductionHypothesis =>
      unfold alternatives at meant
      split at meant
      · next inner between inside =>
          cases meant
          obtain ⟨same, afterward⟩ := inductionHypothesis inside
          refine ⟨map_singleton_eq ?_, afterward⟩
          rw [Regex.spans_repeated, spans_choiceOf_eq same]
          rfl
      · cases meant
  | group kind part inductionHypothesis =>
      unfold alternatives at meant
      split at meant
      · next inner between inside =>
          cases meant
          obtain ⟨same, _⟩ := inductionHypothesis inside
          cases kind with
          | capture index name => exact ⟨map_singleton_eq (spans_choiceOf_eq same), rfl⟩
          | plain change =>
              refine ⟨?_, rfl⟩
              rw [List.map_singleton]
              exact congrArg (fun spans => [spans]) (spans_choiceOf_eq same)
      · cases meant
  | modes change =>
      cases meant
      exact ⟨rfl, rfl⟩
  | sequence left right leftHypothesis rightHypothesis =>
      unfold alternatives at meant
      split at meant
      · next lefts between leftMeant =>
          split at meant
          · next rights behind rightMeant =>
              cases meant
              obtain ⟨leftSame, rfl⟩ := leftHypothesis leftMeant
              obtain ⟨rightSame, rfl⟩ := rightHypothesis rightMeant
              refine ⟨?_, rfl⟩
              rw [List.map_singleton, Regex.spans_andThen, spans_choiceOf_eq leftSame,
                spans_choiceOf_eq rightSame, ← Node.rowSpans_append]
              rfl
          · cases meant
      · cases meant
  | choice left right leftHypothesis rightHypothesis =>
      unfold alternatives at meant
      split at meant
      · next lefts between leftMeant =>
          split at meant
          · next rights behind rightMeant =>
              cases meant
              obtain ⟨leftSame, rfl⟩ := leftHypothesis leftMeant
              obtain ⟨rightSame, rfl⟩ := rightHypothesis rightMeant
              refine ⟨?_, rfl⟩
              rw [List.map_append, leftSame, rightSame, ← List.map_append]
              rfl
          · cases meant
      · cases meant

theorem spans_regex {regex : Regex} (meant : pattern.regex modes = .ok regex) :
    regex.spans subject = Node.rowSpans subject (pattern.outline modes) := by
  unfold Pattern.regex at meant
  cases parts : pattern.alternatives modes with
  | error fault =>
      rw [parts] at meant
      cases meant
  | ok result =>
      rw [parts] at meant
      cases meant
      exact spans_choiceOf_eq (spans_alternatives parts).1

end Pattern
end ReadableRegex

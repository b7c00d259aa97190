import ReadableRegex.Proofs.Edits
import ReadableRegex.Proofs.Listed
import ReadableRegex.Proofs.Trees.Outline

/-!
Calls interpreted on trees. A sketch follows the same edits as a draft, but what it keeps are rows
of nodes: no text is written and nothing needs to be escaped or grouped.
-/

namespace ReadableRegex

/-! ### The nodes of each token -/

namespace Node

def ofText (modes : Modes) (value : Text) : NodeRow :=
  value.map (.literal modes)

def ofMembers (modes : Modes) (members : Text) : NodeRow :=
  if members.isEmpty then [] else [.set (modes.comparison.Lists members)]

def anything (modes : Modes) : NodeRow :=
  [.repetition ⟨0, none, true⟩ [.dot modes]]

def something (modes : Modes) : NodeRow :=
  [.repetition ⟨1, none, true⟩ [.dot modes]]

/-- The characters that are not listed. Of the two around the surrogates each is left in as well, if
both are listed. -/
def ofExcluded (modes : Modes) (excluded : Text) : NodeRow :=
  if excluded.isEmpty then something modes
  else [.repetition ⟨1, none, true⟩ [.set (modes.comparison.Leaves excluded)]]

/-- The characters between the bounds of a pair; a bound without partner is left out. -/
def ofBounds (modes : Modes) (bounds : List Char) : NodeRow :=
  let pairs := (ClassText.pairs bounds).1
  if pairs.isEmpty then [] else [.set (modes.comparison.Between pairs)]

/-- The three ways to end a line, the pair of characters preferred. -/
def lineBreak (modes : Modes) : NodeRow :=
  [.choice [ofText modes ['\r', '\n'], ofText modes ['\r'], ofText modes ['\n']]]

def word : NodeRow :=
  [.repetition ⟨1, none, true⟩ [.set ((NamedClass.word.set false).holds ·)]]

def digit : NodeRow :=
  [.set ((NamedClass.digit.set false).holds ·)]

def blank (modes : Modes) : NodeRow :=
  [.set ((NamedClass.blank.set modes.unicode).holds ·)]

end Node

/-- The edits of a call on trees. Raw fragments have no nodes of their own. -/
def Call.nodeEdits (modes : Modes) : Call → List (Edit NodeRow)
  | .startOfLine enabled => [.startAnchor enabled]
  | .endOfLine enabled => [.endAnchor enabled]
  | .literal value => [.append (Node.ofText modes value)]
  | .optional value => [.append (Node.ofText modes value), .quantify .optional]
  | .raw _ => []
  | .alternative value => [.alternate, .append (Node.ofText modes value)]
  | .anything => [.append (Node.anything modes)]
  | .something => [.append (Node.something modes)]
  | .anythingBut excluded => [.append (Node.ofExcluded modes excluded)]
  | .anyOf members => [.append (Node.ofMembers modes members)]
  | .range bounds => [.append (Node.ofBounds modes bounds)]
  | .lineBreak => [.append (Node.lineBreak modes)]
  | .tab => [.append (Node.ofText modes ['\t'])]
  | .word => [.append Node.word]
  | .digit => [.append Node.digit]
  | .blank => [.append (Node.blank modes)]
  | .flag _ _ => []
  | .flagLetter _ _ => []
  | .anyCase _ => []
  | .stopAtFirst _ => []
  | .searchOneLine _ => []
  | .repeatPrevious lower upper => [.quantify (.times lower upper)]
  | .oneOrMore => [.quantify .oneOrMore]
  | .multiple value lower upper =>
      [.append (Node.ofText modes value), .quantify (.ofBounds lower upper)]
  | .beginCapture => [.openCapture]
  | .endCapture => [.closeCapture]

/-! ### Sketches -/

/-- A pattern in the making, as a draft is, but of nodes. Each open capture has its number and
the row before it. -/
structure Sketch where
  startAnchor : Bool
  endAnchor : Bool
  finished : List NodeRow
  enclosing : List (Nat × NodeRow)
  written : NodeRow
  last : Option NodeRow
  captures : Nat

namespace Sketch

def blank (captures : Nat) : Sketch :=
  { startAnchor := false
    endAnchor := false
    finished := []
    enclosing := []
    written := []
    last := none
    captures := captures }

def inner (sketch : Sketch) : NodeRow :=
  sketch.written ++ sketch.last.getD []

def enclose : List (Nat × NodeRow) → NodeRow → NodeRow
  | [], row => row
  | (index, before) :: outer, row => enclose outer (before ++ [.capture index none row])

/-- The alternative being written, its open captures closed. -/
def branch (sketch : Sketch) : NodeRow :=
  enclose sketch.enclosing sketch.inner

def settle (sketch : Sketch) : Sketch :=
  { sketch with written := sketch.inner, last := none }

def edit (sketch : Sketch) : Edit NodeRow → Sketch
  | .append row =>
      if row.isEmpty then sketch.settle else { sketch.settle with last := some row }
  | .quantify quantifier =>
      match sketch.last with
      | some row =>
          { sketch with
            last := some [.repetition ⟨quantifier.minimum, quantifier.maximum?, true⟩ row] }
      | none => sketch
  | .openCapture =>
      { sketch with
        enclosing := (sketch.captures + 1, sketch.inner) :: sketch.enclosing
        written := []
        last := none
        captures := sketch.captures + 1 }
  | .closeCapture =>
      match sketch.enclosing with
      | [] => sketch
      | (index, before) :: outer =>
          { sketch with
            enclosing := outer
            written := before
            last := some [.capture index none sketch.inner] }
  | .alternate =>
      { sketch with
        finished := sketch.finished ++ [sketch.branch]
        enclosing := []
        written := []
        last := none }
  | .startAnchor enabled => { sketch with startAnchor := enabled }
  | .endAnchor enabled => { sketch with endAnchor := enabled }

def after (modes : Modes) (sketch : Sketch) (call : Call) : Sketch :=
  (call.nodeEdits modes).foldl edit sketch

def run (modes : Modes) (sketch : Sketch) (calls : List Call) : Sketch :=
  calls.foldl (after modes) sketch

def branches (sketch : Sketch) : List NodeRow :=
  sketch.finished ++ [sketch.branch]

def row (modes : Modes) (sketch : Sketch) : NodeRow :=
  (if sketch.startAnchor then [.anchor modes .caret] else []) ++
    Node.ofBranches sketch.branches ++
    (if sketch.endAnchor then [.anchor modes .dollar] else [])

end Sketch
end ReadableRegex

import ReadableRegex.Quantifier
import ReadableRegex.Text.Escape

/-!
The text of a pattern while it is written. A draft keeps the finished alternatives, the text
around every capture that is still open, and the last token apart from the text before it, so
that quantifying the token touches nothing else. A handle names a token by its place in bytes
and is good only while the token is the last one.
-/

namespace ReadableRegex

/-- How a token takes a quantifier. -/
inductive TokenKind where
  /-- One character, escape, class or group: takes the quantifier directly. -/
  | atom
  /-- Several units in a row: is grouped first. -/
  | sequence
  /-- Ends in a quantifier already: is grouped first. -/
  | quantified
deriving DecidableEq, Repr

def TokenKind.needsGroup : TokenKind → Bool
  | .atom => false
  | .sequence => true
  | .quantified => true

def TokenKind.name : TokenKind → Text
  | .atom => "Atom".toList
  | .sequence => "Sequence".toList
  | .quantified => "Quantified".toList

/-- The place of a token: its alternative, and its bytes within the text of that alternative. -/
structure Handle where
  branch : Nat
  start : Nat
  stop : Nat
  kind : TokenKind
deriving DecidableEq, Repr

def Handle.text (handle : Handle) : Text :=
  "TokenHandle \x7b branch: ".toList ++ Text.decimal handle.branch ++
    ", start: ".toList ++ Text.decimal handle.start ++
    ", end: ".toList ++ Text.decimal handle.stop ++
    ", kind: ".toList ++ handle.kind.name ++ " \x7d".toList

inductive DraftError where
  | nothingToQuantify
  | staleToken (handle : Handle)
  | noOpenCapture
deriving DecidableEq, Repr

def DraftError.message : DraftError → String
  | .nothingToQuantify => "no previous token to quantify"
  | .staleToken handle =>
      "token " ++ String.ofList handle.text ++ " is no longer the most recent token"
  | .noOpenCapture => "no capture group is open"

structure Token where
  text : Text
  kind : TokenKind
deriving DecidableEq, Repr

namespace Token

def kindOf (fragment : Text) : TokenKind :=
  if (Text.units fragment).length = 1 then .atom else .sequence

/-- The text of the token made ready for a quantifier. -/
def operand (token : Token) : Text :=
  if token.kind.needsGroup then ['(', '?', ':'] ++ token.text ++ [')'] else token.text

def quantify (token : Token) (quantifier : Quantifier) : Token :=
  ⟨token.operand ++ quantifier.text, .quantified⟩

end Token

structure Draft where
  startAnchor : Bool
  endAnchor : Bool
  finished : List Text
  /-- The text before the opening of each open capture and after the opening around it,
  innermost first. -/
  enclosing : List Text
  /-- The text since the innermost opening, without the last token. -/
  written : Text
  last : Option Token
  /-- Whether reading the draft closes the open captures. -/
  closesCaptures : Bool
deriving DecidableEq, Repr

namespace Draft

def blank (closesCaptures : Bool) : Draft :=
  { startAnchor := false
    endAnchor := false
    finished := []
    enclosing := []
    written := []
    last := none
    closesCaptures := closesCaptures }

/-- The text since the innermost opening. -/
def inner (draft : Draft) : Text :=
  draft.written ++ (draft.last.map Token.text).getD []

/-- Puts a text behind the openings around it. -/
def enclose : List Text → Text → Text
  | [], text => text
  | before :: outer, text => enclose outer (before ++ '(' :: text)

/-- The text of the alternative being written, its open captures unclosed. -/
def branch (draft : Draft) : Text :=
  enclose draft.enclosing draft.inner

def openCaptures (draft : Draft) : Nat :=
  draft.enclosing.length

def closers (draft : Draft) : Text :=
  List.replicate draft.openCaptures ')'

def isAlternating (draft : Draft) : Bool :=
  !draft.finished.isEmpty

/-! ### Reading a draft -/

def handleOf (draft : Draft) (token : Token) : Handle :=
  let start := Text.byteSize (enclose draft.enclosing draft.written)
  { branch := draft.finished.length
    start := start
    stop := start + Text.byteSize token.text
    kind := token.kind }

def lastHandle (draft : Draft) : Option Handle :=
  draft.last.map draft.handleOf

/-- The byte positions of the openings around a text, outermost first. -/
def openingOffsets : List Text → List Nat
  | [] => []
  | before :: outer => openingOffsets outer ++ [Text.byteSize (enclose outer before)]

def openOffsets (draft : Draft) : List Nat :=
  openingOffsets draft.enclosing

def opening (draft : Draft) : Text :=
  (if draft.startAnchor then ['^'] else []) ++
    (if draft.isAlternating then ['(', '?', ':'] else [])

/-- All alternatives. Captures still open are closed if the draft says so. -/
def body (draft : Draft) : Text :=
  draft.finished.flatMap (fun alternative => alternative ++ ['|']) ++ draft.branch ++
    (if draft.closesCaptures then draft.closers else [])

def closing (draft : Draft) : Text :=
  (if draft.isAlternating then [')'] else []) ++ (if draft.endAnchor then ['$'] else [])

def render (draft : Draft) : Text :=
  draft.opening ++ draft.body ++ draft.closing

def isEmpty (draft : Draft) : Bool :=
  draft.render.isEmpty

/-! ### Writing a draft -/

def withLast (draft : Draft) (token : Token) : Draft × Handle :=
  ({ draft with last := some token }, draft.handleOf token)

/-- The draft with its last token made part of the text. -/
def settle (draft : Draft) : Draft :=
  { draft with written := draft.inner, last := none }

/-- Appends a fragment as the new last token. An empty fragment is no token, and then there is
no last token either. -/
def push (draft : Draft) (fragment : Text) (kind : TokenKind) : Draft × Option Handle :=
  if fragment.isEmpty then (draft.settle, none)
  else
    let (next, handle) := draft.settle.withLast ⟨fragment, kind⟩
    (next, some handle)

def pushLiteral (draft : Draft) (text : Text) : Draft × Option Handle :=
  let escaped := Text.escapeLiteral text
  draft.push escaped (Token.kindOf escaped)

def pushRaw (draft : Draft) (fragment : Text) : Draft × Option Handle :=
  draft.push fragment (Token.kindOf fragment)

/-- Repeats the token of the handle, which must be the last one. -/
def quantify (draft : Draft) (handle : Handle) (quantifier : Quantifier) :
    Except DraftError (Draft × Handle) :=
  match draft.last with
  | some token =>
      if draft.handleOf token = handle then .ok (draft.withLast (token.quantify quantifier))
      else .error (.staleToken handle)
  | none => .error (.staleToken handle)

def quantifyLast (draft : Draft) (quantifier : Quantifier) : Except DraftError (Draft × Handle) :=
  match draft.lastHandle with
  | some handle => draft.quantify handle quantifier
  | none => .error .nothingToQuantify

/-- Opens a capture; there is no last token in it yet. -/
def beginCapture (draft : Draft) : Draft :=
  { draft with enclosing := draft.inner :: draft.enclosing, written := [], last := none }

/-- Closes the innermost open capture, which becomes the last token. -/
def endCapture (draft : Draft) : Except DraftError (Draft × Handle) :=
  match draft.enclosing with
  | [] => .error .noOpenCapture
  | before :: outer =>
      let parent := { draft with enclosing := outer, written := before, last := none }
      .ok (parent.withLast ⟨'(' :: draft.inner ++ [')'], .atom⟩)

/-- Finishes the current alternative, closing its captures, and starts an empty one. -/
def alternate (draft : Draft) : Draft :=
  { draft with
    finished := draft.finished ++ [draft.branch ++ draft.closers]
    enclosing := []
    written := []
    last := none }

def setStartAnchor (draft : Draft) (enabled : Bool) : Draft :=
  { draft with startAnchor := enabled }

def setEndAnchor (draft : Draft) (enabled : Bool) : Draft :=
  { draft with endAnchor := enabled }

def setClosesCaptures (draft : Draft) (enabled : Bool) : Draft :=
  { draft with closesCaptures := enabled }

end Draft
end ReadableRegex

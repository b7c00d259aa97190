import ReadableRegex.Lexeme.Reading

/-!
Putting lexemes together. The open groups stand on a stack of frames, innermost first, each
with its finished alternatives and the parts of the current one; a lexeme changes the top of
the stack only. Captures are numbered in the order in which they open.
-/

namespace ReadableRegex

namespace Pattern

/-- A group in the making, or the whole pattern. -/
structure Frame where
  /-- The finished alternatives, the latest first. -/
  alternatives : List Pattern
  /-- The parts of the current alternative, the latest first. -/
  parts : List Pattern
deriving DecidableEq, Repr

namespace Frame

def blank : Frame := ⟨[], []⟩

def add (frame : Frame) (part : Pattern) : Frame :=
  { frame with parts := part :: frame.parts }

def current (frame : Frame) : Pattern :=
  ofParts frame.parts.reverse

def alternate (frame : Frame) : Frame :=
  ⟨frame.current :: frame.alternatives, []⟩

def pattern (frame : Frame) : Pattern :=
  ofAlternatives (frame.current :: frame.alternatives).reverse

/-- The frame with its last part repeated. Switched modes cannot be repeated. -/
def repeatLast (frame : Frame) (counts : Counts) : Except Fault Frame :=
  match frame.parts with
  | [] => .error .nothingToRepeat
  | .modes _ :: _ => .error .nothingToRepeat
  | part :: earlier => .ok { frame with parts := .repetition counts part :: earlier }

end Frame

/-- The state of assembling: the frame at hand, the groups around it with their kinds,
innermost first, and the captures opened so far. -/
structure Assembly where
  frame : Frame
  outer : List (GroupKind × Frame)
  captures : Nat
  names : List Text
deriving DecidableEq, Repr

namespace Assembly

def blank : Assembly := ⟨Frame.blank, [], 0, []⟩

def withFrame (assembly : Assembly) (frame : Frame) : Assembly :=
  { assembly with frame := frame }

def openPlain (assembly : Assembly) (change : ModeChange) : Assembly :=
  { assembly with
    frame := Frame.blank
    outer := (.plain change, assembly.frame) :: assembly.outer }

def openCapture (assembly : Assembly) (name : Option Text) : Assembly :=
  { frame := Frame.blank
    outer := (.capture (assembly.captures + 1) name, assembly.frame) :: assembly.outer
    captures := assembly.captures + 1
    names := name.toList ++ assembly.names }

/-- Opens a group; no two captures share a name. -/
def openGroup (assembly : Assembly) : Opening → Except Fault Assembly
  | .plain change => .ok (assembly.openPlain change)
  | .capture none => .ok (assembly.openCapture none)
  | .capture (some name) =>
      if name ∈ assembly.names then .error (.repeatedGroupName name)
      else .ok (assembly.openCapture (some name))

/-- Closes the innermost group, which becomes a part of the frame around it. -/
def closeGroup (assembly : Assembly) : Except Fault Assembly :=
  match assembly.outer with
  | [] => .error .strayClosing
  | (kind, parent) :: outer =>
      .ok { assembly with frame := parent.add (.group kind assembly.frame.pattern), outer := outer }

def take (assembly : Assembly) : Lexeme → Except Fault Assembly
  | .part part => .ok (assembly.withFrame (assembly.frame.add part))
  | .bar => .ok (assembly.withFrame assembly.frame.alternate)
  | .opening opening => assembly.openGroup opening
  | .closing => assembly.closeGroup
  | .quantifier counts =>
      match assembly.frame.repeatLast counts with
      | .ok frame => .ok (assembly.withFrame frame)
      | .error fault => .error fault

def takeAll (assembly : Assembly) (lexemes : List Lexeme) : Except Fault Assembly :=
  lexemes.foldlM take assembly

def finish (assembly : Assembly) : Except Fault Pattern :=
  match assembly.outer with
  | [] => .ok assembly.frame.pattern
  | _ :: _ => .error .openGroup

end Assembly

def ofLexemes (lexemes : List Lexeme) : Except Fault Pattern :=
  match Assembly.blank.takeAll lexemes with
  | .ok assembly => assembly.finish
  | .error fault => .error fault

def ofText (text : Text) : Except Fault Pattern :=
  match Lexeme.readAll text with
  | .ok lexemes => ofLexemes lexemes
  | .error fault => .error fault

def ofTextWithin (nestLimit : Nat) (text : Text) : Except Fault Pattern :=
  match ofText text with
  | .ok pattern => if pattern.depth none ≤ nestLimit then .ok pattern else .error .deepNesting
  | .error fault => .error fault

end Pattern
end ReadableRegex

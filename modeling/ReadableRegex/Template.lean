import ReadableRegex.Hit
import ReadableRegex.Program
import ReadableRegex.Text.Numeral

/-!
Templates for replacements. A dollar sign before a name, or before a name in braces, stands for
what a group matched; two dollar signs stand for one, and any other dollar sign for itself. A
name that is a number refers to the group of that index.
-/

namespace ReadableRegex

inductive TemplatePart where
  | text (text : Text)
  | group (index : Nat)
  | named (name : Text)
deriving DecidableEq, Repr

abbrev Template := List TemplatePart

namespace Template

/-- The group a name refers to. An index has at most 64 bits and may carry a plus sign. -/
def reference (name : Text) : TemplatePart :=
  let unsigned :=
    match name with
    | '+' :: rest => rest
    | _ => name
  match Text.number? 10 unsigned with
  | some index => if index < UInt64.size then .group index else .named name
  | none => .named name

def isNameChar (character : Char) : Bool :=
  character.isAlphanum || character == '_'

def ofText (text : Text) : Template :=
  match text with
  | [] => []
  | '$' :: '$' :: rest => .text ['$'] :: ofText rest
  | '$' :: '\x7b' :: rest =>
      match _closing : rest.dropWhile (· != '\x7d') with
      | [] => .text ['$'] :: ofText ('\x7b' :: rest)
      | _ :: after => reference (rest.takeWhile (· != '\x7d')) :: ofText after
  | '$' :: rest =>
      if (rest.takeWhile isNameChar).isEmpty then .text ['$'] :: ofText rest
      else reference (rest.takeWhile isNameChar) :: ofText (rest.dropWhile isNameChar)
  | character :: rest => .text [character] :: ofText rest
termination_by text.length
decreasing_by
  · exact Nat.lt_succ_of_lt (Nat.lt_succ_self _)
  · simp
  · have bound := (List.dropWhile_sublist (l := rest) (· != '\x7d')).length_le
    rw [_closing] at bound
    simp only [List.length_cons] at bound ⊢
    omega
  · simp
  · exact Nat.lt_succ_of_le (List.dropWhile_sublist _).length_le
  · simp

def expandPart {subject : Array Char} (program : Program) (hit : Hit subject) :
    TemplatePart → Text
  | .text text => text
  | .group index => hit.groupText index
  | .named name =>
      match program.indexOf? name with
      | some index => hit.groupText index
      | none => []

def expand {subject : Array Char} (program : Program) (template : Template) (hit : Hit subject) :
    Text :=
  template.flatMap (expandPart program hit)

end Template
end ReadableRegex

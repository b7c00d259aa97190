import ReadableRegex.Lexeme.Gap
import ReadableRegex.Pattern
import ReadableRegex.Text.Numeral

/-!
Reading what a backslash protects or names: literal characters, code points, named classes,
properties and assertions. Every reader hands back the text after what it has read. Unless it is
told otherwise it reads as outside of verbose mode.

Which properties there are is not decided here, only how their names are written. A name that holds
a sign no property has in its name is refused at once.
-/

namespace ReadableRegex.Lexeme

inductive Escape where
  | literal (character : Char)
  /-- A byte above ASCII, given by its number. -/
  | byte (character : Char)
  | named (name : NamedClass) (negated : Bool)
  | property (name : Text) (negated : Bool)
  | anchor (anchor : Anchor)
deriving DecidableEq, Repr

def charOfHex? (digits : Text) : Option Char :=
  match Text.number? 16 digits with
  | some value => if value.isValidChar then some (Char.ofNat value) else none
  | none => none

def readFixedHex (count : Nat) (text : Text) (verbose : Bool := false) :
    Except Fault (Char × Text) :=
  match takeSigns? verbose count text with
  | none => .error .openEscape
  | some (digits, rest) =>
      match charOfHex? digits with
      | some character => .ok (character, rest)
      | none => .error .badCodePoint

def readBracedHex (text : Text) (verbose : Bool := false) : Except Fault (Char × Text) :=
  match collect verbose (· != '\x7d') text with
  | (_, []) => .error .openEscape
  | (digits, _ :: rest) =>
      match charOfHex? digits with
      | some character => .ok (character, rest)
      | none => .error .badCodePoint

/-- Reads a character from hexadecimal digits in either form. Only two digits without braces
can stand for a byte. -/
def readHex (count : Nat) (text : Text) (verbose : Bool := false) : Except Fault (Escape × Text) :=
  match resume verbose text with
  | '\x7b' :: rest =>
      match readBracedHex rest verbose with
      | .ok (character, rest) => .ok (.literal character, rest)
      | .error fault => .error fault
  | start =>
      match readFixedHex count start verbose with
      | .ok (character, rest) =>
          if count = 2 ∧ 128 ≤ character.toNat then .ok (.byte character, rest)
          else .ok (.literal character, rest)
      | .error fault => .error fault

/-- The names of word edges that a word assertion may carry in braces. -/
def wordEdges : List (Text × WordEdge) :=
  [("start".toList, .start), ("end".toList, .stop), ("start-half".toList, .startHalf),
    ("end-half".toList, .stopHalf)]

def isEdgeChar (character : Char) : Bool :=
  character.isAlpha || character == '-'

/-- Reads the name of a word edge in braces. Braces that start with anything else than a name
are left alone. -/
def readWordEdge (text : Text) (verbose : Bool := false) : Except Fault (WordEdge × Text) :=
  match text with
  | '\x7b' :: rest =>
      match collect verbose isEdgeChar rest with
      | ([], _) => .ok (.boundary, text)
      | (name, '\x7d' :: rest) =>
          match wordEdges.lookup name with
          | some edge => .ok (edge, rest)
          | none => .error (.badEscape 'b')
      | _ => .error .openEscape
  | _ => .ok (.boundary, text)

/-- A sign that the name of a property, or a property with its value, may hold. -/
def isPropertySign (sign : Char) : Bool :=
  sign.isAlphanum || sign ∈ [' ', '_', '-', '.', ':', '=', '!'] || 128 ≤ sign.toNat

def propertyNamed (name : Text) (negated : Bool) (rest : Text) : Except Fault (Escape × Text) :=
  if name.all isPropertySign then .ok (.property name negated, rest) else .error .property

/-- Reads the name of a property: a single sign, or a text in braces. -/
def readProperty (negated : Bool) (text : Text) (verbose : Bool := false) :
    Except Fault (Escape × Text) :=
  match resume verbose text with
  | [] => .error .openEscape
  | '\x7b' :: rest =>
      match collect verbose (· != '\x7d') rest with
      | (_, []) => .error .openEscape
      | (name, _ :: rest) => propertyNamed name negated rest
  | sign :: rest => propertyNamed [sign] negated rest

/-- Whether a backslash only takes the meaning away from the character. -/
def isProtectable (character : Char) : Bool :=
  character.toNat < 128 && !character.isAlphanum && character != '<' && character != '>'

def letterEscape? : Char → Option Escape
  | 'a' => some (.literal '\x07')
  | 'f' => some (.literal '\x0c')
  | 't' => some (.literal '\t')
  | 'n' => some (.literal '\n')
  | 'r' => some (.literal '\r')
  | 'v' => some (.literal '\x0b')
  | 'd' => some (.named .digit false)
  | 'D' => some (.named .digit true)
  | 's' => some (.named .blank false)
  | 'S' => some (.named .blank true)
  | 'w' => some (.named .word false)
  | 'W' => some (.named .word true)
  | 'A' => some (.anchor .textStart)
  | 'z' => some (.anchor .textEnd)
  | 'B' => some (.anchor (.word .noBoundary))
  | '<' => some (.anchor (.word .start))
  | '>' => some (.anchor (.word .stop))
  | _ => none

/-- Reads what follows a backslash. No gap may stand right behind it. -/
def readEscape (text : Text) (verbose : Bool := false) : Except Fault (Escape × Text) :=
  match text with
  | [] => .error .openEscape
  | 'x' :: rest => readHex 2 rest verbose
  | 'u' :: rest => readHex 4 rest verbose
  | 'U' :: rest => readHex 8 rest verbose
  | 'b' :: rest =>
      match readWordEdge rest verbose with
      | .ok (edge, rest) => .ok (.anchor (.word edge), rest)
      | .error fault => .error fault
  | 'p' :: rest => readProperty false rest verbose
  | 'P' :: rest => readProperty true rest verbose
  | character :: rest =>
      if isProtectable character then .ok (.literal character, rest)
      else if character.isDigit then .error .backReference
      else
        match letterEscape? character with
        | some escape => .ok (escape, rest)
        | none => .error (.badEscape character)

/-! ### What is left to read -/

section

variable {verbose negated : Bool} {count : Nat} {text rest : Text} {escape : Escape}

theorem suffix_of_readFixedHex {character : Char}
    (read : readFixedHex count text verbose = .ok (character, rest)) : rest <:+ text := by
  unfold readFixedHex at read
  split at read
  · cases read
  · next taken =>
      split at read
      · cases read
        exact suffix_of_takeSigns? taken
      · cases read

theorem suffix_of_readBracedHex {character : Char}
    (read : readBracedHex text verbose = .ok (character, rest)) : rest <:+ text := by
  unfold readBracedHex at read
  split at read
  · cases read
  · next collected =>
      split at read
      · cases read
        exact (List.suffix_cons _ _).trans (suffix_of_collect collected)
      · cases read

theorem suffix_of_readHex (read : readHex count text verbose = .ok (escape, rest)) :
    rest <:+ text := by
  unfold readHex at read
  split at read
  · next goesOn =>
      split at read
      · next braced =>
          cases read
          exact (suffix_of_readBracedHex braced).trans (suffix_of_resume goesOn)
      · cases read
  · split at read
    · next fixed =>
        have left := (suffix_of_readFixedHex fixed).trans (resume_suffix verbose text)
        split at read <;> cases read <;> exact left
    · cases read

theorem suffix_of_readWordEdge {edge : WordEdge}
    (read : readWordEdge text verbose = .ok (edge, rest)) : rest <:+ text := by
  unfold readWordEdge at read
  split at read
  · split at read
    · cases read
      exact List.suffix_refl _
    · next collected =>
        split at read
        · cases read
          exact ((List.suffix_cons _ _).trans (suffix_of_collect collected)).trans
            (List.suffix_cons _ _)
        · cases read
    · cases read
  · cases read
    exact List.suffix_refl _

theorem eq_of_propertyNamed {name behind : Text}
    (read : propertyNamed name negated behind = .ok (escape, rest)) :
    escape = .property name negated ∧ rest = behind := by
  unfold propertyNamed at read
  split at read
  · cases read
    exact ⟨rfl, rfl⟩
  · cases read

theorem suffix_of_readProperty (read : readProperty negated text verbose = .ok (escape, rest)) :
    rest <:+ text := by
  unfold readProperty at read
  split at read
  · cases read
  · next goesOn =>
      split at read
      · cases read
      · next collected =>
          obtain ⟨-, rfl⟩ := eq_of_propertyNamed read
          exact ((List.suffix_cons _ _).trans (suffix_of_collect collected)).trans
            (suffix_of_resume goesOn)
  · next goesOn =>
      obtain ⟨-, rfl⟩ := eq_of_propertyNamed read
      exact suffix_of_resume goesOn

theorem suffix_of_readEscape {character : Char}
    (read : readEscape (character :: text) verbose = .ok (escape, rest)) : rest <:+ text := by
  unfold readEscape at read
  split at read
  · next same => cases same
  · next same =>
      cases same
      exact suffix_of_readHex read
  · next same =>
      cases same
      exact suffix_of_readHex read
  · next same =>
      cases same
      exact suffix_of_readHex read
  · next same =>
      cases same
      split at read
      · next edge =>
          cases read
          exact suffix_of_readWordEdge edge
      · cases read
  · next same =>
      cases same
      exact suffix_of_readProperty read
  · next same =>
      cases same
      exact suffix_of_readProperty read
  · next same =>
      cases same
      split at read
      · cases read
        exact List.suffix_refl _
      · split at read
        · cases read
        · split at read
          · cases read
            exact List.suffix_refl _
          · cases read

end

end ReadableRegex.Lexeme

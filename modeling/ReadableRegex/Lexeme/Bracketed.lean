import ReadableRegex.Lexeme.Escape

/-!
Reading a bracketed class, classes nested in it included. The open brackets are kept on a
stack of frames, each with the members read so far and the operator that waits for its right
operand.
-/

namespace ReadableRegex.Lexeme

/-- An open pair of brackets. -/
structure ClassFrame where
  negated : Bool
  /-- The operator before the current members, with its left operand. -/
  pending : Option (SetOperator × CharClass)
  /-- The current members, the latest first. -/
  members : List CharClass

namespace ClassFrame

def add (frame : ClassFrame) (member : CharClass) : ClassFrame :=
  { frame with members := member :: frame.members }

def inside (frame : ClassFrame) : CharClass :=
  match frame.pending with
  | none => CharClass.ofMembers frame.members
  | some (operator, left) => .combined operator left (CharClass.ofMembers frame.members)

/-- The frame after an operator; everything before it is the left operand. -/
def operate (frame : ClassFrame) (operator : SetOperator) : ClassFrame :=
  { frame with pending := some (operator, frame.inside), members := [] }

def close (frame : ClassFrame) : CharClass :=
  .bracketed frame.negated frame.inside

end ClassFrame

def single (character : Char) : CharClass :=
  .range character character

/-- Reads the signs at the start of a class that would mean something else later, and are
members here: any number of hyphens, or else one closing bracket. -/
def openMembers (negated : Bool) (text : Text) (verbose : Bool := false) : ClassFrame × Text :=
  match collect verbose (· == '-') text with
  | ([], ']' :: rest) => (⟨negated, none, [single ']']⟩, rest)
  | (hyphens, rest) => (⟨negated, none, hyphens.map single⟩, rest)

/-- Reads what follows an opening bracket: the sign of a complement and the first members. -/
def openClass (text : Text) (verbose : Bool := false) : ClassFrame × Text :=
  match resume verbose text with
  | '^' :: rest => openMembers true rest verbose
  | start => openMembers false start verbose

def posixClasses : List (Text × List Interval) :=
  [("alnum".toList, [⟨'0', '9'⟩, ⟨'A', 'Z'⟩, ⟨'a', 'z'⟩]),
    ("alpha".toList, [⟨'A', 'Z'⟩, ⟨'a', 'z'⟩]),
    ("ascii".toList, [⟨'\x00', '\x7f'⟩]),
    ("blank".toList, [⟨'\t', '\t'⟩, ⟨' ', ' '⟩]),
    ("cntrl".toList, [⟨'\x00', '\x1f'⟩, ⟨'\x7f', '\x7f'⟩]),
    ("digit".toList, [⟨'0', '9'⟩]),
    ("graph".toList, [⟨'!', '~'⟩]),
    ("lower".toList, [⟨'a', 'z'⟩]),
    ("print".toList, [⟨' ', '~'⟩]),
    ("punct".toList, [⟨'!', '/'⟩, ⟨':', '@'⟩, ⟨'[', '\x60'⟩, ⟨'\x7b', '~'⟩]),
    ("space".toList, [⟨'\t', '\r'⟩, ⟨' ', ' '⟩]),
    ("upper".toList, [⟨'A', 'Z'⟩]),
    ("word".toList, [⟨'0', '9'⟩, ⟨'A', 'Z'⟩, ⟨'_', '_'⟩, ⟨'a', 'z'⟩]),
    ("xdigit".toList, [⟨'0', '9'⟩, ⟨'A', 'F'⟩, ⟨'a', 'f'⟩])]

/-- The POSIX class whose name and closing start the text. -/
def namedPosix? (negated : Bool) (text : Text) : Option (CharClass × Text) :=
  posixClasses.findSome? (fun entry =>
    (Text.after? (entry.1 ++ [':', ']']) text).map (fun rest => (.posix entry.2 negated, rest)))

def readPosix? (text : Text) : Option (CharClass × Text) :=
  match text with
  | ':' :: '^' :: rest => namedPosix? true rest
  | ':' :: rest => namedPosix? false rest
  | _ => none

/-- One end of a range, or a class on its own. -/
inductive ClassAtom where
  | single (character : Char)
  | named (name : NamedClass) (negated : Bool)
  | property (name : Text) (negated : Bool)

def ClassAtom.member : ClassAtom → CharClass
  | .single character => Lexeme.single character
  | .named name negated => .named name negated
  | .property name negated => .property name negated

/-- The atom an escape is; assertions are none. -/
def Escape.atom? : Escape → Option ClassAtom
  | .literal character => some (.single character)
  | .byte character => some (.single character)
  | .named name negated => some (.named name negated)
  | .property name negated => some (.property name negated)
  | .anchor _ => none

def readClassAtom (text : Text) (verbose : Bool := false) : Except Fault (ClassAtom × Text) :=
  match text with
  | [] => .error .openClass
  | '\\' :: rest =>
      match readEscape rest verbose with
      | .ok (escape, rest) =>
          match escape.atom? with
          | some atom => .ok (atom, rest)
          | none => .error .badClassMember
      | .error fault => .error fault
  | character :: rest => .ok (.single character, rest)

def readRangeEnd (first : ClassAtom) (text : Text) (verbose : Bool := false) :
    Except Fault (CharClass × Text) :=
  match first, readClassAtom text verbose with
  | .single first, .ok (.single last, rest) =>
      if first ≤ last then .ok (.range first last, rest) else .error .invertedRange
  | _, .ok _ => .error .badClassMember
  | _, .error fault => .error fault

/-- The sign behind a hyphen that decides whether it makes a range. In verbose mode it is looked for
behind blanks and the sign of a comment, but not behind the comment. -/
def signBehind? (text : Text) (verbose : Bool) : Option Char :=
  match verbose with
  | false => text.head?
  | true =>
      match text.dropWhile Unicode.isBlank with
      | '#' :: rest => (rest.dropWhile Unicode.isBlank).head?
      | start => start.head?

/-- Reads an atom or a range. A hyphen before a closing bracket or another hyphen makes no
range. -/
def readMember (text : Text) (verbose : Bool := false) : Except Fault (CharClass × Text) :=
  match readClassAtom text verbose with
  | .ok (atom, rest) =>
      match resume verbose rest with
      | '-' :: behind =>
          if signBehind? behind verbose = some ']' ∨ signBehind? behind verbose = some '-' then
            .ok (atom.member, rest)
          else readRangeEnd atom (resume verbose behind) verbose
      | _ => .ok (atom.member, rest)
  | .error fault => .error fault

def operator? : Text → Option SetOperator
  | '&' :: '&' :: _ => some .intersection
  | '-' :: '-' :: _ => some .difference
  | '~' :: '~' :: _ => some .symmetricDifference
  | _ => none

/-! ### What is left to read -/

section

variable {verbose negated : Bool} {text rest : Text} {set : CharClass}

theorem openMembers_suffix (negated : Bool) (text : Text) (verbose : Bool) :
    (openMembers negated text verbose).2 <:+ text := by
  unfold openMembers
  split
  · next collected => exact (List.suffix_cons _ _).trans (suffix_of_collect collected)
  · next collected => exact suffix_of_collect collected

theorem openClass_suffix (text : Text) (verbose : Bool) : (openClass text verbose).2 <:+ text := by
  unfold openClass
  split
  · next goesOn => exact (openMembers_suffix _ _ _).trans (suffix_of_resume goesOn)
  · exact (openMembers_suffix _ _ _).trans (resume_suffix verbose text)

theorem suffix_of_namedPosix? (read : namedPosix? negated text = some (set, rest)) :
    rest <:+ text := by
  obtain ⟨entry, _, found⟩ := List.exists_of_findSome?_eq_some read
  obtain ⟨remaining, after, same⟩ := Option.map_eq_some_iff.mp found
  cases same
  exact ⟨_, (Text.eq_append_of_after? after).symm⟩

theorem suffix_of_readPosix? (read : readPosix? text = some (set, rest)) : rest <:+ text := by
  unfold readPosix? at read
  split at read
  · exact ((suffix_of_namedPosix? read).trans (List.suffix_cons _ _)).trans (List.suffix_cons _ _)
  · exact (suffix_of_namedPosix? read).trans (List.suffix_cons _ _)
  · cases read

theorem suffix_of_readClassAtom {atom : ClassAtom}
    (read : readClassAtom text verbose = .ok (atom, rest)) : rest <:+ text.tail := by
  unfold readClassAtom at read
  split at read
  · cases read
  · next behind =>
      split at read
      · next escape remaining escaped =>
          have left : rest = remaining := by
            split at read <;> cases read
            rfl
          subst left
          cases behind with
          | nil => cases escaped
          | cons character others =>
              exact (suffix_of_readEscape escaped).trans (List.suffix_cons _ _)
      · cases read
  · cases read
    exact List.suffix_refl _

theorem suffix_of_readRangeEnd {first : ClassAtom}
    (read : readRangeEnd first text verbose = .ok (set, rest)) : rest <:+ text.tail := by
  unfold readRangeEnd at read
  split at read
  · next atom =>
      split at read
      · cases read
        exact suffix_of_readClassAtom atom
      · cases read
  · cases read
  · cases read

theorem suffix_of_readMember (read : readMember text verbose = .ok (set, rest)) :
    rest <:+ text.tail := by
  unfold readMember at read
  split at read
  · next remaining atom =>
      have first := suffix_of_readClassAtom atom
      split at read
      · next behind goesOn =>
          split at read
          · cases read
            exact first
          · have last := (suffix_of_readRangeEnd read).trans (List.tail_suffix _)
            exact ((last.trans (resume_suffix verbose behind)).trans
              (suffix_of_resume goesOn)).trans first
      · cases read
        exact first
  · cases read

end

/-! ### The members of a class -/

/-- Reads members up to the bracket that closes the outermost frame. -/
def readMembers (frame : ClassFrame) (outer : List ClassFrame) (text : Text)
    (verbose : Bool := false) : Except Fault (CharClass × Text) :=
  match _start : resume verbose text with
  | [] => .error .openClass
  | ']' :: rest =>
      match outer with
      | [] => .ok (frame.close, rest)
      | parent :: outer => readMembers (parent.add frame.close) outer rest verbose
  | '[' :: rest =>
      match _posix : readPosix? rest with
      | some (set, remaining) => readMembers (frame.add set) outer remaining verbose
      | none =>
          readMembers (openClass rest verbose).1 (frame :: outer) (openClass rest verbose).2 verbose
  | head :: rest =>
      match operator? (head :: rest) with
      | some operator => readMembers (frame.operate operator) outer (rest.drop 1) verbose
      | none =>
          match _member : readMember (head :: rest) verbose with
          | .ok (set, remaining) => readMembers (frame.add set) outer remaining verbose
          | .error fault => .error fault
termination_by text.length
decreasing_by
  all_goals
    have _first := (resume_suffix verbose text).length_le
    rw [_start, List.length_cons] at _first
  · exact _first
  · exact Nat.lt_of_le_of_lt (suffix_of_readPosix? _posix).length_le _first
  · exact Nat.lt_of_le_of_lt (openClass_suffix rest verbose).length_le _first
  · exact Nat.lt_of_le_of_lt (List.drop_suffix 1 rest).length_le _first
  · exact Nat.lt_of_le_of_lt (suffix_of_readMember _member).length_le _first

def readClass (text : Text) (verbose : Bool := false) : Except Fault (CharClass × Text) :=
  readMembers (openClass text verbose).1 [] (openClass text verbose).2 verbose

theorem suffix_of_readMembers {verbose : Bool} {frame : ClassFrame} {outer : List ClassFrame}
    {text rest : Text} {set : CharClass}
    (read : readMembers frame outer text verbose = .ok (set, rest)) : rest <:+ text := by
  fun_induction readMembers frame outer text verbose with
  | case1 => cases read
  | case2 _ _ _ goesOn =>
      cases read
      exact suffix_of_resume goesOn
  | case3 _ _ _ goesOn _ _ inductionHypothesis =>
      exact (inductionHypothesis read).trans (suffix_of_resume goesOn)
  | case4 _ _ _ _ goesOn _ _ posix inductionHypothesis =>
      have left := (inductionHypothesis read).trans (suffix_of_readPosix? posix)
      exact left.trans (suffix_of_resume goesOn)
  | case5 _ _ _ behind goesOn _ inductionHypothesis =>
      have left := (inductionHypothesis read).trans (openClass_suffix behind verbose)
      exact left.trans (suffix_of_resume goesOn)
  | case6 _ _ _ _ _ _ _ goesOn _ _ inductionHypothesis =>
      have left := (inductionHypothesis read).trans (List.drop_suffix _ _)
      exact left.trans (suffix_of_resume goesOn)
  | case7 _ _ _ _ _ _ _ goesOn _ _ _ member inductionHypothesis =>
      have left := (inductionHypothesis read).trans (suffix_of_readMember member)
      exact left.trans (suffix_of_resume goesOn)
  | case8 => cases read

theorem suffix_of_readClass {verbose : Bool} {text rest : Text} {set : CharClass}
    (read : readClass text verbose = .ok (set, rest)) : rest <:+ text :=
  (suffix_of_readMembers read).trans (openClass_suffix text verbose)

end ReadableRegex.Lexeme

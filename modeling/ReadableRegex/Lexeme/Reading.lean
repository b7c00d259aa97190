import ReadableRegex.Lexeme.Bracketed
import ReadableRegex.Lexeme.Counted
import ReadableRegex.Lexeme.Group

/-!
Reading a pattern text as a row of lexemes. A lexeme is decided by the text at its start and by
whether verbose mode is on, and only a quantifier looks beyond its own signs. Verbose mode is
switched like the other modes, up to the end of a group, but matters here and not to the meaning of
the pattern.
-/

namespace ReadableRegex.Lexeme

def Escape.part : Escape → Pattern
  | .literal symbol => .literal symbol
  | .byte symbol => .byte symbol
  | .named name negated => .charClass (.named name negated)
  | .property name negated => .charClass (.property name negated)
  | .anchor assertion => .anchor assertion

/-- A quantifier sign with its laziness mark. -/
def readSign (lower : Nat) (upper : Option Nat) (text : Text) : Except Fault (Lexeme × Text) :=
  let (counts, rest) := finishCounts lower upper text
  .ok (.quantifier counts, rest)

def read (head : Char) (text : Text) (verbose : Bool := false) : Except Fault (Lexeme × Text) :=
  match head with
  | '(' => readGroup text verbose
  | ')' => .ok (.closing, text)
  | '|' => .ok (.bar, text)
  | '[' =>
      match readClass text verbose with
      | .ok (set, rest) => .ok (.part (.charClass set), rest)
      | .error fault => .error fault
  | '?' => readSign 0 (some 1) text
  | '*' => readSign 0 none text
  | '+' => readSign 1 none text
  | '\x7b' =>
      match readCounts text verbose with
      | .ok (counts, rest) => .ok (.quantifier counts, rest)
      | .error fault => .error fault
  | '\\' =>
      match readEscape text verbose with
      | .ok (escape, rest) => .ok (.part escape.part, rest)
      | .error fault => .error fault
  | '.' => .ok (.part .dot, text)
  | '^' => .ok (.part (.anchor .caret), text)
  | '$' => .ok (.part (.anchor .dollar), text)
  | character => .ok (.part (.literal character), text)

section

variable {text rest : Text} {lexeme : Lexeme}

theorem suffix_of_readSign {lower : Nat} {upper : Option Nat}
    (read : readSign lower upper text = .ok (lexeme, rest)) : rest <:+ text := by
  cases read
  exact readGreed_suffix text false

theorem suffix_of_read {head : Char} {verbose : Bool}
    (reading : read head text verbose = .ok (lexeme, rest)) : rest <:+ text := by
  unfold read at reading
  split at reading
  · exact suffix_of_readGroup reading
  · cases reading
    exact List.suffix_refl _
  · cases reading
    exact List.suffix_refl _
  · split at reading
    · next set =>
        cases reading
        exact suffix_of_readClass set
    · cases reading
  · exact suffix_of_readSign reading
  · exact suffix_of_readSign reading
  · exact suffix_of_readSign reading
  · split at reading
    · next counts =>
        cases reading
        exact suffix_of_readCounts counts
    · cases reading
  · split at reading
    · next escape =>
        cases reading
        cases text with
        | nil => cases escape
        | cons character others => exact (suffix_of_readEscape escape).trans (List.suffix_cons _ _)
    · cases reading
  · cases reading
    exact List.suffix_refl _
  · cases reading
    exact List.suffix_refl _
  · cases reading
    exact List.suffix_refl _
  · cases reading
    exact List.suffix_refl _

end

/-- Whether verbose mode is on at some place of a pattern, and around each of the groups that are
open there. -/
structure Verbosity where
  here : Bool
  outer : List Bool
deriving DecidableEq, Repr

namespace Verbosity

def quiet : Verbosity := ⟨false, []⟩

def switch (verbose : Bool) (change : ModeChange) : Bool :=
  (change.lookup .verbose).getD verbose

def after (state : Verbosity) : Lexeme → Verbosity
  | .opening (.capture _) => ⟨state.here, state.here :: state.outer⟩
  | .opening (.plain change) => ⟨switch state.here change, state.here :: state.outer⟩
  | .part (.modes change) => ⟨switch state.here change, state.outer⟩
  | .closing => ⟨state.outer.headD false, state.outer.tail⟩
  | _ => state

end Verbosity

def readFrom (state : Verbosity) (text : Text) : Except Fault (List Lexeme) :=
  match _start : resume state.here text with
  | [] => .ok []
  | head :: tail =>
      match _first : read head tail state.here with
      | .ok (lexeme, rest) =>
          match readFrom (state.after lexeme) rest with
          | .ok lexemes => .ok (lexeme :: lexemes)
          | .error fault => .error fault
      | .error fault => .error fault
termination_by text.length
decreasing_by
  have _left := (resume_suffix state.here text).length_le
  rw [_start, List.length_cons] at _left
  exact Nat.lt_of_le_of_lt (suffix_of_read _first).length_le _left

def readAll (text : Text) : Except Fault (List Lexeme) :=
  readFrom .quiet text

end ReadableRegex.Lexeme

import ReadableRegex.Lexeme
import ReadableRegex.Lexeme.Escape
import ReadableRegex.Unicode.Letter

/-!
Reading the opening of a group: a plain or named capture, or modes that hold within the group
or for the rest of the group around it. All modes of the engine are read, verbose mode among them,
whose effect on what is read next is told by `Verbosity` in `Lexeme.Reading`.
-/

namespace ReadableRegex

def Mode.ofLetter? : Char → Option Mode
  | 'i' => some .ignoreCase
  | 'm' => some .multiline
  | 's' => some .dotAll
  | 'U' => some .swapGreed
  | 'u' => some .unicode
  | 'R' => some .crlf
  | 'x' => some .verbose
  | _ => none

namespace Lexeme

/-- Modes in the middle of being read. -/
structure ModeReading where
  change : ModeChange
  /-- Whether a minus sign came before, and letters now switch modes off. -/
  negated : Bool
  /-- Whether a minus sign came last. -/
  dangling : Bool

/-- Reads modes up to the colon that opens a group, or to the end of the parentheses; the
answer says which. -/
def readModes (reading : ModeReading) : Text → Except Fault (ModeChange × Bool × Text)
  | [] => .error .openGroup
  | ':' :: rest => if reading.dangling then .error .badMode else .ok (reading.change, true, rest)
  | ')' :: rest => if reading.dangling then .error .badMode else .ok (reading.change, false, rest)
  | '-' :: rest =>
      if reading.negated then .error .badMode
      else readModes { reading with negated := true, dangling := true } rest
  | letter :: rest =>
      match Mode.ofLetter? letter with
      | none => .error .badMode
      | some mode =>
          if reading.change.any (fun earlier => earlier.1 == mode) then .error .badMode
          else
            readModes
              { change := reading.change ++ [(mode, !reading.negated)]
                negated := reading.negated
                dangling := false }
              rest

/-- Whether the text can name a group: a letter or underscore, then letters, numbers and the
signs `_`, `.`, `[` and `]`. -/
def isGroupName : Text → Bool
  | [] => false
  | first :: rest =>
      (first == '_' || Unicode.isLetter first) &&
        rest.all (fun character =>
          Unicode.isAlphanumeric character || character ∈ ['_', '.', '[', ']'])

def readGroupName (text : Text) : Except Fault (Lexeme × Text) :=
  match text.dropWhile (· != '>') with
  | [] => .error .badGroupName
  | _ :: rest =>
      let name := text.takeWhile (· != '>')
      if isGroupName name then .ok (.opening (.capture (some name)), rest)
      else .error .badGroupName

/-- Reads the modes after the question mark of a group. Parentheses around no modes at all are a
question mark with nothing before it. -/
def readModeGroup (text : Text) : Except Fault (Lexeme × Text) :=
  match readModes ⟨[], false, false⟩ text with
  | .ok (change, true, rest) => .ok (.opening (.plain change), rest)
  | .ok ([], false, _) => .error .nothingToRepeat
  | .ok (change, false, rest) => .ok (.part (.modes change), rest)
  | .error fault => .error fault

def readOpening : Text → Except Fault (Lexeme × Text)
  | '?' :: '=' :: _ => .error .lookAround
  | '?' :: '!' :: _ => .error .lookAround
  | '?' :: '<' :: '=' :: _ => .error .lookAround
  | '?' :: '<' :: '!' :: _ => .error .lookAround
  | '?' :: 'P' :: '<' :: rest => readGroupName rest
  | '?' :: '<' :: rest => readGroupName rest
  | '?' :: rest => readModeGroup rest
  | start => .ok (.opening (.capture none), start)

def readGroup (text : Text) (verbose : Bool := false) : Except Fault (Lexeme × Text) :=
  readOpening (resume verbose text)

/-! ### What is left to read -/

section

variable {text rest : Text} {lexeme : Lexeme}

theorem suffix_of_readModes {reading : ModeReading} {change : ModeChange} {opens : Bool}
    (read : readModes reading text = .ok (change, opens, rest)) : rest <:+ text := by
  fun_induction readModes reading text with
  | case1 => cases read
  | case2 => cases read
  | case3 =>
      cases read
      exact List.suffix_cons _ _
  | case4 => cases read
  | case5 =>
      cases read
      exact List.suffix_cons _ _
  | case6 => cases read
  | case7 _ _ _ inductionHypothesis =>
      exact (inductionHypothesis read).trans (List.suffix_cons _ _)
  | case8 => cases read
  | case9 => cases read
  | case10 _ _ _ _ _ _ _ _ _ inductionHypothesis =>
      exact (inductionHypothesis read).trans (List.suffix_cons _ _)

theorem suffix_of_readGroupName (read : readGroupName text = .ok (lexeme, rest)) :
    rest <:+ text := by
  unfold readGroupName at read
  have dropped := List.dropWhile_suffix (l := text) (· != '>')
  split at read
  · cases read
  · next same =>
      rw [same] at dropped
      dsimp only at read
      split at read
      · cases read
        exact (List.suffix_cons _ _).trans dropped
      · cases read

theorem suffix_of_readModeGroup (read : readModeGroup text = .ok (lexeme, rest)) :
    rest <:+ text := by
  unfold readModeGroup at read
  split at read
  · next modes =>
      cases read
      exact suffix_of_readModes modes
  · cases read
  · next modes =>
      cases read
      exact suffix_of_readModes modes
  · cases read

theorem suffix_of_readOpening (read : readOpening text = .ok (lexeme, rest)) : rest <:+ text := by
  unfold readOpening at read
  split at read
  · cases read
  · cases read
  · cases read
  · cases read
  · exact (suffix_of_readGroupName read).trans (List.suffix_append ['?', 'P', '<'] _)
  · exact (suffix_of_readGroupName read).trans (List.suffix_append ['?', '<'] _)
  · exact (suffix_of_readModeGroup read).trans (List.suffix_cons _ _)
  · cases read
    exact List.suffix_refl _

theorem suffix_of_readGroup {verbose : Bool}
    (read : readGroup text verbose = .ok (lexeme, rest)) : rest <:+ text :=
  (suffix_of_readOpening read).trans (resume_suffix verbose text)

end

end Lexeme
end ReadableRegex

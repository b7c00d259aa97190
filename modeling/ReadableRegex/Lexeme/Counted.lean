import ReadableRegex.Lexeme.Escape

/-!
Reading quantifiers: the sign or the bounds in braces, and the mark that makes it lazy.
-/

namespace ReadableRegex.Lexeme

/-- Reads a count between blanks. It fits 32 bits. -/
def readCount (text : Text) (verbose : Bool := false) : Except Fault (Nat × Text) :=
  let (digits, rest) :=
    collect verbose Char.isDigit ((resume verbose text).dropWhile Unicode.isBlank)
  match Text.number? 10 digits with
  | none => .error .badCount
  | some count =>
      if count < UInt32.size then .ok (count, rest.dropWhile Unicode.isBlank)
      else .error .hugeCount

/-- Reads the mark of a lazy quantifier, if it is there. Behind braces a gap may stand before it. -/
def readGreed (text : Text) (verbose : Bool := false) : Bool × Text :=
  match resume verbose text with
  | '?' :: rest => (false, rest)
  | _ => (true, text)

def finishCounts (lower : Nat) (upper : Option Nat) (text : Text) (verbose : Bool := false) :
    Counts × Text :=
  let (greedy, rest) := readGreed text verbose
  (⟨lower, upper, greedy⟩, rest)

def readUpper (lower : Nat) (text : Text) (verbose : Bool := false) :
    Except Fault (Counts × Text) :=
  match readCount text verbose with
  | .ok (upper, '\x7d' :: rest) =>
      if lower ≤ upper then .ok (finishCounts lower (some upper) rest verbose)
      else .error .invertedCounts
  | .ok _ => .error .badCount
  | .error fault => .error fault

def readCounts (text : Text) (verbose : Bool := false) : Except Fault (Counts × Text) :=
  match readCount text verbose with
  | .ok (count, '\x7d' :: rest) => .ok (finishCounts count (some count) rest verbose)
  | .ok (lower, ',' :: rest) =>
      match resume verbose rest with
      | '\x7d' :: rest => .ok (finishCounts lower none rest verbose)
      | start => readUpper lower start verbose
  | .ok _ => .error .badCount
  | .error fault => .error fault

/-! ### What is left to read -/

section

variable {verbose : Bool} {text rest : Text}

theorem suffix_of_readCount {count : Nat} (read : readCount text verbose = .ok (count, rest)) :
    rest <:+ text := by
  simp only [readCount] at read
  split at read
  · cases read
  · split at read
    · cases read
      exact ((List.dropWhile_suffix _).trans (collect_suffix _ _ _)).trans
        ((List.dropWhile_suffix _).trans (resume_suffix _ _))
    · cases read

theorem readGreed_suffix (text : Text) (verbose : Bool) : (readGreed text verbose).2 <:+ text := by
  unfold readGreed
  split
  · next goesOn => exact suffix_of_resume goesOn
  · exact List.suffix_refl _

theorem suffix_of_finishCounts {lower : Nat} {upper : Option Nat} {counts : Counts}
    (finished : finishCounts lower upper text verbose = (counts, rest)) : rest <:+ text := by
  cases finished
  exact readGreed_suffix text verbose

theorem suffix_of_readUpper {lower : Nat} {counts : Counts}
    (read : readUpper lower text verbose = .ok (counts, rest)) : rest <:+ text := by
  unfold readUpper at read
  split at read
  · next counted =>
      split at read
      · injection read with finished
        exact ((suffix_of_finishCounts finished).trans (List.suffix_cons _ _)).trans
          (suffix_of_readCount counted)
      · cases read
  · cases read
  · cases read

theorem suffix_of_readCounts {counts : Counts}
    (read : readCounts text verbose = .ok (counts, rest)) : rest <:+ text := by
  unfold readCounts at read
  split at read
  · next counted =>
      injection read with finished
      exact ((suffix_of_finishCounts finished).trans (List.suffix_cons _ _)).trans
        (suffix_of_readCount counted)
  · next behind counted =>
      have first := (List.suffix_cons ',' behind).trans (suffix_of_readCount counted)
      split at read
      · next goesOn =>
          injection read with finished
          exact ((suffix_of_finishCounts finished).trans (suffix_of_resume goesOn)).trans first
      · exact ((suffix_of_readUpper read).trans (resume_suffix verbose behind)).trans first
  · cases read
  · cases read

end

end ReadableRegex.Lexeme

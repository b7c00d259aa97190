import ReadableRegex.Text.Numeral

/-!
The five flags of an expression and the letters that write them.
-/

namespace ReadableRegex

inductive Flag where
  | global
  | ignoreCase
  /-- Let the anchors stand at the ends of every line. -/
  | multiline
  /-- Let the dot stand for line ends too. -/
  | dotAll
  /-- Accept only matches that begin where the previous one ended. -/
  | sticky
deriving DecidableEq, Repr

inductive FlagError where
  | unknown (letter : Char)
  | notOneLetter (length : Nat)
deriving DecidableEq, Repr

def FlagError.message : FlagError → String
  | .unknown letter =>
      "unknown modifier '" ++ String.singleton letter ++ "' (expected one of g, i, m, s, y)"
  | .notOneLetter length =>
      "modifier must be a single character (got " ++ String.ofList (Text.decimal length) ++
        " characters)"

namespace Flag

/-- All flags, in the order in which they are written. -/
def all : List Flag :=
  [.global, .ignoreCase, .multiline, .dotAll, .sticky]

def index : Flag → Nat
  | .global => 0
  | .ignoreCase => 1
  | .multiline => 2
  | .dotAll => 3
  | .sticky => 4

def letter : Flag → Char
  | .global => 'g'
  | .ignoreCase => 'i'
  | .multiline => 'm'
  | .dotAll => 's'
  | .sticky => 'y'

def ofLetter (letter : Char) : Except FlagError Flag :=
  match letter with
  | 'g' => .ok .global
  | 'i' => .ok .ignoreCase
  | 'm' => .ok .multiline
  | 's' => .ok .dotAll
  | 'y' => .ok .sticky
  | unknown => .error (.unknown unknown)

theorem ofLetter_letter (flag : Flag) : ofLetter flag.letter = .ok flag := by
  cases flag <;> rfl

theorem ofLetter_of_not_mem {letter : Char} (unknown : letter ∉ all.map Flag.letter) :
    ofLetter letter = .error (.unknown letter) := by
  simp only [all, Flag.letter, List.map_cons, List.map_nil, List.mem_cons, List.not_mem_nil,
    or_false, not_or] at unknown
  simp [ofLetter, unknown]

def ofText : Text → Except FlagError Flag
  | [letter] => ofLetter letter
  | text => .error (.notOneLetter text.length)

end Flag
end ReadableRegex

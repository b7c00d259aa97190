import ReadableRegex.Lexeme.Reading

/-!
Reading in the middle of a pattern. All that has been read before matters only by the modes it has
left behind, and these only by the groups that are still open: where verbose mode is on nowhere, a
text is read as at the start of a pattern.
-/

namespace ReadableRegex.Lexeme

variable {state other : Verbosity} {head : Char} {tail text rest : Text} {lexeme : Lexeme}

theorem readFrom_of_resume_nil (ends : resume state.here text = []) :
    readFrom state text = .ok [] := by
  rw [readFrom]
  split
  · rfl
  · next goesOn =>
      rw [ends] at goesOn
      cases goesOn

theorem readFrom_of_read (goesOn : resume state.here text = head :: tail)
    (first : read head tail state.here = .ok (lexeme, rest)) :
    readFrom state text = (readFrom (state.after lexeme) rest).map (lexeme :: ·) := by
  rw [readFrom]
  split
  · next ends =>
      rw [ends] at goesOn
      cases goesOn
  · next same =>
      rw [goesOn] at same
      cases same
      split
      · next again =>
          rw [first] at again
          cases again
          cases readFrom (state.after lexeme) rest <;> rfl
      · next failed =>
          rw [first] at failed
          cases failed

theorem readFrom_of_read_error {fault : Fault} (goesOn : resume state.here text = head :: tail)
    (first : read head tail state.here = .error fault) : readFrom state text = .error fault := by
  rw [readFrom]
  split
  · next ends =>
      rw [ends] at goesOn
      cases goesOn
  · next same =>
      rw [goesOn] at same
      cases same
      split
      · next again =>
          rw [first] at again
          cases again
      · next failed =>
          rw [first] at failed
          cases failed
          rfl

theorem exists_of_readFrom {lexemes : List Lexeme} (goesOn : resume state.here text = head :: tail)
    (reading : readFrom state text = .ok lexemes) :
    ∃ lexeme rest others, read head tail state.here = .ok (lexeme, rest) ∧
      readFrom (state.after lexeme) rest = .ok others ∧ lexemes = lexeme :: others := by
  cases first : read head tail state.here with
  | error fault =>
      rw [readFrom_of_read_error goesOn first] at reading
      cases reading
  | ok result =>
      rw [readFrom_of_read goesOn first] at reading
      cases later : readFrom (state.after result.1) result.2 with
      | error fault =>
          rw [later] at reading
          cases reading
      | ok others =>
          rw [later] at reading
          cases reading
          exact ⟨result.1, result.2, others, rfl, later, rfl⟩

/-! ### States that read alike -/

namespace Verbosity

/-- Verbose mode is on in the same places. Groups around which it is off may be left out. -/
def Agrees (state other : Verbosity) : Prop :=
  state.here = other.here ∧ ∀ level, state.outer.getD level false = other.outer.getD level false

theorem agrees_refl (state : Verbosity) : state.Agrees state :=
  ⟨rfl, fun _ => rfl⟩

theorem Agrees.trans {last : Verbosity} (first : state.Agrees other) (second : other.Agrees last) :
    state.Agrees last :=
  ⟨first.1.trans second.1, fun level => (first.2 level).trans (second.2 level)⟩

theorem agrees_open {outer others : List Bool}
    (around : ∀ level, outer.getD level false = others.getD level false) (here inside : Bool) :
    Agrees ⟨inside, here :: outer⟩ ⟨inside, here :: others⟩ := by
  constructor
  · rfl
  · intro level
    cases level with
    | zero => rfl
    | succ level => exact around level

theorem Agrees.after (agrees : state.Agrees other) (lexeme : Lexeme) :
    (state.after lexeme).Agrees (other.after lexeme) := by
  obtain ⟨here, outer⟩ := state
  obtain ⟨otherHere, otherOuter⟩ := other
  obtain ⟨same, around⟩ := agrees
  dsimp only at same around
  subst same
  cases lexeme with
  | opening opening =>
      cases opening with
      | capture name => exact agrees_open around here here
      | plain change => exact agrees_open around here (switch here change)
  | part part =>
      cases part with
      | modes change => exact ⟨rfl, around⟩
      | _ => exact ⟨rfl, around⟩
  | closing =>
      constructor
      · have first := around 0
        cases outer <;> cases otherOuter <;> exact first
      · intro level
        have later := around (level + 1)
        cases outer <;> cases otherOuter <;> exact later
  | bar => exact ⟨rfl, around⟩
  | quantifier counts => exact ⟨rfl, around⟩

end Verbosity

theorem readFrom_congr (agrees : state.Agrees other) (text : Text) :
    readFrom state text = readFrom other text := by
  fun_induction readFrom state text generalizing other with
  | case1 state text ends =>
      rw [agrees.1] at ends
      exact (readFrom_of_resume_nil ends).symm
  | case2 state text head tail goesOn lexeme rest first lexemes later inductionHypothesis =>
      rw [agrees.1] at goesOn first
      rw [readFrom_of_read goesOn first, ← inductionHypothesis (agrees.after lexeme), later]
      rfl
  | case3 state text head tail goesOn lexeme rest first fault later inductionHypothesis =>
      rw [agrees.1] at goesOn first
      rw [readFrom_of_read goesOn first, ← inductionHypothesis (agrees.after lexeme), later]
      rfl
  | case4 state text head tail goesOn fault first =>
      rw [agrees.1] at goesOn first
      exact (readFrom_of_read_error goesOn first).symm

/-! ### Reading without verbose mode -/

def wakes : Lexeme → Bool
  | .opening (.plain change) => Verbosity.switch false change
  | .part (.modes change) => Verbosity.switch false change
  | _ => false

theorem agrees_after_quiet (calm : lexeme.wakes = false) :
    (Verbosity.quiet.after lexeme).Agrees .quiet := by
  have shut : Verbosity.Agrees ⟨false, [false]⟩ .quiet := by
    constructor
    · rfl
    · intro level
      cases level <;> rfl
  cases lexeme with
  | opening opening =>
      cases opening with
      | capture name => exact shut
      | plain change =>
          rw [wakes] at calm
          rw [Verbosity.after, Verbosity.quiet, calm]
          exact shut
  | part part =>
      cases part with
      | modes change =>
          rw [wakes] at calm
          rw [Verbosity.after, Verbosity.quiet, calm]
          exact Verbosity.agrees_refl _
      | _ => exact Verbosity.agrees_refl _
  | _ => exact Verbosity.agrees_refl _

theorem wakes_part {part : Pattern} (other : ∀ change, part ≠ .modes change) :
    (Lexeme.part part).wakes = false := by
  cases part with
  | modes change => exact absurd rfl (other change)
  | _ => rfl

theorem readFrom_nil (state : Verbosity) : readFrom state [] = .ok [] := by
  apply readFrom_of_resume_nil
  cases state.here <;> rfl

theorem readAll_nil : readAll [] = .ok [] :=
  readFrom_nil .quiet

theorem readAll_of_read (first : read head tail = .ok (lexeme, rest))
    (calm : lexeme.wakes = false := by rfl) :
    readAll (head :: tail) = (readAll rest).map (lexeme :: ·) := by
  have goesOn : resume Verbosity.quiet.here (head :: tail) = head :: tail := rfl
  unfold readAll
  rw [readFrom_of_read goesOn first, readFrom_congr (agrees_after_quiet calm)]

theorem readAll_of_read_error {fault : Fault} (first : read head tail = .error fault) :
    readAll (head :: tail) = .error fault := by
  have goesOn : resume Verbosity.quiet.here (head :: tail) = head :: tail := rfl
  exact readFrom_of_read_error goesOn first

/-! ### States after rows -/

namespace Verbosity

def afterAll (state : Verbosity) (lexemes : List Lexeme) : Verbosity :=
  lexemes.foldl after state

theorem afterAll_append (state : Verbosity) (left right : List Lexeme) :
    state.afterAll (left ++ right) = (state.afterAll left).afterAll right :=
  List.foldl_append

/-- Lexemes that switch verbose mode on nowhere leave it off. -/
theorem agrees_afterAll_quiet {lexemes : List Lexeme}
    (calm : ∀ lexeme ∈ lexemes, lexeme.wakes = false) (agrees : state.Agrees .quiet) :
    (state.afterAll lexemes).Agrees .quiet := by
  induction lexemes generalizing state with
  | nil => exact agrees
  | cons lexeme others inductionHypothesis =>
      obtain ⟨first, later⟩ := List.forall_mem_cons.mp calm
      have next := (agrees.after lexeme).trans (agrees_after_quiet first)
      exact inductionHypothesis later next

end Verbosity
end ReadableRegex.Lexeme

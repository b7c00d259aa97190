import ReadableRegex.Proofs.Raw.Context
import ReadableRegex.Proofs.Raw.Extending

/-!
Patterns in the midst of other text. A text that closes all the groups it opens never looks at the
modes around the groups that are open where it stands. So it is read there as it is on its own, as
long as verbose mode is off before it, and off again behind it.
-/

namespace ReadableRegex

open Pattern (Assembly)

namespace Lexeme

def Verbosity.within (around : List Bool) (state : Verbosity) : Verbosity :=
  ⟨state.here, state.outer ++ around⟩

section

variable {state : Verbosity} {assembly next : Assembly} {text : Text} {lexemes : List Lexeme}

/-- A lexeme that closes none of the groups around has nothing to do with them. -/
theorem after_within {lexeme : Lexeme} (taken : assembly.take lexeme = .ok next)
    (deep : assembly.outer.length = state.outer.length) (around : List Bool) :
    (state.within around).after lexeme = (state.after lexeme).within around ∧
      next.outer.length = (state.after lexeme).outer.length := by
  have levels := Assembly.outer_length_of_take taken
  obtain ⟨here, outer⟩ := state
  cases lexeme with
  | opening opening =>
      cases opening with
      | capture name => exact ⟨rfl, levels.trans (congrArg Nat.succ deep)⟩
      | plain change => exact ⟨rfl, levels.trans (congrArg Nat.succ deep)⟩
  | part part =>
      cases part with
      | modes change => exact ⟨rfl, levels.trans deep⟩
      | _ => exact ⟨rfl, levels.trans deep⟩
  | closing =>
      cases outer with
      | nil =>
          have none : next.outer.length + 1 = 0 := levels.trans deep
          cases none
      | cons first others => exact ⟨rfl, Nat.succ.inj (levels.trans deep)⟩
  | bar => exact ⟨rfl, levels.trans deep⟩
  | quantifier counts => exact ⟨rfl, levels.trans deep⟩

theorem afterAll_within (taken : assembly.takeAll lexemes = .ok next)
    (deep : assembly.outer.length = state.outer.length) (around : List Bool) :
    (state.within around).afterAll lexemes = (state.afterAll lexemes).within around ∧
      next.outer.length = (state.afterAll lexemes).outer.length := by
  induction lexemes generalizing assembly state with
  | nil =>
      cases taken
      exact ⟨rfl, deep⟩
  | cons lexeme rest inductionHypothesis =>
      obtain ⟨between, step, later⟩ := Assembly.exists_of_takeAll_cons taken
      obtain ⟨same, deeper⟩ := after_within step deep around
      have further := inductionHypothesis later deeper
      rw [← same] at further
      exact further

theorem readFrom_within (reading : readFrom state text = .ok lexemes)
    (taken : assembly.takeAll lexemes = .ok next)
    (deep : assembly.outer.length = state.outer.length) (around : List Bool) :
    readFrom (state.within around) text = .ok lexemes := by
  fun_induction readFrom state text generalizing assembly lexemes with
  | case1 state text ends =>
      cases reading
      exact readFrom_of_resume_nil ends
  | case2 state text head tail goesOn lexeme rest first others later inductionHypothesis =>
      cases reading
      obtain ⟨between, step, remaining⟩ := Assembly.exists_of_takeAll_cons taken
      obtain ⟨same, deeper⟩ := after_within step deep around
      have begins : resume (state.within around).here text = head :: tail := goesOn
      rw [readFrom_of_read begins first, same, inductionHypothesis later remaining deeper]
      rfl
  | case3 => cases reading
  | case4 => cases reading

end

/-- The text is read as the lexemes, which close the groups that they open, and leaves verbose mode
off. -/
structure Alone (text : Text) (lexemes : List Lexeme) : Prop where
  reading : readAll text = .ok lexemes
  closed : ∃ last, Assembly.blank.takeAll lexemes = .ok last ∧ last.outer = []
  off : (Verbosity.quiet.afterAll lexemes).here = false

namespace Alone

variable {text more : Text} {lexemes : List Lexeme}

theorem afterAll_eq (alone : Alone text lexemes) {state : Verbosity} (off : state.here = false) :
    state.afterAll lexemes = state := by
  obtain ⟨here, around⟩ := state
  cases off
  obtain ⟨last, taken, closed⟩ := alone.closed
  obtain ⟨same, levels⟩ := afterAll_within taken (rfl : _ = Verbosity.quiet.outer.length) around
  have none : (Verbosity.quiet.afterAll lexemes).outer = [] := by
    rw [closed] at levels
    exact List.length_eq_zero_iff.mp levels.symm
  have start : Verbosity.within around .quiet = ⟨false, around⟩ := rfl
  rw [start, Verbosity.within, alone.off, none] at same
  exact same

theorem readFrom_append (alone : Alone text lexemes) {state : Verbosity}
    (off : state.here = false) (separate : Separate more) :
    readFrom state (text ++ more) = (readFrom state more).map (lexemes ++ ·) := by
  obtain ⟨last, taken, -⟩ := alone.closed
  have same := alone.afterAll_eq off
  have reading : readFrom state text = .ok lexemes := by
    obtain ⟨here, around⟩ := state
    cases off
    exact readFrom_within alone.reading taken rfl around
  have longer := Lexeme.readFrom_append reading (by rwa [same]) separate
  rwa [same] at longer

theorem readAll_append (alone : Alone text lexemes) (separate : Separate more) :
    readAll (text ++ more) = (readAll more).map (lexemes ++ ·) :=
  alone.readFrom_append rfl separate

end Alone
end Lexeme
end ReadableRegex

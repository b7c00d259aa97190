import ReadableRegex.Pattern.Assembly
import ReadableRegex.Proofs.Trees.Outline

/-!
Rows of lexemes that add certain parts to any assembly. They close every group they open and touch
nothing that was there before; captures they open are numbered from `first`.
-/

namespace ReadableRegex

open Pattern (Assembly Frame ofParts ofAlternatives)

namespace Pattern.Assembly

theorem takeAll_cons_of_ok {assembly next : Assembly} {lexeme : Lexeme} (rest : List Lexeme)
    (taken : assembly.take lexeme = .ok next) :
    assembly.takeAll (lexeme :: rest) = next.takeAll rest := by
  unfold takeAll
  rw [List.foldlM_cons, taken]
  rfl

theorem takeAll_append_of_ok {assembly next : Assembly} {left : List Lexeme}
    (right : List Lexeme) (taken : assembly.takeAll left = .ok next) :
    assembly.takeAll (left ++ right) = next.takeAll right := by
  unfold takeAll at *
  rw [List.foldlM_append, taken]
  rfl

end Pattern.Assembly

open Pattern.Assembly

def Pattern.Assembly.extend (assembly : Assembly) (parts : List Pattern) (captures : Nat) :
    Assembly :=
  { assembly with
    frame := { assembly.frame with parts := parts.reverse ++ assembly.frame.parts }
    captures := captures }

/-- The lexemes write the parts, whatever was written before. -/
def Builds (lexemes : List Lexeme) (parts : List Pattern) (first last : Nat) : Prop :=
  ∀ assembly : Assembly, assembly.captures = first →
    assembly.takeAll lexemes = .ok (assembly.extend parts last)

/-- The lexemes write whole alternatives, each with the bar behind it. -/
def BuildsAlternatives (lexemes : List Lexeme) (alternatives : List Pattern) (first last : Nat) :
    Prop :=
  ∀ assembly : Assembly, assembly.captures = first → assembly.frame.parts = [] →
    assembly.takeAll lexemes = .ok { assembly with
      frame := ⟨alternatives.reverse ++ assembly.frame.alternatives, []⟩
      captures := last }

section

variable {lexemes more : List Lexeme} {parts others alternatives : List Pattern}
  {part : Pattern} {first middle last : Nat}

theorem builds_nil : Builds [] [] first first := by
  intro assembly counted
  subst counted
  rfl

theorem builds_part (part : Pattern) (first : Nat) : Builds [.part part] [part] first first := by
  intro assembly counted
  subst counted
  rfl

theorem Builds.append (left : Builds lexemes parts first middle)
    (right : Builds more others middle last) :
    Builds (lexemes ++ more) (parts ++ others) first last := by
  intro assembly counted
  rw [takeAll_append_of_ok more (left assembly counted), right _ rfl]
  simp [extend, List.reverse_append, List.append_assoc]

theorem Builds.quantify (single : Builds lexemes [part] first last)
    (repeatable : ∀ change, part ≠ .modes change) (counts : Counts) :
    Builds (lexemes ++ [.quantifier counts]) [.repetition counts part] first last := by
  intro assembly counted
  rw [takeAll_append_of_ok _ (single assembly counted)]
  refine takeAll_cons_of_ok [] ?_
  have repeated : (assembly.extend [part] last).frame.repeatLast counts =
      .ok (assembly.extend [.repetition counts part] last).frame := by
    cases part with
    | modes change => exact absurd rfl (repeatable change)
    | _ => rfl
  simp only [take, repeated]
  rfl

theorem buildsAlternatives_nil : BuildsAlternatives [] [] first first := by
  intro assembly counted blank
  subst counted
  obtain ⟨⟨finished, current⟩, outer, captures, names⟩ := assembly
  cases blank
  rfl

theorem BuildsAlternatives.append (finished : BuildsAlternatives lexemes alternatives first middle)
    (branch : Builds more parts middle last) :
    BuildsAlternatives (lexemes ++ (more ++ [.bar])) (alternatives ++ [ofParts parts])
      first last := by
  intro assembly counted blank
  rw [takeAll_append_of_ok _ (finished assembly counted blank),
    takeAll_append_of_ok _ (branch _ rfl)]
  refine takeAll_cons_of_ok [] ?_
  simp [take, withFrame, Frame.alternate, Frame.current, extend]

theorem pattern_frame (alternatives parts : List Pattern) :
    (Frame.mk alternatives.reverse parts.reverse).pattern =
      ofAlternatives (alternatives ++ [ofParts parts]) := by
  simp [Frame.pattern, Frame.current]

theorem BuildsAlternatives.group (finished : BuildsAlternatives lexemes alternatives first middle)
    (branch : Builds more parts middle last) (change : ModeChange) :
    Builds (.opening (.plain change) :: (lexemes ++ (more ++ [.closing])))
      [.group (.plain change) (ofAlternatives (alternatives ++ [ofParts parts]))] first last := by
  intro assembly counted
  have opened : assembly.take (.opening (.plain change)) = .ok (assembly.openPlain change) := rfl
  rw [takeAll_cons_of_ok _ opened,
    takeAll_append_of_ok _ (finished (assembly.openPlain change) counted rfl),
    takeAll_append_of_ok _ (branch _ rfl)]
  refine takeAll_cons_of_ok [] ?_
  simp only [take, closeGroup, openPlain, extend, Frame.blank, List.append_nil, pattern_frame]
  rfl

theorem Builds.capture (inside : Builds lexemes parts (first + 1) last) :
    Builds (.opening (.capture none) :: (lexemes ++ [.closing]))
      [.group (.capture (first + 1) none) (ofParts parts)] first last := by
  intro assembly counted
  subst counted
  have opened : assembly.take (.opening (.capture none)) = .ok (assembly.openCapture none) := rfl
  rw [takeAll_cons_of_ok _ opened, takeAll_append_of_ok _ (inside _ rfl)]
  refine takeAll_cons_of_ok [] ?_
  have pattern := pattern_frame [] parts
  simp only [take, closeGroup, openCapture, extend, Frame.blank, List.append_nil]
  rw [List.reverse_nil, List.nil_append] at pattern
  rw [pattern]
  rfl

end

theorem Builds.ofLexemes {lexemes : List Lexeme} {parts : List Pattern} {last : Nat}
    (builds : Builds lexemes parts 0 last) : Pattern.ofLexemes lexemes = .ok (ofParts parts) := by
  unfold Pattern.ofLexemes
  rw [builds _ rfl]
  have pattern := pattern_frame [] parts
  simp only [finish, extend, blank, Frame.blank, List.append_nil]
  exact congrArg Except.ok pattern

/-! ### Balance -/

namespace Lexeme

def opens : Lexeme → Bool
  | .opening _ => true
  | _ => false

def closes : Lexeme → Bool
  | .closing => true
  | _ => false

end Lexeme

theorem Pattern.Assembly.outer_length_of_take {assembly next : Assembly} {lexeme : Lexeme}
    (taken : assembly.take lexeme = .ok next) :
    next.outer.length + (if lexeme.closes then 1 else 0) =
      assembly.outer.length + (if lexeme.opens then 1 else 0) := by
  cases lexeme with
  | part part =>
      cases taken
      rfl
  | bar =>
      cases taken
      rfl
  | quantifier counts =>
      simp only [take] at taken
      split at taken
      · cases taken
        rfl
      · cases taken
  | closing =>
      simp only [take, closeGroup] at taken
      split at taken
      · cases taken
      · rename_i same
        cases taken
        rw [same]
        rfl
  | opening opening =>
      cases opening with
      | plain change =>
          cases taken
          rfl
      | capture name =>
          cases name with
          | none =>
              cases taken
              rfl
          | some name =>
              simp only [take, openGroup] at taken
              split at taken
              · cases taken
              · cases taken
                rfl

theorem Pattern.Assembly.outer_length_of_takeAll {assembly next : Assembly}
    {lexemes : List Lexeme} (taken : assembly.takeAll lexemes = .ok next) :
    next.outer.length + lexemes.countP Lexeme.closes =
      assembly.outer.length + lexemes.countP Lexeme.opens := by
  induction lexemes generalizing assembly with
  | nil =>
      cases taken
      rfl
  | cons lexeme rest inductionHypothesis =>
      cases step : assembly.take lexeme with
      | error fault =>
          unfold takeAll at taken
          rw [List.foldlM_cons, step] at taken
          cases taken
      | ok between =>
          rw [takeAll_cons_of_ok rest step] at taken
          have here := outer_length_of_take step
          have later := inductionHypothesis taken
          rw [List.countP_cons, List.countP_cons]
          omega

theorem Builds.balanced {lexemes : List Lexeme} {parts : List Pattern} {first last : Nat}
    (builds : Builds lexemes parts first last) :
    lexemes.countP Lexeme.closes = lexemes.countP Lexeme.opens := by
  have taken := outer_length_of_takeAll
    (builds { Pattern.Assembly.blank with captures := first } rfl)
  simpa [extend, Pattern.Assembly.blank] using taken

theorem BuildsAlternatives.balanced {lexemes : List Lexeme} {alternatives : List Pattern}
    {first last : Nat} (builds : BuildsAlternatives lexemes alternatives first last) :
    lexemes.countP Lexeme.closes = lexemes.countP Lexeme.opens := by
  have taken := outer_length_of_takeAll
    (builds { Pattern.Assembly.blank with captures := first } rfl rfl)
  simpa [Pattern.Assembly.blank] using taken

/-- A pattern closes all the groups that it opens. -/
theorem Pattern.balanced_of_ofLexemes {lexemes : List Lexeme} {pattern : Pattern}
    (parsed : Pattern.ofLexemes lexemes = .ok pattern) :
    lexemes.countP Lexeme.closes = lexemes.countP Lexeme.opens := by
  unfold Pattern.ofLexemes at parsed
  split at parsed
  · rename_i assembly taken
    have outer := outer_length_of_takeAll taken
    unfold finish at parsed
    split at parsed
    · rename_i closed
      simpa [closed, Pattern.Assembly.blank] using outer
    · cases parsed
  · cases parsed

end ReadableRegex

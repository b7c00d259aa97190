import ReadableRegex.Proofs.Trees.Building

/-!
Rows of lexemes in the middle of others. What a row assembles on its own it assembles inside of any
other assembly too, with its captures numbered on from there; and what is assembled around a single
part does not depend on the part.
-/

namespace ReadableRegex

namespace Pattern

/-! ### Patterns with a hole -/

/-- A pattern in which one part is missing. -/
inductive Context where
  | hole
  | repetition (counts : Counts) (inside : Context)
  | group (kind : GroupKind) (inside : Context)
  | sequenceLeft (inside : Context) (right : Pattern)
  | sequenceRight (left : Pattern) (inside : Context)
  | choiceLeft (inside : Context) (right : Pattern)
  | choiceRight (left : Pattern) (inside : Context)

def Context.plug (part : Pattern) : Context → Pattern
  | .hole => part
  | .repetition counts inside => .repetition counts (inside.plug part)
  | .group kind inside => .group kind (inside.plug part)
  | .sequenceLeft inside right => .sequence (inside.plug part) right
  | .sequenceRight left inside => .sequence left (inside.plug part)
  | .choiceLeft inside right => .choice (inside.plug part) right
  | .choiceRight left inside => .choice left (inside.plug part)

def IsContext (fill : Pattern → Pattern) : Prop :=
  ∃ context : Context, ∀ part, fill part = context.plug part

variable {fill : Pattern → Pattern}

theorem isContext_hole : IsContext (fun part => part) :=
  ⟨.hole, fun _ => rfl⟩

theorem IsContext.group (isContext : IsContext fill) (kind : GroupKind) :
    IsContext (fun part => .group kind (fill part)) := by
  obtain ⟨context, same⟩ := isContext
  exact ⟨.group kind context, fun part => congrArg (Pattern.group kind) (same part)⟩

theorem IsContext.ofParts (isContext : IsContext fill) (before after : List Pattern) :
    IsContext (fun part => ofParts (before ++ fill part :: after)) := by
  obtain ⟨context, same⟩ := isContext
  induction before with
  | nil =>
      cases after with
      | nil => exact ⟨context, same⟩
      | cons next others =>
          refine ⟨.sequenceLeft context (Pattern.ofParts (next :: others)), ?_⟩
          intro part
          dsimp only
          rw [List.nil_append, Pattern.ofParts, same, Context.plug]
          exact List.cons_ne_nil _ _
  | cons first rest inductionHypothesis =>
      obtain ⟨further, shape⟩ := inductionHypothesis
      refine ⟨.sequenceRight first further, ?_⟩
      intro part
      dsimp only at shape ⊢
      rw [List.cons_append, Pattern.ofParts, shape, Context.plug]
      exact List.append_ne_nil_of_right_ne_nil _ (List.cons_ne_nil _ _)

theorem IsContext.ofAlternatives (isContext : IsContext fill) (finished : List Pattern) :
    IsContext (fun part => ofAlternatives (finished ++ [fill part])) := by
  obtain ⟨context, same⟩ := isContext
  induction finished with
  | nil => exact ⟨context, same⟩
  | cons first rest inductionHypothesis =>
      obtain ⟨further, shape⟩ := inductionHypothesis
      refine ⟨.choiceRight first further, ?_⟩
      intro part
      dsimp only at shape ⊢
      rw [List.cons_append, Pattern.ofAlternatives, shape, Context.plug]
      exact List.append_ne_nil_of_right_ne_nil _ (List.cons_ne_nil _ _)

theorem IsContext.frame (isContext : IsContext fill) (finished after before : List Pattern) :
    IsContext (fun part => (Frame.mk finished (after ++ fill part :: before)).pattern) := by
  have whole := (isContext.ofParts before.reverse after.reverse).ofAlternatives finished.reverse
  have same (part : Pattern) : (Frame.mk finished (after ++ fill part :: before)).pattern =
      Pattern.ofAlternatives (finished.reverse ++
        [Pattern.ofParts (before.reverse ++ fill part :: after.reverse)]) := by
    simp [Frame.pattern, Frame.current]
  simp only [same]
  exact whole

end Pattern

namespace Lexeme

/-- Whether the lexeme closes a group or is a part of its own. -/
def completes : Lexeme → Bool
  | .closing => true
  | .part _ => true
  | _ => false

def captures : Lexeme → Bool
  | .opening (.capture _) => true
  | _ => false

end Lexeme

namespace Pattern.Assembly

/-- Lexemes that close all groups around a part make up a context of the part. -/
theorem isContext_of_completes {fill : Pattern → Pattern} (isContext : IsContext fill)
    {lexemes : List Lexeme} (completes : ∀ lexeme ∈ lexemes, lexeme.completes = true)
    {outer : List (GroupKind × Frame)} (closed : lexemes.countP Lexeme.closes = outer.length)
    (finished after before : List Pattern) :
    ∃ context : Context, ∀ part captures names, ∃ last : Assembly,
      (Assembly.mk ⟨finished, after ++ fill part :: before⟩ outer captures names).takeAll lexemes =
          .ok last ∧
        last.finish = .ok (context.plug part) := by
  induction lexemes generalizing fill outer finished after before with
  | nil =>
      cases outer with
      | cons group others => cases closed
      | nil =>
          obtain ⟨context, same⟩ := isContext.frame finished after before
          exact ⟨context, fun part _ _ => ⟨_, rfl, congrArg Except.ok (same part)⟩⟩
  | cons lexeme rest inductionHypothesis =>
      have later : ∀ other ∈ rest, other.completes = true :=
        fun other member => completes other (List.mem_cons_of_mem _ member)
      cases lexeme with
      | part added =>
          exact inductionHypothesis isContext later closed finished (added :: after) before
      | closing =>
          rw [List.countP_cons_of_pos rfl] at closed
          cases outer with
          | nil => cases closed
          | cons group others =>
              have inside := (isContext.frame finished after before).group group.1
              exact inductionHypothesis inside later (Nat.succ.inj closed) group.2.alternatives []
                group.2.parts
      | _ => exact absurd (completes _ List.mem_cons_self) Bool.false_ne_true

/-! ### Rows on their own -/

theorem exists_of_takeAll_cons {assembly last : Assembly} {lexeme : Lexeme} {rest : List Lexeme}
    (taken : assembly.takeAll (lexeme :: rest) = .ok last) :
    ∃ next, assembly.take lexeme = .ok next ∧ next.takeAll rest = .ok last := by
  cases step : assembly.take lexeme with
  | ok next => exact ⟨next, rfl, takeAll_cons_of_ok rest step ▸ taken⟩
  | error fault =>
      unfold takeAll at taken
      rw [List.foldlM_cons, step] at taken
      cases taken

theorem exists_of_takeAll_append {assembly last : Assembly} {left right : List Lexeme}
    (taken : assembly.takeAll (left ++ right) = .ok last) :
    ∃ middle, assembly.takeAll left = .ok middle ∧ middle.takeAll right = .ok last := by
  induction left generalizing assembly with
  | nil => exact ⟨assembly, rfl, taken⟩
  | cons lexeme rest inductionHypothesis =>
      obtain ⟨next, step, later⟩ := exists_of_takeAll_cons taken
      obtain ⟨middle, first, second⟩ := inductionHypothesis later
      exact ⟨middle, (takeAll_cons_of_ok rest step).trans first, second⟩

theorem exists_of_ofText {text : Text} {pattern : Pattern} (parsed : ofText text = .ok pattern) :
    ∃ lexemes, Lexeme.readAll text = .ok lexemes ∧ ofLexemes lexemes = .ok pattern := by
  unfold ofText at parsed
  split at parsed
  · next lexemes reading => exact ⟨lexemes, reading, parsed⟩
  · cases parsed

theorem exists_of_ofLexemes {lexemes : List Lexeme} {pattern : Pattern}
    (parsed : ofLexemes lexemes = .ok pattern) :
    ∃ last, blank.takeAll lexemes = .ok last ∧ last.outer = [] ∧ last.frame.pattern = pattern := by
  unfold ofLexemes at parsed
  split at parsed
  · next last taken =>
      unfold finish at parsed
      split at parsed
      · next closed =>
          cases parsed
          exact ⟨last, taken, closed, rfl⟩
      · cases parsed
  · cases parsed

theorem captures_of_take {assembly next : Assembly} {lexeme : Lexeme}
    (taken : assembly.take lexeme = .ok next) :
    next.captures = assembly.captures + (if lexeme.captures then 1 else 0) ∧
      assembly.names ⊆ next.names := by
  cases lexeme with
  | part part =>
      cases taken
      exact ⟨rfl, List.Subset.refl _⟩
  | bar =>
      cases taken
      exact ⟨rfl, List.Subset.refl _⟩
  | quantifier counts =>
      simp only [take] at taken
      split at taken
      · cases taken
        exact ⟨rfl, List.Subset.refl _⟩
      · cases taken
  | closing =>
      simp only [take, closeGroup] at taken
      split at taken
      · cases taken
      · cases taken
        exact ⟨rfl, List.Subset.refl _⟩
  | opening opening =>
      cases opening with
      | plain change =>
          cases taken
          exact ⟨rfl, List.Subset.refl _⟩
      | capture name? =>
          cases name? with
          | none =>
              cases taken
              exact ⟨rfl, List.Subset.refl _⟩
          | some name =>
              simp only [take, openGroup] at taken
              split at taken
              · cases taken
              · cases taken
                exact ⟨rfl, List.subset_append_right _ _⟩

theorem fresh_of_take {assembly next : Assembly} {name : Text}
    (taken : assembly.take (.opening (.capture (some name))) = .ok next) :
    name ∉ assembly.names := by
  simp only [take, openGroup] at taken
  split at taken
  · cases taken
  · next fresh => exact fresh

theorem captures_of_takeAll {assembly next : Assembly} {lexemes : List Lexeme}
    (taken : assembly.takeAll lexemes = .ok next) :
    next.captures = assembly.captures + lexemes.countP Lexeme.captures := by
  induction lexemes generalizing assembly with
  | nil =>
      cases taken
      rfl
  | cons lexeme rest inductionHypothesis =>
      obtain ⟨between, step, later⟩ := exists_of_takeAll_cons taken
      have count := (captures_of_take step).1
      rw [inductionHypothesis later, count, List.countP_cons]
      omega

theorem fresh_of_takeAll {assembly next : Assembly} {lexemes : List Lexeme}
    (taken : assembly.takeAll lexemes = .ok next) {name : Text}
    (member : .opening (.capture (some name)) ∈ lexemes) : name ∉ assembly.names := by
  induction lexemes generalizing assembly with
  | nil => cases member
  | cons lexeme rest inductionHypothesis =>
      obtain ⟨between, step, later⟩ := exists_of_takeAll_cons taken
      rcases List.mem_cons.mp member with same | further
      · subst same
        exact fresh_of_take step
      · intro given
        exact inductionHypothesis later further ((captures_of_take step).2 given)

end Pattern.Assembly

/-! ### Rows inside of others -/

def GroupKind.renumber (shift : Nat) : GroupKind → GroupKind
  | .capture index name => .capture (shift + index) name
  | .plain change => .plain change

namespace Pattern

/-- The pattern with its captures numbered after so many others. -/
def renumber (shift : Nat) : Pattern → Pattern
  | .repetition counts part => .repetition counts (part.renumber shift)
  | .group kind part => .group (kind.renumber shift) (part.renumber shift)
  | .sequence left right => .sequence (left.renumber shift) (right.renumber shift)
  | .choice left right => .choice (left.renumber shift) (right.renumber shift)
  | leaf => leaf

theorem renumber_ofParts (shift : Nat) (parts : List Pattern) :
    (ofParts parts).renumber shift = ofParts (parts.map (renumber shift)) := by
  induction parts with
  | nil => rfl
  | cons part rest inductionHypothesis =>
      cases rest with
      | nil => rfl
      | cons next others => exact congrArg (Pattern.sequence _) inductionHypothesis

theorem renumber_ofAlternatives (shift : Nat) (alternatives : List Pattern) :
    (ofAlternatives alternatives).renumber shift =
      ofAlternatives (alternatives.map (renumber shift)) := by
  induction alternatives with
  | nil => rfl
  | cons alternative rest inductionHypothesis =>
      cases rest with
      | nil => rfl
      | cons next others => exact congrArg (Pattern.choice _) inductionHypothesis

namespace Frame

def renumber (shift : Nat) (frame : Frame) : Frame :=
  ⟨frame.alternatives.map (Pattern.renumber shift), frame.parts.map (Pattern.renumber shift)⟩

theorem current_renumber (shift : Nat) (frame : Frame) :
    (frame.renumber shift).current = frame.current.renumber shift := by
  simp only [current, renumber, renumber_ofParts, List.map_reverse]

theorem pattern_renumber (shift : Nat) (frame : Frame) :
    (frame.renumber shift).pattern = frame.pattern.renumber shift := by
  simp only [pattern, renumber_ofAlternatives, List.map_reverse, List.map_cons,
    ← current_renumber]
  rfl

theorem repeatLast_renumber {shift : Nat} {frame next : Frame} {counts : Counts}
    (repeated : frame.repeatLast counts = .ok next) :
    (frame.renumber shift).repeatLast counts = .ok (next.renumber shift) := by
  obtain ⟨alternatives, parts⟩ := frame
  cases parts with
  | nil => cases repeated
  | cons part earlier =>
      cases part with
      | modes change => cases repeated
      | _ =>
          cases repeated
          rfl

end Frame

namespace Assembly

/-- The assembly where another one has got to: inside of its groups, and behind its captures and
names. -/
def inside (assembly around : Assembly) : Assembly :=
  { frame := assembly.frame.renumber around.captures
    outer := assembly.outer.map (fun group =>
      (group.1.renumber around.captures, group.2.renumber around.captures)) ++ around.outer
    captures := around.captures + assembly.captures
    names := assembly.names ++ around.names }

theorem take_inside {assembly next : Assembly} (around : Assembly) {lexeme : Lexeme}
    (taken : assembly.take lexeme = .ok next)
    (leaf : ∀ part, lexeme = .part part → part.renumber around.captures = part)
    (fresh : ∀ name, lexeme = .opening (.capture (some name)) → name ∉ around.names) :
    (assembly.inside around).take lexeme = .ok (next.inside around) := by
  cases lexeme with
  | part part =>
      cases taken
      have same := leaf part rfl
      simp [take, withFrame, inside, Frame.add, Frame.renumber, same]
  | bar =>
      cases taken
      have current := assembly.frame.current_renumber around.captures
      simp only [take, withFrame, inside, Frame.alternate, current]
      rfl
  | quantifier counts =>
      simp only [take] at taken
      split at taken
      · next frame repeated =>
          cases taken
          have renumbered : (assembly.inside around).frame.repeatLast counts = _ :=
            Frame.repeatLast_renumber repeated
          simp only [take, renumbered]
          rfl
      · cases taken
  | closing =>
      simp only [take, closeGroup] at taken
      split at taken
      · cases taken
      · next kind parent others opened =>
          cases taken
          have pattern := assembly.frame.pattern_renumber around.captures
          simp only [take, closeGroup, inside, opened, List.map_cons, List.cons_append, pattern]
          rfl
  | opening opening =>
      cases opening with
      | plain change =>
          cases taken
          rfl
      | capture name? =>
          cases name? with
          | none =>
              cases taken
              rfl
          | some name =>
              simp only [take, openGroup] at taken
              split at taken
              · cases taken
              · next free =>
                  cases taken
                  have absent : name ∉ (assembly.inside around).names := by
                    intro member
                    rcases List.mem_append.mp member with given | before
                    · exact free given
                    · exact fresh name rfl before
                  simp only [take, openGroup, if_neg absent]
                  rfl

theorem takeAll_inside {assembly next : Assembly} (around : Assembly) {lexemes : List Lexeme}
    (taken : assembly.takeAll lexemes = .ok next)
    (leaves : ∀ part, .part part ∈ lexemes → part.renumber around.captures = part)
    (fresh : ∀ name, .opening (.capture (some name)) ∈ lexemes → name ∉ around.names) :
    (assembly.inside around).takeAll lexemes = .ok (next.inside around) := by
  induction lexemes generalizing assembly with
  | nil =>
      cases taken
      rfl
  | cons lexeme rest inductionHypothesis =>
      obtain ⟨between, step, later⟩ := exists_of_takeAll_cons taken
      have first := take_inside around step
        (fun part same => leaves part (same ▸ List.mem_cons_self))
        (fun name same => fresh name (same ▸ List.mem_cons_self))
      rw [takeAll_cons_of_ok rest first]
      exact inductionHypothesis later
        (fun part member => leaves part (List.mem_cons_of_mem _ member))
        (fun name member => fresh name (List.mem_cons_of_mem _ member))

/-! ### Rows in place of a part -/

variable {assembly : Assembly} {row : List Lexeme} {part : Pattern}

/-- The row adds the part to the assembly and changes neither the parts before it nor the groups
around it. -/
def Adds (assembly : Assembly) (row : List Lexeme) (part : Pattern) : Prop :=
  ∃ captures names, assembly.takeAll row =
    .ok ⟨assembly.frame.add part, assembly.outer, captures, names⟩

theorem adds_part (assembly : Assembly) (part : Pattern) : assembly.Adds [.part part] part :=
  ⟨assembly.captures, assembly.names, rfl⟩

theorem Adds.quantify (adds : assembly.Adds row part)
    (repeatable : ∀ change, part ≠ .modes change) (counts : Counts) :
    assembly.Adds (row ++ [.quantifier counts]) (.repetition counts part) := by
  obtain ⟨captures, names, taken⟩ := adds
  refine ⟨captures, names, ?_⟩
  rw [takeAll_append_of_ok _ taken]
  refine takeAll_cons_of_ok [] ?_
  have repeated : (assembly.frame.add part).repeatLast counts =
      .ok (assembly.frame.add (.repetition counts part)) := by
    cases part with
    | modes change => exact absurd rfl (repeatable change)
    | _ => rfl
  simp only [take, repeated]
  rfl

/-- A row that is a pattern of its own is a single part once it stands in a group. -/
theorem adds_group {last : Assembly} (taken : blank.takeAll row = .ok last)
    (closed : last.outer = [])
    (leaves : ∀ part, .part part ∈ row → part.renumber assembly.captures = part)
    (fresh : ∀ name, .opening (.capture (some name)) ∈ row → name ∉ assembly.names) :
    assembly.Adds (.opening (.plain []) :: (row ++ [.closing]))
      (.group (.plain []) (last.frame.pattern.renumber assembly.captures)) := by
  have opened : assembly.take (.opening (.plain [])) = .ok (assembly.openPlain []) := rfl
  have inside : (assembly.openPlain []).takeAll row =
      .ok (last.inside (assembly.openPlain [])) :=
    takeAll_inside (assembly.openPlain []) taken leaves fresh
  have pattern := last.frame.pattern_renumber assembly.captures
  refine ⟨assembly.captures + last.captures, last.names ++ assembly.names, ?_⟩
  rw [takeAll_cons_of_ok _ opened, takeAll_append_of_ok _ inside]
  refine takeAll_cons_of_ok [] ?_
  simp only [take, closeGroup, Assembly.inside, openPlain, closed, List.map_nil, List.nil_append,
    pattern]

/-- What closes an assembly makes up one context for all parts that can be added to it. -/
theorem exists_context {lexemes : List Lexeme}
    (completes : ∀ lexeme ∈ lexemes, lexeme.completes = true)
    (closed : lexemes.countP Lexeme.closes = assembly.outer.length) :
    ∃ context : Context, ∀ row part, assembly.Adds row part → ∃ last,
      assembly.takeAll (row ++ lexemes) = .ok last ∧ last.finish = .ok (context.plug part) := by
  obtain ⟨context, fills⟩ := isContext_of_completes isContext_hole completes closed
    assembly.frame.alternatives [] assembly.frame.parts
  refine ⟨context, ?_⟩
  rintro row part ⟨captures, names, taken⟩
  obtain ⟨last, later, finished⟩ := fills part captures names
  exact ⟨last, (takeAll_append_of_ok lexemes taken).trans later, finished⟩

end Assembly
end Pattern
end ReadableRegex

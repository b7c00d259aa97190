import ReadableRegex.Proofs.Trees.Building
import ReadableRegex.Proofs.Trees.Repetition

/-!
Texts that write rows of nodes. Such a text is read as lexemes, these build parts, and the parts
are the row in outline. Texts that cannot be read at all are kept beside them, since a text with
one of them inside cannot be read either.
-/

namespace ReadableRegex

open Pattern (ofParts ofAlternatives outline)
open Lexeme (Spells SpellsFirmly Unreadable)

/-- The text is as it should be, or cannot be read. -/
inductive Legible (good : Text → Prop) : Bool → Text → Prop where
  | good {text : Text} (fine : good text) : Legible good true text
  | unreadable {text : Text} (unreadable : Unreadable text) : Legible good false text

theorem Legible.imp {good other : Text → Prop} {sound : Bool} {text : Text}
    (legible : Legible good sound text) (implies : good text → other text) :
    Legible other sound text := by
  cases legible with
  | good fine => exact .good (implies fine)
  | unreadable unreadable => exact .unreadable unreadable

/-! ### Groups -/

section

variable {text : Text}

theorem spellsFirmly_opening : SpellsFirmly ['(', '?', ':'] [.opening (.plain [])] :=
  Lexeme.spellsFirmly_of_read fun _ => rfl

theorem spellsFirmly_closing : SpellsFirmly [')'] [.closing] :=
  Lexeme.spellsFirmly_of_read fun _ => rfl

theorem spellsFirmly_bar : SpellsFirmly ['|'] [.bar] :=
  Lexeme.spellsFirmly_of_read fun _ => rfl

theorem readGroup_of_detached (detached : text.Detached) :
    Lexeme.readGroup text = .ok (.opening (.capture none), text) := by
  unfold Lexeme.readGroup Lexeme.readOpening
  rw [Lexeme.resume_false]
  split <;> first
    | exact absurd rfl detached
    | rfl

theorem spells_openCapture {lexemes : List Lexeme} (inside : Spells text lexemes)
    (detached : text.Detached) : Spells ('(' :: text) (.opening (.capture none) :: lexemes) := by
  intro rest restDetached
  have opened : Lexeme.read '(' (text ++ rest) = .ok (.opening (.capture none), text ++ rest) :=
    readGroup_of_detached (detached.append restDetached)
  rw [List.cons_append, Lexeme.readAll_of_read opened, inside rest restDetached]
  exact Lexeme.map_append_append [.opening (.capture none)] lexemes _

theorem unreadable_openCapture (unreadable : Unreadable text) (detached : text.Detached) :
    Unreadable ('(' :: text) := by
  intro rest
  obtain ⟨fault, failed⟩ := unreadable rest
  have opened : Lexeme.read '(' (text ++ rest) = .ok (.opening (.capture none), text ++ rest) :=
    readGroup_of_detached (detached.append_of_ne unreadable.ne_nil)
  refine ⟨fault, ?_⟩
  rw [List.cons_append, Lexeme.readAll_of_read opened, failed]
  rfl

end

/-! ### Texts that write rows -/

variable [PropertyTable]

/-- The text writes the row. Its captures are numbered from `first`, and `last` are known behind
it. -/
def Writes (modes : Modes) (row : NodeRow) (first last : Nat) (text : Text) : Prop :=
  ∃ lexemes parts, Spells text lexemes ∧ Builds lexemes parts first last ∧
    (∀ part ∈ parts, part.Steady modes) ∧ parts.flatMap (outline modes) = row

/-- The text writes the row as a single part, to which a quantifier may be put. -/
def WritesUnit (modes : Modes) (row : NodeRow) (first last : Nat) (text : Text) : Prop :=
  ∃ lexemes part, SpellsFirmly text lexemes ∧ Builds lexemes [part] first last ∧
    part.Steady modes ∧ part.outline modes = row ∧ ∀ change, part ≠ .modes change

/-- The text writes the rows as alternatives, each with the bar behind it. -/
def WritesAlternatives (modes : Modes) (rows : List NodeRow) (first last : Nat) (text : Text) :
    Prop :=
  ∃ lexemes alternatives, SpellsFirmly text lexemes ∧
    BuildsAlternatives lexemes alternatives first last ∧
    (∀ part ∈ alternatives, part.Steady modes) ∧ alternatives.map (outline modes) = rows

variable {modes : Modes} {row more : NodeRow} {rows : List NodeRow} {first middle last : Nat}
  {text left right : Text} {sound other : Bool}

theorem writes_nil : Writes modes [] first first [] :=
  ⟨[], [], Lexeme.spellsFirmly_nil.spells, builds_nil, by simp, rfl⟩

theorem writesAlternatives_nil : WritesAlternatives modes [] first first [] :=
  ⟨[], [], Lexeme.spellsFirmly_nil, buildsAlternatives_nil, by simp, rfl⟩

theorem WritesUnit.writes (unit : WritesUnit modes row first last text) :
    Writes modes row first last text := by
  obtain ⟨lexemes, part, firm, builds, steady, outline, _⟩ := unit
  refine ⟨lexemes, [part], firm.spells, builds, ?_, ?_⟩
  · intro other member
    rw [List.mem_singleton.mp member]
    exact steady
  · rw [List.flatMap_cons, List.flatMap_nil, List.append_nil]
    exact outline

theorem Writes.append (leftWrites : Writes modes row first middle left)
    (rightWrites : Writes modes more middle last right) (detached : right.Detached) :
    Writes modes (row ++ more) first last (left ++ right) := by
  obtain ⟨lexemes, parts, spells, builds, steady, outline⟩ := leftWrites
  obtain ⟨moreLexemes, moreParts, moreSpells, moreBuilds, moreSteady, moreOutline⟩ := rightWrites
  refine ⟨lexemes ++ moreLexemes, parts ++ moreParts, spells.append moreSpells detached,
    builds.append moreBuilds, ?_, ?_⟩
  · intro part member
    rcases List.mem_append.mp member with inLeft | inRight
    · exact steady part inLeft
    · exact moreSteady part inRight
  · rw [List.flatMap_append, outline, moreOutline]

theorem writesUnit_of_part (part : Pattern) (firm : SpellsFirmly text [.part part])
    (branches : part.branches modes = ([row], modes))
    (meant : ∃ regex, part.alternatives modes = .ok ([regex], modes))
    (repeatable : ∀ change, part ≠ .modes change) : WritesUnit modes row first first text :=
  ⟨_, part, firm, builds_part part first, ⟨⟨row, branches⟩, meant⟩,
    Pattern.outline_of_branches branches, repeatable⟩

theorem WritesUnit.repeated (unit : WritesUnit modes row first last text)
    (usual : modes.Usual) {sign : Text} {lower : Nat} {upper : Option Nat}
    (spells : Spells sign [.quantifier ⟨lower, upper, true⟩]) :
    Writes modes [.repetition ⟨lower, upper, true⟩ row] first last (text ++ sign) := by
  obtain ⟨lexemes, part, firm, builds, steady, outline, repeatable⟩ := unit
  have counts : modes.counts ⟨lower, upper, true⟩ = ⟨lower, upper, true⟩ := by
    simp [Modes.counts, usual.greedy]
  have branches := Pattern.branches_repetition ⟨lower, upper, true⟩ steady
  rw [counts, outline] at branches
  refine ⟨_, _, firm.append_spells spells, builds.quantify repeatable ⟨lower, upper, true⟩, ?_, ?_⟩
  · intro other member
    rw [List.mem_singleton.mp member]
    exact steady.repetition ⟨lower, upper, true⟩
  · rw [List.flatMap_cons, List.flatMap_nil, List.append_nil]
    exact Pattern.outline_of_branches branches

theorem WritesUnit.quantify (unit : WritesUnit modes row first last text)
    (usual : modes.Usual) (quantifier : Quantifier)
    (ordered : quantifier.isOrdered = true) :
    Writes modes [.repetition quantifier.counts row] first last (text ++ quantifier.text) :=
  unit.repeated usual (Lexeme.spells_quantifier ordered)

theorem WritesAlternatives.append (finished : WritesAlternatives modes rows first middle left)
    (branch : Writes modes row middle last right) :
    WritesAlternatives modes (rows ++ [row]) first last (left ++ (right ++ ['|'])) := by
  obtain ⟨lexemes, alternatives, firm, builds, steady, outlines⟩ := finished
  obtain ⟨moreLexemes, parts, spells, moreBuilds, moreSteady, outline⟩ := branch
  have branches := Pattern.branches_ofParts moreSteady
  rw [outline] at branches
  refine ⟨_, _, firm.append (spells.append_firm spellsFirmly_bar (by simp [Text.Detached])
    (by simp)), builds.append moreBuilds, ?_, ?_⟩
  · intro part member
    rcases List.mem_append.mp member with earlier | latest
    · exact steady part earlier
    · rw [List.mem_singleton.mp latest]
      exact .ofParts moreSteady
  · rw [List.map_append, outlines, List.map_cons, List.map_nil,
      Pattern.outline_of_branches branches]

theorem WritesAlternatives.group (finished : WritesAlternatives modes rows first middle left)
    (branch : Writes modes row middle last right) :
    ∃ lexemes alternatives,
      SpellsFirmly (['(', '?', ':'] ++ (left ++ (right ++ [')']))) lexemes ∧
      Builds lexemes [.group (.plain []) (ofAlternatives alternatives)] first last ∧
      (∀ part ∈ alternatives, part.Steady modes) ∧
      alternatives.map (outline modes) = rows ++ [row] ∧
      (Pattern.group (.plain []) (ofAlternatives alternatives)).Steady modes ∧
      (Pattern.group (.plain []) (ofAlternatives alternatives)).outline modes =
        Node.ofBranches (rows ++ [row]) := by
  obtain ⟨lexemes, alternatives, firm, builds, steady, outlines⟩ := finished
  obtain ⟨moreLexemes, parts, spells, moreBuilds, moreSteady, shape⟩ := branch
  have branches := Pattern.branches_ofParts moreSteady
  rw [shape] at branches
  have allSteady : ∀ part ∈ alternatives ++ [ofParts parts], part.Steady modes := by
    intro part member
    rcases List.mem_append.mp member with earlier | latest
    · exact steady part earlier
    · rw [List.mem_singleton.mp latest]
      exact .ofParts moreSteady
  have allOutlines : (alternatives ++ [ofParts parts]).map (outline modes) = rows ++ [row] := by
    rw [List.map_append, outlines, List.map_cons, List.map_nil,
      Pattern.outline_of_branches branches]
  refine ⟨_, _, spellsFirmly_opening.append (firm.append (spells.append_firm spellsFirmly_closing
    (by simp [Text.Detached]) (by simp))), builds.group moreBuilds [], allSteady, allOutlines,
    .group (by simp) allSteady, ?_⟩
  rw [← allOutlines]
  exact Pattern.outline_of_branches
    (Pattern.branches_group (Pattern.branches_ofAlternatives (by simp) allSteady))

theorem WritesAlternatives.unit (finished : WritesAlternatives modes rows first middle left)
    (branch : Writes modes row middle last right) :
    WritesUnit modes (Node.ofBranches (rows ++ [row])) first last
      (['(', '?', ':'] ++ (left ++ (right ++ [')']))) := by
  obtain ⟨lexemes, alternatives, firm, builds, _, _, steady, outline⟩ := finished.group branch
  refine ⟨lexemes, _, firm, builds, steady, outline, ?_⟩
  intro change same
  cases same

theorem Writes.group (writes : Writes modes row first last text) :
    WritesUnit modes row first last (['(', '?', ':'] ++ (text ++ [')'])) :=
  writesAlternatives_nil.unit writes

/-- A text that begins with no question mark may stand in a capture. -/
theorem Writes.capture (inside : Writes modes row (first + 1) last text)
    (detached : text.Detached) :
    WritesUnit modes [.capture (first + 1) none row] first last ('(' :: text ++ [')']) := by
  obtain ⟨lexemes, parts, spells, builds, steady, outline⟩ := inside
  have branches := Pattern.branches_ofParts steady
  rw [outline] at branches
  have captured := Pattern.branches_capture (first + 1) none branches
  refine ⟨_, _, ?_, builds.capture, (Pattern.Steady.ofParts steady).capture _ _,
    Pattern.outline_of_branches captured, ?_⟩
  · exact (spells_openCapture spells detached).append_firm spellsFirmly_closing
      (by simp [Text.Detached]) (by simp)
  · intro change same
    cases same

/-! ### Texts that may be unreadable -/

namespace Legible

theorem nil : Legible (Writes modes [] first first) true [] :=
  .good writes_nil

theorem append (leftLegible : Legible (Writes modes row first middle) sound left)
    (rightLegible : Legible (Writes modes more middle last) other right)
    (detached : right.Detached) :
    Legible (Writes modes (row ++ more) first last) (sound && other) (left ++ right) := by
  cases leftLegible with
  | unreadable unreadable => exact .unreadable (unreadable.append right)
  | good leftWrites =>
      cases rightLegible with
      | good rightWrites => exact .good (leftWrites.append rightWrites detached)
      | unreadable unreadable =>
          obtain ⟨lexemes, parts, spells, _⟩ := leftWrites
          exact .unreadable (spells.append_unreadable unreadable detached)

theorem quantify (legible : Legible (WritesUnit modes row first last) sound text)
    (usual : modes.Usual) (quantifier : Quantifier) :
    Legible (Writes modes [.repetition quantifier.counts row] first last)
      (sound && quantifier.isOrdered) (text ++ quantifier.text) := by
  cases legible with
  | unreadable unreadable => exact .unreadable (unreadable.append _)
  | good unit =>
      cases ordered : quantifier.isOrdered with
      | true => exact .good (unit.quantify usual quantifier ordered)
      | false =>
          obtain ⟨lexemes, part, firm, _⟩ := unit
          exact .unreadable (firm.append_unreadable (Lexeme.unreadable_quantifier ordered))

theorem group (legible : Legible (Writes modes row first last) sound text) :
    Legible (WritesUnit modes row first last) sound (['(', '?', ':'] ++ (text ++ [')'])) := by
  cases legible with
  | good writes => exact .good writes.group
  | unreadable unreadable =>
      exact .unreadable (spellsFirmly_opening.append_unreadable (unreadable.append _))

theorem capture (legible : Legible (Writes modes row (first + 1) last) sound text)
    (detached : text.Detached) :
    Legible (WritesUnit modes [.capture (first + 1) none row] first last) sound
      ('(' :: text ++ [')']) := by
  cases legible with
  | good writes => exact .good (writes.capture detached)
  | unreadable unreadable =>
      exact .unreadable ((unreadable_openCapture unreadable detached).append _)

theorem alternative (finished : Legible (WritesAlternatives modes rows first middle) sound left)
    (branch : Legible (Writes modes row middle last) other right) :
    Legible (WritesAlternatives modes (rows ++ [row]) first last) (sound && other)
      (left ++ (right ++ ['|'])) := by
  cases finished with
  | unreadable unreadable => exact .unreadable (unreadable.append _)
  | good alternatives =>
      cases branch with
      | good writes => exact .good (alternatives.append writes)
      | unreadable unreadable =>
          obtain ⟨lexemes, patterns, firm, _⟩ := alternatives
          exact .unreadable (firm.append_unreadable (unreadable.append _))

end Legible
end ReadableRegex

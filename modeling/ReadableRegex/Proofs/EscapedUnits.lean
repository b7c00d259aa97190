import ReadableRegex.Proofs.Trees.ClassReading

/-!
Escaped texts taken apart. The escape of a character is a single unit, however many backslashes
stand around it, so an escaped text has as many units as the text has characters, and each tells its
character. Patterns read the units in the same way, outside brackets and between them.
-/

namespace ReadableRegex

namespace Text

/-- The character a unit stands for: the one behind the backslash, or the one alone, which is no
backslash then. -/
def unitChar? : Text → Option Char
  | [character] => if character = '\\' then none else some character
  | [sign, character] => if sign = '\\' then some character else none
  | _ => none

variable {specials : List Char}

theorem units_cons_of_ne {character : Char} (plain : character ≠ '\\') (rest : Text) :
    units (character :: rest) = [character] :: units rest := by
  rw [units]
  intro escaped behind same
  exact absurd same plain

/-- No backslash of an escaped text is left to take a character with it that is not its own. -/
theorem units_escapeWith (backslash : '\\' ∈ specials) (text : Text) :
    units (escapeWith specials text) = text.map (escapeChar specials) := by
  induction text with
  | nil => rfl
  | cons character rest inductionHypothesis =>
      rw [escapeWith_cons, List.map_cons, ← inductionHypothesis]
      by_cases special : character ∈ specials
      · simp only [escapeChar, if_pos special, List.cons_append, List.nil_append, units]
      · have plain : character ≠ '\\' := by
          intro same
          exact special (same ▸ backslash)
        simp only [escapeChar, if_neg special, List.cons_append, List.nil_append,
          units_cons_of_ne plain]

theorem length_units_escapeWith (backslash : '\\' ∈ specials) (text : Text) :
    (units (escapeWith specials text)).length = text.length := by
  rw [units_escapeWith backslash, List.length_map]

theorem unitChar?_escapeChar (backslash : '\\' ∈ specials) (character : Char) :
    unitChar? (escapeChar specials character) = some character := by
  by_cases special : character ∈ specials
  · rw [escapeChar, if_pos special, unitChar?, if_pos rfl]
  · have plain : character ≠ '\\' := by
      intro same
      exact special (same ▸ backslash)
    rw [escapeChar, if_neg special, unitChar?, if_neg plain]

theorem map_unitChar?_units (backslash : '\\' ∈ specials) (text : Text) :
    (units (escapeWith specials text)).map unitChar? = text.map some := by
  rw [units_escapeWith backslash, List.map_map]
  exact List.map_congr_left (fun character _ => unitChar?_escapeChar backslash character)

theorem eq_escapeChar_of_mem_units (backslash : '\\' ∈ specials) {text unit : Text}
    (member : unit ∈ units (escapeWith specials text)) {character : Char}
    (stands : unitChar? unit = some character) : unit = escapeChar specials character := by
  rw [units_escapeWith backslash] at member
  obtain ⟨other, _, same⟩ := List.mem_map.mp member
  subst same
  rw [unitChar?_escapeChar backslash] at stands
  cases stands
  rfl

/-- An escape that can be taken back: the units of an escaped text stand for the characters of the
text, one after the other. -/
structure EscapesByUnits (specials : List Char) (escape : Text → Text) : Prop where
  flatten : ∀ text, (units (escape text)).flatten = escape text
  stands : ∀ text, (units (escape text)).map unitChar? = text.map some
  /-- Special characters, the backslash among them, are found in escaped units alone. -/
  escaped : ∀ text, ∀ unit ∈ units (escape text), ∀ sign ∈ unit, sign ∈ specials →
    ∃ character, unit = ['\\', character]
  injective : Function.Injective escape
  append : ∀ left right, escape (left ++ right) = escape left ++ escape right

theorem escapesByUnits (backslash : '\\' ∈ specials) :
    EscapesByUnits specials (escapeWith specials) where
  flatten text := by
    rw [units_escapeWith backslash]
    exact List.flatMap_def.symm
  stands := map_unitChar?_units backslash
  escaped text unit member sign inside special := by
    rw [units_escapeWith backslash] at member
    obtain ⟨character, _, same⟩ := List.mem_map.mp member
    subst same
    by_cases listed : character ∈ specials
    · exact ⟨character, if_pos listed⟩
    · -- a unit without backslash is the character itself
      rw [escapeChar, if_neg listed] at inside
      exact absurd (List.mem_singleton.mp inside ▸ special) listed
  injective left right same := by
    have characters : left.map some = right.map some := by
      rw [← map_unitChar?_units backslash, same, map_unitChar?_units backslash]
    exact (List.map_inj_right (fun _ _ => Option.some.inj)).mp characters
  append _ _ := List.flatMap_append

end Text

theorem Token.kindOf_escapeLiteral (text : Text) :
    kindOf (Text.escapeLiteral text) = .atom ↔ text.length = 1 := by
  have counted : (Text.units (Text.escapeLiteral text)).length = text.length :=
    Text.length_units_escapeWith (by decide) text
  unfold kindOf
  rw [counted]
  split
  · rename_i single
    exact iff_of_true rfl single
  · rename_i several
    exact iff_of_false nofun several

namespace Draft

theorem lastHandle_pushLiteral (draft : Draft) (text : Text) :
    (draft.pushLiteral text).1.lastHandle = (draft.pushLiteral text).2 := by
  unfold pushLiteral push
  dsimp only
  split
  · rfl
  · rfl

theorem kind_pushLiteral (draft : Draft) (text : Text) :
    (draft.pushLiteral text).2.map Handle.kind = some .atom ↔ text.length = 1 := by
  rw [← Token.kindOf_escapeLiteral]
  unfold pushLiteral push
  dsimp only
  split
  · rename_i empty
    rw [List.isEmpty_iff.mp empty]
    exact iff_of_false nofun nofun
  · exact Option.some_inj

end Draft

namespace Text

/-- Escaping a text can be taken back unit by unit, for literals as for members of classes. Each
unit of a literal is read as its character wherever it stands, and each unit of members as that
member; and a draft counts the units of a literal right. -/
theorem escapes_unit_by_unit :
    EscapesByUnits literalSpecials escapeLiteral ∧ EscapesByUnits classSpecials escapeMembers ∧
    ∀ text : Text,
      (∀ unit ∈ units (escapeLiteral text), ∀ character, unitChar? unit = some character →
        Lexeme.SpellsFirmly unit [.part (.literal character)]) ∧
      (∀ unit ∈ units (escapeMembers text), ∀ character, unitChar? unit = some character →
        ∀ rest, Lexeme.readClassAtom (unit ++ rest) = .ok (.single character, rest)) ∧
      (units (escapeLiteral text)).length = text.length ∧
      ∀ draft : Draft,
        (draft.pushLiteral text).1.lastHandle = (draft.pushLiteral text).2 ∧
        ((draft.pushLiteral text).2.map Handle.kind = some .atom ↔ text.length = 1) := by
  have literal : '\\' ∈ literalSpecials := by decide
  have listed : '\\' ∈ classSpecials := by decide
  refine ⟨escapesByUnits literal, escapesByUnits listed, ?_⟩
  intro text
  refine ⟨?_, ?_, length_units_escapeWith literal text, ?_⟩
  · intro unit member character stands
    rw [eq_escapeChar_of_mem_units literal member stands]
    exact Lexeme.spellsFirmly_escapeChar character
  · intro unit member character stands
    rw [eq_escapeChar_of_mem_units listed member stands]
    exact Lexeme.readClassAtom_escapeChar character
  · intro draft
    exact ⟨draft.lastHandle_pushLiteral text, draft.kind_pushLiteral text⟩

/-- Backslashes of the text itself are in units of their own. -/
example : units (escapeLiteral ['\\', '\\', '.', 'n']) =
    [['\\', '\\'], ['\\', '\\'], ['\\', '.'], ['n']] := by
  decide

end Text
end ReadableRegex

import ReadableRegex.Proofs.Edits

/-!
Texts that do not begin with a question mark. Such a mark would be read as part of what stands
before it: of a quantifier, or of the opening of a group.
-/

namespace ReadableRegex

/-- The text does not begin with a question mark. -/
def Text.Detached (text : Text) : Prop :=
  text.head? ≠ some '?'

namespace Text

theorem detached_nil : Detached [] := by
  intro marked
  cases marked

theorem detached_cons {sign : Char} (plain : sign ≠ '?') (rest : Text) :
    Detached (sign :: rest) := by
  intro marked
  exact plain (Option.some.inj marked)

theorem Detached.append {left right : Text} (leftDetached : Detached left)
    (rightDetached : Detached right) : Detached (left ++ right) := by
  cases left with
  | nil => exact rightDetached
  | cons head tail => exact leftDetached

theorem Detached.append_of_ne {left right : Text} (leftDetached : Detached left)
    (nonempty : left ≠ []) : Detached (left ++ right) := by
  cases left with
  | nil => exact absurd rfl nonempty
  | cons head tail => exact leftDetached

theorem escapeWith_cons (specials : List Char) (character : Char) (rest : Text) :
    escapeWith specials (character :: rest) =
      escapeChar specials character ++ escapeWith specials rest :=
  List.flatMap_cons ..

theorem escapeChar_ne_nil (specials : List Char) (character : Char) :
    escapeChar specials character ≠ [] := by
  unfold escapeChar
  split <;> simp

theorem escapeLiteral_ne_nil {value : Text} (nonempty : value ≠ []) : escapeLiteral value ≠ [] := by
  cases value with
  | nil => exact absurd rfl nonempty
  | cons character rest =>
      unfold escapeLiteral
      rw [escapeWith_cons]
      exact List.append_ne_nil_of_left_ne_nil (escapeChar_ne_nil _ _) _

theorem detached_escapeLiteral (value : Text) : Detached (escapeLiteral value) := by
  cases value with
  | nil => exact detached_nil
  | cons character rest =>
      unfold escapeLiteral
      rw [escapeWith_cons]
      refine Detached.append_of_ne ?_ (escapeChar_ne_nil _ _)
      unfold escapeChar
      split
      · simp [Detached]
      · rename_i plain
        intro marked
        cases marked
        exact plain (by decide)

end Text

/-- A token keeps its beginning when it is made ready for a quantifier, or is put in a group. -/
theorem Token.detached_operand {token : Token} (present : token.text ≠ [])
    (detached : token.text.Detached) : token.operand.Detached ∧ token.operand ≠ [] := by
  unfold operand
  split
  · exact ⟨by simp [Text.Detached], by simp⟩
  · exact ⟨detached, present⟩

namespace Token.Cooked

variable {token : Token}

theorem detached (cooked : token.Cooked) : token.text.Detached := by
  cases cooked with
  | literal value => exact Text.detached_escapeLiteral value
  | members members =>
      unfold ofMembers ClassText.anyOf
      by_cases empty : members.isEmpty = true
      · simp [empty, Text.Detached]
      · simp [empty, Text.Detached]
  | excluded excluded =>
      unfold ofExcluded ClassText.noneOf
      by_cases empty : excluded.isEmpty = true
      · simp [empty, Text.Detached, Fragment.something]
      · simp [empty, Text.Detached]
  | bounds bounds =>
      simp only [ofBounds, ClassText.ofBounds]
      by_cases empty : (ClassText.pairs bounds).1.isEmpty = true
      · simp [empty, Text.Detached]
      · simp [empty, Text.Detached]
  | _ => exact fun marked => absurd marked (by decide)

end Token.Cooked
end ReadableRegex

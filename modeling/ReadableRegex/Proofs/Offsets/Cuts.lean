import ReadableRegex.Text

/-!
Byte positions in texts. A text can be cut where a character ends, and nowhere else.
-/

namespace ReadableRegex.Text

/-- The byte position stands between two characters of the text, or at one of its ends. -/
def IsBoundary (text : Text) (offset : Nat) : Prop :=
  ∃ before after, text = before ++ after ∧ byteSize before = offset

/-- The texts before and behind the byte position; none if it stands inside a character or
beyond the end. -/
def cut? : Text → Nat → Option (Text × Text)
  | text, 0 => some ([], text)
  | [], _ + 1 => none
  | head :: tail, offset + 1 =>
      if head.utf8Size ≤ offset + 1 then
        (cut? tail (offset + 1 - head.utf8Size)).map (fun parts => (head :: parts.1, parts.2))
      else none

def insertAt? (text : Text) (offset : Nat) (inserted : Text) : Option Text :=
  (text.cut? offset).map (fun parts => parts.1 ++ (inserted ++ parts.2))

def charAt? (text : Text) (offset : Nat) : Option Char :=
  (text.cut? offset).bind (fun parts => parts.2.head?)

variable {text before after : Text} {offset : Nat}

theorem byteSize_pos (nonempty : text ≠ []) : 0 < byteSize text := by
  cases text with
  | nil => exact absurd rfl nonempty
  | cons head tail => exact Nat.add_pos_left head.utf8Size_pos _

theorem cut?_append (before after : Text) :
    cut? (before ++ after) (byteSize before) = some (before, after) := by
  induction before with
  | nil => simp [cut?]
  | cons head tail inductionHypothesis =>
      have positive := head.utf8Size_pos
      obtain ⟨offset, shape⟩ : ∃ offset, byteSize (head :: tail) = offset + 1 :=
        ⟨byteSize (head :: tail) - 1, by rw [byteSize_cons]; omega⟩
      have within : head.utf8Size ≤ offset + 1 := by
        rw [← shape, byteSize_cons]
        omega
      have rest : offset + 1 - head.utf8Size = byteSize tail := by
        rw [← shape, byteSize_cons]
        omega
      rw [shape, List.cons_append, cut?, if_pos within, rest, inductionHypothesis]
      rfl

theorem insertAt?_append (before inserted after : Text) :
    insertAt? (before ++ after) (byteSize before) inserted =
      some (before ++ (inserted ++ after)) := by
  rw [insertAt?, cut?_append]
  rfl

theorem charAt?_append_cons (before : Text) (character : Char) (after : Text) :
    charAt? (before ++ character :: after) (byteSize before) = some character := by
  rw [charAt?, cut?_append]
  rfl

end ReadableRegex.Text

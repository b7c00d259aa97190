import ReadableRegex.Unicode.Blank

/-!
Texts as lists of characters, with the few operations the library needs of them. Positions
count characters; `byteSize` is the only place where the UTF-8 form matters.
-/

namespace ReadableRegex

abbrev Text := List Char

namespace Text

/-- The length of the UTF-8 form. -/
def byteSize : Text → Nat
  | [] => 0
  | head :: tail => head.utf8Size + byteSize tail

@[simp] theorem byteSize_nil : byteSize [] = 0 := rfl

@[simp] theorem byteSize_cons (head : Char) (tail : Text) :
    byteSize (head :: tail) = head.utf8Size + byteSize tail := rfl

@[simp] theorem byteSize_append (left right : Text) :
    byteSize (left ++ right) = byteSize left + byteSize right := by
  induction left with
  | nil => simp
  | cons head tail inductionHypothesis =>
      rw [List.cons_append, byteSize_cons, byteSize_cons, inductionHypothesis, Nat.add_assoc]

/-- The parts between separators; there is one more of them than separators. -/
def parts (separator : Char) : Text → List Text
  | [] => [[]]
  | head :: tail =>
      if head = separator then [] :: parts separator tail
      else
        match parts separator tail with
        | [] => [[head]]
        | first :: others => (head :: first) :: others

def trim (text : Text) : Text :=
  ((text.dropWhile Unicode.isBlank).reverse.dropWhile Unicode.isBlank).reverse

/-- The rest of the text after the given opening. -/
def after? (opening text : Text) : Option Text :=
  match opening, text with
  | [], rest => some rest
  | _ :: _, [] => none
  | expected :: opening, head :: tail =>
      if expected = head then after? opening tail else none

theorem after?_append (opening rest : Text) : after? opening (opening ++ rest) = some rest := by
  induction opening with
  | nil => rfl
  | cons head tail inductionHypothesis => simp [after?, inductionHypothesis]

theorem eq_append_of_after? {opening text rest : Text} (found : after? opening text = some rest) :
    text = opening ++ rest := by
  induction opening generalizing text with
  | nil => simpa [after?] using found
  | cons head tail inductionHypothesis =>
      cases text with
      | nil => simp [after?] at found
      | cons first others =>
          by_cases same : head = first
          · subst first
            have remainder : after? tail others = some rest := by simpa [after?] using found
            rw [inductionHypothesis remainder, List.cons_append]
          · simp [after?, same] at found

end Text
end ReadableRegex

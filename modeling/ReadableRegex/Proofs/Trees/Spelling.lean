import ReadableRegex.Proofs.Detached
import ReadableRegex.Proofs.Numeral
import ReadableRegex.Proofs.Verbosity

/-!
Texts that are read as a certain row of lexemes wherever they stand. What follows a quantifier
must not begin with a question mark; other texts are read whatever follows.
-/

namespace ReadableRegex.Lexeme

/-- The text is read as the lexemes, whatever follows. -/
def SpellsFirmly (text : Text) (lexemes : List Lexeme) : Prop :=
  ∀ rest : Text, readAll (text ++ rest) = (readAll rest).map (lexemes ++ ·)

/-- The text is read as the lexemes, if what follows begins with no question mark. -/
def Spells (text : Text) (lexemes : List Lexeme) : Prop :=
  ∀ rest : Text, rest.Detached → readAll (text ++ rest) = (readAll rest).map (lexemes ++ ·)

/-- The lexeme is read from the text, and of what follows nothing. -/
def ReadsAs (text : Text) (lexeme : Lexeme) (rest : Text) : Prop :=
  ∃ head tail, text = head :: tail ∧ read head (tail ++ rest) = .ok (lexeme, rest)

def Unreadable (text : Text) : Prop :=
  ∀ rest : Text, ∃ fault, readAll (text ++ rest) = .error fault

section

variable {text left right : Text} {lexemes more : List Lexeme}

theorem SpellsFirmly.spells (firm : SpellsFirmly text lexemes) : Spells text lexemes :=
  fun rest _ => firm rest

theorem map_nil_append (rows : Except Fault (List Lexeme)) : rows.map ([] ++ ·) = rows := by
  cases rows <;> rfl

theorem spellsFirmly_nil : SpellsFirmly [] [] := by
  intro rest
  rw [List.nil_append, map_nil_append]

theorem map_append_append (lexemes more : List Lexeme) (rows : Except Fault (List Lexeme)) :
    (rows.map (more ++ ·)).map (lexemes ++ ·) = rows.map ((lexemes ++ more) ++ ·) := by
  cases rows with
  | error fault => rfl
  | ok row => exact congrArg Except.ok (List.append_assoc lexemes more row).symm

theorem SpellsFirmly.append (leftFirm : SpellsFirmly left lexemes)
    (rightFirm : SpellsFirmly right more) : SpellsFirmly (left ++ right) (lexemes ++ more) := by
  intro rest
  rw [List.append_assoc, leftFirm, rightFirm, map_append_append]

theorem SpellsFirmly.append_spells (leftFirm : SpellsFirmly left lexemes)
    (rightSpells : Spells right more) : Spells (left ++ right) (lexemes ++ more) := by
  intro rest detached
  rw [List.append_assoc, leftFirm, rightSpells rest detached, map_append_append]

theorem Spells.append (leftSpells : Spells left lexemes) (rightSpells : Spells right more)
    (detached : right.Detached) : Spells (left ++ right) (lexemes ++ more) := by
  intro rest restDetached
  rw [List.append_assoc, leftSpells _ (detached.append restDetached),
    rightSpells rest restDetached, map_append_append]

theorem Spells.append_firm (leftSpells : Spells left lexemes)
    (rightFirm : SpellsFirmly right more) (detached : right.Detached) (nonempty : right ≠ []) :
    SpellsFirmly (left ++ right) (lexemes ++ more) := by
  intro rest
  rw [List.append_assoc, leftSpells _ (detached.append_of_ne nonempty), rightFirm,
    map_append_append]

theorem Spells.readAll_eq (spells : Spells text lexemes) : readAll text = .ok lexemes := by
  have whole := spells [] Text.detached_nil
  rw [List.append_nil, readAll_nil] at whole
  rw [whole]
  exact congrArg Except.ok (List.append_nil lexemes)

theorem Unreadable.ne_nil (unreadable : Unreadable text) : text ≠ [] := by
  intro empty
  obtain ⟨fault, failed⟩ := unreadable []
  rw [empty, List.append_nil, readAll_nil] at failed
  cases failed

theorem Unreadable.append (unreadable : Unreadable left) (right : Text) :
    Unreadable (left ++ right) := by
  intro rest
  rw [List.append_assoc]
  exact unreadable (right ++ rest)

theorem Spells.append_unreadable (leftSpells : Spells left lexemes)
    (unreadable : Unreadable right) (detached : right.Detached) : Unreadable (left ++ right) := by
  intro rest
  obtain ⟨fault, failed⟩ := unreadable rest
  refine ⟨fault, ?_⟩
  rw [List.append_assoc, leftSpells _ (detached.append_of_ne unreadable.ne_nil), failed]
  rfl

theorem SpellsFirmly.append_unreadable (leftFirm : SpellsFirmly left lexemes)
    (unreadable : Unreadable right) : Unreadable (left ++ right) := by
  intro rest
  obtain ⟨fault, failed⟩ := unreadable rest
  refine ⟨fault, ?_⟩
  rw [List.append_assoc, leftFirm, failed]
  rfl

end

theorem spellsFirmly_of_read {head : Char} {tail : Text} {lexeme : Lexeme}
    (first : ∀ rest, read head (tail ++ rest) = .ok (lexeme, rest))
    (calm : lexeme.wakes = false := by rfl) : SpellsFirmly (head :: tail) [lexeme] := by
  intro rest
  rw [List.cons_append, readAll_of_read (first rest) calm]
  rfl

theorem spells_of_readsAs {text : Text} {lexeme : Lexeme}
    (first : ∀ rest : Text, rest.Detached → ReadsAs text lexeme rest)
    (calm : lexeme.wakes = false := by rfl) : Spells text [lexeme] := by
  intro rest detached
  obtain ⟨head, tail, same, reading⟩ := first rest detached
  rw [same, List.cons_append, readAll_of_read reading calm]
  rfl

theorem unreadable_of_read {head : Char} {tail : Text} {fault : Fault}
    (first : ∀ rest, read head (tail ++ rest) = .error fault) : Unreadable (head :: tail) := by
  intro rest
  exact ⟨fault, readAll_of_read_error (first rest)⟩

/-! ### Literals -/

theorem readEscape_special {character : Char} (special : character ∈ Text.literalSpecials)
    (rest : Text) : readEscape (character :: rest) = .ok (.literal character, rest) := by
  simp only [Text.literalSpecials, List.mem_cons, List.not_mem_nil, or_false] at special
  rcases special with same | same | same | same | same | same | same | same | same | same |
    same | same | same | same <;> subst same <;> rfl

theorem read_plain {character : Char} (plain : character ∉ Text.literalSpecials) (rest : Text) :
    read character rest = .ok (.part (.literal character), rest) := by
  simp only [Text.literalSpecials, List.mem_cons, List.not_mem_nil, or_false, not_or] at plain
  unfold read
  split <;> simp_all

theorem spellsFirmly_escapeChar (character : Char) :
    SpellsFirmly (Text.escapeChar Text.literalSpecials character)
      [.part (.literal character)] := by
  unfold Text.escapeChar
  split
  · rename_i special
    refine spellsFirmly_of_read ?_
    intro rest
    simp only [read, List.cons_append, List.nil_append, readEscape_special special]
    rfl
  · rename_i plain
    refine spellsFirmly_of_read ?_
    intro rest
    exact read_plain plain rest

theorem spellsFirmly_escapeLiteral (value : Text) :
    SpellsFirmly (Text.escapeLiteral value)
      (value.map (fun character => .part (.literal character))) := by
  unfold Text.escapeLiteral
  induction value with
  | nil => exact spellsFirmly_nil
  | cons character rest inductionHypothesis =>
      rw [Text.escapeWith_cons, List.map_cons, ← List.singleton_append]
      exact (spellsFirmly_escapeChar character).append inductionHypothesis

end ReadableRegex.Lexeme

import ReadableRegex.Slashed

/-!
Backslashes and the characters they take with them. Whether a character is escaped depends on how
many backslashes stand right before it, so a text is taken apart from its start: a backslash goes
together with the character behind it. Protecting slashes changes nothing else about these units.
-/

namespace ReadableRegex

namespace Text

/-- A character that is written in the same way between slashes, and takes no other with it. -/
def IsPlain (character : Char) : Prop :=
  character ≠ '/' ∧ character ≠ '\\'

instance (character : Char) : Decidable (IsPlain character) :=
  inferInstanceAs (Decidable (_ ∧ _))

/-- Whether a character behind the text is escaped: backslashes escape each other in pairs, so an
odd number of them has to end the text. -/
def EscapesNext (text : Text) : Prop :=
  (text.reverse.takeWhile (· == '\\')).length % 2 = 1

instance (text : Text) : Decidable (EscapesNext text) :=
  inferInstanceAs (Decidable (_ = _))

/-- When units are taken away from the start of the text, the rest is left. -/
inductive Leaves : Text → Text → Prop
  | all (text : Text) : Leaves text text
  | escape (character : Char) {tail rest : Text} (later : Leaves tail rest) :
      Leaves ('\\' :: character :: tail) rest
  | single {character : Char} {tail rest : Text} (alone : character ≠ '\\')
      (later : Leaves tail rest) : Leaves (character :: tail) rest

variable {text front middle rest : Text}

/-! ### Units -/

theorem Leaves.trans (first : text.Leaves middle) (second : middle.Leaves rest) :
    text.Leaves rest := by
  induction first with
  | all => exact second
  | escape character _ inductionHypothesis => exact .escape character (inductionHypothesis second)
  | single alone _ inductionHypothesis => exact .single alone (inductionHypothesis second)

theorem Leaves.past {sign : Char} (first : text.Leaves (sign :: middle)) (plain : IsPlain sign)
    (later : middle.Leaves rest) : text.Leaves rest :=
  first.trans (.single plain.2 later)

theorem leaves_append (plain : ∀ character ∈ front, IsPlain character) (rest : Text) :
    (front ++ rest).Leaves rest := by
  induction front with
  | nil => exact .all rest
  | cons head tail inductionHypothesis =>
      obtain ⟨first, others⟩ := List.forall_mem_cons.mp plain
      exact .single first.2 (inductionHypothesis others)

theorem escapesNext_append_backslash (text : Text) :
    EscapesNext (text ++ ['\\']) ↔ ¬ EscapesNext text := by
  have longer : ((text ++ ['\\']).reverse.takeWhile (· == '\\')).length =
      (text.reverse.takeWhile (· == '\\')).length + 1 := by
    simp
  rw [EscapesNext, EscapesNext, longer]
  omega

theorem not_escapesNext_append {character : Char} (other : character ≠ '\\') (text : Text) :
    ¬ EscapesNext (text ++ [character]) := by
  simp [EscapesNext, other]

theorem not_escapesNext_append_pair (even : ¬ EscapesNext text) (character : Char) :
    ¬ EscapesNext (text ++ ['\\', character]) := by
  have odd := (escapesNext_append_backslash text).mpr even
  rw [← List.singleton_append, ← List.append_assoc]
  by_cases backslash : character = '\\'
  · subst backslash
    exact fun escapes => (escapesNext_append_backslash _).mp escapes odd
  · exact not_escapesNext_append backslash _

/-- Whole units do not escape what stands behind them. -/
theorem Leaves.exists_ahead (leaves : text.Leaves rest) (even : ¬ EscapesNext front) :
    ∃ ahead, front ++ text = ahead ++ rest ∧ ¬ EscapesNext ahead := by
  induction leaves generalizing front with
  | all => exact ⟨front, rfl, even⟩
  | escape character _ inductionHypothesis =>
      obtain ⟨ahead, same, unescaped⟩ :=
        inductionHypothesis (not_escapesNext_append_pair even character)
      rw [List.append_assoc] at same
      exact ⟨ahead, same, unescaped⟩
  | single alone _ inductionHypothesis =>
      obtain ⟨ahead, same, unescaped⟩ := inductionHypothesis (not_escapesNext_append alone front)
      rw [List.append_assoc] at same
      exact ⟨ahead, same, unescaped⟩

theorem Leaves.not_escapesNext (whole : text.Leaves []) (even : ¬ EscapesNext front) :
    ¬ EscapesNext (front ++ text) := by
  obtain ⟨ahead, same, unescaped⟩ := whole.exists_ahead even
  rwa [same, List.append_nil]

theorem Leaves.escapesNext (dangling : text.Leaves ['\\']) (even : ¬ EscapesNext front) :
    EscapesNext (front ++ text) := by
  obtain ⟨ahead, same, unescaped⟩ := dangling.exists_ahead even
  rw [same]
  exact (escapesNext_append_backslash ahead).mpr unescaped

end Text

namespace Slashed

open Text (IsPlain EscapesNext)

variable {text rest : Text}

/-! ### Protected texts -/

theorem protect_cons {character : Char} (plain : IsPlain character) (rest : Text) :
    protect (character :: rest) = character :: protect rest := by
  rw [protect]
  · rintro escaped behind rfl
    exact absurd rfl plain.2
  · exact plain.1

theorem protect_append {front : Text} (plain : ∀ character ∈ front, IsPlain character)
    (rest : Text) : protect (front ++ rest) = front ++ protect rest := by
  induction front with
  | nil => rfl
  | cons head tail inductionHypothesis =>
      obtain ⟨first, others⟩ := List.forall_mem_cons.mp plain
      rw [List.cons_append, protect_cons first, inductionHypothesis others, List.cons_append]

/-- A text grows unit by unit: a backslash that ends it, a backslash with the character behind it, a
slash, or a plain character. -/
@[elab_as_elim]
theorem unitInduction {motive : Text → Prop} (nil : motive []) (dangling : motive ['\\'])
    (escape : ∀ character rest, motive rest → motive ('\\' :: character :: rest))
    (slash : ∀ rest, motive rest → motive ('/' :: rest))
    (plain : ∀ character rest, IsPlain character → motive rest → motive (character :: rest))
    (text : Text) : motive text := by
  induction text using protect.induct with
  | case1 => exact nil
  | case2 character rest inductionHypothesis => exact escape character rest inductionHypothesis
  | case3 rest inductionHypothesis => exact slash rest inductionHypothesis
  | case4 character rest single other inductionHypothesis =>
      by_cases backslash : character = '\\'
      · subst backslash
        cases rest with
        | nil => exact dangling
        | cons next others => exact (single next others rfl rfl).elim
      · exact plain character rest ⟨other, backslash⟩ inductionHypothesis

theorem protect_protect (text : Text) : protect (protect text) = protect text := by
  induction text using unitInduction with
  | nil => rfl
  | dangling => rfl
  | escape character rest inductionHypothesis => rw [protect, protect, inductionHypothesis]
  | slash rest inductionHypothesis => rw [protect, protect, inductionHypothesis]
  | plain character rest plain inductionHypothesis =>
      rw [protect_cons plain, protect_cons plain, inductionHypothesis]

theorem protect_of_not_mem (free : '/' ∉ text) : protect text = text := by
  induction text using unitInduction with
  | nil => rfl
  | dangling => rfl
  | escape character rest inductionHypothesis =>
      have later := mt (List.mem_cons_of_mem character) (mt (List.mem_cons_of_mem '\\') free)
      rw [protect, inductionHypothesis later]
  | slash rest => exact absurd List.mem_cons_self free
  | plain character rest plain inductionHypothesis =>
      rw [protect_cons plain, inductionHypothesis (mt (List.mem_cons_of_mem character) free)]

theorem leaves_protect (leaves : text.Leaves rest) : (protect text).Leaves (protect rest) := by
  induction leaves with
  | all => exact .all _
  | escape character _ inductionHypothesis => exact .escape character inductionHypothesis
  | @single character tail rest alone _ inductionHypothesis =>
      by_cases slash : character = '/'
      · subst slash
        exact .escape '/' inductionHypothesis
      · rw [protect_cons ⟨slash, alone⟩]
        exact .single alone inductionHypothesis

theorem leaves_nil_or_backslash (text : Text) : text.Leaves [] ∨ text.Leaves ['\\'] := by
  induction text using unitInduction with
  | nil => exact Or.inl (.all [])
  | dangling => exact Or.inr (.all ['\\'])
  | escape character rest inductionHypothesis =>
      exact inductionHypothesis.imp (.escape character) (.escape character)
  | slash rest inductionHypothesis =>
      exact inductionHypothesis.imp (.single (by decide)) (.single (by decide))
  | plain character rest plain inductionHypothesis =>
      exact inductionHypothesis.imp (.single plain.2) (.single plain.2)

/-- Behind whole units only the end of the text counts, and that is not changed. -/
theorem escapesNext_append_protect {front : Text} (even : ¬ EscapesNext front) (text : Text) :
    EscapesNext (front ++ protect text) ↔ EscapesNext text := by
  have start : ¬ EscapesNext [] := by decide
  rcases leaves_nil_or_backslash text with whole | dangling
  · exact iff_of_false ((leaves_protect whole).not_escapesNext even) (whole.not_escapesNext start)
  · exact iff_of_true ((leaves_protect dangling).escapesNext even) (dangling.escapesNext start)

/-! ### What a protected text begins with -/

theorem eq_cons_of_protect {first : Char} {behind : Text} (plain : first ≠ '\\')
    (begins : protect text = first :: behind) :
    ∃ rest, text = first :: rest ∧ behind = protect rest := by
  cases text using unitInduction with
  | nil => cases begins
  | dangling => exact absurd (List.cons.inj begins).1.symm plain
  | escape => exact absurd (List.cons.inj begins).1.symm plain
  | slash => exact absurd (List.cons.inj begins).1.symm plain
  | plain character rest simple =>
      rw [protect_cons simple] at begins
      obtain ⟨rfl, rfl⟩ := List.cons.inj begins
      exact ⟨rest, rfl, rfl⟩

theorem protect_ne_cons {first : Char} (plain : first ≠ '\\')
    (other : ∀ rest, text ≠ first :: rest) (behind : Text) : protect text ≠ first :: behind := by
  intro begins
  obtain ⟨rest, same, _⟩ := eq_cons_of_protect plain begins
  exact other rest same

theorem protect_ne_pair {first second : Char} (plain : first ≠ '\\' ∧ second ≠ '\\')
    (other : ∀ rest, text ≠ first :: second :: rest) (behind : Text) :
    protect text ≠ first :: second :: behind := by
  intro begins
  obtain ⟨further, rfl, remains⟩ := eq_cons_of_protect plain.1 begins
  obtain ⟨rest, rfl, _⟩ := eq_cons_of_protect plain.2 remains.symm
  exact other rest rfl

theorem exists_protect_cons (head : Char) (tail : Text) :
    ∃ first behind, protect (head :: tail) = first :: behind ∧ (first = head ∨ first = '\\') := by
  by_cases slash : head = '/'
  · subst slash
    exact ⟨'\\', _, rfl, Or.inr rfl⟩
  · by_cases backslash : head = '\\'
    · subst backslash
      cases tail with
      | nil => exact ⟨'\\', _, rfl, Or.inr rfl⟩
      | cons next others => exact ⟨'\\', _, rfl, Or.inr rfl⟩
    · exact ⟨head, _, protect_cons ⟨slash, backslash⟩ tail, Or.inl rfl⟩

theorem isPlain_of_test (test : Char → Bool) (slash : test '/' = false)
    (backslash : test '\\' = false) {character : Char} (passes : test character = true) :
    IsPlain character := by
  constructor
  · rintro rfl
    exact Bool.noConfusion (passes.symm.trans slash)
  · rintro rfl
    exact Bool.noConfusion (passes.symm.trans backslash)

/-- A run of plain characters is the same in a protected text if the text behind it ends the run
with slashes protected too. -/
theorem run_protect {test : Char → Bool}
    (plain : ∀ character ∈ text.takeWhile test, IsPlain character)
    (stops : ∀ first behind, protect (text.dropWhile test) = first :: behind →
      ¬ test first = true) :
    text.Leaves (text.dropWhile test) ∧ (protect text).takeWhile test = text.takeWhile test ∧
      (protect text).dropWhile test = protect (text.dropWhile test) := by
  have passes := List.all_eq_true.mp (List.all_takeWhile (p := test) (l := text))
  have leaves := Text.leaves_append plain (text.dropWhile test)
  have shape := protect_append plain (text.dropWhile test)
  rw [List.takeWhile_append_dropWhile] at leaves shape
  rw [shape, List.takeWhile_append_of_pos passes, List.dropWhile_append_of_pos passes]
  refine ⟨leaves, ?_⟩
  cases begins : protect (text.dropWhile test) with
  | nil => exact ⟨List.append_nil _, rfl⟩
  | cons first behind =>
      have ends := stops first behind begins
      rw [List.takeWhile_cons_of_neg ends, List.dropWhile_cons_of_neg ends]
      exact ⟨List.append_nil _, rfl⟩

theorem span_protect (test : Char → Bool) (slash : test '/' = false)
    (backslash : test '\\' = false) (text : Text) :
    text.Leaves (text.dropWhile test) ∧ (protect text).takeWhile test = text.takeWhile test ∧
      (protect text).dropWhile test = protect (text.dropWhile test) := by
  apply run_protect
  · intro character member
    exact isPlain_of_test test slash backslash (List.all_eq_true.mp List.all_takeWhile _ member)
  · intro first behind begins
    have failed := List.head?_dropWhile_not test text
    cases shape : text.dropWhile test with
    | nil =>
        rw [shape] at begins
        cases begins
    | cons head tail =>
        rw [shape] at begins failed
        obtain ⟨sign, others, same, signs⟩ := exists_protect_cons head tail
        obtain ⟨rfl, _⟩ := List.cons.inj (same.symm.trans begins)
        rcases signs with rfl | rfl
        · exact Bool.eq_false_iff.mp failed
        · exact Bool.eq_false_iff.mp backslash

theorem upTo_protect {sign first : Char} (closing : IsPlain sign)
    (plain : ∀ character ∈ text.takeWhile (· != sign), IsPlain character)
    (stops : text.dropWhile (· != sign) = first :: rest) :
    text.Leaves rest ∧ (protect text).takeWhile (· != sign) = text.takeWhile (· != sign) ∧
      (protect text).dropWhile (· != sign) = first :: protect rest := by
  have same : first = sign := by
    have failed := List.head?_dropWhile_not (· != sign) text
    simpa [stops] using failed
  subst same
  have shape : protect (text.dropWhile (· != first)) = first :: protect rest := by
    rw [stops, protect_cons closing]
  have run := run_protect plain (by simp [shape])
  rw [shape, stops] at run
  exact ⟨run.1.past closing (.all rest), run.2⟩

/-! ### Slashes -/

/-- Behind whole units every slash of the text is escaped. -/
def SlashesEscaped (text : Text) : Prop :=
  ∀ front ahead behind, ¬ EscapesNext front → text = ahead ++ '/' :: behind →
    EscapesNext (front ++ ahead)

theorem SlashesEscaped.pair (later : SlashesEscaped text) (character : Char) :
    SlashesEscaped ('\\' :: character :: text) := by
  intro front ahead behind even split
  rcases List.cons_eq_append_iff.mp split with ⟨_, begins⟩ | ⟨afterwards, rfl, remains⟩
  · cases begins
  · rcases List.cons_eq_append_iff.mp remains with ⟨rfl, _⟩ | ⟨further, rfl, same⟩
    · exact (Text.escapesNext_append_backslash front).mpr even
    · have escapes := later _ further behind (Text.not_escapesNext_append_pair even character) same
      rwa [List.append_assoc] at escapes

theorem SlashesEscaped.plain (later : SlashesEscaped text) {character : Char}
    (plain : IsPlain character) : SlashesEscaped (character :: text) := by
  intro front ahead behind even split
  rcases List.cons_eq_append_iff.mp split with ⟨_, begins⟩ | ⟨afterwards, rfl, same⟩
  · cases begins
    exact absurd rfl plain.1
  · have escapes := later _ afterwards behind (Text.not_escapesNext_append plain.2 front) same
    rwa [List.append_assoc] at escapes

theorem slashesEscaped_of_not_mem (free : '/' ∉ text) : SlashesEscaped text := by
  intro front ahead behind even split
  rw [split] at free
  exact absurd (List.mem_append_right _ List.mem_cons_self) free

theorem slashesEscaped_protect (text : Text) : SlashesEscaped (protect text) := by
  induction text using unitInduction with
  | nil => exact slashesEscaped_of_not_mem (by decide)
  | dangling => exact slashesEscaped_of_not_mem (by decide)
  | escape character rest inductionHypothesis => exact inductionHypothesis.pair character
  | slash rest inductionHypothesis => exact inductionHypothesis.pair '/'
  | plain character rest plain inductionHypothesis =>
      rw [protect_cons plain]
      exact inductionHypothesis.plain plain

end Slashed
end ReadableRegex

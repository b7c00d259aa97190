import ReadableRegex.Proofs.Trees.Spelling

/-!
The texts of quantifiers are read back as their bounds, and are greedy. Bounds out of order cannot
be read.
-/

namespace ReadableRegex

namespace Quantifier

def isOrdered : Quantifier → Bool
  | .between lower upper => decide (lower.toNat ≤ upper.toNat)
  | _ => true

def counts (quantifier : Quantifier) : Counts :=
  ⟨quantifier.minimum, quantifier.maximum?, true⟩

end Quantifier

namespace Lexeme

theorem isBlank_of_isDigit {digit : Char} (isDigit : digit.isDigit = true) :
    Unicode.isBlank digit = false := by
  have bounds : 48 ≤ digit.toNat ∧ digit.toNat ≤ 57 := by
    simpa [Char.isDigit, UInt32.le_iff_toNat_le] using isDigit
  have above : ¬ digit.toNat < 9 ∧ ¬ digit.toNat ≤ 13 ∧ ¬ digit.toNat < 32 ∧
      ¬ digit.toNat ≤ 32 ∧ digit.toNat < 133 := by
    omega
  simp [Unicode.isBlank, Unicode.blankRanges, Unicode.inRanges, above]

theorem readCount_decimal (value : UInt32) {sign : Char} (plain : sign = '\x7d' ∨ sign = ',')
    (rest : Text) :
    readCount (Text.decimal value.toNat ++ sign :: rest) = .ok (value.toNat, sign :: rest) := by
  have digits : ∀ digit ∈ Text.decimal value.toNat, digit.isDigit = true :=
    fun _ => Text.isDigit_of_mem_decimal
  have signDigit : sign.isDigit = false := by rcases plain with same | same <;> subst same <;> rfl
  have signBlank : Unicode.isBlank sign = false := by
    rcases plain with same | same <;> subst same <;> rfl
  have start : (Text.decimal value.toNat ++ sign :: rest).dropWhile Unicode.isBlank =
      Text.decimal value.toNat ++ sign :: rest := by
    cases shape : Text.decimal value.toNat with
    | nil => exact absurd shape (Text.decimal_ne_nil _)
    | cons first others =>
        have blank := isBlank_of_isDigit (digits first (by rw [shape]; exact List.mem_cons_self))
        rw [List.cons_append, List.dropWhile_cons_of_neg (by simp [blank])]
  have taken : (Text.decimal value.toNat ++ sign :: rest).takeWhile Char.isDigit =
      Text.decimal value.toNat := by
    rw [List.takeWhile_append_of_pos digits, List.takeWhile_cons_of_neg (by simp [signDigit]),
      List.append_nil]
  have dropped : (Text.decimal value.toNat ++ sign :: rest).dropWhile Char.isDigit =
      sign :: rest := by
    rw [List.dropWhile_append_of_pos digits, List.dropWhile_cons_of_neg (by simp [signDigit])]
  have small : value.toNat < UInt32.size := value.toNat_lt
  simp only [readCount, resume_false, collect, start, taken, dropped, Text.number?_decimal, small,
    if_true]
  rw [List.dropWhile_cons_of_neg (by simp [signBlank])]

theorem readGreed_of_detached {rest : Text} (detached : rest.Detached) :
    readGreed rest = (true, rest) := by
  unfold readGreed
  split
  · next marked =>
      rw [resume_false] at marked
      exact absurd (congrArg List.head? marked) detached
  · rfl

theorem finishCounts_of_detached {rest : Text} (lower : Nat) (upper : Option Nat)
    (detached : rest.Detached) :
    finishCounts lower upper rest = (⟨lower, upper, true⟩, rest) := by
  simp only [finishCounts, readGreed_of_detached detached]

theorem readCounts_between (lower upper : UInt32) (rest : Text) :
    readCounts (Text.decimal lower.toNat ++ ',' :: (Text.decimal upper.toNat ++ '\x7d' :: rest)) =
      if lower.toNat ≤ upper.toNat then .ok (finishCounts lower.toNat (some upper.toNat) rest)
      else .error .invertedCounts := by
  have first := readCount_decimal lower (Or.inr rfl) (Text.decimal upper.toNat ++ '\x7d' :: rest)
  have second := readCount_decimal upper (Or.inl rfl) rest
  have hasUpper : ∀ tail, Text.decimal upper.toNat ++ '\x7d' :: rest ≠ '\x7d' :: tail := by
    intro tail same
    cases shape : Text.decimal upper.toNat with
    | nil => exact Text.decimal_ne_nil _ shape
    | cons head others =>
        rw [shape, List.cons_append] at same
        have isDigit : head.isDigit = true :=
          Text.isDigit_of_mem_decimal (by rw [shape]; exact List.mem_cons_self)
        rw [List.cons.inj same |>.1] at isDigit
        cases isDigit
  unfold readCounts
  rw [first]
  split
  · next same => cases same
  · next same =>
      cases same
      split
      · next braced =>
          rw [resume_false] at braced
          exact absurd braced (hasUpper _)
      · simp only [resume_false, readUpper, second]
  · next other same =>
      cases same
      exact absurd rfl (other _ _)
  · next same => cases same

/-- The text of a quantifier in order is read as its counts. -/
theorem readsAs_quantifier {quantifier : Quantifier} (ordered : quantifier.isOrdered = true)
    {rest : Text} (detached : rest.Detached) :
    ReadsAs quantifier.text (.quantifier quantifier.counts) rest := by
  cases quantifier with
  | optional =>
      refine ⟨'?', [], rfl, ?_⟩
      simp only [read, readSign, List.nil_append, finishCounts_of_detached _ _ detached]
      rfl
  | oneOrMore =>
      refine ⟨'+', [], rfl, ?_⟩
      simp only [read, readSign, List.nil_append, finishCounts_of_detached _ _ detached]
      rfl
  | exactly count =>
      refine ⟨'\x7b', Text.decimal count.toNat ++ ['\x7d'], rfl, ?_⟩
      have counted := readCount_decimal count (Or.inl rfl) rest
      simp only [read, List.append_assoc, List.singleton_append, readCounts, counted,
        finishCounts_of_detached _ _ detached]
      rfl
  | atLeast lower =>
      refine ⟨'\x7b', Text.decimal lower.toNat ++ [',', '\x7d'], rfl, ?_⟩
      have counted := readCount_decimal lower (Or.inr rfl) ('\x7d' :: rest)
      simp only [read, List.append_assoc, List.cons_append, List.nil_append, readCounts, counted,
        resume_false, finishCounts_of_detached _ _ detached]
      rfl
  | between lower upper =>
      refine ⟨'\x7b', Text.decimal lower.toNat ++ ',' :: Text.decimal upper.toNat ++ ['\x7d'],
        rfl, ?_⟩
      have inOrder : lower.toNat ≤ upper.toNat := by simpa [Quantifier.isOrdered] using ordered
      simp only [read, List.append_assoc, List.cons_append, List.nil_append, readCounts_between,
        inOrder, if_true, finishCounts_of_detached _ _ detached]
      rfl

theorem spells_quantifier {quantifier : Quantifier} (ordered : quantifier.isOrdered = true) :
    Spells quantifier.text [.quantifier quantifier.counts] :=
  spells_of_readsAs (fun _ detached => readsAs_quantifier ordered detached)

theorem unreadable_quantifier {quantifier : Quantifier} (crossed : quantifier.isOrdered = false) :
    Unreadable quantifier.text := by
  cases quantifier with
  | between lower upper =>
      have outOfOrder : ¬ lower.toNat ≤ upper.toNat := by
        simpa [Quantifier.isOrdered] using crossed
      have failed (rest : Text) : read '\x7b'
          (Text.decimal lower.toNat ++ ',' :: Text.decimal upper.toNat ++ ['\x7d'] ++ rest) =
            .error .invertedCounts := by
        simp only [read, List.append_assoc, List.cons_append, List.nil_append, readCounts_between,
          outOfOrder, if_false]
      exact unreadable_of_read failed
  | _ => cases crossed

end Lexeme
end ReadableRegex

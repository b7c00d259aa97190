import ReadableRegex.Text.Numeral

/-!
Numerals are rows of digits, and reading one gives back its number.
-/

namespace ReadableRegex.Text

variable {base value : Nat}

theorem isDigit_digitOf (small : value < 10) : (digitOf value).isDigit = true := by
  have every : ∀ digit : Fin 10, (digitOf digit).isDigit = true := by decide
  exact every ⟨value, small⟩

theorem digitValue?_digitOf (known : base ≤ 16) (small : value < base) :
    digitValue? base (digitOf value) = some value := by
  have every : ∀ (base : Fin 17) (value : Fin 16), value.val < base.val →
      digitValue? base (digitOf value) = some value.val := by
    decide
  exact every ⟨base, by omega⟩ ⟨value, by omega⟩ small

theorem exists_digit_of_mem_numeral (valid : 2 ≤ base) {digit : Char}
    (member : digit ∈ numeral base value) : ∃ single < base, digit = digitOf single := by
  induction value using Nat.strongRecOn with
  | ind value inductionHypothesis =>
      rw [numeral] at member
      split at member
      · rename_i small
        exact ⟨value, by omega, List.mem_singleton.mp member⟩
      · rename_i large
        rcases List.mem_append.mp member with earlier | last
        · exact inductionHypothesis _ (Nat.div_lt_self (by omega) (by omega)) earlier
        · exact ⟨value % base, Nat.mod_lt value (by omega), List.mem_singleton.mp last⟩

theorem isDigit_of_mem_decimal {digit : Char} (member : digit ∈ decimal value) :
    digit.isDigit = true := by
  obtain ⟨single, small, rfl⟩ := exists_digit_of_mem_numeral (by decide) member
  exact isDigit_digitOf small

theorem numeral_ne_nil (base value : Nat) : numeral base value ≠ [] := by
  rw [numeral]
  split
  · simp
  · simp

theorem decimal_ne_nil (value : Nat) : decimal value ≠ [] :=
  numeral_ne_nil 10 value

/-- A row of digits is read from left to right. -/
theorem numberFrom?_append {accumulated before : Nat} (left right : Text)
    (read : numberFrom? base accumulated left = some before) :
    numberFrom? base accumulated (left ++ right) = numberFrom? base before right := by
  induction left generalizing accumulated with
  | nil =>
      cases read
      rfl
  | cons digit rest inductionHypothesis =>
      rw [List.cons_append, numberFrom?]
      rw [numberFrom?] at read
      cases value : digitValue? base digit with
      | none =>
          rw [value] at read
          cases read
      | some value =>
          simp only [value] at read
          exact inductionHypothesis read

theorem numberFrom?_numeral (valid : 2 ≤ base) (known : base ≤ 16) (value : Nat) :
    numberFrom? base 0 (numeral base value) = some value := by
  induction value using Nat.strongRecOn with
  | ind value inductionHypothesis =>
      rw [numeral]
      split
      · rename_i small
        have digit := digitValue?_digitOf known (show value < base by omega)
        simp [numberFrom?, digit]
      · rename_i large
        have shorter : value / base < value := Nat.div_lt_self (by omega) (by omega)
        have digit := digitValue?_digitOf known (Nat.mod_lt value (by omega))
        rw [numberFrom?_append _ _ (inductionHypothesis _ shorter)]
        simp only [numberFrom?, digit, Option.some.injEq]
        exact Nat.div_add_mod' value base

theorem number?_numeral (valid : 2 ≤ base) (known : base ≤ 16) (value : Nat) :
    number? base (numeral base value) = some value := by
  have present : (numeral base value).isEmpty = false :=
    List.isEmpty_eq_false_iff.mpr (numeral_ne_nil base value)
  unfold number?
  rw [present]
  exact numberFrom?_numeral valid known value

theorem number?_decimal (value : Nat) : number? 10 (decimal value) = some value :=
  number?_numeral (by decide) (by decide) value

end ReadableRegex.Text

import ReadableRegex.Text

/-!
Numerals in a base from 2 to 16, most significant digit first and letters in lower case.
Reading takes letters in either case.
-/

namespace ReadableRegex.Text

def digitOf (value : Nat) : Char :=
  if value < 10 then Char.ofNat (48 + value) else Char.ofNat (87 + value)

def digitValue? (base : Nat) (digit : Char) : Option Nat :=
  let code := digit.toNat
  let value :=
    if 48 ≤ code ∧ code ≤ 57 then code - 48
    else if 97 ≤ code ∧ code ≤ 102 then code - 87
    else if 65 ≤ code ∧ code ≤ 70 then code - 55
    else 16
  if value < base ∧ value < 16 then some value else none

/-- The numeral of `value`; the base is at least 2. -/
def numeral (base value : Nat) : Text :=
  if _small : value < base ∨ base < 2 then [digitOf value]
  else numeral base (value / base) ++ [digitOf (value % base)]
termination_by value
decreasing_by
  have _large : base ≤ value ∧ 2 ≤ base := by omega
  exact Nat.div_lt_self (by omega) (by omega)

/-- The number a row of digits stands for, continuing from `accumulated`. -/
def numberFrom? (base accumulated : Nat) : Text → Option Nat
  | [] => some accumulated
  | digit :: rest =>
      match digitValue? base digit with
      | some value => numberFrom? base (accumulated * base + value) rest
      | none => none

/-- The number of a numeral of at least one digit. -/
def number? (base : Nat) (text : Text) : Option Nat :=
  if text.isEmpty then none else numberFrom? base 0 text

def decimal (value : Nat) : Text :=
  numeral 10 value

end ReadableRegex.Text

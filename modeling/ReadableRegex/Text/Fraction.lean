import ReadableRegex.Text.Numeral

/-!
Binary floating-point numbers of 53 significant bits: how a decimal number is read as one, and
the text of one, with the fewest decimal digits that read back. Numbers from `0.00001` to below
`10 ^ 16` are written out with a decimal point, others with a power of ten. Everything is
computed with exact ratios of natural numbers.
-/

namespace ReadableRegex.Text.Fraction

/-- A ratio of two natural numbers, the lower one not zero. -/
structure Ratio where
  upper : Nat
  lower : Nat

namespace Ratio

def scale (ratio : Ratio) (base : Nat) (exponent : Int) : Ratio :=
  ⟨ratio.upper * Nat.pow base exponent.toNat, ratio.lower * Nat.pow base (-exponent).toNat⟩

def floor (ratio : Ratio) : Nat :=
  ratio.upper / ratio.lower

/-- The nearest natural number; of two equally near ones the even one. -/
def round (ratio : Ratio) : Nat :=
  let twice := 2 * (ratio.upper % ratio.lower)
  if twice < ratio.lower then ratio.floor
  else if ratio.lower < twice then ratio.floor + 1
  else ratio.floor + ratio.floor % 2

def le (left right : Ratio) : Bool :=
  left.upper * right.lower ≤ right.upper * left.lower

def lt (left right : Ratio) : Bool :=
  left.upper * right.lower < right.upper * left.lower

def mul (left right : Ratio) : Ratio :=
  ⟨left.upper * right.upper, left.lower * right.lower⟩

def div (left right : Ratio) : Ratio :=
  ⟨left.upper * right.lower, left.lower * right.upper⟩

end Ratio

/-- The binary exponents of a floating-point number start here. -/
def leastExponent : Int := -1074

/-- The number of `significand * 2 ^ exponent`. -/
structure Binary where
  significand : Nat
  exponent : Int

def Binary.ratio (number : Binary) : Ratio :=
  (Ratio.mk number.significand 1).scale 2 number.exponent

def nearest (ratio : Ratio) : Binary :=
  let guess : Int := (Nat.log2 ratio.upper : Int) - Nat.log2 ratio.lower - 53
  let fitted := if Nat.pow 2 53 ≤ (ratio.scale 2 (-guess)).floor then guess + 1 else guess
  let exponent := max fitted leastExponent
  ⟨(ratio.scale 2 (-exponent)).round, exponent⟩

/-- A decimal number of `digits * 10 ^ exponent`. -/
structure Decimal where
  digits : Nat
  exponent : Int
deriving DecidableEq, Repr

/-- The decimal with no more leading digits than 64 bits hold; the others are cut off. -/
def Decimal.cut (decimal : Decimal) : Decimal :=
  if _large : UInt64.size ≤ decimal.digits then
    Decimal.cut ⟨decimal.digits / 10, decimal.exponent + 1⟩
  else decimal
termination_by decimal.digits
decreasing_by
  have positive : 0 < decimal.digits := Nat.lt_of_lt_of_le (by decide) _large
  exact Nat.div_lt_self positive (by decide)

/-- The greatest power of ten that a number is divided by in one step. -/
def greatestPower : Nat := 308

def power (exponent : Nat) : Binary :=
  nearest ⟨Nat.pow 10 exponent, 1⟩

/-- The number a decimal is read as. Its digits are rounded first and then the product with the
power of ten, or the quotient; a quotient by more than the greatest power takes several steps. -/
def Decimal.read (decimal : Decimal) : Binary :=
  let cut := decimal.cut
  let significand := nearest ⟨cut.digits, 1⟩
  match cut.exponent with
  | .ofNat exponent => nearest (significand.ratio.mul (power exponent).ratio)
  | .negSucc exponent =>
      let shrunk := (List.range (exponent / greatestPower)).foldl
        (fun number _ => nearest (number.ratio.div (power greatestPower).ratio)) significand
      nearest (shrunk.ratio.div (power (exponent % greatestPower + 1)).ratio)

def Binary.quarters (number : Binary) (quarters : Nat) : Ratio :=
  (Ratio.mk quarters 1).scale 2 (number.exponent - 2)

/-- Whether a ratio rounds to the number. The ends of the interval do when the significand is
even; below a power of two the interval is half as wide. -/
def Binary.rounds (number : Binary) (ratio : Ratio) : Bool :=
  let narrow := number.significand = Nat.pow 2 52 ∧ leastExponent < number.exponent
  let low := number.quarters (4 * number.significand - if narrow then 1 else 2)
  let high := number.quarters (4 * number.significand + 2)
  if number.significand % 2 = 0 then low.le ratio && ratio.le high
  else low.lt ratio && ratio.lt high

/-- The decimal on the grid of one power of ten that reads back, the nearer of the two around
the number. -/
def Binary.onGrid? (number : Binary) (exponent : Int) : Option Decimal :=
  let value := number.quarters (4 * number.significand)
  let scaled := value.scale 10 (-exponent)
  let reads (digits : Nat) := number.rounds ((Ratio.mk digits 1).scale 10 exponent)
  let near := scaled.round
  let other := if near = scaled.floor then near + 1 else scaled.floor
  if near ≠ 0 && reads near then some ⟨near, exponent⟩
  else if other ≠ 0 && reads other then some ⟨other, exponent⟩
  else none

def Binary.coarsest (number : Binary) : Nat → Int → Decimal
  | 0, exponent => ⟨((number.quarters (4 * number.significand)).scale 10 (-exponent)).round, exponent⟩
  | grids + 1, exponent =>
      match number.onGrid? exponent with
      | some decimal => decimal
      | none => number.coarsest grids (exponent - 1)

/-- The shortest decimal that reads back as the number. -/
def Binary.shortest (number : Binary) : Decimal :=
  number.coarsest 640 309

/-- The exponents of a number's first digit for which it is written out in full. -/
def isWrittenOut (leading : Int) : Bool :=
  decide (-6 < leading) && decide (leading < 16)

def Decimal.writtenOut (decimal : Decimal) : Text :=
  let digits := Text.decimal decimal.digits
  let places := (-decimal.exponent).toNat
  if places = 0 then digits ++ List.replicate decimal.exponent.toNat '0' ++ ['.', '0']
  else
    let padded := List.replicate (places + 1 - digits.length) '0' ++ digits
    padded.take (padded.length - places) ++ '.' :: padded.drop (padded.length - places)

def Decimal.scientific (decimal : Decimal) : Text :=
  let digits := Text.decimal decimal.digits
  let leading := decimal.exponent + (digits.length - 1)
  let fraction := if digits.length = 1 then [] else '.' :: digits.drop 1
  let sign := if leading < 0 then '-' else '+'
  digits.take 1 ++ fraction ++ 'e' :: sign :: Text.decimal leading.natAbs

def Decimal.text (decimal : Decimal) : Text :=
  let leading := decimal.exponent + ((Text.decimal decimal.digits).length - 1)
  if isWrittenOut leading then decimal.writtenOut else decimal.scientific

def text (negative : Bool) (decimal : Decimal) : Text :=
  let number := decimal.read
  (if negative then ['-'] else []) ++
    if number.significand = 0 then ['0', '.', '0'] else number.shortest.text

end ReadableRegex.Text.Fraction

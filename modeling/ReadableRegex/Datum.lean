import ReadableRegex.Text.Fraction
import ReadableRegex.Text.Quoted

/-!
Plain data as it is stored: a tree of lists and records over numbers, texts and switches.
-/

namespace ReadableRegex

inductive Datum where
  | null
  | switch (value : Bool)
  | integer (value : Int)
  /-- A number stored with a decimal point or a power of ten, and its sign. -/
  | fraction (negative : Bool) (value : Text.Fraction.Decimal)
  | text (value : Text)
  | list (items : List Datum)
  | record (fields : List (Text × Datum))
deriving Inhabited

namespace Datum

/-- An integer that fits 64 bits, signed or unsigned. Larger ones are kept as floating-point
numbers only. -/
def integer? : Datum → Option Int
  | .integer value => if -9223372036854775808 ≤ value ∧ value < 18446744073709551616 then some value else none
  | _ => none

def signed (value : Int) : Text :=
  (if value < 0 then ['-'] else []) ++ Text.decimal value.natAbs

/-- What kind of value was found, for messages. -/
def found (datum : Datum) : Text :=
  match datum with
  | .null => "null".toList
  | .switch true => "boolean `true`".toList
  | .switch false => "boolean `false`".toList
  | .integer value =>
      match datum.integer? with
      | some value => "integer `".toList ++ signed value ++ "`".toList
      | none =>
          "floating point `".toList ++ Text.Fraction.text (value < 0) ⟨value.natAbs, 0⟩ ++
            "`".toList
  | .fraction negative value =>
      "floating point `".toList ++ Text.Fraction.text negative value ++ "`".toList
  | .text value => "string ".toList ++ Text.quoted value
  | .list _ => "sequence".toList
  | .record _ => "map".toList

end Datum
end ReadableRegex

import ReadableRegex.Text.Numeral

/-!
Repetition operators with their bounds, and their pattern text.
-/

namespace ReadableRegex

inductive Quantifier where
  | optional
  | oneOrMore
  | exactly (count : UInt32)
  | atLeast (lower : UInt32)
  | between (lower upper : UInt32)
deriving DecidableEq, Repr

namespace Quantifier

/-- The operator of optional bounds: without any, one or more; an upper bound alone counts
from zero. -/
def ofBounds : Option UInt32 → Option UInt32 → Quantifier
  | none, none => .oneOrMore
  | some lower, none => .atLeast lower
  | lower, some upper => .between (lower.getD 0) upper

/-- The operator that repeats exactly `lower` times, or up to `upper` times. -/
def times (lower : UInt32) : Option UInt32 → Quantifier
  | some upper => .between lower upper
  | none => .exactly lower

def minimum : Quantifier → Nat
  | .optional => 0
  | .oneOrMore => 1
  | .exactly count => count.toNat
  | .atLeast lower => lower.toNat
  | .between lower _ => lower.toNat

def maximum? : Quantifier → Option Nat
  | .optional => some 1
  | .oneOrMore => none
  | .exactly count => some count.toNat
  | .atLeast _ => none
  | .between _ upper => some upper.toNat

def text : Quantifier → Text
  | .optional => ['?']
  | .oneOrMore => ['+']
  | .exactly count => '\x7b' :: Text.decimal count.toNat ++ ['\x7d']
  | .atLeast lower => '\x7b' :: Text.decimal lower.toNat ++ [',', '\x7d']
  | .between lower upper =>
      '\x7b' :: Text.decimal lower.toNat ++ ',' :: Text.decimal upper.toNat ++ ['\x7d']

def name : Quantifier → Text
  | .optional => "Optional".toList
  | .oneOrMore => "OneOrMore".toList
  | .exactly count => "Exactly(".toList ++ Text.decimal count.toNat ++ [')']
  | .atLeast lower => "AtLeast(".toList ++ Text.decimal lower.toNat ++ [')']
  | .between lower upper =>
      "Between(".toList ++ Text.decimal lower.toNat ++ [',', ' '] ++
        Text.decimal upper.toNat ++ [')']

end Quantifier
end ReadableRegex

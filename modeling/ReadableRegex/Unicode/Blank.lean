import ReadableRegex.Unicode.Ranges

/-!
White space: the Unicode property White_Space, which the blank class of a pattern,
counted repetitions and flag names all use.
-/

namespace ReadableRegex.Unicode

/-- The characters with the property White_Space, in ascending order. -/
def blankRanges : List (Nat × Nat) :=
  [
    (0x9, 0xD), (0x20, 0x20), (0x85, 0x85), (0xA0, 0xA0), (0x1680, 0x1680), (0x2000, 0x200A),
    (0x2028, 0x2029), (0x202F, 0x202F), (0x205F, 0x205F), (0x3000, 0x3000)
  ]

def isBlank (character : Char) : Bool :=
  inRanges blankRanges character.toNat

end ReadableRegex.Unicode

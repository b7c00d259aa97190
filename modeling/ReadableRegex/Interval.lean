/-!
Closed intervals of characters. Surrogates are code points but no characters, so the character
after U+D7FF is U+E000, although code points lie between the two.
-/

namespace ReadableRegex

/-- The characters from one end to the other; none if the ends are out of order. -/
structure Interval where
  low : Char
  high : Char
deriving DecidableEq, Repr

def lastCharacter : Char := Char.ofNat 0x10FFFF

def belowSurrogates : Char := Char.ofNat 0xD7FF

def aboveSurrogates : Char := Char.ofNat 0xE000

/-- The first character at a code point or after it. -/
def characterFrom (point : Nat) : Char :=
  if 0xD800 ≤ point ∧ point ≤ 0xDFFF then aboveSurrogates else Char.ofNat point

/-- The character before another one that is not the least. -/
def characterBefore (character : Char) : Char :=
  if character = aboveSurrogates then belowSurrogates else Char.ofNat (character.toNat - 1)

def lesser (left right : Char) : Char :=
  if left.toNat ≤ right.toNat then left else right

def greater (left right : Char) : Char :=
  if left.toNat ≤ right.toNat then right else left

namespace Interval

def holds (interval : Interval) (character : Char) : Bool :=
  decide (interval.low.toNat ≤ character.toNat) && decide (character.toNat ≤ interval.high.toNat)

def single (character : Char) : Interval := ⟨character, character⟩

def overlap (left right : Interval) : Interval :=
  ⟨greater left.low right.low, lesser left.high right.high⟩

def inOrder (interval : Interval) : Interval :=
  ⟨lesser interval.low interval.high, greater interval.low interval.high⟩

end Interval

/-! ### Code points -/

theorem toNat_ofNat {point : Nat} (valid : point.isValidChar) :
    (Char.ofNat point).toNat = point := by
  have same : Char.ofNat point = Char.ofNatAux point valid := dif_pos valid
  rw [same]
  rfl

theorem toNat_lastCharacter : lastCharacter.toNat = 0x10FFFF := by decide

theorem toNat_belowSurrogates : belowSurrogates.toNat = 0xD7FF := by decide

theorem toNat_aboveSurrogates : aboveSurrogates.toNat = 0xE000 := by decide

/-- No character is a surrogate, and none is beyond the greatest one. -/
theorem toNat_valid (character : Char) :
    character.toNat ≤ 0xD7FF ∨ (0xE000 ≤ character.toNat ∧ character.toNat ≤ 0x10FFFF) := by
  have valid := character.valid
  simp only [UInt32.isValidChar, Nat.isValidChar] at valid
  simp only [Char.toNat]
  omega

theorem toNat_lesser (left right : Char) :
    (lesser left right).toNat = min left.toNat right.toNat := by
  unfold lesser
  split <;> omega

theorem toNat_greater (left right : Char) :
    (greater left right).toNat = max left.toNat right.toNat := by
  unfold greater
  split <;> omega

theorem toNat_characterFrom {point : Nat} (within : point ≤ 0x10FFFF) :
    (characterFrom point).toNat =
      if 0xD800 ≤ point ∧ point ≤ 0xDFFF then 0xE000 else point := by
  unfold characterFrom
  split
  · exact toNat_aboveSurrogates
  · exact toNat_ofNat (by simp only [Nat.isValidChar]; omega)

theorem toNat_characterBefore {character : Char} (above : 0 < character.toNat) :
    (characterBefore character).toNat =
      if character.toNat = 0xE000 then 0xD7FF else character.toNat - 1 := by
  have valid := toNat_valid character
  by_cases first : character.toNat = 0xE000
  · have same : character = aboveSurrogates := Char.toNat_inj.mp first
    simp only [characterBefore, same, if_true, toNat_aboveSurrogates, toNat_belowSurrogates]
  · have other : character ≠ aboveSurrogates := fun same => first (same ▸ toNat_aboveSurrogates)
    simp only [characterBefore, other, first, if_false]
    exact toNat_ofNat (by simp only [Nat.isValidChar]; omega)

namespace Interval

theorem holds_iff {interval : Interval} {character : Char} :
    interval.holds character = true ↔
      interval.low.toNat ≤ character.toNat ∧ character.toNat ≤ interval.high.toNat := by
  rw [holds, Bool.and_eq_true, decide_eq_true_eq, decide_eq_true_eq]

theorem holds_eq_false_iff {interval : Interval} {character : Char} :
    interval.holds character = false ↔
      character.toNat < interval.low.toNat ∨ interval.high.toNat < character.toNat := by
  rw [← Bool.not_eq_true, holds_iff]
  omega

theorem holds_single (other character : Char) :
    (single other).holds character = (other == character) := by
  have same : other = character ↔ other.toNat = character.toNat := Char.toNat_inj.symm
  rw [Bool.eq_iff_iff, holds_iff, beq_iff_eq, same]
  simp only [single]
  omega

end Interval
end ReadableRegex

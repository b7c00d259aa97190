/-!
Character properties as ascending tables of closed code point ranges.
-/

namespace ReadableRegex.Unicode

/-- Membership in an ascending table; the search ends at the first range that starts too late. -/
def inRanges : List (Nat × Nat) → Nat → Bool
  | [], _ => false
  | (first, last) :: rest, point =>
      if point < first then false
      else if point ≤ last then true
      else inRanges rest point

end ReadableRegex.Unicode

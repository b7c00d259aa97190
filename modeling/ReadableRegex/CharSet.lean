import ReadableRegex.Interval

/-!
Sets of characters as ascending lists of intervals. A set made from intervals joins those that
overlap or touch, that is, leave no code point free between them. A complement has one interval
for each gap and does not join them, so two sets of the same characters need not be equal.
-/

namespace ReadableRegex

/-- Every interval has its ends in order, begins at `bound` or later, and ends before the next
begins. -/
def Ascending (bound : Nat) : List Interval → Prop
  | [] => True
  | ⟨low, high⟩ :: rest =>
      bound ≤ low.toNat ∧ low.toNat ≤ high.toNat ∧ Ascending (high.toNat + 1) rest

structure CharSet where
  intervals : List Interval
  ascending : Ascending 0 intervals
deriving DecidableEq

theorem Ascending.mono {smaller bound : Nat} {intervals : List Interval}
    (le : smaller ≤ bound) (ascending : Ascending bound intervals) :
    Ascending smaller intervals := by
  cases intervals with
  | nil => trivial
  | cons interval rest => exact ⟨Nat.le_trans le ascending.1, ascending.2⟩

/-- The intervals with one more, which is joined with those that it overlaps or touches. -/
def insertInterval (first last : Char) : List Interval → List Interval
  | [] => [⟨first, last⟩]
  | ⟨low, high⟩ :: rest =>
      if last.toNat + 1 < low.toNat then ⟨first, last⟩ :: ⟨low, high⟩ :: rest
      else if high.toNat + 1 < first.toNat then ⟨low, high⟩ :: insertInterval first last rest
      else insertInterval (lesser first low) (greater last high) rest

theorem Ascending.insertInterval {bound : Nat} {first last : Char} {intervals : List Interval}
    (within : bound ≤ first.toNat) (ordered : first.toNat ≤ last.toNat)
    (ascending : Ascending bound intervals) :
    Ascending bound (insertInterval first last intervals) := by
  induction intervals generalizing bound first last with
  | nil => exact ⟨within, ordered, trivial⟩
  | cons interval rest inductionHypothesis =>
      obtain ⟨low, high⟩ := interval
      obtain ⟨boundLe, lowLe, restAscending⟩ := ascending
      unfold ReadableRegex.insertInterval
      split
      · exact ⟨within, ordered, by omega, lowLe, restAscending⟩
      · split
        · exact ⟨boundLe, lowLe, inductionHypothesis (by omega) ordered restAscending⟩
        · have least := toNat_lesser first low
          have greatest := toNat_greater last high
          exact inductionHypothesis (by omega) (by omega) (restAscending.mono (by omega))

/-- The gaps from the code point `start` on: before, between and after intervals. A gap of
nothing but surrogates has no character: its ends are the two characters around it, out of
order. -/
def gaps (start : Nat) : List Interval → List Interval
  | [] => if start ≤ 0x10FFFF then [⟨characterFrom start, lastCharacter⟩] else []
  | ⟨low, high⟩ :: rest =>
      if start < low.toNat then
        ⟨characterFrom start, characterBefore low⟩ :: gaps (high.toNat + 1) rest
      else gaps (high.toNat + 1) rest

theorem Ascending.gaps {bound start : Nat} {intervals : List Interval}
    (within : bound ≤ start) (around : 0xD800 ≤ start ∧ start ≤ 0xDFFF → bound ≤ 0xD7FF)
    (ascending : Ascending start intervals) :
    Ascending bound ((gaps start intervals).map .inOrder) := by
  induction intervals generalizing bound start with
  | nil =>
      unfold ReadableRegex.gaps
      split
      · next inside =>
          have first := toNat_characterFrom inside
          simp only [List.map_cons, List.map_nil, Interval.inOrder, Ascending, toNat_lesser,
            toNat_greater, toNat_lastCharacter, and_true]
          split at first <;> omega
      · trivial
  | cons interval rest inductionHypothesis =>
      obtain ⟨low, high⟩ := interval
      obtain ⟨startLe, lowLe, restAscending⟩ := ascending
      have lowValid := toNat_valid low
      have highValid := toNat_valid high
      unfold ReadableRegex.gaps
      split
      · have first := @toNat_characterFrom start (by omega)
        have last := @toNat_characterBefore low (by omega)
        simp only [List.map_cons, Interval.inOrder, Ascending, toNat_lesser, toNat_greater]
        refine ⟨?_, by omega, inductionHypothesis ?_ ?_ restAscending⟩
        all_goals split at first <;> split at last <;> omega
      · exact inductionHypothesis (by omega) (by omega) restAscending

namespace CharSet

def empty : CharSet := ⟨[], trivial⟩

/-- Membership in ascending intervals; the search ends at the first one that starts too late. -/
def holdsIn : List Interval → Char → Bool
  | [], _ => false
  | ⟨low, high⟩ :: rest, character =>
      if character.toNat < low.toNat then false
      else if character.toNat ≤ high.toNat then true
      else holdsIn rest character

def holds (set : CharSet) (character : Char) : Bool :=
  holdsIn set.intervals character

def insert (interval : Interval) (set : CharSet) : CharSet :=
  if ordered : interval.low.toNat ≤ interval.high.toNat then
    ⟨insertInterval interval.low interval.high set.intervals,
      set.ascending.insertInterval (Nat.zero_le _) ordered⟩
  else set

def ofIntervals (intervals : List Interval) : CharSet :=
  intervals.foldr insert empty

def ofPoints (ranges : List (Nat × Nat)) : CharSet :=
  ofIntervals (ranges.map (fun range => ⟨Char.ofNat range.1, Char.ofNat range.2⟩))

def ofChars (characters : List Char) : CharSet :=
  ofIntervals (characters.map .single)

def joined (set : CharSet) : CharSet :=
  ofIntervals set.intervals

def union (left right : CharSet) : CharSet :=
  ofIntervals (left.intervals ++ right.intervals)

/-- The characters that are not in the set, one interval for each gap. A gap of nothing but
surrogates becomes the interval of the two characters around it, although the set holds both. -/
def complement (set : CharSet) : CharSet :=
  ⟨(gaps 0 set.intervals).map .inOrder,
    set.ascending.gaps (Nat.le_refl 0) (fun _ => Nat.zero_le _)⟩

def overlaps (left right : List Interval) : List Interval :=
  left.flatMap (fun interval => right.map interval.overlap)

def intersection (left right : CharSet) : CharSet :=
  ofIntervals (overlaps left.intervals right.intervals)

def difference (left right : CharSet) : CharSet :=
  ofIntervals (overlaps left.intervals (gaps 0 right.intervals))

def symmetricDifference (left right : CharSet) : CharSet :=
  (left.union right).difference (left.intersection right)

def negateIf (negated : Bool) (set : CharSet) : CharSet :=
  if negated then set.complement else set

def single? (set : CharSet) : Option Char :=
  match set.intervals with
  | [⟨first, last⟩] => if first = last then some first else none
  | _ => none

def adjoin (characters : List Char) (set : CharSet) : CharSet :=
  (characters.filter (fun character => !set.holds character)).foldr
    (fun character set => set.insert (.single character)) set

/-- The set closed under a relation that pairs some code points with a representative: with a
character it holds every one of the same representative. -/
def closeUnder (pairs : List (Nat × Nat)) (set : CharSet) : CharSet :=
  let folded := set.adjoin
    ((pairs.filter (fun pair => set.holds (Char.ofNat pair.1))).map (Char.ofNat ·.2))
  folded.adjoin
    ((pairs.filter (fun pair => folded.holds (Char.ofNat pair.2))).map (Char.ofNat ·.1))

end CharSet
end ReadableRegex

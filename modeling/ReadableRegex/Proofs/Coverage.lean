import ReadableRegex.CharSet.Members

/-!
Sets made from intervals are equal if the intervals cover the same code points. Surrogates count
here: they are no characters, but they keep the intervals on both sides apart.
-/

namespace ReadableRegex

def Covers (intervals : List Interval) (point : Nat) : Prop :=
  ∃ interval ∈ intervals, interval.low.toNat ≤ point ∧ point ≤ interval.high.toNat

/-- Ascending intervals with a free code point between any two. -/
def Apart (bound : Nat) : List Interval → Prop
  | [] => True
  | ⟨low, high⟩ :: rest =>
      bound ≤ low.toNat ∧ low.toNat ≤ high.toNat ∧ Apart (high.toNat + 2) rest

theorem covers_nil (point : Nat) : ¬ Covers [] point := by
  rintro ⟨interval, member, _⟩
  cases member

theorem covers_cons (interval : Interval) (rest : List Interval) (point : Nat) :
    Covers (interval :: rest) point ↔
      (interval.low.toNat ≤ point ∧ point ≤ interval.high.toNat) ∨ Covers rest point := by
  simp only [Covers, List.mem_cons, or_and_right, exists_or, exists_eq_left]

theorem covers_append (left right : List Interval) (point : Nat) :
    Covers (left ++ right) point ↔ Covers left point ∨ Covers right point := by
  simp only [Covers, List.mem_append, or_and_right, exists_or]

namespace Apart

theorem mono {smaller bound : Nat} {intervals : List Interval} (ordered : smaller ≤ bound)
    (apart : Apart bound intervals) : Apart smaller intervals := by
  cases intervals with
  | nil => trivial
  | cons interval rest => exact ⟨Nat.le_trans ordered apart.1, apart.2⟩

theorem le_of_covers {bound point : Nat} {intervals : List Interval}
    (apart : Apart bound intervals) (covered : Covers intervals point) : bound ≤ point := by
  induction intervals generalizing bound with
  | nil => exact absurd covered (covers_nil point)
  | cons interval rest inductionHypothesis =>
      obtain ⟨boundLe, lowLe, restApart⟩ := apart
      rcases (covers_cons interval rest point).mp covered with inside | later
      · omega
      · have behind := inductionHypothesis restApart later
        omega

theorem insertInterval {bound : Nat} {first last : Char} {intervals : List Interval}
    (within : bound ≤ first.toNat) (ordered : first.toNat ≤ last.toNat)
    (apart : Apart bound intervals) : Apart bound (insertInterval first last intervals) := by
  induction intervals generalizing bound first last with
  | nil => exact ⟨within, ordered, trivial⟩
  | cons interval rest inductionHypothesis =>
      obtain ⟨low, high⟩ := interval
      obtain ⟨boundLe, lowLe, restApart⟩ := apart
      unfold ReadableRegex.insertInterval
      split
      · exact ⟨within, ordered, by omega, lowLe, restApart⟩
      · split
        · exact ⟨boundLe, lowLe, inductionHypothesis (by omega) ordered restApart⟩
        · have least := toNat_lesser first low
          have greatest := toNat_greater last high
          exact inductionHypothesis (by omega) (by omega) (restApart.mono (by omega))

end Apart

theorem covers_insertInterval {first last : Char} (ordered : first.toNat ≤ last.toNat)
    {intervals : List Interval} {bound : Nat} (apart : Apart bound intervals) (point : Nat) :
    Covers (insertInterval first last intervals) point ↔
      (first.toNat ≤ point ∧ point ≤ last.toNat) ∨ Covers intervals point := by
  induction intervals generalizing bound first last with
  | nil => simp only [insertInterval, covers_cons]
  | cons interval rest inductionHypothesis =>
      obtain ⟨low, high⟩ := interval
      obtain ⟨boundLe, lowLe, restApart⟩ := apart
      unfold insertInterval
      split
      · simp only [covers_cons]
      · split
        · simp only [covers_cons, inductionHypothesis ordered restApart]
          exact or_left_comm
        · have least := toNat_lesser first low
          have greatest := toNat_greater last high
          rw [inductionHypothesis (by omega) restApart, covers_cons, least, greatest]
          simp only
          constructor
          · rintro (inside | later)
            · omega
            · exact Or.inr (Or.inr later)
          · rintro (inside | inside | later)
            · omega
            · omega
            · exact Or.inr later

section Uniqueness

variable {bound other : Nat} {left right : Interval} {lefts rights : List Interval}

theorem Apart.low_le (leftApart : Apart bound (left :: lefts))
    (rightApart : Apart other (right :: rights))
    (covered : ∀ point, Covers (right :: rights) point → Covers (left :: lefts) point) :
    left.low.toNat ≤ right.low.toNat := by
  have first : Covers (right :: rights) right.low.toNat :=
    (covers_cons ..).mpr (Or.inl ⟨Nat.le_refl _, rightApart.2.1⟩)
  exact (show Apart left.low.toNat (left :: lefts) from ⟨Nat.le_refl _, leftApart.2⟩).le_of_covers
    (covered _ first)

theorem Apart.high_le (leftApart : Apart bound (left :: lefts)) (sameLow : left.low = right.low)
    (covered : ∀ point, Covers (right :: rights) point → Covers (left :: lefts) point) :
    right.high.toNat ≤ left.high.toNat := by
  apply Nat.le_of_not_lt
  intro shorter
  have lowLe : left.low.toNat ≤ left.high.toNat := leftApart.2.1
  have behind : Covers (right :: rights) (left.high.toNat + 1) :=
    (covers_cons ..).mpr (Or.inl (by rw [← sameLow]; omega))
  rcases (covers_cons ..).mp (covered _ behind) with inside | later
  · omega
  · have free : left.high.toNat + 2 ≤ left.high.toNat + 1 := leftApart.2.2.le_of_covers later
    omega

theorem Apart.covers_tail (leftApart : Apart bound (left :: lefts))
    (sameHigh : left.high = right.high)
    (covered : ∀ point, Covers (left :: lefts) point → Covers (right :: rights) point)
    {point : Nat} (later : Covers lefts point) : Covers rights point := by
  have free : left.high.toNat + 2 ≤ point := leftApart.2.2.le_of_covers later
  rcases (covers_cons ..).mp (covered _ ((covers_cons ..).mpr (Or.inr later))) with inside | found
  · rw [← sameHigh] at inside
    omega
  · exact found

end Uniqueness

/-- Intervals that are apart are determined by what they cover. -/
theorem Apart.eq_of_covers {bound : Nat} {left right : List Interval}
    (leftApart : Apart bound left) (rightApart : Apart bound right)
    (same : ∀ point, Covers left point ↔ Covers right point) : left = right := by
  induction left generalizing bound right with
  | nil =>
      cases right with
      | nil => rfl
      | cons interval rest =>
          have first : Covers (interval :: rest) interval.low.toNat :=
            (covers_cons ..).mpr (Or.inl ⟨Nat.le_refl _, rightApart.2.1⟩)
          exact absurd ((same _).mpr first) (covers_nil _)
  | cons interval rest inductionHypothesis =>
      cases right with
      | nil =>
          have first : Covers (interval :: rest) interval.low.toNat :=
            (covers_cons ..).mpr (Or.inl ⟨Nat.le_refl _, leftApart.2.1⟩)
          exact absurd ((same _).mp first) (covers_nil _)
      | cons other others =>
          have forward := fun point => (same point).mp
          have backward := fun point => (same point).mpr
          have sameLow : interval.low = other.low := Char.toNat_inj.mp (Nat.le_antisymm
            (leftApart.low_le rightApart backward) (rightApart.low_le leftApart forward))
          have sameHigh : interval.high = other.high := Char.toNat_inj.mp (Nat.le_antisymm
            (rightApart.high_le sameLow.symm forward)
            (leftApart.high_le sameLow backward))
          have sameInterval : interval = other := by
            cases interval
            cases other
            simp_all
          subst sameInterval
          have sameRest (point : Nat) : Covers rest point ↔ Covers others point :=
            ⟨leftApart.covers_tail rfl forward, rightApart.covers_tail rfl backward⟩
          rw [inductionHypothesis leftApart.2.2 rightApart.2.2 sameRest]

namespace CharSet

theorem apart_ofIntervals (intervals : List Interval) :
    Apart 0 (ofIntervals intervals).intervals := by
  unfold ofIntervals
  induction intervals with
  | nil => trivial
  | cons interval rest inductionHypothesis =>
      rw [List.foldr_cons]
      unfold insert
      split
      · rename_i ordered
        exact inductionHypothesis.insertInterval (Nat.zero_le _) ordered
      · exact inductionHypothesis

theorem covers_ofIntervals (intervals : List Interval) (point : Nat) :
    Covers (ofIntervals intervals).intervals point ↔ Covers intervals point := by
  induction intervals with
  | nil => exact Iff.rfl
  | cons interval rest inductionHypothesis =>
      have apart := apart_ofIntervals rest
      have unfolded : ofIntervals (interval :: rest) = (ofIntervals rest).insert interval := rfl
      rw [covers_cons, ← inductionHypothesis, unfolded]
      unfold insert
      split
      · rename_i ordered
        exact covers_insertInterval ordered apart point
      · rename_i crossed
        constructor
        · exact Or.inr
        · rintro (inside | later)
          · omega
          · exact later

/-- Sets made from intervals are equal if the intervals cover the same code points. -/
theorem ofIntervals_eq_of_covers {left right : List Interval}
    (same : ∀ point, Covers left point ↔ Covers right point) :
    ofIntervals left = ofIntervals right := by
  have intervals : (ofIntervals left).intervals = (ofIntervals right).intervals := by
    refine (apart_ofIntervals left).eq_of_covers (apart_ofIntervals right) ?_
    intro point
    rw [covers_ofIntervals, covers_ofIntervals]
    exact same point
  cases leftSet : ofIntervals left with
  | mk leftIntervals leftAscending =>
      cases rightSet : ofIntervals right with
      | mk rightIntervals rightAscending =>
          rw [leftSet, rightSet] at intervals
          subst intervals
          rfl

theorem joined_ofIntervals (intervals : List Interval) :
    (ofIntervals intervals).joined = ofIntervals intervals :=
  ofIntervals_eq_of_covers (covers_ofIntervals intervals)

theorem union_ofIntervals (left right : List Interval) :
    (ofIntervals left).union (ofIntervals right) = ofIntervals (left ++ right) := by
  refine ofIntervals_eq_of_covers ?_
  intro point
  rw [covers_append, covers_append, covers_ofIntervals, covers_ofIntervals]

theorem ofIntervals_append_comm (left right : List Interval) :
    ofIntervals (left ++ right) = ofIntervals (right ++ left) := by
  refine ofIntervals_eq_of_covers ?_
  intro point
  rw [covers_append, covers_append]
  exact or_comm

theorem ofIntervals_reverse (intervals : List Interval) :
    ofIntervals intervals.reverse = ofIntervals intervals := by
  refine ofIntervals_eq_of_covers ?_
  intro point
  simp only [Covers, List.mem_reverse]

end CharSet
end ReadableRegex

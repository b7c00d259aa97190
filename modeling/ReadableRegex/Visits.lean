/-!
Marks on the pairs of a code place and a text position that a search has seen. Each position has
a row of words with one bit for each place. Rows and words are added as the search gets further,
and a whole row can be dropped. The number of pairs still unmarked goes down with every new mark,
which is what ends a search.
-/

namespace ReadableRegex

/-- The marks of a search through code of `places` instructions. -/
structure Visits (places : Nat) where
  rows : Array (Array Nat)

namespace Visits

variable {places : Nat}

def wordBits : Nat := 32

def blank (places : Nat) : Visits places :=
  ⟨#[]⟩

@[inline]
def has (visits : Visits places) (place : Fin places) (position : Nat) : Bool :=
  ((visits.rows.getD position #[]).getD (place / wordBits) 0).testBit (place % wordBits)

/-- The items, with the filler behind them so that there are more than `index`. -/
def padded {α : Type} (items : Array α) (filler : α) (index : Nat) : Array α :=
  if index < items.size then items else padded (items.push filler) filler index
termination_by index + 1 - items.size
decreasing_by
  rw [Array.size_push]
  omega

/-- The item at the index changed, where items beyond the last one count as the filler. -/
@[inline]
def changed {α : Type} (items : Array α) (filler : α) (index : Nat) (change : α → α) : Array α :=
  (padded items filler index).modify index change

def add (visits : Visits places) (place : Fin places) (position : Nat) : Visits places :=
  ⟨changed visits.rows #[] position (fun row =>
    changed row 0 (place / wordBits) (fun word => word ||| 1 <<< (place % wordBits)))⟩

def drop (visits : Visits places) (position : Nat) : Visits places :=
  ⟨changed visits.rows #[] position (fun _ => #[])⟩

theorem has_blank (place : Fin places) (position : Nat) :
    (blank places).has place position = false := by
  simp [has, blank]

theorem lt_size_padded {α : Type} (items : Array α) (filler : α) (index : Nat) :
    index < (padded items filler index).size := by
  fun_induction padded items filler index with
  | case1 items within => exact within
  | case2 items beyond inductionHypothesis => exact inductionHypothesis

theorem getD_push {α : Type} (items : Array α) (filler : α) (index : Nat) :
    (items.push filler).getD index filler = items.getD index filler := by
  simp only [Array.getD_eq_getD_getElem?, Array.getElem?_push]
  split
  · rename_i last
    rw [last, Array.getElem?_eq_none (Nat.le_refl _)]
    rfl
  · rfl

theorem getD_padded {α : Type} (items : Array α) (filler : α) (index other : Nat) :
    (padded items filler index).getD other filler = items.getD other filler := by
  fun_induction padded items filler index with
  | case1 items within => rfl
  | case2 items beyond inductionHypothesis => rw [inductionHypothesis, getD_push]

theorem getD_changed {α : Type} (items : Array α) (filler : α) (index other : Nat)
    (change : α → α) :
    (changed items filler index change).getD other filler =
      if index = other then change (items.getD other filler) else items.getD other filler := by
  have within := lt_size_padded items filler index
  have same := getD_padded items filler index other
  unfold changed
  rw [Array.getD_eq_getD_getElem?] at same ⊢
  rw [Array.getElem?_modify]
  split
  · rename_i equal
    subst equal
    rw [Array.getElem?_eq_getElem within] at same ⊢
    exact congrArg change same
  · exact same

theorem has_add (visits : Visits places) (place other : Fin places) (position elsewhere : Nat) :
    (visits.add place position).has other elsewhere =
      (visits.has other elsewhere ||
        (decide (place = other) && decide (position = elsewhere))) := by
  unfold has add
  simp only [getD_changed]
  by_cases samePosition : position = elsewhere
  · rw [if_pos samePosition, decide_eq_true samePosition, Bool.and_true]
    simp only [getD_changed]
    split
    · rename_i sameWord
      rw [Nat.testBit_or, Nat.one_shiftLeft, Nat.testBit_two_pow]
      congr 1
      rw [decide_eq_decide]
      constructor
      · intro sameBit
        apply Fin.ext
        rw [← Nat.div_add_mod place wordBits, sameWord, sameBit, Nat.div_add_mod]
      · intro same
        rw [same]
    · rename_i otherWord
      have apart : place ≠ other := fun same => otherWord (same ▸ rfl)
      rw [decide_eq_false apart, Bool.or_false]
  · rw [if_neg samePosition, decide_eq_false samePosition, Bool.and_false, Bool.or_false]

theorem has_drop (visits : Visits places) (other : Fin places) (position elsewhere : Nat) :
    (visits.drop position).has other elsewhere =
      (visits.has other elsewhere && !decide (position = elsewhere)) := by
  unfold has drop
  simp only [getD_changed]
  split
  · rename_i same
    simp [same]
  · rename_i apart
    rw [decide_eq_false apart, Bool.not_false, Bool.and_true]

/-- All pairs of a place and a position up to the limit. -/
def pairs (places limit : Nat) : List (Fin places × Nat) :=
  (List.finRange places).flatMap (fun place =>
    (List.range (limit + 1)).map (fun position => (place, position)))

def unmarked (visits : Visits places) (limit : Nat) : Nat :=
  (pairs places limit).countP (fun pair => !visits.has pair.1 pair.2)

theorem mem_pairs {limit : Nat} (place : Fin places) {position : Nat} (within : position ≤ limit) :
    (place, position) ∈ pairs places limit := by
  simp only [pairs, List.mem_flatMap, List.mem_map, List.mem_range]
  exact ⟨place, List.mem_finRange place, position, by omega, rfl⟩

theorem countP_lt_of_mem {α : Type} {loose strict : α → Bool} {items : List α} {item : α}
    (implies : ∀ other, strict other = true → loose other = true) (member : item ∈ items)
    (counted : loose item = true) (rejected : strict item = false) :
    items.countP strict < items.countP loose := by
  induction items with
  | nil => cases member
  | cons head tail inductionHypothesis =>
      have tailLe : tail.countP strict ≤ tail.countP loose :=
        List.countP_mono_left (fun other _ holds => implies other holds)
      rcases List.mem_cons.mp member with atHead | inTail
      · subst atHead
        rw [List.countP_cons_of_pos counted, List.countP_cons_of_neg (by simp [rejected])]
        omega
      · have tailLt := inductionHypothesis inTail
        rw [List.countP_cons, List.countP_cons]
        have headLe : (if strict head = true then 1 else 0) ≤ (if loose head = true then 1 else 0) := by
          by_cases strictHead : strict head = true
          · simp [strictHead, implies head strictHead]
          · simp [strictHead]
        omega

/-- A new mark leaves fewer pairs unmarked. -/
theorem unmarked_add_lt {visits : Visits places} {place : Fin places} {position limit : Nat}
    (within : position ≤ limit) (fresh : visits.has place position = false) :
    (visits.add place position).unmarked limit < visits.unmarked limit := by
  refine countP_lt_of_mem ?_ (mem_pairs place within) ?_ ?_
  · intro other unseen
    rw [has_add] at unseen
    simp at unseen
    simp [unseen.1]
  · simp [fresh]
  · simp [has_add]

end Visits
end ReadableRegex

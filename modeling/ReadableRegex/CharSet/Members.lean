import ReadableRegex.CharSet

/-!
The members of sets of characters, one statement for each operation. All of them hold at every
character but the one on complements: where one interval of a set ends right below the surrogates
and another begins right above them, the complement holds these two characters as the set does.
-/

namespace ReadableRegex.CharSet

theorem any_eq_false_of_lt {bound : Nat} {intervals : List Interval} {character : Char}
    (ascending : Ascending bound intervals) (before : character.toNat < bound) :
    intervals.any (·.holds character) = false := by
  induction intervals generalizing bound with
  | nil => rfl
  | cons interval rest inductionHypothesis =>
      obtain ⟨boundLe, lowLe, restAscending⟩ := ascending
      have outside : interval.holds character = false :=
        Interval.holds_eq_false_iff.mpr (Or.inl (Nat.lt_of_lt_of_le before boundLe))
      rw [List.any_cons, outside, inductionHypothesis restAscending (by omega), Bool.or_false]

/-- The early end of the search changes nothing. -/
theorem holdsIn_eq_any {bound : Nat} {intervals : List Interval}
    (ascending : Ascending bound intervals) (character : Char) :
    holdsIn intervals character = intervals.any (·.holds character) := by
  induction intervals generalizing bound with
  | nil => rfl
  | cons interval rest inductionHypothesis =>
      obtain ⟨low, high⟩ := interval
      obtain ⟨_, lowLe, restAscending⟩ := ascending
      rw [holdsIn]
      split
      · have start : Ascending low.toNat (⟨low, high⟩ :: rest) :=
          ⟨Nat.le_refl _, lowLe, restAscending⟩
        exact (any_eq_false_of_lt start (by assumption)).symm
      · split
        · have inside : Interval.holds ⟨low, high⟩ character = true :=
            Interval.holds_iff.mpr ⟨Nat.le_of_not_lt (by assumption), by assumption⟩
          rw [List.any_cons, inside, Bool.true_or]
        · have outside : Interval.holds ⟨low, high⟩ character = false :=
            Interval.holds_eq_false_iff.mpr (Or.inr (Nat.lt_of_not_le (by assumption)))
          rw [inductionHypothesis restAscending, List.any_cons, outside, Bool.false_or]

theorem holds_eq_any (set : CharSet) (character : Char) :
    set.holds character = set.intervals.any (·.holds character) :=
  holdsIn_eq_any set.ascending character

theorem any_insertInterval {bound : Nat} {first last : Char} {intervals : List Interval}
    (ordered : first.toNat ≤ last.toNat) (ascending : Ascending bound intervals)
    (character : Char) :
    (insertInterval first last intervals).any (·.holds character) =
      (Interval.holds ⟨first, last⟩ character || intervals.any (·.holds character)) := by
  induction intervals generalizing bound first last with
  | nil => rfl
  | cons interval rest inductionHypothesis =>
      obtain ⟨low, high⟩ := interval
      obtain ⟨_, lowLe, restAscending⟩ := ascending
      unfold insertInterval
      split
      · rfl
      · split
        · simp only [List.any_cons, inductionHypothesis ordered restAscending]
          ac_rfl
        · have least := toNat_lesser first low
          have greatest := toNat_greater last high
          rw [inductionHypothesis (by omega) restAscending, List.any_cons, ← Bool.or_assoc]
          congr 1
          rw [Bool.eq_iff_iff, Bool.or_eq_true]
          simp only [Interval.holds_iff]
          omega

theorem holds_insert (interval : Interval) (set : CharSet) (character : Char) :
    (set.insert interval).holds character =
      (interval.holds character || set.holds character) := by
  rw [holds_eq_any, holds_eq_any]
  unfold insert
  split
  · exact any_insertInterval (by assumption) set.ascending character
  · have apart : interval.holds character = false :=
      Interval.holds_eq_false_iff.mpr (by omega)
    rw [apart, Bool.false_or]

theorem holds_ofIntervals (intervals : List Interval) (character : Char) :
    (ofIntervals intervals).holds character = intervals.any (·.holds character) := by
  unfold ofIntervals
  induction intervals with
  | nil => rfl
  | cons interval rest inductionHypothesis =>
      rw [List.foldr_cons, holds_insert, inductionHypothesis, List.any_cons]

theorem holds_ofChars (characters : List Char) (character : Char) :
    (ofChars characters).holds character = characters.contains character := by
  unfold ofChars
  rw [holds_ofIntervals, List.any_map, List.contains_eq_any_beq]
  congr 1
  funext other
  rw [Function.comp_apply, Interval.holds_single, BEq.comm]

theorem holds_adjoin (characters : List Char) (set : CharSet) (character : Char) :
    (set.adjoin characters).holds character =
      (characters.contains character || set.holds character) := by
  have added (missing : List Char) :
      (missing.foldr (fun character set => set.insert (.single character)) set).holds character =
        (missing.contains character || set.holds character) := by
    induction missing with
    | nil => rfl
    | cons other rest inductionHypothesis =>
        rw [List.foldr_cons, holds_insert, inductionHypothesis, Interval.holds_single,
          List.contains_cons, BEq.comm, Bool.or_assoc]
  unfold adjoin
  rw [added, Bool.eq_iff_iff, Bool.or_eq_true, Bool.or_eq_true, List.contains_iff_mem,
    List.contains_iff_mem, List.mem_filter, Bool.not_eq_true']
  cases set.holds character <;> simp

theorem holds_union (left right : CharSet) (character : Char) :
    (left.union right).holds character = (left.holds character || right.holds character) := by
  unfold union
  rw [holds_ofIntervals, List.any_append, holds_eq_any, holds_eq_any]

theorem any_gaps {start : Nat} {intervals : List Interval}
    (ascending : Ascending start intervals) (character : Char) :
    (gaps start intervals).any (·.holds character) =
      (decide (start ≤ character.toNat) && !intervals.any (·.holds character)) := by
  have valid := toNat_valid character
  induction intervals generalizing start with
  | nil =>
      unfold gaps
      split
      · next inside =>
          have first := toNat_characterFrom inside
          have last := toNat_lastCharacter
          rw [List.any_cons, List.any_nil, Bool.or_false, Bool.not_false,
            Bool.and_true, Bool.eq_iff_iff, Interval.holds_iff, decide_eq_true_eq]
          simp only
          split at first <;> omega
      · have late : ¬ start ≤ character.toNat := by omega
        simp [late]
  | cons interval rest inductionHypothesis =>
      obtain ⟨low, high⟩ := interval
      obtain ⟨startLe, lowLe, restAscending⟩ := ascending
      have lowValid := toNat_valid low
      have beyond := inductionHypothesis restAscending
      rw [List.any_cons]
      by_cases within : character.toNat ≤ high.toNat
      · have late : rest.any (·.holds character) = false :=
          any_eq_false_of_lt restAscending (Nat.lt_succ_of_le within)
        have early : ¬ high.toNat + 1 ≤ character.toNat := by omega
        rw [decide_eq_false early, Bool.false_and] at beyond
        unfold gaps
        split
        · have first := @toNat_characterFrom start (by omega)
          have last := @toNat_characterBefore low (by omega)
          rw [List.any_cons, beyond, late, Bool.or_false, Bool.or_false, Bool.eq_iff_iff,
            Interval.holds_iff, Bool.and_eq_true, decide_eq_true_eq, Bool.not_eq_true',
            Interval.holds_eq_false_iff]
          simp only
          split at first <;> split at last <;> omega
        · rw [beyond, late, Bool.or_false, eq_comm, Bool.and_eq_false_iff,
            decide_eq_false_iff_not, Bool.not_eq_false', Interval.holds_iff]
          simp only
          omega
      · have outside : Interval.holds ⟨low, high⟩ character = false :=
          Interval.holds_eq_false_iff.mpr (Or.inr (Nat.lt_of_not_le within))
        have passed : start ≤ character.toNat := by omega
        have later : high.toNat + 1 ≤ character.toNat := Nat.lt_of_not_le within
        rw [decide_eq_true later, Bool.true_and] at beyond
        rw [outside, Bool.false_or, decide_eq_true passed, Bool.true_and]
        unfold gaps
        split
        · have last := @toNat_characterBefore low (by omega)
          have beforeGap :
              Interval.holds ⟨characterFrom start, characterBefore low⟩ character = false :=
            Interval.holds_eq_false_iff.mpr (Or.inr (by
              simp only
              split at last <;> omega))
          rw [List.any_cons, beforeGap, Bool.false_or, beyond]
        · exact beyond

/-! ### Complements -/

/-- The gap of nothing but surrogates, whose ends are out of order. -/
def surrogateGap : Interval := ⟨aboveSurrogates, belowSurrogates⟩

/-- Every other gap has its ends in order. -/
theorem eq_surrogateGap_of_mem_gaps {start : Nat} {intervals : List Interval} {gap : Interval}
    (ascending : Ascending start intervals) (mem : gap ∈ gaps start intervals)
    (crossed : gap.high.toNat < gap.low.toNat) : gap = surrogateGap := by
  induction intervals generalizing start with
  | nil =>
      unfold gaps at mem
      split at mem
      · next inside =>
          have first := toNat_characterFrom inside
          have last := toNat_lastCharacter
          obtain rfl := List.mem_singleton.mp mem
          simp only at crossed
          split at first <;> omega
      · simp at mem
  | cons interval rest inductionHypothesis =>
      obtain ⟨low, high⟩ := interval
      obtain ⟨startLe, lowLe, restAscending⟩ := ascending
      unfold gaps at mem
      split at mem
      · have lowValid := toNat_valid low
        have first := @toNat_characterFrom start (by omega)
        have last := @toNat_characterBefore low (by omega)
        rcases List.mem_cons.mp mem with rfl | later
        · simp only at crossed
          have around :
              (characterFrom start).toNat = 0xE000 ∧ (characterBefore low).toNat = 0xD7FF := by
            split at first <;> split at last <;> omega
          rw [surrogateGap, Interval.mk.injEq]
          exact ⟨Char.toNat_inj.mp around.1, Char.toNat_inj.mp around.2⟩
        · exact inductionHypothesis restAscending later
      · exact inductionHypothesis restAscending mem

/-- Between the ends in order lie the same characters, but for the surrogate gap, whose two ends
then count. -/
theorem holds_inOrder {gap : Interval}
    (ordered : gap.high.toNat < gap.low.toNat → gap = surrogateGap) (character : Char) :
    gap.inOrder.holds character =
      (gap.holds character || (gap == surrogateGap &&
        (character == belowSurrogates || character == aboveSurrogates))) := by
  by_cases same : gap = surrogateGap
  · subst same
    have valid := toNat_valid character
    have below := toNat_belowSurrogates
    have above := toNat_aboveSurrogates
    have isBelow : character = belowSurrogates ↔ character.toNat = belowSurrogates.toNat :=
      Char.toNat_inj.symm
    have isAbove : character = aboveSurrogates ↔ character.toNat = aboveSurrogates.toNat :=
      Char.toNat_inj.symm
    rw [beq_self_eq_true, Bool.true_and, Bool.eq_iff_iff, Bool.or_eq_true, Bool.or_eq_true,
      beq_iff_eq, beq_iff_eq, Interval.holds_iff, Interval.holds_iff, isBelow, isAbove]
    simp only [Interval.inOrder, surrogateGap, toNat_lesser, toNat_greater]
    omega
  · have straight : ¬ gap.high.toNat < gap.low.toNat := fun crossed => same (ordered crossed)
    rw [beq_eq_false_iff_ne.mpr same, Bool.false_and, Bool.or_false, Bool.eq_iff_iff,
      Interval.holds_iff, Interval.holds_iff]
    simp only [Interval.inOrder, toNat_lesser, toNat_greater]
    omega

/-- A complement holds what the set does not hold, and the two characters around the surrogates
if one interval of the set ends at the first and another begins at the second. -/
theorem holds_complement (set : CharSet) (character : Char) :
    set.complement.holds character =
      (!set.holds character || ((gaps 0 set.intervals).contains surrogateGap &&
        (character == belowSurrogates || character == aboveSurrogates))) := by
  have ordered : ∀ gap ∈ gaps 0 set.intervals,
      gap.high.toNat < gap.low.toNat → gap = surrogateGap :=
    fun gap mem => eq_surrogateGap_of_mem_gaps set.ascending mem
  have outside := any_gaps set.ascending character
  rw [decide_eq_true (Nat.zero_le _), Bool.true_and] at outside
  rw [holds_eq_any, holds_eq_any, ← outside]
  unfold complement
  simp only [List.any_map, Function.comp_def]
  generalize gaps 0 set.intervals = list at ordered
  induction list with
  | nil => simp
  | cons gap rest inductionHypothesis =>
      rw [List.any_cons, List.any_cons, List.contains_cons,
        holds_inOrder (ordered gap List.mem_cons_self),
        inductionHypothesis (fun other mem => ordered other (List.mem_cons_of_mem gap mem)),
        BEq.comm, Bool.and_or_distrib_right]
      ac_rfl

end ReadableRegex.CharSet

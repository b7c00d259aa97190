import ReadableRegex.Pattern.CharClass
import ReadableRegex.Proofs.Coverage

/-!
Listed characters and their complements, told by membership. Where case is ignored, a list stands
for all characters that fold to the same one as a member does. A complement holds what is not
listed, but for one case: if the two characters around the surrogates are both listed, it holds
these two as well.
-/

namespace ReadableRegex

/-! ### Complements of listed characters -/

/-- The characters that the complement of a list holds: all that are not listed, and the two around
the surrogates if both are listed. -/
def Text.InComplement (members : Text) (character : Char) : Prop :=
  character ∉ members ∨
    (belowSurrogates ∈ members ∧ aboveSurrogates ∈ members ∧
      (character = belowSurrogates ∨ character = aboveSurrogates))

theorem Ascending.bounds_of_mem {bound : Nat} {intervals : List Interval} {interval : Interval}
    (ascending : Ascending bound intervals) (member : interval ∈ intervals) :
    bound ≤ interval.low.toNat ∧ interval.low.toNat ≤ interval.high.toNat := by
  induction intervals generalizing bound with
  | nil => cases member
  | cons first rest inductionHypothesis =>
      obtain ⟨boundLe, lowLe, restAscending⟩ := ascending
      rcases List.mem_cons.mp member with same | later
      · subst same
        exact ⟨boundLe, lowLe⟩
      · have behind := inductionHypothesis restAscending later
        exact ⟨by omega, behind.2⟩

namespace CharSet

/-- A gap from the code point `start` to the character is the gap of the surrogates. -/
theorem gap_eq_surrogateGap_iff {start : Nat} {low : Char} (before : start < low.toNat) :
    Interval.mk (characterFrom start) (characterBefore low) = surrogateGap ↔
      (0xD800 ≤ start ∧ start ≤ 0xDFFF) ∧ low.toNat = 0xE000 := by
  have lowValid := toNat_valid low
  have first := @toNat_characterFrom start (by omega)
  have last := @toNat_characterBefore low (by omega)
  rw [surrogateGap, Interval.mk.injEq, ← Char.toNat_inj, ← Char.toNat_inj, toNat_aboveSurrogates,
    toNat_belowSurrogates, first, last]
  split <;> split <;> omega

theorem surrogateGap_mem_gaps_cons (start : Nat) (low high : Char) (rest : List Interval) :
    surrogateGap ∈ gaps start (⟨low, high⟩ :: rest) ↔
      (start < low.toNat ∧ (0xD800 ≤ start ∧ start ≤ 0xDFFF) ∧ low.toNat = 0xE000) ∨
        surrogateGap ∈ gaps (high.toNat + 1) rest := by
  rw [gaps]
  split
  · next before =>
      rw [List.mem_cons, eq_comm, gap_eq_surrogateGap_iff before]
      simp only [before, true_and]
  · next reached => simp only [reached, false_and, false_or]

/-- Nothing but surrogates is left out where one interval ends below them, or the row starts
among them, and another interval begins above them. -/
theorem surrogateGap_mem_gaps_iff {start : Nat} {intervals : List Interval}
    (ascending : Ascending start intervals) :
    surrogateGap ∈ gaps start intervals ↔
      ((0xD800 ≤ start ∧ start ≤ 0xDFFF) ∨ ∃ interval ∈ intervals, interval.high.toNat = 0xD7FF) ∧
        ∃ interval ∈ intervals, interval.low.toNat = 0xE000 := by
  induction intervals generalizing start with
  | nil =>
      unfold gaps
      split
      · have apart : surrogateGap ≠ ⟨characterFrom start, lastCharacter⟩ := by
          intro same
          have ends : belowSurrogates = lastCharacter := congrArg Interval.high same
          exact absurd ends (by decide)
        simp [apart]
      · simp
  | cons interval rest inductionHypothesis =>
      obtain ⟨low, high⟩ := interval
      obtain ⟨startLe, lowLe, restAscending⟩ := ascending
      have highValid := toNat_valid high
      have lowValid := toNat_valid low
      have behind : ∀ interval ∈ rest,
          high.toNat < interval.low.toNat ∧ interval.low.toNat ≤ interval.high.toNat :=
        fun interval member => restAscending.bounds_of_mem member
      rw [surrogateGap_mem_gaps_cons, inductionHypothesis restAscending]
      simp only [List.mem_cons, exists_eq_or_imp]
      constructor
      · intro found
        rcases found with ⟨_, started, first⟩ | ⟨ended | ends, begins⟩
        · exact ⟨Or.inl started, Or.inl first⟩
        · exact ⟨Or.inr (Or.inl (by omega)), Or.inr begins⟩
        · exact ⟨Or.inr (Or.inr ends), Or.inr begins⟩
      · intro found
        obtain ⟨ends, begins⟩ := found
        -- What ends below the surrogates stands before what begins above them, so of the cases in
        -- which the first interval plays one part, only those where the other part fits are left.
        rcases begins with first | ⟨other, member, begun⟩
        · rcases ends with started | ended | ⟨other, member, ended⟩
          · exact Or.inl ⟨by omega, started, first⟩
          · omega
          · have order := behind other member
            omega
        · have order := behind other member
          rcases ends with started | ended | ends
          · omega
          · exact Or.inr ⟨Or.inl (by omega), other, member, begun⟩
          · exact Or.inr ⟨Or.inr ends, other, member, begun⟩

theorem covers_ofChars (members : Text) (point : Nat) :
    Covers (ofChars members).intervals point ↔ ∃ member ∈ members, member.toNat = point := by
  unfold ofChars
  rw [covers_ofIntervals]
  constructor
  · intro covered
    obtain ⟨interval, listed, inside⟩ := covered
    obtain ⟨member, present, same⟩ := List.mem_map.mp listed
    subst same
    exact ⟨member, present, Nat.le_antisymm inside.1 inside.2⟩
  · intro found
    obtain ⟨member, present, same⟩ := found
    exact ⟨.single member, List.mem_map_of_mem present, Nat.le_of_eq same, Nat.le_of_eq same.symm⟩

theorem covers_ofChars_toNat (members : Text) (character : Char) :
    Covers (ofChars members).intervals character.toNat ↔ character ∈ members := by
  rw [covers_ofChars]
  constructor
  · intro found
    obtain ⟨member, present, same⟩ := found
    exact Char.toNat_inj.mp same ▸ present
  · intro present
    exact ⟨character, present, rfl⟩

theorem not_across_surrogates {members : Text} {interval : Interval}
    (member : interval ∈ (ofChars members).intervals) :
    interval.high.toNat ≤ 0xD7FF ∨ 0xE000 ≤ interval.low.toNat := by
  have highValid := toNat_valid interval.high
  have lowValid := toNat_valid interval.low
  by_cases across : interval.low.toNat ≤ 0xD800 ∧ 0xD800 ≤ interval.high.toNat
  · obtain ⟨surrogate, _, same⟩ :=
      (covers_ofChars members 0xD800).mp ⟨interval, member, across⟩
    have valid := toNat_valid surrogate
    omega
  · omega

/-- The gap of the surrogates appears if the characters on both sides of it are listed. -/
theorem surrogateGap_mem_gaps_ofChars (members : Text) :
    surrogateGap ∈ gaps 0 (ofChars members).intervals ↔
      belowSurrogates ∈ members ∧ aboveSurrogates ∈ members := by
  have ascending := (ofChars members).ascending
  have below : (∃ interval ∈ (ofChars members).intervals, interval.high.toNat = 0xD7FF) ↔
      belowSurrogates ∈ members := by
    rw [← covers_ofChars_toNat, toNat_belowSurrogates]
    constructor
    · intro found
      obtain ⟨interval, member, ends⟩ := found
      have bounds := ascending.bounds_of_mem member
      exact ⟨interval, member, by omega⟩
    · intro covered
      obtain ⟨interval, member, inside⟩ := covered
      have apart := not_across_surrogates member
      exact ⟨interval, member, by omega⟩
  have above : (∃ interval ∈ (ofChars members).intervals, interval.low.toNat = 0xE000) ↔
      aboveSurrogates ∈ members := by
    rw [← covers_ofChars_toNat, toNat_aboveSurrogates]
    constructor
    · intro found
      obtain ⟨interval, member, begins⟩ := found
      have bounds := ascending.bounds_of_mem member
      exact ⟨interval, member, by omega⟩
    · intro covered
      obtain ⟨interval, member, inside⟩ := covered
      have apart := not_across_surrogates member
      exact ⟨interval, member, by omega⟩
  rw [surrogateGap_mem_gaps_iff ascending, below, above]
  simp

theorem holds_complement_ofChars (members : Text) (character : Char) :
    (ofChars members).complement.holds character = true ↔ members.InComplement character := by
  unfold Text.InComplement
  rw [holds_complement, holds_ofChars, Bool.or_eq_true, Bool.and_eq_true, Bool.or_eq_true,
    List.contains_iff_mem, surrogateGap_mem_gaps_ofChars, beq_iff_eq, beq_iff_eq, and_assoc]
  simp

end CharSet

/-! ### Characters that count as equal -/

/-- The character is the representative, or paired with it. -/
def Folds (pairs : List (Nat × Nat)) (character representative : Char) : Prop :=
  character = representative ∨
    ∃ pair ∈ pairs, Char.ofNat pair.1 = character ∧ Char.ofNat pair.2 = representative

def Alike (pairs : List (Nat × Nat)) (left right : Char) : Prop :=
  ∃ representative, Folds pairs left representative ∧ Folds pairs right representative

theorem alike_nil_iff {left right : Char} : Alike [] left right ↔ left = right := by
  simp [Alike, Folds, eq_comm]

namespace CharSet

variable (pairs : List (Nat × Nat)) (set : CharSet) (character : Char)

theorem holds_adjoin_images :
    (set.adjoin ((pairs.filter (fun pair => set.holds (Char.ofNat pair.1))).map
      (Char.ofNat ·.2))).holds character = true ↔
      ∃ member, set.holds member = true ∧ Folds pairs member character := by
  rw [holds_adjoin, Bool.or_eq_true, List.contains_iff_mem, List.mem_map]
  constructor
  · intro found
    rcases found with ⟨pair, kept, same⟩ | held
    · obtain ⟨listed, held⟩ := List.mem_filter.mp kept
      exact ⟨Char.ofNat pair.1, held, Or.inr ⟨pair, listed, rfl, same⟩⟩
    · exact ⟨character, held, Or.inl rfl⟩
  · intro found
    obtain ⟨member, held, same | ⟨pair, listed, first, second⟩⟩ := found
    · exact Or.inr (same ▸ held)
    · exact Or.inl ⟨pair, List.mem_filter.mpr ⟨listed, first ▸ held⟩, second⟩

theorem holds_adjoin_preimages :
    (set.adjoin ((pairs.filter (fun pair => set.holds (Char.ofNat pair.2))).map
      (Char.ofNat ·.1))).holds character = true ↔
      ∃ member, set.holds member = true ∧ Folds pairs character member := by
  rw [holds_adjoin, Bool.or_eq_true, List.contains_iff_mem, List.mem_map]
  constructor
  · intro found
    rcases found with ⟨pair, kept, same⟩ | held
    · obtain ⟨listed, held⟩ := List.mem_filter.mp kept
      exact ⟨Char.ofNat pair.2, held, Or.inr ⟨pair, listed, same, rfl⟩⟩
    · exact ⟨character, held, Or.inl rfl⟩
  · intro found
    obtain ⟨member, held, same | ⟨pair, listed, first, second⟩⟩ := found
    · exact Or.inr (same ▸ held)
    · exact Or.inl ⟨pair, List.mem_filter.mpr ⟨listed, second ▸ held⟩, first⟩

theorem holds_closeUnder :
    (set.closeUnder pairs).holds character = true ↔
      ∃ member, set.holds member = true ∧ Alike pairs member character := by
  unfold closeUnder
  rw [holds_adjoin_preimages]
  constructor
  · intro found
    obtain ⟨representative, held, folds⟩ := found
    obtain ⟨member, listed, same⟩ := (holds_adjoin_images ..).mp held
    exact ⟨member, listed, representative, same, folds⟩
  · intro found
    obtain ⟨member, listed, representative, same, folds⟩ := found
    exact ⟨representative, (holds_adjoin_images ..).mpr ⟨member, listed, same⟩, folds⟩

theorem adjoin_ofChars (members characters : Text) :
    ∃ more, (ofChars members).adjoin characters = ofChars more := by
  refine ⟨characters.filter (fun character => !(ofChars members).holds character) ++ members, ?_⟩
  simp only [adjoin, ofChars, ofIntervals, List.map_append, List.foldr_append, List.foldr_map]

/-- A closed list is a list again, if a longer one. -/
theorem closeUnder_ofChars (members : Text) :
    ∃ more, (ofChars members).closeUnder pairs = ofChars more := by
  unfold closeUnder
  obtain ⟨images, folded⟩ := adjoin_ofChars members
    ((pairs.filter (fun pair => (ofChars members).holds (Char.ofNat pair.1))).map (Char.ofNat ·.2))
  rw [folded]
  exact adjoin_ofChars images _

end CharSet

namespace Comparison

def foldPairs (comparison : Comparison) : List (Nat × Nat) :=
  if comparison.ignoreCase then
    (if comparison.unicode then Unicode.foldPairs else asciiPairs)
  else []

variable (comparison : Comparison) (members : Text) (bounds : List (Char × Char))
  (character : Char)

/-- The character counts as equal to a listed one. -/
def Lists : Prop :=
  ∃ member ∈ members, Alike comparison.foldPairs member character

/-- The character is left by the list, or is one that its complement holds nevertheless. -/
def Leaves : Prop :=
  ¬ comparison.Lists members character ∨
    (belowSurrogates ∈ members ∧ aboveSurrogates ∈ members ∧
      (character = belowSurrogates ∨ character = aboveSurrogates))

/-- The character counts as equal to one between bounds of the same pair. -/
def Between : Prop :=
  ∃ pair ∈ bounds, ∃ member, (pair.1 ≤ member ∧ member ≤ pair.2) ∧
    Alike comparison.foldPairs member character

theorem lists_iff_mem (exact : comparison.ignoreCase = false) :
    comparison.Lists members character ↔ character ∈ members := by
  have pairs : comparison.foldPairs = [] := by simp [foldPairs, exact]
  simp [Lists, pairs, alike_nil_iff]

theorem leaves_iff_inComplement (exact : comparison.ignoreCase = false) :
    comparison.Leaves members character ↔ members.InComplement character := by
  rw [Leaves, lists_iff_mem _ _ _ exact, Text.InComplement]

theorem holds_closure (set : CharSet) :
    (comparison.closure set).holds character = true ↔
      ∃ member, set.holds member = true ∧ Alike comparison.foldPairs member character := by
  unfold closure foldPairs
  split
  · exact CharSet.holds_closeUnder ..
  · simp [alike_nil_iff]

theorem holds_closure_ofChars :
    (comparison.closure (.ofChars members)).holds character = true ↔
      comparison.Lists members character := by
  rw [holds_closure, Lists]
  simp only [CharSet.holds_ofChars, List.contains_iff_mem]

theorem holds_closure_ofIntervals :
    (comparison.closure (.ofIntervals (bounds.map (fun pair => ⟨pair.1, pair.2⟩)))).holds
      character = true ↔ comparison.Between bounds character := by
  rw [holds_closure, Between]
  simp only [CharSet.holds_ofIntervals, List.any_map, List.any_eq_true, Function.comp_apply,
    Interval.holds_iff]
  constructor
  · intro found
    obtain ⟨member, ⟨pair, listed, inside⟩, alike⟩ := found
    exact ⟨pair, listed, member, inside, alike⟩
  · intro found
    obtain ⟨pair, listed, member, inside, alike⟩ := found
    exact ⟨member, ⟨pair, listed, inside⟩, alike⟩

theorem eq_of_folds_surrogates {character representative : Char}
    (edge : (character = belowSurrogates ∨ character = aboveSurrogates) ∨
      (representative = belowSurrogates ∨ representative = aboveSurrogates))
    (folds : Folds comparison.foldPairs character representative) :
    character = representative := by
  have apart : ∀ pair ∈ comparison.foldPairs,
      Char.ofNat pair.1 ∉ [belowSurrogates, aboveSurrogates] ∧
        Char.ofNat pair.2 ∉ [belowSurrogates, aboveSurrogates] := by
    unfold foldPairs
    split
    · split
      · decide +kernel
      · decide +kernel
    · simp
  rcases folds with same | ⟨pair, listed, first, second⟩
  · exact same
  · have neither := apart pair listed
    simp only [List.mem_cons, List.not_mem_nil, or_false, first, second] at neither
    rcases edge with edge | edge
    · exact absurd edge neither.1
    · exact absurd edge neither.2

theorem lists_surrogates_iff
    (edge : character = belowSurrogates ∨ character = aboveSurrogates) :
    comparison.Lists members character ↔ character ∈ members := by
  constructor
  · intro listed
    obtain ⟨member, present, representative, left, right⟩ := listed
    have same := comparison.eq_of_folds_surrogates (Or.inl edge) right
    subst same
    exact comparison.eq_of_folds_surrogates (Or.inr edge) left ▸ present
  · intro present
    exact ⟨character, present, character, Or.inl rfl, Or.inl rfl⟩

/-- The complement of a list, case ignored or not. -/
theorem holds_complement_closure :
    (comparison.closure (.ofChars members)).complement.holds character = true ↔
      comparison.Leaves members character := by
  have longer : ∃ more, comparison.closure (.ofChars members) = .ofChars more := by
    unfold closure
    split
    · exact CharSet.closeUnder_ofChars _ members
    · exact ⟨members, rfl⟩
  obtain ⟨more, same⟩ := longer
  have member (other : Char) : other ∈ more ↔ comparison.Lists members other := by
    rw [← holds_closure_ofChars, same, CharSet.holds_ofChars, List.contains_iff_mem]
  rw [same, CharSet.holds_complement_ofChars, Text.InComplement, Leaves, member, member, member,
    lists_surrogates_iff _ _ _ (Or.inl rfl), lists_surrogates_iff _ _ _ (Or.inr rfl)]

end Comparison
end ReadableRegex

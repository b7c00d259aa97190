import ReadableRegex.Pattern.Assembly
import ReadableRegex.Proofs.Listed
import ReadableRegex.Proofs.Trees.ClassReading

/-!
The texts of classes stand for the characters asked for, whichever characters these are, but for
one case: the complement of a list with the two characters around the surrogates holds both.
-/

namespace ReadableRegex

/-! ### Bounds in pairs -/

namespace ClassText

/-- The bounds of the complete pair at the index. -/
def PairAt (bounds : List Char) (index : Nat) (low high : Char) : Prop :=
  bounds[2 * index]? = some low ∧ bounds[2 * index + 1]? = some high

def Crossed (bounds : List Char) : Prop :=
  ∃ index low high, PairAt bounds index low high ∧ high < low

theorem pairs_cons_cons (first last : Char) (rest : List Char) :
    pairs (first :: last :: rest) = ((first, last) :: (pairs rest).1, (pairs rest).2) := rfl

theorem mem_pairs_iff (bounds : List Char) (low high : Char) :
    (low, high) ∈ (pairs bounds).1 ↔ ∃ index, PairAt bounds index low high := by
  unfold PairAt
  induction bounds using pairs.induct with
  | case1 => simp [pairs]
  | case2 => simp [pairs]
  | case3 first last rest _ _ _ inductionHypothesis =>
      rw [pairs_cons_cons, List.mem_cons, Prod.mk.injEq]
      constructor
      · intro member
        rcases member with ⟨sameLow, sameHigh⟩ | later
        · subst sameLow sameHigh
          exact ⟨0, rfl, rfl⟩
        · obtain ⟨index, placed⟩ := inductionHypothesis.mp later
          exact ⟨index + 1, placed⟩
      · intro placed
        obtain ⟨index, lowAt, highAt⟩ := placed
        cases index with
        | zero =>
            injection lowAt with sameLow
            injection highAt with sameHigh
            exact Or.inl ⟨sameLow.symm, sameHigh.symm⟩
        | succ index => exact Or.inr (inductionHypothesis.mpr ⟨index, lowAt, highAt⟩)

theorem crossed_iff (bounds : List Char) :
    Crossed bounds ↔ ∃ pair ∈ (pairs bounds).1, ¬ pair.1 ≤ pair.2 := by
  constructor
  · intro crossed
    obtain ⟨index, low, high, placed, less⟩ := crossed
    exact ⟨(low, high), (mem_pairs_iff ..).mpr ⟨index, placed⟩, Char.not_le.mpr less⟩
  · intro crossed
    obtain ⟨⟨low, high⟩, member, less⟩ := crossed
    obtain ⟨index, placed⟩ := (mem_pairs_iff ..).mp member
    exact ⟨index, low, high, placed, Char.not_le.mp less⟩

theorem pairs_ne_nil {bounds : List Char} (complete : 2 ≤ bounds.length) :
    (pairs bounds).1 ≠ [] := by
  match bounds, complete with
  | first :: last :: rest, _ =>
      rw [pairs_cons_cons]
      exact List.cons_ne_nil _ _

theorem dangling_eq (bounds : List Char) :
    (pairs bounds).2 = if bounds.length % 2 = 1 then bounds.getLast? else none := by
  induction bounds using pairs.induct with
  | case1 => rfl
  | case2 => rfl
  | case3 first last rest _ _ _ inductionHypothesis =>
      rw [pairs_cons_cons, inductionHypothesis, List.length_cons, List.length_cons,
        Nat.add_assoc, Nat.add_mod_right]
      split
      · cases rest with
        | nil => contradiction
        | cons next others => rfl
      · rfl

theorem pairs_take (bounds : List Char) :
    (pairs (bounds.take (2 * (bounds.length / 2)))).1 = (pairs bounds).1 := by
  induction bounds using pairs.induct with
  | case1 => rfl
  | case2 => simp [pairs]
  | case3 first last rest _ _ _ inductionHypothesis =>
      have half : 2 * ((rest.length + 1 + 1) / 2) = 2 * (rest.length / 2) + 1 + 1 := by omega
      rw [List.length_cons, List.length_cons, half, List.take_succ_cons, List.take_succ_cons,
        pairs_cons_cons, pairs_cons_cons, inductionHypothesis]

end ClassText

/-! ### Readings -/

/-- One pair of brackets, and nothing inside but the intervals. -/
def CharClass.listing (negated : Bool) (intervals : List Interval) : CharClass :=
  .bracketed negated (.ofMembers (intervals.reverse.map Interval.charClass))

theorem CharClass.holds_listing [PropertyTable] (negated unicode : Bool) (intervals : List Interval)
    (character : Char) :
    ((listing negated intervals).set ⟨unicode, false⟩).holds character =
      ((CharSet.ofIntervals intervals).negateIf negated).holds character := by
  rw [listing, set_bracketed]
  rfl

namespace ClassText

/-- The text is read as one class of the intervals, by itself and with more text behind it, and the
class stands for the characters asked for. -/
structure Denotes [PropertyTable] (text : Text) (negated : Bool) (intervals : List Interval)
    (asked : Char → Prop) : Prop where
  alone : Pattern.ofText text = .ok (.charClass (.listing negated intervals))
  followed : Lexeme.SpellsFirmly text [.part (.charClass (.listing negated intervals))]
  holds : ∀ unicode character,
    ((CharClass.listing negated intervals).set ⟨unicode, false⟩).holds character = true ↔
      asked character

theorem denotes_of_spells [PropertyTable] {text : Text} {negated : Bool} {intervals : List Interval}
    {asked : Char → Prop}
    (firm : Lexeme.SpellsFirmly text [.part (.charClass (.listing negated intervals))])
    (holds : ∀ character,
      ((CharSet.ofIntervals intervals).negateIf negated).holds character = true ↔
        asked character) :
    Denotes text negated intervals asked := by
  constructor
  · unfold Pattern.ofText
    rw [firm.spells.readAll_eq]
    rfl
  · exact firm
  · intro unicode character
    rw [CharClass.holds_listing]
    exact holds character

section

variable {members : Text} {bounds : List Char}

theorem denotes_anyOf [PropertyTable] (present : members ≠ []) :
    ∃ text, anyOf members = some text ∧
      Denotes text false (members.map .single) (· ∈ members) := by
  refine ⟨'[' :: Text.escapeMembers members ++ [']'], ?_, ?_⟩
  · unfold anyOf
    rw [if_neg (by simpa using present)]
  · apply denotes_of_spells (Lexeme.spellsFirmly_members false present)
    intro character
    have listed := CharSet.holds_ofChars members character
    rw [← List.contains_iff_mem, ← listed]
    rfl

theorem denotes_noneOf [PropertyTable] (present : members ≠ []) :
    ∃ text, noneOf members = some text ∧
      Denotes text true (members.map .single) members.InComplement := by
  refine ⟨'[' :: '^' :: Text.escapeMembers members ++ [']'], ?_, ?_⟩
  · unfold noneOf
    rw [if_neg (by simpa using present)]
  · apply denotes_of_spells (Lexeme.spellsFirmly_members true present)
    intro character
    exact CharSet.holds_complement_ofChars members character

theorem ofBounds_eq (complete : 2 ≤ bounds.length) :
    (ofBounds bounds).1 = some ('[' :: ((pairs bounds).1.flatMap interval ++ [']'])) := by
  have present := pairs_ne_nil complete
  have text : (ofBounds bounds).1 =
      if (pairs bounds).1.isEmpty then none
      else some ('[' :: ((pairs bounds).1.flatMap interval ++ [']'])) := rfl
  rw [text, if_neg (by simpa using present)]

theorem unreadable_of_crossed (crossed : Crossed bounds) (behind : Text) :
    Pattern.ofText ('[' :: ((pairs bounds).1.flatMap interval ++ [']']) ++ behind) =
      .error .invertedRange := by
  unfold Pattern.ofText
  rw [Lexeme.readAll_crossed ((crossed_iff bounds).mp crossed) behind]

theorem denotes_of_not_crossed [PropertyTable] (complete : 2 ≤ bounds.length)
    (straight : ¬ Crossed bounds) :
    Denotes ('[' :: ((pairs bounds).1.flatMap interval ++ [']'])) false
      ((pairs bounds).1.map (fun pair => ⟨pair.1, pair.2⟩))
      (fun character => ∃ index low high,
        PairAt bounds index low high ∧ low ≤ character ∧ character ≤ high) := by
  have ordered : ∀ pair ∈ (pairs bounds).1, pair.1 ≤ pair.2 := by
    intro pair member
    apply Decidable.byContradiction
    intro crossed
    exact straight ((crossed_iff bounds).mpr ⟨pair, member, crossed⟩)
  apply denotes_of_spells (Lexeme.spellsFirmly_intervals (pairs_ne_nil complete) ordered)
  intro character
  have held := CharSet.holds_ofIntervals
    ((pairs bounds).1.map (fun pair => ⟨pair.1, pair.2⟩)) character
  rw [CharSet.negateIf, if_neg Bool.false_ne_true, held, List.any_map, List.any_eq_true]
  constructor
  · intro found
    obtain ⟨⟨low, high⟩, member, inside⟩ := found
    obtain ⟨index, placed⟩ := (mem_pairs_iff ..).mp member
    exact ⟨index, low, high, placed, Interval.holds_iff.mp inside⟩
  · intro found
    obtain ⟨index, low, high, placed, inside⟩ := found
    exact ⟨(low, high), (mem_pairs_iff ..).mpr ⟨index, placed⟩, Interval.holds_iff.mpr inside⟩

end

/-- Texts of classes stand for the characters asked for. A class of listed characters holds these
and no others, a complement holds all others. A class of intervals holds what lies in a complete
pair of bounds; it cannot be read if a pair is out of order, and a bound without a partner is
returned and makes no difference. The exception are the characters on both sides of the surrogates:
a complement of a list of both holds both. -/
theorem classes_denote [PropertyTable] (members : Text) (bounds : List Char)
    (present : members ≠ []) (complete : 2 ≤ bounds.length) :
    (∃ text, anyOf members = some text ∧
      Denotes text false (members.map .single) (· ∈ members)) ∧
    (∃ text, noneOf members = some text ∧
      Denotes text true (members.map .single) members.InComplement) ∧
    (∃ text, (ofBounds bounds).1 = some text ∧
      (Crossed bounds → ∀ behind, Pattern.ofText (text ++ behind) = .error .invertedRange) ∧
      (¬ Crossed bounds →
        Denotes text false ((pairs bounds).1.map (fun pair => ⟨pair.1, pair.2⟩))
          (fun character => ∃ index low high,
            PairAt bounds index low high ∧ low ≤ character ∧ character ≤ high))) ∧
    (ofBounds bounds).2 = (if bounds.length % 2 = 1 then bounds.getLast? else none) ∧
    (ofBounds (bounds.take (2 * (bounds.length / 2)))).1 = (ofBounds bounds).1 := by
  constructor
  · exact denotes_anyOf present
  · constructor
    · exact denotes_noneOf present
    · constructor
      · exact ⟨_, ofBounds_eq complete, unreadable_of_crossed, denotes_of_not_crossed complete⟩
      · constructor
        · exact dangling_eq bounds
        · unfold ofBounds
          simp only [pairs_take]

/-- Signs that mean something in a class stand for themselves, as characters and as bounds. -/
theorem classes_denote_of_signs :
    (∃ text, noneOf ['^', '-', ']'] = some text ∧
      ∃ charClass, Pattern.ofText text = .ok (.charClass charClass) ∧
        (charClass.set ⟨true, false⟩).holds '-' = false) ∧
    (ofBounds ['&', '~', '&']).2 = some '&' ∧
    ∃ text, (ofBounds ['-', '!']).1 = some text ∧
      ∀ behind, Pattern.ofText (text ++ behind) = .error .invertedRange := by
  obtain ⟨_, ⟨complement, written, denotes⟩, _, left, _⟩ :=
    classes_denote ['^', '-', ']'] ['&', '~', '&'] (by decide) (by decide)
  obtain ⟨_, _, ⟨range, bounds, rejected, _⟩, _⟩ :=
    classes_denote ['a'] ['-', '!'] (by decide) (by decide)
  constructor
  · refine ⟨complement, written, _, denotes.alone, ?_⟩
    rw [← Bool.not_eq_true, denotes.holds true '-', Text.InComplement]
    decide
  · exact ⟨left, range, bounds, rejected ⟨0, '-', '!', ⟨rfl, rfl⟩, by decide⟩⟩

/-- The complement of the characters on both sides of the surrogates holds them. -/
theorem complement_holds_listed :
    ∃ text charClass, noneOf [belowSurrogates, aboveSurrogates] = some text ∧
      Pattern.ofText text = .ok (.charClass charClass) ∧
      belowSurrogates ∈ [belowSurrogates, aboveSurrogates] ∧
      (charClass.set ⟨true, false⟩).holds belowSurrogates = true := by
  obtain ⟨text, written, denotes⟩ :=
    denotes_noneOf (List.cons_ne_nil belowSurrogates [aboveSurrogates])
  have listed : belowSurrogates ∈ [belowSurrogates, aboveSurrogates] := List.mem_cons_self
  refine ⟨text, _, written, denotes.alone, listed, (denotes.holds true belowSurrogates).mpr ?_⟩
  exact Or.inr ⟨listed, by decide, Or.inl rfl⟩

end ClassText
end ReadableRegex

import ReadableRegex.Proofs.Detached
import ReadableRegex.Proofs.Numeral

/-!
The depth of a scan through a pattern text: how many parentheses are open, not counting those behind
a backslash and those in bracketed classes. Dialects disagree on two points about where a class
ends, so the rules for these are left open, and everything here holds for all of them.
-/

namespace ReadableRegex

/-- How brackets within a class are read. -/
structure ClassRules where
  /-- Whether an opening bracket opens another class. -/
  nests : Bool
  /-- Whether a closing bracket that comes first is a member. -/
  leads : Bool
deriving DecidableEq

/-- Where a scan stands. A class counts the classes around it. -/
inductive ScanPlace where
  | outside
  | escape
  | opened (level : Nat) (negated : Bool)
  | inside (level : Nat)
  | insideEscape (level : Nat)
deriving DecidableEq

namespace ScanPlace

variable (rules : ClassRules)

def nextInside (level : Nat) (character : Char) : ScanPlace :=
  if character = '\\' then .insideEscape level
  else if character = '[' ∧ rules.nests = true then .opened (level + 1) false
  else if character = ']' then
    match level with
    | 0 => .outside
    | outer + 1 => .inside outer
  else .inside level

def next : ScanPlace → Char → ScanPlace
  | .outside, character =>
      if character = '\\' then .escape
      else if character = '[' then .opened 0 false
      else .outside
  | .escape, _ => .outside
  | .opened level negated, character =>
      if character = '^' ∧ negated = false then .opened level true
      else if character = ']' ∧ rules.leads = true then .inside level
      else nextInside rules level character
  | .inside level, character => nextInside rules level character
  | .insideEscape level, _ => .inside level

/-- What a character adds to the depth where the scan stands. -/
def change (place : ScanPlace) (character : Char) : Int :=
  if place = .outside ∧ character = '(' then 1
  else if place = .outside ∧ character = ')' then -1
  else 0

end ScanPlace

structure DepthScan where
  place : ScanPlace
  depth : Int
deriving DecidableEq

namespace DepthScan

variable {rules : ClassRules}

def step (rules : ClassRules) (scan : DepthScan) (character : Char) : DepthScan :=
  ⟨scan.place.next rules character, scan.depth + scan.place.change character⟩

def through (rules : ClassRules) (scan : DepthScan) (text : Text) : DepthScan :=
  text.foldl (step rules) scan

def start : DepthScan := ⟨.outside, 0⟩

theorem through_cons (scan : DepthScan) (character : Char) (rest : Text) :
    scan.through rules (character :: rest) = (scan.step rules character).through rules rest :=
  rfl

theorem through_append (scan : DepthScan) (left right : Text) :
    scan.through rules (left ++ right) = (scan.through rules left).through rules right :=
  List.foldl_append

/-- A scan does not look at its depth. -/
theorem through_raised (scan : DepthScan) (raised : Int) (text : Text) :
    through rules ⟨scan.place, scan.depth + raised⟩ text =
      ⟨(scan.through rules text).place, (scan.through rules text).depth + raised⟩ := by
  induction text generalizing scan with
  | nil => rfl
  | cons character rest inductionHypothesis =>
      have first : step rules ⟨scan.place, scan.depth + raised⟩ character =
          ⟨(scan.step rules character).place, (scan.step rules character).depth + raised⟩ := by
        simp only [step, DepthScan.mk.injEq, true_and]
        omega
      rw [through_cons, through_cons, first, inductionHypothesis]

end DepthScan

open DepthScan

variable {rules : ClassRules}

/-! ### Texts that open groups -/

/-- Scanned from outside, the text closes no more than it opened before, and at its end the scan is
outside all classes with `count` groups open. -/
structure Opens (rules : ClassRules) (count : Nat) (text : Text) : Prop where
  nonneg : ∀ front, front <+: text → 0 ≤ (start.through rules front).depth
  stop : start.through rules text = ⟨.outside, count⟩

namespace Opens

variable {text left right : Text} {count more : Nat}

theorem nil : Opens rules 0 [] where
  nonneg front found := by
    rw [List.prefix_nil.mp found]
    exact Int.le_refl 0
  stop := rfl

theorem prefix_append_cases {front left right : Text} (found : front <+: left ++ right) :
    front <+: left ∨ ∃ beyond, beyond <+: right ∧ front = left ++ beyond := by
  rcases List.prefix_or_prefix_of_prefix found (List.prefix_append left right) with
    within | ⟨beyond, rfl⟩
  · exact Or.inl within
  · exact Or.inr ⟨beyond, (List.prefix_append_right_inj left).mp found, rfl⟩

theorem append (leftOpens : Opens rules count left) (rightOpens : Opens rules more right) :
    Opens rules (count + more) (left ++ right) := by
  have behind (front : Text) : start.through rules (left ++ front) =
      ⟨(start.through rules front).place, (start.through rules front).depth + count⟩ := by
    rw [through_append, leftOpens.stop, ← through_raised]
    simp [start]
  refine ⟨?_, ?_⟩
  · intro front found
    rcases prefix_append_cases found with within | ⟨beyond, begun, rfl⟩
    · exact leftOpens.nonneg front within
    · rw [behind]
      exact Int.add_nonneg (rightOpens.nonneg beyond begun) (Int.natCast_nonneg count)
  · rw [behind, rightOpens.stop]
    simp [Int.add_comm]

theorem behind (balanced : Opens rules 0 left) (opens : Opens rules count right) :
    Opens rules count (left ++ right) := by
  have both := balanced.append opens
  rwa [Nat.zero_add] at both

theorem opening : Opens rules 1 ['('] where
  nonneg front found := by
    rcases List.prefix_cons_iff.mp found with rfl | ⟨tail, rfl, rest⟩
    · exact Int.le_refl 0
    · rw [List.prefix_nil.mp rest]
      exact Int.zero_le_ofNat 1
  stop := rfl

theorem close (opens : Opens rules (count + 1) text) : Opens rules count (text ++ [')']) := by
  have lowered : ((count + 1 : Nat) : Int) + -1 = count := by omega
  have stop : start.through rules (text ++ [')']) = ⟨.outside, count⟩ := by
    calc
      start.through rules (text ++ [')']) = step rules ⟨.outside, (count + 1 : Nat)⟩ ')' := by
        rw [through_append, opens.stop]
        rfl
      _ = ⟨.outside, ((count + 1 : Nat) : Int) + -1⟩ := rfl
      _ = ⟨.outside, count⟩ := by rw [lowered]
  refine ⟨?_, stop⟩
  intro front found
  rcases List.prefix_concat_iff.mp found with rfl | within
  · rw [stop]
    exact Int.natCast_nonneg count
  · exact opens.nonneg front within

theorem closeAll (opens : Opens rules count text) :
    Opens rules 0 (text ++ List.replicate count ')') := by
  induction count generalizing text with
  | zero => simpa using opens
  | succ count inductionHypothesis =>
      have closed := inductionHypothesis opens.close
      rwa [List.append_assoc, List.singleton_append, ← List.replicate_succ] at closed

end Opens

/-! ### Texts without effect -/

/-- The text leads a scan from one place to another and leaves the depth alone all the way. -/
structure Passes (rules : ClassRules) (before : ScanPlace) (text : Text) (after : ScanPlace) :
    Prop where
  steady : ∀ depth front, front <+: text → (through rules ⟨before, depth⟩ front).depth = depth
  stop : ∀ depth, through rules ⟨before, depth⟩ text = ⟨after, depth⟩

namespace Passes

variable {before between after : ScanPlace} {text left right : Text}

theorem nil : Passes rules before [] before where
  steady depth front found := by
    rw [List.prefix_nil.mp found]
    rfl
  stop depth := rfl

theorem cons {character : Char} (quiet : before.change character = 0)
    (passes : Passes rules (before.next rules character) text after) :
    Passes rules before (character :: text) after := by
  have first (depth : Int) : step rules ⟨before, depth⟩ character =
      ⟨before.next rules character, depth⟩ := by
    simp only [step, quiet, Int.add_zero]
  refine ⟨?_, ?_⟩
  · intro depth front found
    rcases List.prefix_cons_iff.mp found with rfl | ⟨tail, rfl, within⟩
    · rfl
    · rw [through_cons, first]
      exact passes.steady depth tail within
  · intro depth
    rw [through_cons, first]
    exact passes.stop depth

theorem append (leftPasses : Passes rules before left between)
    (rightPasses : Passes rules between right after) :
    Passes rules before (left ++ right) after := by
  refine ⟨?_, ?_⟩
  · intro depth front found
    rcases Opens.prefix_append_cases found with within | ⟨beyond, begun, rfl⟩
    · exact leftPasses.steady depth front within
    · rw [through_append, leftPasses.stop]
      exact rightPasses.steady depth beyond begun
  · intro depth
    rw [through_append, leftPasses.stop, rightPasses.stop]

theorem opens (passes : Passes rules .outside text .outside) : Opens rules 0 text where
  nonneg front found := Int.le_of_eq (passes.steady 0 front found).symm
  stop := passes.stop 0

def marks : List Char := ['(', ')', '\\', '[']

theorem plain {text : Text} (plain : ∀ character ∈ text, character ∉ marks) :
    Passes rules .outside text .outside := by
  induction text with
  | nil => exact nil
  | cons character rest inductionHypothesis =>
      have unmarked := plain character List.mem_cons_self
      simp only [marks, List.mem_cons, List.not_mem_nil, or_false, not_or] at unmarked
      have stays : ScanPlace.next rules .outside character = .outside := by
        simp [ScanPlace.next, unmarked]
      refine cons (by simp [ScanPlace.change, unmarked]) ?_
      rw [stays]
      exact inductionHypothesis (fun other member => plain other (List.mem_cons_of_mem _ member))

theorem singleton {character : Char} (quiet : before.change character = 0) :
    Passes rules before [character] (before.next rules character) :=
  cons quiet nil

/-! ### What a draft writes of itself -/

theorem escapeLiteral (value : Text) :
    Passes rules .outside (Text.escapeLiteral value) .outside := by
  unfold Text.escapeLiteral
  induction value with
  | nil => exact nil
  | cons character rest inductionHypothesis =>
      have unit : Passes rules .outside (Text.escapeChar Text.literalSpecials character)
          .outside := by
        unfold Text.escapeChar
        split
        · exact cons rfl (singleton rfl)
        · rename_i ordinary
          refine plain (List.forall_mem_singleton.mpr ?_)
          intro marked
          have special : marks ⊆ Text.literalSpecials := by decide
          exact ordinary (special marked)
      rw [Text.escapeWith_cons]
      exact unit.append inductionHypothesis

/-- Members can be written right behind the opening of a class and behind other members. -/
inductive TakesMembers : ScanPlace → Prop where
  | opened (negated : Bool) : TakesMembers (.opened 0 negated)
  | inside : TakesMembers (.inside 0)

theorem change_of_takesMembers (takes : TakesMembers before) (character : Char) :
    before.change character = 0 := by
  cases takes <;> rfl

theorem member (takes : TakesMembers before) (character : Char) :
    Passes rules before (Text.escapeChar Text.classSpecials character) (.inside 0) := by
  have quiet := change_of_takesMembers takes
  unfold Text.escapeChar
  split
  · have escaped : before.next rules '\\' = .insideEscape 0 := by
      cases takes <;> rfl
    refine cons (quiet '\\') ?_
    rw [escaped]
    exact singleton rfl
  · rename_i plain
    simp only [Text.classSpecials, List.mem_cons, List.not_mem_nil, or_false, not_or] at plain
    have stays : before.next rules character = .inside 0 := by
      cases takes <;> simp [ScanPlace.next, ScanPlace.nextInside, plain]
    rw [← stays]
    exact singleton (quiet character)

theorem members (takes : TakesMembers before) {members : Text} (present : members ≠ []) :
    Passes rules before (Text.escapeMembers members) (.inside 0) := by
  unfold Text.escapeMembers
  induction members generalizing before with
  | nil => exact absurd rfl present
  | cons character rest inductionHypothesis =>
      rw [Text.escapeWith_cons]
      by_cases last : rest = []
      · rw [last]
        exact (member takes character).append nil
      · exact (member takes character).append (inductionHypothesis .inside last)

theorem interval (takes : TakesMembers before) (bounds : Char × Char) :
    Passes rules before (ClassText.interval bounds) (.inside 0) := by
  have hyphen : Passes rules (.inside 0) ['-'] (.inside 0) :=
    singleton (change_of_takesMembers .inside '-')
  have first : Passes rules before _ (.inside 0) :=
    members takes (List.cons_ne_nil bounds.1 [])
  have last : Passes rules (.inside 0) _ (.inside 0) :=
    members .inside (List.cons_ne_nil bounds.2 [])
  exact first.append (hyphen.append last)

theorem intervals (takes : TakesMembers before) {intervals : List (Char × Char)}
    (present : intervals ≠ []) :
    Passes rules before (intervals.flatMap ClassText.interval) (.inside 0) := by
  induction intervals generalizing before with
  | nil => exact absurd rfl present
  | cons bounds rest inductionHypothesis =>
      rw [List.flatMap_cons]
      by_cases last : rest = []
      · rw [last]
        exact (interval takes bounds).append nil
      · exact (interval takes bounds).append (inductionHypothesis .inside last)

theorem brackets {inside : Text} (passes : Passes rules (.opened 0 false) inside (.inside 0)) :
    Passes rules .outside ('[' :: inside ++ [']']) .outside := by
  have closing : Passes rules (.inside 0) [']'] .outside :=
    singleton (change_of_takesMembers .inside ']')
  exact cons rfl (passes.append closing)

theorem anyOf {listed text : Text} (written : ClassText.anyOf listed = some text) :
    Passes rules .outside text .outside := by
  unfold ClassText.anyOf at written
  split at written
  · cases written
  · rename_i present
    cases written
    exact brackets (members (.opened false) (by simpa using present))

theorem noneOf {listed text : Text} (written : ClassText.noneOf listed = some text) :
    Passes rules .outside text .outside := by
  unfold ClassText.noneOf at written
  split at written
  · cases written
  · rename_i present
    cases written
    have negation : Passes rules (.opened 0 false) ['^'] (.opened 0 true) :=
      singleton (change_of_takesMembers (.opened false) '^')
    exact brackets (negation.append (members (.opened true) (by simpa using present)))

theorem ofBounds {bounds : List Char} {text : Text}
    (written : (ClassText.ofBounds bounds).1 = some text) :
    Passes rules .outside text .outside := by
  simp only [ClassText.ofBounds] at written
  split at written
  · cases written
  · rename_i present
    cases written
    exact brackets (intervals (.opened false) (by simpa using present))

theorem quantifier (quantifier : Quantifier) :
    Passes rules .outside quantifier.text .outside := by
  have digits {value : Nat} {digit : Char} (member : digit ∈ Text.decimal value) :
      digit ∉ marks := by
    have isDigit := Text.isDigit_of_mem_decimal member
    intro marked
    have none : ∀ mark ∈ marks, mark.isDigit = false := by simp [marks, Char.isDigit]
    rw [none digit marked] at isDigit
    cases isDigit
  apply plain
  intro character member
  cases quantifier with
  | optional =>
      rw [List.mem_singleton.mp member]
      decide
  | oneOrMore =>
      rw [List.mem_singleton.mp member]
      decide
  | exactly count =>
      simp only [Quantifier.text, List.mem_cons, List.mem_append, List.not_mem_nil,
        or_false] at member
      rcases member with (rfl | digit) | rfl
      · decide
      · exact digits digit
      · decide
  | atLeast lower =>
      simp only [Quantifier.text, List.mem_cons, List.mem_append, List.not_mem_nil,
        or_false] at member
      rcases member with (rfl | digit) | rfl | rfl
      · decide
      · exact digits digit
      · decide
      · decide
  | between lower upper =>
      simp only [Quantifier.text, List.mem_cons, List.mem_append, List.not_mem_nil,
        or_false] at member
      rcases member with ((rfl | digit) | rfl | digit) | rfl
      · decide
      · exact digits digit
      · decide
      · exact digits digit
      · decide

end Passes
end ReadableRegex

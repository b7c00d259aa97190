import ReadableRegex.Flag

/-!
Sets of flags as eight bits. The first five bits are the known flags in their written order;
the other three have no meaning, and every operation on flags leaves them as they are.
-/

namespace ReadableRegex

/-- A set of flags, bit `i` for the flag of index `i`. -/
structure FlagSet where
  bits : BitVec 8
deriving DecidableEq, Repr

namespace FlagSet

def empty : FlagSet := ⟨0#8⟩

def single (flag : Flag) : FlagSet := ⟨1#8 <<< flag.index⟩

def has (flags : FlagSet) (flag : Flag) : Bool :=
  flags.bits.getLsbD flag.index

def union (left right : FlagSet) : FlagSet := ⟨left.bits ||| right.bits⟩

def enable (flags : FlagSet) (flag : Flag) : FlagSet :=
  flags.union (single flag)

def disable (flags : FlagSet) (flag : Flag) : FlagSet :=
  ⟨flags.bits &&& ~~~(single flag).bits⟩

def switch (flags : FlagSet) (flag : Flag) (enabled : Bool) : FlagSet :=
  if enabled then flags.enable flag else flags.disable flag

theorem has_single (flag other : Flag) : (single flag).has other = decide (other = flag) := by
  cases flag <;> cases other <;> rfl

theorem has_union (left right : FlagSet) (flag : Flag) :
    (left.union right).has flag = (left.has flag || right.has flag) :=
  BitVec.getLsbD_or

theorem has_enable (flags : FlagSet) (flag other : Flag) :
    (flags.enable flag).has other = (flags.has other || decide (other = flag)) := by
  rw [enable, has_union, has_single]

theorem has_disable (flags : FlagSet) (flag other : Flag) :
    (flags.disable flag).has other = (flags.has other && !decide (other = flag)) := by
  have known : other.index < 8 := by cases other <;> decide
  have apart := has_single flag other
  unfold has at apart ⊢
  rw [disable, BitVec.getLsbD_and, BitVec.getLsbD_not, apart, decide_eq_true known, Bool.true_and]

/-- A switch moves one flag and leaves the others as they are. -/
theorem has_switch (flags : FlagSet) (flag other : Flag) (enabled : Bool) :
    (flags.switch flag enabled).has other =
      if other = flag then enabled else flags.has other := by
  cases enabled with
  | true =>
      rw [switch, if_pos rfl, has_enable]
      by_cases same : other = flag <;> simp [same]
  | false =>
      rw [switch, if_neg (by decide), has_disable]
      by_cases same : other = flag <;> simp [same]

/-- A new expression finds every match and anchors at lines. -/
def initial : FlagSet := (empty.enable .global).enable .multiline

instance : Inhabited FlagSet := ⟨initial⟩

/-- The known flags of the set, in written order. -/
def toList (flags : FlagSet) : List Flag :=
  Flag.all.filter flags.has

def letters (flags : FlagSet) : Text :=
  flags.toList.map Flag.letter

def enableLetter (flags : FlagSet) (letter : Char) : Except FlagError FlagSet :=
  match Flag.ofLetter letter with
  | .ok flag => .ok (flags.enable flag)
  | .error error => .error error

/-- The set of the flags whose letters the text lists, in any order and number. -/
def ofLetters (text : Text) : Except FlagError FlagSet :=
  text.foldlM enableLetter empty

/-- The bits that belong to no known flag. -/
def unknownBits (flags : FlagSet) : BitVec 8 :=
  flags.bits &&& 0xE0#8

theorem unknownBits_switch (flags : FlagSet) (flag : Flag) (enabled : Bool) :
    (flags.switch flag enabled).unknownBits = flags.unknownBits := by
  have known : (single flag).bits &&& 0xE0#8 = 0#8 := by
    cases flag <;> decide
  have rest : ~~~(single flag).bits &&& 0xE0#8 = 0xE0#8 := by
    cases flag <;> decide
  unfold unknownBits
  cases enabled with
  | true =>
      have both : (flags.bits ||| (single flag).bits) &&& 0xE0#8 = flags.bits &&& 0xE0#8 := by
        rw [BitVec.and_comm, BitVec.and_or_distrib_left, BitVec.and_comm _ (single flag).bits,
          known, BitVec.or_zero, BitVec.and_comm]
      exact both
  | false =>
      have both : flags.bits &&& ~~~(single flag).bits &&& 0xE0#8 = flags.bits &&& 0xE0#8 := by
        rw [BitVec.and_assoc, rest]
      exact both

theorem unknownBits_enable (flags : FlagSet) (flag : Flag) :
    (flags.enable flag).unknownBits = flags.unknownBits :=
  unknownBits_switch flags flag true

theorem has_empty (flag : Flag) : empty.has flag = false := by
  cases flag <;> rfl

theorem mem_toList_iff (flags : FlagSet) (flag : Flag) :
    flag ∈ flags.toList ↔ flags.has flag = true := by
  have every : flag ∈ Flag.all := by cases flag <;> decide
  simp [toList, every]

theorem has_foldl_enable (members : List Flag) (flags : FlagSet) (flag : Flag) :
    (members.foldl enable flags).has flag = (flags.has flag || decide (flag ∈ members)) := by
  induction members generalizing flags with
  | nil => simp
  | cons first rest inductionHypothesis =>
      rw [List.foldl_cons, inductionHypothesis, has_enable]
      simp only [List.mem_cons, Bool.decide_or, Bool.or_assoc]

theorem unknownBits_foldl_enable (members : List Flag) (flags : FlagSet) :
    (members.foldl enable flags).unknownBits = flags.unknownBits := by
  induction members generalizing flags with
  | nil => rfl
  | cons first rest inductionHypothesis =>
      rw [List.foldl_cons, inductionHypothesis, unknownBits_enable]

/-- The flags and the bits of no flag are all there is to a set. -/
theorem ext_of_has {left right : FlagSet} (known : ∀ flag, left.has flag = right.has flag)
    (unknown : left.unknownBits = right.unknownBits) : left = right := by
  have bits : left.bits = right.bits := by
    apply BitVec.eq_of_getLsbD_eq
    intro index inside
    by_cases below : index < 5
    · match index, below with
      | 0, _ => exact known .global
      | 1, _ => exact known .ignoreCase
      | 2, _ => exact known .multiline
      | 3, _ => exact known .dotAll
      | 4, _ => exact known .sticky
    · have masked : (0xE0#8).getLsbD index = true := by
        match index, inside, below with
        | 5, _, _ => rfl
        | 6, _, _ => rfl
        | 7, _, _ => rfl
      have same := congrArg (fun bits => bits.getLsbD index) unknown
      simpa only [unknownBits, BitVec.getLsbD_and, masked, Bool.and_true] using same
  cases left
  cases right
  exact congrArg FlagSet.mk bits

end FlagSet
end ReadableRegex

import ReadableRegex.Instruction
import ReadableRegex.Proofs.Language.Spans

/-!
The code of an expression runs its language. A run is a row of steps from one pair of place and
position to another; code that stands somewhere in larger code can be passed exactly along the
language of its expression. Loops are taken apart by the number of steps that are left.
-/

namespace ReadableRegex

variable {subject : Array Char}

def Instruction.follows (subject : Array Char) (place position : Nat) :
    Instruction → List (Nat × Nat)
  | .read members =>
      if subject[position]?.any members.holds then [(place + 1, position + 1)] else []
  | .check look =>
      if look.holds (Spans.before subject position) subject[position]? then
        [(place + 1, position)]
      else []
  | .mark _ => [(place + 1, position)]
  | .jump hop => [(hop.target place, position)]
  | .fork first second => [(first.target place, position), (second.target place, position)]

namespace Code

/-- Whether so many steps lead past the end of the code, at the position `stop` of the text. -/
def Reaches (subject : Array Char) (code : Code) : Nat → Nat → Nat → Nat → Prop
  | 0, place, position, stop => code.length ≤ place ∧ position = stop
  | steps + 1, place, position, stop =>
      ∃ instruction, code[place]? = some instruction ∧
        ∃ pair ∈ instruction.follows subject place position,
          Reaches subject code steps pair.1 pair.2 stop

def StandsAt (whole body : Code) (place : Nat) : Prop :=
  ∃ front back, whole = front ++ (body ++ back) ∧ front.length = place

/-- The body can be passed along the language, and in no other way. -/
structure Runs (subject : Array Char) (body : Code) (spans : Spans) : Prop where
  sound : ∀ {whole place steps position stop}, StandsAt whole body place →
    Reaches subject whole steps place position stop →
      ∃ middle later, later ≤ steps ∧ spans position middle ∧
        Reaches subject whole later (place + body.length) middle stop
  complete : ∀ {whole place later position middle stop}, StandsAt whole body place →
    spans position middle → Reaches subject whole later (place + body.length) middle stop →
      ∃ steps, Reaches subject whole steps place position stop

variable {whole body left right : Code} {place steps position stop : Nat}
  {instruction : Instruction} {spans first rest : Spans} {greedy : Bool}

/-! ### Places -/

theorem StandsAt.append (stands : StandsAt whole (left ++ right) place) :
    StandsAt whole left place ∧ StandsAt whole right (place + left.length) := by
  obtain ⟨front, back, shape, length⟩ := stands
  constructor
  · refine ⟨front, right ++ back, ?_, length⟩
    rw [shape, List.append_assoc]
  · refine ⟨front ++ left, back, ?_, ?_⟩
    · rw [shape, List.append_assoc, List.append_assoc]
    · rw [List.length_append, length]

theorem StandsAt.tail (stands : StandsAt whole (instruction :: body) place) :
    StandsAt whole body (place + 1) := by
  have split : StandsAt whole ([instruction] ++ body) place := stands
  exact split.append.2

theorem StandsAt.found (stands : StandsAt whole (instruction :: body) place) :
    whole[place]? = some instruction := by
  obtain ⟨front, back, shape, length⟩ := stands
  subst length
  rw [shape, List.getElem?_append_right (Nat.le_refl _), Nat.sub_self]
  rfl

theorem target_back (place distance : Nat) :
    (Hop.back distance).target (place + distance) = place := by
  unfold Hop.target
  exact Nat.add_sub_cancel _ _

theorem target_back_entry (place distance : Nat) :
    (Hop.back (distance + 1)).target (place + 1 + distance) = place := by
  unfold Hop.target
  dsimp only
  omega

theorem add_length_optional (place : Nat) (greedy : Bool) (body : Code) :
    place + (Code.optional greedy body).length = place + 1 + body.length := by
  simp only [Code.optional, List.length_cons]
  omega

theorem add_length_choice (place : Nat) (left right : Code) :
    place + (Code.choice left right).length = place + 1 + left.length + 1 + right.length := by
  simp only [Code.choice, List.length_cons, List.length_append]
  omega

theorem add_length_plus (place : Nat) (greedy : Bool) (body : Code) :
    place + (Code.plus greedy body).length = place + body.length + 1 := by
  simp only [Code.plus, List.length_append, List.length_singleton]
  omega

theorem add_length_loop (place : Nat) (first last : Instruction) (body : Code) :
    place + (first :: (body ++ [last])).length = place + 1 + (body.length + 1) := by
  simp only [List.length_cons, List.length_append, List.length_nil]
  omega

/-! ### Steps -/

theorem Reaches.step (reaches : Reaches subject whole steps place position stop)
    (found : whole[place]? = some instruction) :
    ∃ later, steps = later + 1 ∧
      ∃ pair ∈ instruction.follows subject place position,
        Reaches subject whole later pair.1 pair.2 stop := by
  cases steps with
  | zero =>
      have beyond := List.getElem?_eq_none reaches.1
      rw [found] at beyond
      cases beyond
  | succ later =>
      obtain ⟨other, same, pair, member, reached⟩ := reaches
      rw [found] at same
      cases same
      exact ⟨later, rfl, pair, member, reached⟩

theorem Reaches.eq_of_beyond (reaches : Reaches subject whole steps place position stop)
    (beyond : whole.length ≤ place) : position = stop := by
  cases steps with
  | zero => exact reaches.2
  | succ later =>
      obtain ⟨instruction, found, _⟩ := reaches
      rw [List.getElem?_eq_none beyond] at found
      cases found

theorem reaches_of_follows {pair : Nat × Nat} (found : whole[place]? = some instruction)
    (member : pair ∈ instruction.follows subject place position)
    (reaches : Reaches subject whole steps pair.1 pair.2 stop) :
    Reaches subject whole (steps + 1) place position stop :=
  ⟨instruction, found, pair, member, reaches⟩

theorem follows_fork (greedy : Bool) (enter leave : Hop) (pair : Nat × Nat) :
    pair ∈ (fork greedy enter leave).follows subject place position ↔
      pair = (enter.target place, position) ∨ pair = (leave.target place, position) := by
  cases greedy with
  | true => simp [fork, Instruction.follows]
  | false =>
      simp only [fork, Instruction.follows, Bool.false_eq_true, if_false, List.mem_cons,
        List.not_mem_nil, or_false]
      exact Or.comm

theorem Reaches.fork {enter leave : Hop} (reaches : Reaches subject whole steps place position stop)
    (found : whole[place]? = some (Code.fork greedy enter leave)) :
    ∃ later, steps = later + 1 ∧
      (Reaches subject whole later (enter.target place) position stop ∨
        Reaches subject whole later (leave.target place) position stop) := by
  obtain ⟨later, count, pair, member, reached⟩ := reaches.step found
  refine ⟨later, count, ?_⟩
  rcases (follows_fork greedy enter leave pair).mp member with same | same
  · rw [same] at reached
    exact Or.inl reached
  · rw [same] at reached
    exact Or.inr reached

theorem reaches_enter {enter leave : Hop}
    (found : whole[place]? = some (Code.fork greedy enter leave))
    (reaches : Reaches subject whole steps (enter.target place) position stop) :
    Reaches subject whole (steps + 1) place position stop :=
  reaches_of_follows found ((follows_fork greedy enter leave _).mpr (Or.inl rfl)) reaches

theorem reaches_leave {enter leave : Hop}
    (found : whole[place]? = some (Code.fork greedy enter leave))
    (reaches : Reaches subject whole steps (leave.target place) position stop) :
    Reaches subject whole (steps + 1) place position stop :=
  reaches_of_follows found ((follows_fork greedy enter leave _).mpr (Or.inr rfl)) reaches

/-! ### Single instructions -/

theorem runs_instruction
    (follows : ∀ place position pair,
      pair ∈ instruction.follows subject place position ↔
        pair.1 = place + 1 ∧ spans position pair.2) :
    Runs subject [instruction] spans where
  sound := by
    intro whole place steps position stop stands reaches
    obtain ⟨later, count, pair, member, reached⟩ := reaches.step stands.found
    obtain ⟨behind, allowed⟩ := (follows place position pair).mp member
    rw [behind] at reached
    exact ⟨pair.2, later, by omega, allowed, reached⟩
  complete := by
    intro whole place later position middle stop stands allowed reaches
    have member := (follows place position (place + 1, middle)).mpr ⟨rfl, allowed⟩
    exact ⟨later + 1, reaches_of_follows stands.found member reaches⟩

theorem runs_read (members : CharSet) :
    Runs subject [.read members] (.read subject members) := by
  apply runs_instruction
  intro place position pair
  obtain ⟨next, further⟩ := pair
  by_cases held : subject[position]?.any members.holds = true
  · simp [Instruction.follows, Spans.read, held]
  · simp [Instruction.follows, Spans.read, held]

theorem runs_check (look : Look) : Runs subject [.check look] (.check subject look) := by
  apply runs_instruction
  intro place position pair
  obtain ⟨next, further⟩ := pair
  by_cases holds : look.holds (Spans.before subject position) subject[position]? = true
  · simp [Instruction.follows, Spans.check, holds, eq_comm]
  · simp [Instruction.follows, Spans.check, holds]

theorem runs_mark (slot : Nat) : Runs subject [.mark slot] .here := by
  apply runs_instruction
  intro place position pair
  obtain ⟨next, further⟩ := pair
  simp [Instruction.follows, Spans.here, eq_comm]

/-! ### Rows and choices -/

theorem runs_nil : Runs subject [] .here where
  sound := by
    intro whole place steps position stop _ reaches
    exact ⟨position, steps, Nat.le_refl _, rfl, reaches⟩
  complete := by
    intro whole place later position middle stop _ same reaches
    cases same
    exact ⟨later, reaches⟩

theorem Runs.append (leftRuns : Runs subject left first) (rightRuns : Runs subject right rest) :
    Runs subject (left ++ right) (.join first rest) where
  sound := by
    intro whole place steps position stop stands reaches
    obtain ⟨leftStands, rightStands⟩ := stands.append
    obtain ⟨middle, between, fewer, matched, onward⟩ := leftRuns.sound leftStands reaches
    obtain ⟨last, later, fewest, rematched, behind⟩ := rightRuns.sound rightStands onward
    rw [List.length_append, ← Nat.add_assoc]
    exact ⟨last, later, by omega, ⟨middle, matched, rematched⟩, behind⟩
  complete := by
    intro whole place later position last stop stands matched reaches
    obtain ⟨leftStands, rightStands⟩ := stands.append
    obtain ⟨middle, earlier, afterward⟩ := matched
    rw [List.length_append, ← Nat.add_assoc] at reaches
    obtain ⟨between, onward⟩ := rightRuns.complete rightStands afterward reaches
    exact leftRuns.complete leftStands earlier onward

theorem Runs.optional (runs : Runs subject body spans) (greedy : Bool) :
    Runs subject (Code.optional greedy body) (.either .here spans) where
  sound := by
    intro whole place steps position stop stands reaches
    rw [add_length_optional]
    obtain ⟨later, count, inside | beyond⟩ := reaches.fork stands.found
    · obtain ⟨middle, fewer, less, matched, behind⟩ := runs.sound stands.tail inside
      exact ⟨middle, fewer, by omega, Or.inr matched, behind⟩
    · exact ⟨position, later, by omega, Or.inl rfl, beyond⟩
  complete := by
    intro whole place later position middle stop stands matched reaches
    rw [add_length_optional] at reaches
    rcases matched with same | matched
    · cases same
      exact ⟨later + 1, reaches_leave stands.found reaches⟩
    · obtain ⟨steps, inside⟩ := runs.complete stands.tail matched reaches
      exact ⟨steps + 1, reaches_enter stands.found inside⟩

theorem Runs.choice (leftRuns : Runs subject left first) (rightRuns : Runs subject right rest) :
    Runs subject (Code.choice left right) (.either first rest) where
  sound := by
    intro whole place steps position stop stands reaches
    obtain ⟨leftStands, jumpStands⟩ := stands.tail.append
    rw [add_length_choice]
    obtain ⟨later, count, pair, member, reached⟩ := reaches.step stands.found
    simp only [Instruction.follows, List.mem_cons, List.not_mem_nil, or_false] at member
    rcases member with same | same
    · rw [same] at reached
      obtain ⟨middle, fewer, less, matched, onward⟩ := leftRuns.sound leftStands reached
      obtain ⟨fewest, again, target, only, behind⟩ := onward.step jumpStands.found
      rw [List.mem_singleton.mp only] at behind
      exact ⟨middle, fewest, by omega, Or.inl matched, behind⟩
    · rw [same] at reached
      obtain ⟨middle, fewer, less, matched, behind⟩ := rightRuns.sound jumpStands.tail reached
      exact ⟨middle, fewer, by omega, Or.inr matched, behind⟩
  complete := by
    intro whole place later position middle stop stands matched reaches
    obtain ⟨leftStands, jumpStands⟩ := stands.tail.append
    rw [add_length_choice] at reaches
    rcases matched with matched | matched
    · have jumped := reaches_of_follows jumpStands.found (List.mem_singleton.mpr rfl) reaches
      obtain ⟨steps, inside⟩ := leftRuns.complete leftStands matched jumped
      exact ⟨steps + 1, reaches_of_follows stands.found List.mem_cons_self inside⟩
    · obtain ⟨steps, inside⟩ := rightRuns.complete jumpStands.tail matched reaches
      exact ⟨steps + 1, reaches_of_follows stands.found
        (List.mem_cons_of_mem _ (List.mem_singleton.mpr rfl)) inside⟩

/-! ### Repetitions -/

theorem Runs.plus (runs : Runs subject body spans) (greedy : Bool) :
    Runs subject (Code.plus greedy body) (.several spans) where
  sound := by
    intro whole place steps position stop stands reaches
    obtain ⟨bodyStands, forkStands⟩ := stands.append
    -- A body without characters need not take a step, but the choice behind it does.
    induction steps using Nat.strongRecOn generalizing position with
    | ind steps inductionHypothesis =>
        obtain ⟨middle, fewer, less, matched, onward⟩ := runs.sound bodyStands reaches
        obtain ⟨later, count, again | beyond⟩ := onward.fork forkStands.found
        · rw [target_back] at again
          obtain ⟨last, rest, fewest, ⟨rounds, others⟩, behind⟩ :=
            inductionHypothesis later (by omega) again
          exact ⟨last, rest, by omega, ⟨rounds + 1, middle, matched, others⟩, behind⟩
        · rw [add_length_plus]
          refine ⟨middle, later, by omega, ⟨0, ?_⟩, beyond⟩
          rw [Spans.copies_one]
          exact matched
  complete := by
    intro whole place later position middle stop stands matched reaches
    obtain ⟨bodyStands, forkStands⟩ := stands.append
    obtain ⟨rounds, copies⟩ := matched
    rw [add_length_plus] at reaches
    induction rounds generalizing position with
    | zero =>
        rw [Spans.copies_one] at copies
        exact runs.complete bodyStands copies (reaches_leave forkStands.found reaches)
    | succ rounds inductionHypothesis =>
        obtain ⟨between, matched, others⟩ := copies
        obtain ⟨steps, again⟩ := inductionHypothesis others
        rw [← target_back place body.length] at again
        exact runs.complete bodyStands matched (reaches_enter forkStands.found again)

/-- Any number of times; a loop that may be left before its body is entered. -/
theorem Runs.loop (runs : Runs subject body spans) (greedy : Bool) :
    Runs subject
      (Code.fork greedy (.ahead 0) (.ahead (body.length + 1)) ::
        (body ++ [.jump (.back (body.length + 1))]))
      (.many spans) where
  sound := by
    intro whole place steps position stop stands reaches
    obtain ⟨bodyStands, jumpStands⟩ := stands.tail.append
    rw [add_length_loop]
    induction steps using Nat.strongRecOn generalizing position with
    | ind steps inductionHypothesis =>
        obtain ⟨later, count, inside | beyond⟩ := reaches.fork stands.found
        · obtain ⟨middle, fewer, less, matched, onward⟩ := runs.sound bodyStands inside
          obtain ⟨fewest, again, pair, member, reached⟩ := onward.step jumpStands.found
          rw [List.mem_singleton.mp member, target_back_entry] at reached
          obtain ⟨last, least, bound, ⟨rounds, others⟩, behind⟩ :=
            inductionHypothesis fewest (by omega) reached
          exact ⟨last, least, by omega, ⟨rounds + 1, middle, matched, others⟩, behind⟩
        · exact ⟨position, later, by omega, ⟨0, rfl⟩, beyond⟩
  complete := by
    intro whole place later position middle stop stands matched reaches
    obtain ⟨bodyStands, jumpStands⟩ := stands.tail.append
    obtain ⟨rounds, copies⟩ := matched
    rw [add_length_loop] at reaches
    induction rounds generalizing position with
    | zero =>
        cases copies
        exact ⟨later + 1, reaches_leave stands.found reaches⟩
    | succ rounds inductionHypothesis =>
        obtain ⟨between, matched, others⟩ := copies
        obtain ⟨steps, again⟩ := inductionHypothesis others
        rw [← target_back_entry place body.length] at again
        have jumped := reaches_of_follows jumpStands.found (List.mem_singleton.mpr rfl) again
        obtain ⟨entered, inside⟩ := runs.complete bodyStands matched jumped
        exact ⟨entered + 1, reaches_enter stands.found inside⟩

theorem Runs.star (runs : Runs subject body spans) (greedy nullable : Bool) :
    Runs subject (Code.star greedy nullable body) (.many spans) := by
  unfold Code.star
  split
  · rw [Spans.many_eq]
    exact (runs.plus greedy).optional greedy
  · exact runs.loop greedy

theorem Runs.copies (runs : Runs subject body spans) (count : Nat) :
    Runs subject (Code.copies count body) (Spans.copies spans count) := by
  induction count with
  | zero => exact runs_nil
  | succ count inductionHypothesis =>
      have shape : Code.copies (count + 1) body = body ++ Code.copies count body := by
        unfold Code.copies
        rw [List.replicate_succ, List.flatten_cons]
      rw [shape]
      exact runs.append inductionHypothesis

/-- Stopping anywhere in the row leaves all of it. -/
theorem optionalRow_succ (greedy : Bool) (count : Nat) (body : Code) :
    optionalRow greedy (count + 1) body =
      Code.optional greedy (body ++ optionalRow greedy count body) := by
  have length := length_optionalRow greedy count body
  unfold Code.optional
  rw [List.length_append, length]
  unfold optionalRow
  rw [List.range_succ, List.reverse_append, List.reverse_singleton, List.singleton_append,
    List.flatMap_cons, List.cons_append]

theorem Runs.optionalRow (runs : Runs subject body spans) (greedy : Bool) (count : Nat) :
    Runs subject (Code.optionalRow greedy count body) (.atMost spans count) := by
  induction count with
  | zero =>
      rw [Spans.atMost_zero]
      exact runs_nil
  | succ count inductionHypothesis =>
      rw [optionalRow_succ, Spans.atMost_succ]
      exact (runs.append inductionHypothesis).optional greedy

theorem Runs.repeated (runs : Runs subject body spans) (counts : Counts) (nullable : Bool) :
    Runs subject (Code.repeated counts nullable body) (.repeated counts spans) := by
  obtain ⟨lower, upper, greedy⟩ := counts
  unfold Code.repeated
  cases upper with
  | some upper =>
      rw [Spans.repeated_between]
      exact (runs.copies lower).append (runs.optionalRow greedy (upper - lower))
  | none =>
      cases lower with
      | zero =>
          rw [Spans.repeated_zero]
          exact runs.star greedy nullable
      | succ lower =>
          rw [Spans.repeated_succ]
          exact (runs.copies lower).append (runs.plus greedy)

end Code

theorem Regex.runs_code (regex : Regex) :
    Code.Runs subject regex.code (regex.spans subject) := by
  induction regex with
  | empty => exact Code.runs_nil
  | literal text =>
      induction text with
      | nil => exact Code.runs_nil
      | cons character rest inductionHypothesis =>
          exact (Code.runs_read _).append inductionHypothesis
  | set unicode members => exact Code.runs_read members
  | look condition => exact Code.runs_check condition
  | repetition counts part inductionHypothesis => exact inductionHypothesis.repeated counts _
  | capture index name part inductionHypothesis =>
      have marked := (Code.runs_mark (2 * index)).append
        (inductionHypothesis.append (Code.runs_mark (2 * index + 1)))
      rw [Spans.here_join, Spans.join_here] at marked
      exact marked
  | sequence first rest firstHypothesis restHypothesis =>
      exact firstHypothesis.append restHypothesis
  | choice first rest firstHypothesis restHypothesis =>
      exact firstHypothesis.choice restHypothesis

/-- What the code of an expression reaches is the language of the expression. -/
theorem Regex.spans_iff_reaches (regex : Regex) (start stop : Nat) :
    regex.spans subject start stop ↔ ∃ steps, regex.code.Reaches subject steps 0 start stop := by
  have stands : regex.code.StandsAt regex.code 0 := ⟨[], [], by simp, rfl⟩
  constructor
  · intro spans
    have finish : regex.code.Reaches subject 0 (0 + regex.code.length) stop stop := by
      rw [Nat.zero_add]
      exact ⟨Nat.le_refl _, rfl⟩
    exact regex.runs_code.complete stands spans finish
  · rintro ⟨steps, reaches⟩
    obtain ⟨middle, later, _, spans, behind⟩ := regex.runs_code.sound stands reaches
    have same := behind.eq_of_beyond (by omega)
    rw [← same]
    exact spans

end ReadableRegex

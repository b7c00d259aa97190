import ReadableRegex.Regex

/-!
Programs for the matching engine. An instruction names other instructions by their distance
only, so the code of an expression is put together from the code of its parts without change.
Running past the last instruction is success.
-/

namespace ReadableRegex

inductive Hop where
  /-- So many instructions beyond the next one. -/
  | ahead (distance : Nat)
  /-- So many instructions before this one. -/
  | back (distance : Nat)
deriving DecidableEq, Repr

def Hop.target (place : Nat) : Hop → Nat
  | .ahead distance => place + 1 + distance
  | .back distance => place - distance

inductive Instruction where
  | read (members : CharSet)
  | check (look : Look)
  /-- Notes the position under a number. -/
  | mark (slot : Nat)
  | jump (hop : Hop)
  /-- Goes on at either place, the first one preferred. -/
  | fork (first second : Hop)

abbrev Code := List Instruction

namespace Code

/-- A choice to go into the following code or past it; greed prefers the code. -/
def fork (greedy : Bool) (enter leave : Hop) : Instruction :=
  if greedy then .fork enter leave else .fork leave enter

def optional (greedy : Bool) (body : Code) : Code :=
  fork greedy (.ahead 0) (.ahead body.length) :: body

def plus (greedy : Bool) (body : Code) : Code :=
  body ++ [fork greedy (.back body.length) (.ahead 0)]

/-- The code any number of times. A body that may match nothing is first entered by a choice
of its own, so that it gets one run even where it matches nothing. -/
def star (greedy nullable : Bool) (body : Code) : Code :=
  if nullable then optional greedy (plus greedy body)
  else
    fork greedy (.ahead 0) (.ahead (body.length + 1)) ::
      (body ++ [.jump (.back (body.length + 1))])

def copies (count : Nat) (body : Code) : Code :=
  (List.replicate count body).flatten

/-- The code up to `count` times. Every choice to stop leaves the whole row. -/
def optionalRow (greedy : Bool) (count : Nat) (body : Code) : Code :=
  (List.range count).reverse.flatMap (fun later =>
    fork greedy (.ahead 0) (.ahead (body.length + later * (body.length + 1))) :: body)

def repeated (counts : Counts) (nullable : Bool) (body : Code) : Code :=
  match counts.upper with
  | some upper =>
      copies counts.lower body ++ optionalRow counts.greedy (upper - counts.lower) body
  | none =>
      if counts.lower = 0 then star counts.greedy nullable body
      else copies (counts.lower - 1) body ++ plus counts.greedy body

def choice (left right : Code) : Code :=
  .fork (.ahead 0) (.ahead (left.length + 1)) :: (left ++ .jump (.ahead right.length) :: right)

end Code

/-- The places that an instruction at `place` leads to by a hop. One way of a fork may lead to the
next instruction without a hop. -/
def Instruction.landings (place : Nat) : Instruction → List Nat
  | .read _ => []
  | .check _ => []
  | .mark _ => []
  | .jump hop => [hop.target place]
  | .fork first second =>
      if first = .ahead 0 then [second.target place]
      else if second = .ahead 0 then [first.target place]
      else [first.target place, second.target place]

/-- For each place of the code, whether a hop leads there, so that different threads can meet. -/
def Code.crossings (code : Code) : Array Bool :=
  (code.zipIdx.flatMap (fun entry => entry.1.landings entry.2)).foldl
    (fun crossings place => crossings.setIfInBounds place true)
    (Array.replicate code.length false)

namespace Regex

def code : Regex → Code
  | .empty => []
  | .literal text => text.map (fun character => .read (.ofChars [character]))
  | .set _ members => [.read members]
  | .look condition => [.check condition]
  | .repetition counts part => Code.repeated counts part.isNullable part.code
  | .capture index _ part => .mark (2 * index) :: (part.code ++ [.mark (2 * index + 1)])
  | .sequence first rest => first.code ++ rest.code
  | .choice first rest => Code.choice first.code rest.code

/-- The length of repeated code, without writing it out. -/
def repeatedSize (counts : Counts) (size : Nat) : Nat :=
  match counts.upper with
  | some upper => counts.lower * size + (upper - counts.lower) * (size + 1)
  | none =>
      if counts.lower = 0 then size + 2
      else (counts.lower - 1) * size + (size + 1)

def size : Regex → Nat
  | .empty => 0
  | .literal text => text.length
  | .set _ _ => 1
  | .look _ => 1
  | .repetition counts part => repeatedSize counts part.size
  | .capture _ _ part => part.size + 2
  | .sequence first rest => first.size + rest.size
  | .choice first rest => first.size + rest.size + 2

end Regex

/-! ### Lengths of code -/

namespace Code

theorem length_copies (count : Nat) (body : Code) :
    (copies count body).length = count * body.length := by
  simp [copies]

theorem length_optionalRow (greedy : Bool) (count : Nat) (body : Code) :
    (optionalRow greedy count body).length = count * (body.length + 1) := by
  unfold optionalRow
  induction count with
  | zero => simp
  | succ count inductionHypothesis =>
      rw [List.range_succ, List.reverse_append, List.reverse_singleton, List.singleton_append,
        List.flatMap_cons, List.length_append, inductionHypothesis, List.length_cons,
        Nat.succ_mul, Nat.add_comm]

theorem length_star (greedy nullable : Bool) (body : Code) :
    (star greedy nullable body).length = body.length + 2 := by
  unfold star optional plus
  split <;> simp

theorem length_repeated (counts : Counts) (nullable : Bool) (body : Code) :
    (repeated counts nullable body).length = Regex.repeatedSize counts body.length := by
  unfold repeated Regex.repeatedSize
  split
  · rw [List.length_append, length_copies, length_optionalRow]
  · split
    · exact length_star _ _ _
    · rw [List.length_append, length_copies]
      simp [plus]

end Code

theorem Regex.length_code (regex : Regex) : regex.code.length = regex.size := by
  induction regex with
  | empty => rfl
  | literal text => simp [code, size]
  | set => rfl
  | look => rfl
  | repetition counts part inductionHypothesis =>
      simp only [code, size, Code.length_repeated, inductionHypothesis]
  | capture index name part inductionHypothesis =>
      simp [code, size, inductionHypothesis]
  | sequence first rest firstHypothesis restHypothesis =>
      simp [code, size, firstHypothesis, restHypothesis]
  | choice first rest firstHypothesis restHypothesis =>
      simp only [code, size, Code.choice, List.length_cons, List.length_append, firstHypothesis,
        restHypothesis]
      omega

end ReadableRegex

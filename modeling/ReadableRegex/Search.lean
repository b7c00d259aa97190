import ReadableRegex.Hit
import ReadableRegex.Program
import ReadableRegex.Visits

/-!
Running a program on a text. From one start, threads are followed in the order of preference,
and no pair of code place and text position is entered twice: what follows from a pair does not
depend on how it was reached, so a second entry cannot succeed where the first one failed. Only
pairs at crossings need a mark for that, any other place is entered from the instruction before
it alone. The first thread to run past the end of the code is the match. A search tries the
starts from left to right and keeps the marks of the starts that failed. It hands on its marks
for a search that goes on where the match stops: beyond that position, all that it marked has
failed.
-/

namespace ReadableRegex

/-- A thread of a search that began at `start`: its place in the code, its position in the text
and the positions it has noted, the latest first. -/
structure Thread (subject : Array Char) (start : Nat) where
  place : Nat
  position : Nat
  marks : List (Nat × Nat)
  /-- Whether no other thread can come to the same pair. -/
  sole : Bool
  start_le : start ≤ position
  le_size : position ≤ subject.size

namespace Thread

variable {subject : Array Char} {start : Nat}

def first (subject : Array Char) (start : Nat) (inside : start ≤ subject.size) :
    Thread subject start :=
  { place := 0
    position := start
    marks := []
    sole := false
    start_le := Nat.le_refl start
    le_size := inside }

def hop (thread : Thread subject start) (hop : Hop) : Thread subject start :=
  { thread with place := hop.target thread.place, sole := false }

@[inline]
def step (thread : Thread subject start) (crossings : Array Bool) : Thread subject start :=
  { thread with
      place := thread.place + 1
      sole := !crossings.getD (thread.place + 1) true }

def before (thread : Thread subject start) : Option Char :=
  if thread.position = 0 then none else subject[thread.position - 1]?

def after (thread : Thread subject start) : Option Char :=
  subject[thread.position]?

/-- Puts the threads that follow by an instruction in front of the waiting ones, in the order
of preference. -/
@[inline]
def push (crossings : Array Bool) (thread : Thread subject start)
    (waiting : List (Thread subject start)) : Instruction → List (Thread subject start)
  | .read members =>
      if inside : thread.position < subject.size then
        if members.holds subject[thread.position] then
          { place := thread.place + 1
            position := thread.position + 1
            marks := thread.marks
            sole := !crossings.getD (thread.place + 1) true
            start_le := Nat.le_succ_of_le thread.start_le
            le_size := inside } :: waiting
        else waiting
      else waiting
  | .check look =>
      if look.holds thread.before thread.after then thread.step crossings :: waiting else waiting
  | .mark slot =>
      { thread.step crossings with marks := (slot, thread.position) :: thread.marks } :: waiting
  | .jump hop => thread.hop hop :: waiting
  | .fork first second =>
      if first = .ahead 0 then thread.step crossings :: thread.hop second :: waiting
      else if second = .ahead 0 then thread.hop first :: thread.step crossings :: waiting
      else thread.hop first :: thread.hop second :: waiting

def next (crossings : Array Bool) (thread : Thread subject start) (instruction : Instruction) :
    List (Thread subject start) :=
  thread.push crossings [] instruction

def hit (thread : Thread subject start) : Hit subject :=
  { start := start
    stop := thread.position
    marks := thread.marks
    start_le_stop := thread.start_le
    stop_le_size := thread.le_size }

theorem push_eq_append (crossings : Array Bool) (thread : Thread subject start)
    (waiting : List (Thread subject start)) (instruction : Instruction) :
    thread.push crossings waiting instruction =
      thread.next crossings instruction ++ waiting := by
  cases instruction with
  | read members =>
      simp only [next, push]
      split
      · split <;> rfl
      · rfl
  | check look =>
      simp only [next, push]
      split <;> rfl
  | mark slot => rfl
  | jump hop => rfl
  | fork first second =>
      simp only [next, push]
      split
      · rfl
      · split <;> rfl

/-- How far a thread can get without coming to a mark, at most. -/
def reach (places : Nat) (thread : Thread subject start) : Nat :=
  if thread.sole then 2 * (places - thread.place) + 2 else 1

def reaches (places : Nat) : List (Thread subject start) → Nat
  | [] => 0
  | thread :: rest => thread.reach places + reaches places rest

theorem reaches_append (places : Nat) (left right : List (Thread subject start)) :
    reaches places (left ++ right) = reaches places left + reaches places right := by
  induction left with
  | nil => simp [reaches]
  | cons thread rest inductionHypothesis =>
      rw [List.cons_append, reaches, reaches, inductionHypothesis, Nat.add_assoc]

theorem reach_pos (places : Nat) (thread : Thread subject start) : 0 < thread.reach places := by
  unfold reach
  split <;> omega

theorem reach_le {places place : Nat} {thread : Thread subject start}
    (running : place < places) (behind : thread.place = place + 1) :
    thread.reach places ≤ 2 * (places - place) := by
  unfold reach
  split <;> omega

theorem reach_hop (places : Nat) (thread : Thread subject start) (hop : Hop) :
    (thread.hop hop).reach places = 1 := rfl

theorem reaches_next_le {places : Nat} (crossings : Array Bool) {thread : Thread subject start}
    (running : thread.place < places) (instruction : Instruction) :
    reaches places (thread.next crossings instruction) ≤ 2 * (places - thread.place) + 1 := by
  have stepped : (thread.step crossings).reach places ≤ 2 * (places - thread.place) :=
    reach_le running rfl
  cases instruction with
  | read members =>
      simp only [next, push]
      split
      · split
        · exact Nat.le_succ_of_le (reach_le running rfl)
        · exact Nat.zero_le _
      · exact Nat.zero_le _
  | check look =>
      simp only [next, push]
      split
      · exact Nat.le_succ_of_le stepped
      · exact Nat.zero_le _
  | mark slot => exact Nat.le_succ_of_le (reach_le running rfl)
  | jump hop =>
      simp only [next, push, reaches, reach_hop]
      omega
  | fork first second =>
      simp only [next, push]
      split
      · simp only [reaches, reach_hop]
        omega
      · split
        · simp only [reaches, reach_hop]
          omega
        · simp only [reaches, reach_hop]
          omega

end Thread

/-- What bounds the steps still to be made: every new mark is worth more than the threads that
follow from it. -/
def effort {subject : Array Char} {start places : Nat} (visits : Visits places)
    (threads : List (Thread subject start)) : Nat :=
  (2 * places + 2) * visits.unmarked subject.size + Thread.reaches places threads

section Effort

variable {subject : Array Char} {start places : Nat} {visits : Visits places}
  {crossings : Array Bool} {thread : Thread subject start}
  {waiting : List (Thread subject start)}

theorem effort_pass (running : thread.place < places) (sole : thread.sole = true)
    (instruction : Instruction) :
    effort visits (thread.push crossings waiting instruction) <
      effort visits (thread :: waiting) := by
  have fewer := Thread.reaches_next_le crossings running instruction
  unfold effort
  rw [Thread.push_eq_append, Thread.reaches_append, Thread.reaches, Thread.reach, if_pos sole]
  omega

theorem effort_enter (running : thread.place < places)
    (fresh : visits.has ⟨thread.place, running⟩ thread.position = false)
    (instruction : Instruction) :
    effort (visits.add ⟨thread.place, running⟩ thread.position)
        (thread.push crossings waiting instruction) <
      effort visits (thread :: waiting) := by
  have fewer := Nat.mul_le_mul_left (2 * places + 2) (Visits.unmarked_add_lt thread.le_size fresh)
  have bounded := Thread.reaches_next_le crossings running instruction
  unfold effort
  rw [Nat.mul_succ] at fewer
  rw [Thread.push_eq_append, Thread.reaches_append, Thread.reaches]
  omega

theorem effort_leave : effort visits waiting < effort visits (thread :: waiting) := by
  have positive := thread.reach_pos places
  unfold effort
  rw [Thread.reaches]
  omega

end Effort

/-- Follows threads, the first one first, and gives the first that runs past the code, with all
marks so far. -/
def explore {subject : Array Char} {start : Nat} (program : Program)
    (visits : Visits program.code.size) (threads : List (Thread subject start)) :
    Option (Thread subject start) × Visits program.code.size :=
  match threads with
  | [] => (none, visits)
  | thread :: waiting =>
      if running : thread.place < program.code.size then
        if sole : thread.sole = true then
          explore program visits (thread.push program.crossings waiting program.code[thread.place])
        else if _fresh : visits.has ⟨thread.place, running⟩ thread.position = false then
          explore program (visits.add ⟨thread.place, running⟩ thread.position)
            (thread.push program.crossings waiting program.code[thread.place])
        else explore program visits waiting
      else (some thread, visits)
termination_by effort visits threads
decreasing_by
  · exact effort_pass running sole _
  · exact effort_enter running _fresh _
  · exact effort_leave

namespace Program

/-- The preferred match that begins exactly at `start`. -/
def matchAt (program : Program) (subject : Array Char) (start : Nat) : Option (Hit subject) :=
  if inside : start ≤ subject.size then
    (explore program (Visits.blank program.code.size)
      [Thread.first subject start inside]).1.map Thread.hit
  else none

/-- The preferred match at the first start from `start` on that has one. What is marked is known
not to lead to a match. The marks that come with a match are those for a search from its end. -/
def searchFrom (program : Program) (subject : Array Char) (visits : Visits program.code.size)
    (start : Nat) : Option (Hit subject) × Visits program.code.size :=
  if inside : start ≤ subject.size then
    match explore program visits [Thread.first subject start inside] with
    | (some thread, visits) => (some thread.hit, visits.drop thread.position)
    | (none, visits) => searchFrom program subject visits (start + 1)
  else (none, visits)
termination_by subject.size + 1 - start

def search (program : Program) (subject : Array Char) (cursor : Nat) : Option (Hit subject) :=
  (program.searchFrom subject (Visits.blank program.code.size) cursor).1

theorem le_start_of_searchFrom {program : Program} {subject : Array Char} {start : Nat}
    {visits : Visits program.code.size} {hit : Hit subject}
    (found : (program.searchFrom subject visits start).1 = some hit) : start ≤ hit.start := by
  induction visits, start using searchFrom.induct program subject with
  | case1 visits start inside thread later explored =>
      rw [searchFrom, dif_pos inside, explored] at found
      cases found
      exact Nat.le_refl start
  | case2 visits start inside later explored inductionHypothesis =>
      rw [searchFrom, dif_pos inside, explored] at found
      exact Nat.le_trans (Nat.le_succ start) (inductionHypothesis found)
  | case3 visits start outside =>
      rw [searchFrom, dif_neg outside] at found
      cases found

theorem le_start_of_search {program : Program} {subject : Array Char} {cursor : Nat}
    {hit : Hit subject} (found : program.search subject cursor = some hit) :
    cursor ≤ hit.start :=
  le_start_of_searchFrom found

theorem search_le_size {program : Program} {subject : Array Char} {cursor : Nat}
    {hit : Hit subject} (found : program.search subject cursor = some hit) :
    cursor ≤ subject.size :=
  Nat.le_trans (le_start_of_search found) (Nat.le_trans hit.start_le_stop hit.stop_le_size)

end Program
end ReadableRegex

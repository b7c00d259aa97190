import ReadableRegex.Search

/-!
A search finds what the starts tried one by one would find, whatever marks it takes over. With
the marks of explorations that are over goes a set of dead pairs: it holds all that is marked, is
closed under the steps of the program and has none past the end of the code. Threads at dead pairs
cannot succeed, and leaving them out changes no result. An exploration that succeeds is not over,
but what still waits then is no further in the text than the thread that succeeded, so the marks
beyond that position are as good as those of one that failed.
-/

namespace ReadableRegex

variable {program : Program} {subject : Array Char} {start : Nat}

/-! ### Marks and steps by pairs -/

def Thread.pair (thread : Thread subject start) : Nat × Nat :=
  (thread.place, thread.position)

/-- Whether the pair of a place and a position is marked. No place past the code is. -/
def Visits.marked {places : Nat} (visits : Visits places) (pair : Nat × Nat) : Bool :=
  if running : pair.1 < places then visits.has ⟨pair.1, running⟩ pair.2 else false

theorem Visits.marked_blank {places : Nat} (pair : Nat × Nat) :
    (Visits.blank places).marked pair = false := by
  unfold Visits.marked
  split
  · exact Visits.has_blank _ _
  · rfl

theorem Visits.marked_add {places : Nat} {visits : Visits places} {place position : Nat}
    (running : place < places) (pair : Nat × Nat) :
    (visits.add ⟨place, running⟩ position).marked pair =
      (visits.marked pair || decide (pair = (place, position))) := by
  obtain ⟨other, elsewhere⟩ := pair
  unfold Visits.marked
  split
  · rw [Visits.has_add, ← Bool.decide_and]
    congr 1
    rw [decide_eq_decide, Prod.mk.injEq, Fin.mk.injEq, eq_comm, @eq_comm _ position]
  · rename_i outside
    have apart : (other, elsewhere) ≠ (place, position) := by
      intro same
      cases same
      exact outside running
    rw [decide_eq_false apart, Bool.or_false]

theorem Visits.marked_drop {places : Nat} {visits : Visits places} {position : Nat}
    (pair : Nat × Nat) :
    (visits.drop position).marked pair = (visits.marked pair && !decide (position = pair.2)) := by
  unfold Visits.marked
  split
  · exact Visits.has_drop visits _ position pair.2
  · rfl

theorem marked_pair {places : Nat} (visits : Visits places) (thread : Thread subject start)
    (running : thread.place < places) :
    visits.marked thread.pair = visits.has ⟨thread.place, running⟩ thread.position :=
  dif_pos running

namespace Thread

/-- What follows from a thread depends on where it is only. -/
theorem map_pair_next {later : Nat} {thread : Thread subject start} {other : Thread subject later}
    (same : thread.pair = other.pair) (crossings : Array Bool) (instruction : Instruction) :
    (thread.next crossings instruction).map pair = (other.next crossings instruction).map pair := by
  obtain ⟨place, position, marks, sole, start_le, le_size⟩ := thread
  obtain ⟨otherPlace, otherPosition, otherMarks, otherSole, other_start_le, other_le_size⟩ := other
  cases same
  cases instruction with
  | read members =>
      simp only [next, push]
      split
      · split <;> rfl
      · rfl
  | check look =>
      have sameBefore : (Thread.mk place position marks sole start_le le_size).before =
          (Thread.mk place position otherMarks otherSole other_start_le other_le_size).before := rfl
      have sameAfter : (Thread.mk place position marks sole start_le le_size).after =
          (Thread.mk place position otherMarks otherSole other_start_le other_le_size).after := rfl
      simp only [next, push, sameBefore, sameAfter]
      split <;> rfl
  | mark slot => rfl
  | jump hop => rfl
  | fork first second =>
      simp only [next, push]
      split
      · rfl
      · split <;> rfl

theorem position_le_next {thread next : Thread subject start} {crossings : Array Bool}
    {instruction : Instruction} (member : next ∈ thread.next crossings instruction) :
    thread.position ≤ next.position := by
  cases instruction with
  | read members =>
      simp only [Thread.next, push] at member
      split at member
      · split at member
        · cases List.mem_singleton.mp member
          exact Nat.le_succ thread.position
        · cases member
      · cases member
  | check look =>
      simp only [Thread.next, push] at member
      split at member
      · cases List.mem_singleton.mp member
        exact Nat.le_refl thread.position
      · cases member
  | mark slot =>
      cases List.mem_singleton.mp member
      exact Nat.le_refl thread.position
  | jump hop =>
      cases List.mem_singleton.mp member
      exact Nat.le_refl thread.position
  | fork first second =>
      have bound {left right : Thread subject start} (either : next ∈ [left, right])
          (leftHere : thread.position = left.position)
          (rightHere : thread.position = right.position) : thread.position ≤ next.position := by
        rcases List.mem_cons.mp either with same | same
        · rw [same]
          exact Nat.le_of_eq leftHere
        · rw [List.mem_singleton.mp same]
          exact Nat.le_of_eq rightHere
      simp only [Thread.next, push] at member
      split at member
      · exact bound member rfl rfl
      · split at member
        · exact bound member rfl rfl
        · exact bound member rfl rfl

end Thread

def Descending (threads : List (Thread subject start)) : Prop :=
  threads.Pairwise (fun ahead behind => behind.position ≤ ahead.position)

theorem descending_next (thread : Thread subject start) (crossings : Array Bool)
    (instruction : Instruction) : Descending (thread.next crossings instruction) := by
  cases instruction with
  | read members =>
      simp only [Thread.next, Thread.push]
      split
      · split
        · exact List.pairwise_singleton _ _
        · exact List.Pairwise.nil
      · exact List.Pairwise.nil
  | check look =>
      simp only [Thread.next, Thread.push]
      split
      · exact List.pairwise_singleton _ _
      · exact List.Pairwise.nil
  | mark slot => exact List.pairwise_singleton _ _
  | jump hop => exact List.pairwise_singleton _ _
  | fork first second =>
      simp only [Thread.next, Thread.push]
      split
      · exact List.pairwise_pair.mpr (Nat.le_refl thread.position)
      · split
        · exact List.pairwise_pair.mpr (Nat.le_refl thread.position)
        · exact List.pairwise_pair.mpr (Nat.le_refl thread.position)

variable {visits : Visits program.code.size} {thread : Thread subject start}
  {waiting : List (Thread subject start)}

theorem descending_follow (descending : Descending (thread :: waiting)) (crossings : Array Bool)
    (instruction : Instruction) :
    Descending (thread.next crossings instruction ++ waiting) := by
  obtain ⟨bound, rest⟩ := List.pairwise_cons.mp descending
  refine List.pairwise_append.mpr ⟨descending_next thread crossings instruction, rest, ?_⟩
  intro next member other waits
  exact Nat.le_trans (bound other waits) (Thread.position_le_next member)

/-! ### Single steps of an exploration -/

theorem explore_nil :
    explore program visits ([] : List (Thread subject start)) = (none, visits) := by
  rw [explore]

theorem explore_done (outside : ¬ thread.place < program.code.size) :
    explore program visits (thread :: waiting) = (some thread, visits) := by
  rw [explore, dif_neg outside]

theorem explore_pass (running : thread.place < program.code.size) (sole : thread.sole = true) :
    explore program visits (thread :: waiting) =
      explore program visits
        (thread.next program.crossings program.code[thread.place] ++ waiting) := by
  rw [explore, dif_pos running, dif_pos sole, Thread.push_eq_append]

theorem explore_enter (running : thread.place < program.code.size) (shared : thread.sole = false)
    (fresh : visits.marked thread.pair = false) :
    explore program visits (thread :: waiting) =
      explore program (visits.add ⟨thread.place, running⟩ thread.position)
        (thread.next program.crossings program.code[thread.place] ++ waiting) := by
  rw [marked_pair visits thread running] at fresh
  rw [explore, dif_pos running, dif_neg (by rw [shared]; decide), dif_pos fresh,
    Thread.push_eq_append]

theorem explore_seen (running : thread.place < program.code.size) (shared : thread.sole = false)
    (seen : visits.marked thread.pair = true) :
    explore program visits (thread :: waiting) = explore program visits waiting := by
  rw [marked_pair visits thread running] at seen
  rw [explore, dif_pos running, dif_neg (by rw [shared]; decide), dif_neg (by rw [seen]; decide)]

theorem effort_pass_next (visits : Visits program.code.size)
    (waiting : List (Thread subject start)) (running : thread.place < program.code.size)
    (sole : thread.sole = true) :
    effort visits (thread.next program.crossings program.code[thread.place] ++ waiting) <
      effort visits (thread :: waiting) := by
  rw [← Thread.push_eq_append]
  exact effort_pass running sole _

theorem effort_enter_next (waiting : List (Thread subject start))
    (running : thread.place < program.code.size)
    (fresh : visits.marked thread.pair = false) :
    effort (visits.add ⟨thread.place, running⟩ thread.position)
        (thread.next program.crossings program.code[thread.place] ++ waiting) <
      effort visits (thread :: waiting) := by
  rw [marked_pair visits thread running] at fresh
  rw [← Thread.push_eq_append]
  exact effort_enter running fresh _

/-- A thread that runs on is left out because its pair is marked, or it is replaced by what
follows from it and no mark but its own is set. -/
theorem explore_running (visits : Visits program.code.size) (waiting : List (Thread subject start))
    (running : thread.place < program.code.size) :
    (visits.marked thread.pair = true ∧
        explore program visits (thread :: waiting) = explore program visits waiting) ∨
      ∃ later : Visits program.code.size,
        (∀ pair, pair ≠ thread.pair → later.marked pair = visits.marked pair) ∧
        effort later (thread.next program.crossings program.code[thread.place] ++ waiting) <
          effort visits (thread :: waiting) ∧
        explore program visits (thread :: waiting) =
          explore program later
            (thread.next program.crossings program.code[thread.place] ++ waiting) := by
  cases sole : thread.sole with
  | true =>
      exact Or.inr ⟨visits, fun _ _ => rfl, effort_pass_next visits waiting running sole,
        explore_pass running sole⟩
  | false =>
      cases seen : visits.marked thread.pair with
      | true => exact Or.inl ⟨rfl, explore_seen running sole seen⟩
      | false =>
          refine Or.inr ⟨visits.add ⟨thread.place, running⟩ thread.position, ?_,
            effort_enter_next waiting running seen, explore_enter running sole seen⟩
          intro pair apart
          have apart : pair ≠ (thread.place, thread.position) := apart
          rw [Visits.marked_add, decide_eq_false apart, Bool.or_false]

/-! ### Dead pairs -/

/-- A set of pairs that holds all marked ones from the cursor on, with what follows from them as
far as it does not wait. -/
structure Closed (program : Program) (subject : Array Char) (visits : Visits program.code.size)
    (cursor : Nat) (waiting : List (Nat × Nat)) (dead : Nat × Nat → Prop) : Prop where
  marked : ∀ pair, cursor ≤ pair.2 → visits.marked pair = true → dead pair
  running : ∀ pair, dead pair → pair.1 < program.code.size
  next : ∀ (first : Nat) (thread : Thread subject first)
    (running : thread.place < program.code.size), dead thread.pair →
      ∀ next ∈ thread.next program.crossings program.code[thread.place],
        dead next.pair ∨ next.pair ∈ waiting

/-- Whether all that is marked from the cursor on is known not to lead to a match. -/
def Settled (program : Program) (subject : Array Char) (visits : Visits program.code.size)
    (cursor : Nat) : Prop :=
  ∃ dead, Closed program subject visits cursor [] dead

theorem settled_blank (cursor : Nat) :
    Settled program subject (Visits.blank program.code.size) cursor := by
  refine ⟨fun _ => False, ?_, fun _ none => none.elim, fun _ _ _ none => none.elim⟩
  intro pair _ marked
  rw [Visits.marked_blank] at marked
  cases marked

theorem settled_mono {cursor start : Nat} (ordered : cursor ≤ start)
    (settled : Settled program subject visits cursor) : Settled program subject visits start := by
  obtain ⟨dead, closed⟩ := settled
  exact ⟨dead, fun pair bound => closed.marked pair (Nat.le_trans ordered bound),
    closed.running, closed.next⟩

variable {cursor : Nat} {dead : Nat × Nat → Prop}

theorem closed_wait (closed : Closed program subject visits cursor [] dead)
    (threads : List (Nat × Nat)) : Closed program subject visits cursor threads dead :=
  { marked := closed.marked
    running := closed.running
    next := by
      intro first thread running isDead next member
      rcases closed.next first thread running isDead next member with found | waits
      · exact Or.inl found
      · cases waits }

theorem closed_seen (isDead : dead thread.pair)
    (closed : Closed program subject visits cursor ((thread :: waiting).map Thread.pair) dead) :
    Closed program subject visits cursor (waiting.map Thread.pair) dead :=
  { marked := closed.marked
    running := closed.running
    next := by
      intro first other running otherDead next member
      rcases closed.next first other running otherDead next member with found | waits
      · exact Or.inl found
      · rw [List.map_cons] at waits
        rcases List.mem_cons.mp waits with same | waits
        · rw [same]
          exact Or.inl isDead
        · exact Or.inr waits }

theorem closed_follow {later : Visits program.code.size}
    (running : thread.place < program.code.size)
    (kept : ∀ pair, pair ≠ thread.pair → later.marked pair = visits.marked pair)
    (closed : Closed program subject visits cursor ((thread :: waiting).map Thread.pair) dead) :
    Closed program subject later cursor
      ((thread.next program.crossings program.code[thread.place] ++ waiting).map Thread.pair)
      (fun pair => dead pair ∨ pair = thread.pair) :=
  { marked := by
      intro pair bound marked
      by_cases same : pair = thread.pair
      · exact Or.inr same
      · rw [kept pair same] at marked
        exact Or.inl (closed.marked pair bound marked)
    running := by
      intro pair isDead
      rcases isDead with isDead | same
      · exact closed.running pair isDead
      · rw [same]
        exact running
    next := by
      intro first other otherRunning isDead next member
      rw [List.map_append]
      rcases isDead with isDead | same
      · rcases closed.next first other otherRunning isDead next member with found | waits
        · exact Or.inl (Or.inl found)
        · rw [List.map_cons] at waits
          rcases List.mem_cons.mp waits with here | waits
          · exact Or.inl (Or.inr here)
          · exact Or.inr (List.mem_append_right _ waits)
      · have samePlace : other.place = thread.place := congrArg Prod.fst same
        have member : next ∈ other.next program.crossings program.code[thread.place] := by
          simpa only [samePlace] using member
        refine Or.inr (List.mem_append_left _ ?_)
        rw [← Thread.map_pair_next same]
        exact List.mem_map_of_mem member }

/-- The end of an exploration: a failed one leaves settled marks behind, and one that succeeds
leaves marks that are settled beyond the end of the match. -/
theorem settled_of_explore (threads : List (Thread subject start)) (ordered : cursor ≤ start)
    (closed : Closed program subject visits cursor (threads.map Thread.pair) dead)
    (descending : Descending threads) :
    match explore program visits threads with
    | (none, final) => Settled program subject final cursor
    | (some thread, final) =>
        Settled program subject (final.drop thread.position) thread.position := by
  induction measure : effort visits threads
    using Nat.strongRecOn generalizing visits threads dead with
  | ind bound inductionHypothesis =>
      cases threads with
      | nil =>
          rw [explore_nil]
          exact ⟨dead, closed⟩
      | cons thread waiting =>
          have behind := (List.pairwise_cons.mp descending).1
          by_cases running : thread.place < program.code.size
          · rcases explore_running visits waiting running with
              ⟨seen, same⟩ | ⟨later, kept, smaller, same⟩
            · rw [same]
              have isDead := closed.marked _ (Nat.le_trans ordered thread.start_le) seen
              exact inductionHypothesis _ (measure ▸ effort_leave) _ (closed_seen isDead closed)
                (List.pairwise_cons.mp descending).2 rfl
            · rw [same]
              exact inductionHypothesis _ (measure ▸ smaller) _ (closed_follow running kept closed)
                (descending_follow descending _ _) rfl
          · rw [explore_done running]
            refine ⟨fun pair => dead pair ∧ thread.position < pair.2, ?_, ?_, ?_⟩
            · intro pair bound marked
              rw [Visits.marked_drop, Bool.and_eq_true, Bool.not_eq_true', decide_eq_false_iff_not]
                at marked
              have reached := Nat.le_trans ordered thread.start_le
              exact ⟨closed.marked pair (Nat.le_trans reached bound) marked.1, by omega⟩
            · exact fun pair isDead => closed.running pair isDead.1
            · intro first other otherRunning isDead next member
              have further := Thread.position_le_next member
              have beyond : thread.position < next.position := Nat.lt_of_lt_of_le isDead.2 further
              rcases closed.next first other otherRunning isDead.1 next member with found | waits
              · exact Or.inl ⟨found, beyond⟩
              · obtain ⟨waits, waitsMember, same⟩ := List.mem_map.mp waits
                have samePosition : waits.position = next.position := congrArg Prod.snd same
                rcases List.mem_cons.mp waitsMember with here | waitsMember
                · rw [here] at samePosition
                  omega
                · have bound := behind waits waitsMember
                  omega

/-! ### Threads that cannot succeed -/

/-- A set of pairs that never leads to the end of the code. -/
structure Hopeless (program : Program) (subject : Array Char) (lost : Nat × Nat → Bool) :
    Prop where
  running : ∀ pair, lost pair = true → pair.1 < program.code.size
  next : ∀ (first : Nat) (thread : Thread subject first)
    (running : thread.place < program.code.size), lost thread.pair = true →
      ∀ next ∈ thread.next program.crossings program.code[thread.place], lost next.pair = true

variable {lost : Nat × Nat → Bool}

def hopeful (lost : Nat × Nat → Bool) (threads : List (Thread subject start)) :
    List (Thread subject start) :=
  threads.filter (fun thread => !lost thread.pair)

theorem hopeful_cons_of_lost (isLost : lost thread.pair = true) :
    hopeful lost (thread :: waiting) = hopeful lost waiting :=
  List.filter_cons_of_neg (by simp [isLost])

theorem hopeful_cons_of_not_lost (isHopeful : lost thread.pair = false) :
    hopeful lost (thread :: waiting) = thread :: hopeful lost waiting :=
  List.filter_cons_of_pos (by simp [isHopeful])

theorem hopeful_append (left right : List (Thread subject start)) :
    hopeful lost (left ++ right) = hopeful lost left ++ hopeful lost right :=
  List.filter_append left right

/-- A lost thread leaves nothing behind but marks at lost pairs and lost threads. -/
theorem explore_lost (visits : Visits program.code.size) (waiting : List (Thread subject start))
    (hopeless : Hopeless program subject lost)
    (isLost : lost thread.pair = true) :
    ∃ (later : Visits program.code.size) (threads : List (Thread subject start)),
      (∀ pair, lost pair = false → later.marked pair = visits.marked pair) ∧
      hopeful lost threads = hopeful lost waiting ∧
      effort later threads < effort visits (thread :: waiting) ∧
      explore program visits (thread :: waiting) = explore program later threads := by
  have running := hopeless.running _ isLost
  rcases explore_running visits waiting running with
    ⟨_, same⟩ | ⟨later, kept, smaller, same⟩
  · exact ⟨visits, waiting, fun _ _ => rfl, rfl, effort_leave, same⟩
  · refine ⟨later, _, ?_, ?_, smaller, same⟩
    · intro pair isHopeful
      refine kept pair ?_
      intro samePair
      rw [samePair, isLost] at isHopeful
      cases isHopeful
    · rw [hopeful_append]
      have gone : hopeful lost
          (thread.next program.crossings program.code[thread.place]) = [] := by
        refine List.filter_eq_nil_iff.mpr ?_
        intro next member
        simp [hopeless.next _ thread running isLost next member]
      rw [gone, List.nil_append]

theorem explore_agree (hopeless : Hopeless program subject lost)
    {left right : Visits program.code.size} {threads others : List (Thread subject start)}
    (marks : ∀ pair, start ≤ pair.2 → lost pair = false → left.marked pair = right.marked pair)
    (same : hopeful lost threads = hopeful lost others) :
    (explore program left threads).1 = (explore program right others).1 := by
  induction measure : effort left threads + effort right others
    using Nat.strongRecOn generalizing left right threads others with
  | ind bound inductionHypothesis =>
      have skipOther : ∀ (other : Thread subject start) (rest : List (Thread subject start)),
          others = other :: rest → lost other.pair = true →
          (explore program left threads).1 = (explore program right others).1 := by
        intro other rest shape isLost
        subst shape
        rw [hopeful_cons_of_lost isLost] at same
        obtain ⟨later, fewer, kept, sameRest, smaller, equal⟩ :=
          explore_lost right rest hopeless isLost
        rw [equal]
        refine inductionHypothesis _ (by omega) ?_ (same.trans sameRest.symm) rfl
        intro pair bound isHopeful
        rw [marks pair bound isHopeful, kept pair isHopeful]
      cases threads with
      | nil =>
          cases others with
          | nil => rw [explore_nil, explore_nil]
          | cons other rest =>
              cases isLost : lost other.pair with
              | true => exact skipOther other rest rfl isLost
              | false =>
                  rw [hopeful_cons_of_not_lost isLost] at same
                  cases same
      | cons thread waiting =>
          cases threadLost : lost thread.pair with
          | true =>
              rw [hopeful_cons_of_lost threadLost] at same
              obtain ⟨later, fewer, kept, sameRest, smaller, equal⟩ :=
                explore_lost left waiting hopeless threadLost
              rw [equal]
              refine inductionHypothesis _ (by omega) ?_ (sameRest.trans same) rfl
              intro pair bound isHopeful
              rw [kept pair isHopeful, marks pair bound isHopeful]
          | false =>
              cases others with
              | nil =>
                  rw [hopeful_cons_of_not_lost threadLost] at same
                  cases same
              | cons other rest =>
                  cases isLost : lost other.pair with
                  | true => exact skipOther other rest rfl isLost
                  | false =>
                      rw [hopeful_cons_of_not_lost threadLost, hopeful_cons_of_not_lost isLost]
                        at same
                      obtain ⟨rfl, restSame⟩ := List.cons_eq_cons.mp same
                      have followSame (following : List (Thread subject start)) :
                          hopeful lost (following ++ waiting) =
                            hopeful lost (following ++ rest) := by
                        rw [hopeful_append, hopeful_append, restSame]
                      by_cases running : thread.place < program.code.size
                      · cases sole : thread.sole with
                        | true =>
                            rw [explore_pass running sole, explore_pass running sole]
                            have smaller := effort_pass_next left waiting running sole
                            have otherSmaller := effort_pass_next right rest running sole
                            exact inductionHypothesis _ (by omega) marks (followSame _) rfl
                        | false =>
                            have seenSame := marks thread.pair thread.start_le threadLost
                            cases seen : right.marked thread.pair with
                            | true =>
                                rw [explore_seen running sole seen,
                                  explore_seen running sole (seenSame.trans seen)]
                                have smaller : effort left waiting <
                                    effort left (thread :: waiting) := effort_leave
                                have otherSmaller : effort right rest <
                                    effort right (thread :: rest) := effort_leave
                                exact inductionHypothesis _ (by omega) marks restSame rfl
                            | false =>
                                rw [explore_enter running sole seen,
                                  explore_enter running sole (seenSame.trans seen)]
                                have smaller := effort_enter_next waiting running
                                  (seenSame.trans seen)
                                have otherSmaller := effort_enter_next rest running
                                  seen
                                refine inductionHypothesis _ (by omega) ?_ (followSame _) rfl
                                intro pair bound isHopeful
                                rw [Visits.marked_add, Visits.marked_add,
                                  marks pair bound isHopeful]
                      · rw [explore_done running, explore_done running]

theorem explore_of_settled (threads : List (Thread subject start)) (ordered : cursor ≤ start)
    (settled : Settled program subject visits cursor) :
    (explore program visits threads).1 =
      (explore program (Visits.blank program.code.size) threads).1 := by
  obtain ⟨dead, closed⟩ := settled
  let lost : Nat × Nat → Bool := fun pair => @decide (dead pair) (Classical.propDecidable _)
  have lost_iff (pair : Nat × Nat) : lost pair = true ↔ dead pair :=
    @decide_eq_true_iff _ (Classical.propDecidable _)
  have hopeless : Hopeless program subject lost :=
    { running := fun pair isLost => closed.running pair ((lost_iff pair).mp isLost)
      next := by
        intro first thread running isLost next member
        rcases closed.next first thread running ((lost_iff _).mp isLost) next member with
          found | waits
        · exact (lost_iff _).mpr found
        · cases waits }
  refine explore_agree hopeless ?_ rfl
  intro pair bound isHopeful
  rw [Visits.marked_blank, ← Bool.not_eq_true]
  intro marked
  rw [(lost_iff pair).mpr (closed.marked pair (Nat.le_trans ordered bound) marked)] at isHopeful
  cases isHopeful

namespace Program

/-- A search with settled marks finds the match of the first start that has one, and its marks are
settled from the end of the match on. -/
theorem searchFrom_of_settled (program : Program) (subject : Array Char) {cursor start : Nat}
    {visits : Visits program.code.size} (ordered : cursor ≤ start)
    (settled : Settled program subject visits cursor) :
    (program.searchFrom subject visits start).1 =
        (List.range' start (subject.size + 1 - start)).findSome? (program.matchAt subject) ∧
      ∀ hit, (program.searchFrom subject visits start).1 = some hit →
        Settled program subject (program.searchFrom subject visits start).2 hit.stop := by
  induction remaining : subject.size + 1 - start generalizing visits start with
  | zero =>
      have outside : ¬ start ≤ subject.size := by omega
      rw [searchFrom, dif_neg outside]
      refine ⟨rfl, ?_⟩
      intro hit found
      cases found
  | succ count inductionHypothesis =>
      have inside : start ≤ subject.size := by omega
      have agree := explore_of_settled [Thread.first subject start inside] ordered settled
      obtain ⟨dead, closed⟩ := settled
      have left := settled_of_explore [Thread.first subject start inside] ordered
        (closed_wait closed _) (List.pairwise_singleton _ _)
      rw [searchFrom, dif_pos inside, List.range'_succ, List.findSome?_cons]
      unfold matchAt
      rw [dif_pos inside, ← agree]
      cases explored : explore program visits [Thread.first subject start inside] with
      | mk result final =>
          rw [explored] at left
          cases result with
          | some thread =>
              refine ⟨rfl, ?_⟩
              intro hit found
              cases found
              exact left
          | none => exact inductionHypothesis (Nat.le_succ_of_le ordered) left (by omega)

/-- A search finds the match of the first start that has one. -/
theorem search_eq_findSome? (program : Program) (subject : Array Char) (cursor : Nat) :
    program.search subject cursor =
      (List.range' cursor (subject.size + 1 - cursor)).findSome? (program.matchAt subject) :=
  (searchFrom_of_settled program subject (Nat.le_refl cursor) (settled_blank cursor)).1

theorem searchFrom_eq_search {visits : Visits program.code.size} {cursor start : Nat}
    (ordered : cursor ≤ start) (settled : Settled program subject visits cursor) :
    (program.searchFrom subject visits start).1 = program.search subject start := by
  rw [search_eq_findSome?, (searchFrom_of_settled program subject ordered settled).1]

theorem start_of_matchAt {hit : Hit subject} (found : program.matchAt subject start = some hit) :
    hit.start = start := by
  simp only [matchAt] at found
  split at found
  · obtain ⟨thread, _, same⟩ := Option.map_eq_some_iff.mp found
    rw [← same]
    rfl
  · cases found

end Program
end ReadableRegex

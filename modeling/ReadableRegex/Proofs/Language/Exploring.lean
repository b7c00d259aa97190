import ReadableRegex.Proofs.Language.Running
import ReadableRegex.Search.Starts

/-!
An exploration succeeds if and only if some run of the program does: what it returns has been
reached, and when it gives up, the pairs it marked are closed under the steps of the program.
-/

namespace ReadableRegex

variable {program : Program} {subject : Array Char} {start cursor : Nat}
  {visits : Visits program.code.size} {thread : Thread subject start}
  {waiting : List (Thread subject start)} {dead : Nat × Nat → Prop}

theorem Thread.map_pair_next_eq (thread : Thread subject start) (crossings : Array Bool)
    (instruction : Instruction) :
    (thread.next crossings instruction).map Thread.pair =
      instruction.follows subject thread.place thread.position := by
  cases instruction with
  | read members =>
      simp only [next, push, Instruction.follows]
      by_cases inside : thread.position < subject.size
      · rw [dif_pos inside, Array.getElem?_eq_getElem inside, Option.any_some]
        split <;> rfl
      · rw [dif_neg inside, Array.getElem?_eq_none (Nat.le_of_not_lt inside)]
        rfl
  | check look =>
      have before : thread.before = Spans.before subject thread.position := rfl
      have after : thread.after = subject[thread.position]? := rfl
      simp only [next, push, Instruction.follows, before, after]
      split <;> rfl
  | mark slot => rfl
  | jump hop => rfl
  | fork first second =>
      simp only [next, push, Instruction.follows]
      split
      · next ahead =>
          rw [ahead]
          rfl
      · split
        · next ahead =>
            rw [ahead]
            rfl
        · rfl

/-- Whether a run from the pair of place and position ends at `stop`. -/
def Program.Succeeds (program : Program) (subject : Array Char) (pair : Nat × Nat) (stop : Nat) :
    Prop :=
  ∃ steps, Code.Reaches subject program.code.toList steps pair.1 pair.2 stop

theorem Program.succeeds_of_next {next : Thread subject start} {stop : Nat}
    (running : thread.place < program.code.size)
    (member : next ∈ thread.next program.crossings program.code[thread.place])
    (succeeds : program.Succeeds subject next.pair stop) :
    program.Succeeds subject thread.pair stop := by
  obtain ⟨steps, reaches⟩ := succeeds
  have found : program.code.toList[thread.place]? = some program.code[thread.place] := by
    rw [Array.getElem?_toList, Array.getElem?_eq_getElem running]
  have follows : next.pair ∈ (thread.next program.crossings program.code[thread.place]).map
      Thread.pair := List.mem_map_of_mem member
  rw [Thread.map_pair_next_eq] at follows
  exact ⟨steps + 1, Code.reaches_of_follows found follows reaches⟩

/-! ### Explorations that succeed -/

/-- What an exploration returns is the end of a run from one of the threads. -/
theorem succeeds_of_explore {threads : List (Thread subject start)} {last : Thread subject start}
    (found : (explore program visits threads).1 = some last) :
    ∃ thread ∈ threads, program.Succeeds subject thread.pair last.position := by
  induction measure : effort visits threads using Nat.strongRecOn generalizing visits threads with
  | ind bound inductionHypothesis =>
      cases threads with
      | nil =>
          rw [explore_nil] at found
          cases found
      | cons thread waiting =>
          by_cases running : thread.place < program.code.size
          · rcases explore_running visits waiting running with
              ⟨_, same⟩ | ⟨later, _, smaller, same⟩
            · rw [same] at found
              obtain ⟨other, member, succeeds⟩ :=
                inductionHypothesis _ (measure ▸ effort_leave) found rfl
              exact ⟨other, List.mem_cons_of_mem _ member, succeeds⟩
            · rw [same] at found
              obtain ⟨other, member, succeeds⟩ :=
                inductionHypothesis _ (measure ▸ smaller) found rfl
              rcases List.mem_append.mp member with next | waits
              · exact ⟨thread, List.mem_cons_self,
                  Program.succeeds_of_next running next succeeds⟩
              · exact ⟨other, List.mem_cons_of_mem _ waits, succeeds⟩
          · rw [explore_done running] at found
            have same : thread = last := Option.some.inj found
            rw [← same]
            refine ⟨thread, List.mem_cons_self, 0, ?_, rfl⟩
            rw [Array.length_toList]
            exact Nat.le_of_not_lt running

/-! ### Explorations that fail -/

/-- When an exploration gives up, its threads are among pairs that lead only to one another. -/
theorem closed_of_explore {threads : List (Thread subject start)} (ordered : cursor ≤ start)
    (closed : Closed program subject visits cursor (threads.map Thread.pair) dead)
    (failed : (explore program visits threads).1 = none) :
    ∃ lost : Nat × Nat → Prop,
      Closed program subject (explore program visits threads).2 cursor [] lost ∧
      (∀ pair, dead pair → lost pair) ∧ ∀ thread ∈ threads, lost thread.pair := by
  induction measure : effort visits threads
    using Nat.strongRecOn generalizing visits threads dead with
  | ind bound inductionHypothesis =>
      cases threads with
      | nil =>
          rw [explore_nil]
          refine ⟨dead, closed, fun _ isDead => isDead, ?_⟩
          intro thread member
          cases member
      | cons thread waiting =>
          by_cases running : thread.place < program.code.size
          · rcases explore_running visits waiting running with
              ⟨seen, same⟩ | ⟨later, kept, smaller, same⟩
            · rw [same] at failed ⊢
              have isDead := closed.marked _ (Nat.le_trans ordered thread.start_le) seen
              obtain ⟨lost, closedLost, wider, waits⟩ := inductionHypothesis _
                (measure ▸ effort_leave) (closed_seen isDead closed) failed rfl
              refine ⟨lost, closedLost, wider, ?_⟩
              intro other member
              rcases List.mem_cons.mp member with here | behind
              · rw [here]
                exact wider _ isDead
              · exact waits other behind
            · rw [same] at failed ⊢
              obtain ⟨lost, closedLost, wider, waits⟩ := inductionHypothesis _
                (measure ▸ smaller) (closed_follow running kept closed) failed rfl
              refine ⟨lost, closedLost, fun pair isDead => wider pair (Or.inl isDead), ?_⟩
              intro other member
              rcases List.mem_cons.mp member with here | behind
              · rw [here]
                exact wider _ (Or.inr rfl)
              · exact waits other (List.mem_append_right _ behind)
          · rw [explore_done running] at failed
            cases failed

theorem Closed.not_succeeds {pair : Nat × Nat} {stop : Nat}
    (closed : Closed program subject visits cursor [] dead) (isDead : dead pair)
    (inside : pair.2 ≤ subject.size) : ¬ program.Succeeds subject pair stop := by
  rintro ⟨steps, reaches⟩
  induction steps generalizing pair with
  | zero =>
      have running := closed.running pair isDead
      have beyond := reaches.1
      rw [Array.length_toList] at beyond
      omega
  | succ steps inductionHypothesis =>
      obtain ⟨instruction, found, next, member, later⟩ := reaches
      let here : Thread subject pair.2 :=
        { place := pair.1
          position := pair.2
          marks := []
          sole := false
          start_le := Nat.le_refl _
          le_size := inside }
      have running : here.place < program.code.size := closed.running pair isDead
      have same : program.code[here.place] = instruction := by
        rw [Array.getElem?_toList, Array.getElem?_eq_getElem running] at found
        exact Option.some.inj found
      have follows : next ∈ (here.next program.crossings instruction).map Thread.pair := by
        rw [Thread.map_pair_next_eq]
        exact member
      obtain ⟨thread, threadMember, samePair⟩ := List.mem_map.mp follows
      rw [← same] at threadMember
      rcases closed.next pair.2 here running isDead thread threadMember with nextDead | none
      · rw [samePair] at nextDead
        refine inductionHypothesis nextDead ?_ later
        rw [← samePair]
        exact thread.le_size
      · cases none

namespace Program

theorem succeeds_of_matchAt {hit : Hit subject} (found : program.matchAt subject start = some hit) :
    program.Succeeds subject (0, start) hit.stop := by
  unfold matchAt at found
  split at found
  · obtain ⟨thread, explored, same⟩ := Option.map_eq_some_iff.mp found
    obtain ⟨first, member, succeeds⟩ := succeeds_of_explore explored
    rw [List.mem_singleton.mp member] at succeeds
    rw [← same]
    exact succeeds
  · cases found

theorem isSome_matchAt_iff (program : Program) (subject : Array Char) (start : Nat) :
    (program.matchAt subject start).isSome = true ↔
      start ≤ subject.size ∧ ∃ stop, program.Succeeds subject (0, start) stop := by
  constructor
  · intro some
    obtain ⟨hit, found⟩ := Option.isSome_iff_exists.mp some
    refine ⟨?_, hit.stop, succeeds_of_matchAt found⟩
    rw [← start_of_matchAt found]
    exact Nat.le_trans hit.start_le_stop hit.stop_le_size
  · rintro ⟨inside, stop, succeeds⟩
    cases missing : program.matchAt subject start with
    | some hit => rfl
    | none =>
        unfold matchAt at missing
        rw [dif_pos inside, Option.map_eq_none_iff] at missing
        have settled : Settled program subject (Visits.blank _) start := settled_blank start
        obtain ⟨dead, closed⟩ := settled
        obtain ⟨lost, closedLost, _, threads⟩ :=
          closed_of_explore (Nat.le_refl start) (closed_wait closed _) missing
        exact absurd succeeds
          (closedLost.not_succeeds (threads _ (List.mem_singleton.mpr rfl)) inside)

theorem succeeds_ofRegex_iff (regex : Regex) (start stop : Nat) :
    (ofRegex regex).Succeeds subject (0, start) stop ↔ regex.spans subject start stop := by
  rw [regex.spans_iff_reaches]
  exact Iff.rfl

end Program
end ReadableRegex

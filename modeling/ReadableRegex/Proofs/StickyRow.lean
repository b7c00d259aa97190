import ReadableRegex.Hits.Single
import ReadableRegex.Matcher

/-!
Sticky rows by anchored matches alone. The loop searches ahead and gives up when a match begins
late; the reference below never looks past its cursor. Both make the same row.
-/

namespace ReadableRegex

variable {program : Program} {subject : Array Char}

/-- The rows that come from asking, at each cursor, for the preferred match that begins exactly
there. The cursor moves to the end of a match, or one character on if the match is empty. -/
inductive AnchoredRow (program : Program) (subject : Array Char) (global : Bool) :
    Nat → List (Hit subject) → Prop where
  | stop {cursor : Nat} (missing : program.matchAt subject cursor = none) :
      AnchoredRow program subject global cursor []
  | only {cursor : Nat} {hit : Hit subject} (found : program.matchAt subject cursor = some hit)
      (single : global = false) : AnchoredRow program subject global cursor [hit]
  | onward {cursor next : Nat} {hit : Hit subject} {rest : List (Hit subject)}
      (found : program.matchAt subject cursor = some hit) (many : global = true)
      (moved : hit.start < hit.stop → next = hit.stop)
      (stepped : hit.start = hit.stop → next = cursor + 1)
      (row : AnchoredRow program subject global next rest) :
      AnchoredRow program subject global cursor (hit :: rest)

namespace AnchoredRow

theorem next_eq_cursorAfter {cursor next : Nat} {hit : Hit subject}
    (found : program.matchAt subject cursor = some hit)
    (moved : hit.start < hit.stop → next = hit.stop)
    (stepped : hit.start = hit.stop → next = cursor + 1) :
    next = Program.cursorAfter cursor hit := by
  have begins := Program.start_of_matchAt found
  have order := hit.start_le_stop
  unfold Program.cursorAfter
  by_cases still : hit.stop = cursor
  · rw [if_pos still]
    exact stepped (begins.trans still.symm)
  · rw [if_neg still]
    exact moved (by omega)

theorem eq_chainFrom {global : Bool} {cursor : Nat} {row : List (Hit subject)}
    (anchored : AnchoredRow program subject global cursor row) :
    row = program.chainFrom subject global cursor := by
  induction anchored with
  | stop missing => exact (Program.chainFrom_of_none missing).symm
  | only found single =>
      rw [Program.chainFrom_of_some found, single]
      rfl
  | onward found many moved stepped rest inductionHypothesis =>
      rw [Program.chainFrom_of_some found, inductionHypothesis,
        next_eq_cursorAfter found moved stepped, many]
      rfl

/-- The anchored chain is a row. The induction is on what is left of the subject, the position
past its end included. -/
theorem chainFrom (program : Program) (subject : Array Char) (global : Bool) (cursor : Nat) :
    AnchoredRow program subject global cursor (program.chainFrom subject global cursor) := by
  induction remaining : subject.size + 1 - cursor using Nat.strongRecOn generalizing cursor with
  | ind bound inductionHypothesis =>
      cases found : program.matchAt subject cursor with
      | none =>
          rw [Program.chainFrom_of_none found]
          exact .stop found
      | some hit =>
          rw [Program.chainFrom_of_some found]
          cases global with
          | false => exact .only found rfl
          | true =>
              have begins := Program.start_of_matchAt found
              have order := hit.start_le_stop
              have within := hit.stop_le_size
              have progress := Program.lt_cursorAfter (Nat.le_of_eq begins.symm)
              refine .onward found rfl ?_ ?_ (inductionHypothesis _ (by omega) _ rfl)
              · intro nonempty
                exact if_neg (by omega)
              · intro empty
                exact if_pos (by omega)

end AnchoredRow

/-- The matches of a sticky expression are the row of anchored matches from the start of the
subject: none that begins behind its cursor, and none left out at it. -/
theorem Matcher.anchoredRow_iff_eq_hits (matcher : Matcher) (subject : Array Char)
    (sticky : matcher.flags.has .sticky = true) (row : List (Hit subject)) :
    AnchoredRow matcher.program subject (matcher.flags.has .global) 0 row ↔
      row = matcher.hits subject := by
  have same : matcher.hits subject =
      matcher.program.chainFrom subject (matcher.flags.has .global) 0 := by
    unfold Matcher.hits
    rw [if_pos sticky]
    exact Program.stickyHits_eq_chainFrom _ _ _
  rw [same]
  constructor
  · intro anchored
    exact anchored.eq_chainFrom
  · intro equal
    rw [equal]
    exact AnchoredRow.chainFrom _ _ _ _

theorem anchoredRow_iff_eq_hits_of_star :
    ∃ matcher, Matcher.compile "a*".toList
          { Options.initial with flags := ⟨0x11#8⟩ } = .ok matcher ∧
      matcher.flags.has .sticky = true ∧
      matcher.texts #['a', 'é'] = [['a'], [], []] ∧
      ∀ row, AnchoredRow matcher.program #['a', 'é'] (matcher.flags.has .global) 0 row ↔
        row = matcher.hits #['a', 'é'] := by
  have compiled : (Matcher.compile "a*".toList
        { Options.initial with flags := ⟨0x11#8⟩ }).toOption.map
      (fun matcher => (matcher.flags.has .sticky, matcher.texts #['a', 'é'])) =
        some (true, [['a'], [], []]) := by
    decide +kernel
  cases result : Matcher.compile "a*".toList { Options.initial with flags := ⟨0x11#8⟩ } with
  | error cause =>
      rw [result] at compiled
      cases compiled
  | ok matcher =>
      rw [result] at compiled
      obtain ⟨sticky, texts⟩ := Prod.mk.inj (Option.some.inj compiled)
      exact ⟨matcher, rfl, sticky, texts, Matcher.anchoredRow_iff_eq_hits matcher _ sticky⟩

end ReadableRegex

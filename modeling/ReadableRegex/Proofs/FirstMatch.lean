import ReadableRegex.Hits.Single
import ReadableRegex.Matcher

/-!
The first match under all flags. Asking whether there is a match, asking for the first one and
asking for all of them go their own ways for sticky and for other expressions; all of them tell
of the same first match, and an expression without the global flag stops there.
-/

namespace ReadableRegex

variable {subject : Array Char}

/-! ### Rows -/

namespace Program

theorem head?_row (program : Program) (subject : Array Char) :
    (program.row subject).head? = program.search subject 0 := by
  unfold row
  cases program.search subject 0 with
  | none => rfl
  | some hit => rfl

theorem isSome_search_iff_exists (program : Program) (subject : Array Char) :
    (program.search subject 0).isSome = true ↔
      ∃ start, (program.matchAt subject start).isSome = true := by
  rw [search_eq_findSome?, List.findSome?_isSome_iff]
  constructor
  · rintro ⟨start, _, found⟩
    exact ⟨start, found⟩
  · rintro ⟨start, found⟩
    obtain ⟨hit, matched⟩ := Option.isSome_iff_exists.mp found
    have inside := Nat.le_trans hit.start_le_stop hit.stop_le_size
    rw [start_of_matchAt matched] at inside
    exact ⟨start, List.mem_range'_1.mpr ⟨Nat.zero_le _, by omega⟩, found⟩

theorem head?_chainFrom (program : Program) (subject : Array Char) (global : Bool)
    (cursor : Nat) :
    (program.chainFrom subject global cursor).head? = program.matchAt subject cursor := by
  cases found : program.matchAt subject cursor with
  | none =>
      rw [chainFrom_of_none found]
      rfl
  | some hit =>
      rw [chainFrom_of_some found]
      rfl

theorem chainFrom_of_single (program : Program) (subject : Array Char) (cursor : Nat) :
    program.chainFrom subject false cursor = (program.matchAt subject cursor).toList := by
  cases found : program.matchAt subject cursor with
  | none => exact chainFrom_of_none found
  | some hit => exact chainFrom_of_some found

/-! Whichever way a match was found, it is the one that the program has at its start. -/

section

variable {program : Program} {cursor : Nat} {hit : Hit subject}

theorem matchAt_of_search (found : program.search subject cursor = some hit) :
    program.matchAt subject hit.start = some hit := by
  rw [search_eq_findSome?] at found
  obtain ⟨start, _, matched⟩ := List.exists_of_findSome?_eq_some found
  rw [start_of_matchAt matched]
  exact matched

theorem matchAt_of_hitAfter (found : program.hitAfter subject cursor = some hit) :
    program.matchAt subject hit.start = some hit := by
  unfold hitAfter at found
  split at found
  · rename_i first searched
    split at found
    · exact matchAt_of_search found
    · cases found
      exact matchAt_of_search searched
  · cases found

theorem matchAt_of_mem_rowAfter (member : hit ∈ program.rowAfter subject cursor) :
    program.matchAt subject hit.start = some hit := by
  induction remaining : subject.size - cursor using Nat.strongRecOn generalizing cursor with
  | ind bound inductionHypothesis =>
      cases found : program.hitAfter subject cursor with
      | none =>
          rw [rowAfter_of_none found] at member
          cases member
      | some first =>
          have progress := lt_stop_of_hitAfter found
          have within := first.stop_le_size
          rw [rowAfter_of_some found] at member
          rcases List.mem_cons.mp member with same | later
          · rw [same]
            exact matchAt_of_hitAfter found
          · exact inductionHypothesis _ (by omega) later rfl

theorem matchAt_of_mem_row (member : hit ∈ program.row subject) :
    program.matchAt subject hit.start = some hit := by
  unfold row at member
  split at member
  · rename_i first searched
    rcases List.mem_cons.mp member with same | later
    · rw [same]
      exact matchAt_of_search searched
    · exact matchAt_of_mem_rowAfter later
  · cases member

theorem matchAt_of_mem_chainFrom {global : Bool}
    (member : hit ∈ program.chainFrom subject global cursor) :
    program.matchAt subject hit.start = some hit := by
  induction remaining : subject.size + 1 - cursor using Nat.strongRecOn generalizing cursor with
  | ind bound inductionHypothesis =>
      cases found : program.matchAt subject cursor with
      | none =>
          rw [chainFrom_of_none found] at member
          cases member
      | some first =>
          have begins := start_of_matchAt found
          have progress := lt_cursorAfter (Nat.le_of_eq begins.symm)
          have within := Nat.le_trans first.start_le_stop first.stop_le_size
          rw [chainFrom_of_some found] at member
          rcases List.mem_cons.mp member with same | later
          · rw [same, begins]
            exact found
          · cases global with
            | true => exact inductionHypothesis _ (by omega) later rfl
            | false => cases later

end

def NeverEmpty (program : Program) (subject : Array Char) : Prop :=
  ∀ start hit, program.matchAt subject start = some hit → hit.start < hit.stop

theorem neverEmpty_iff (program : Program) (subject : Array Char) :
    program.NeverEmpty subject ↔ ∀ start < subject.size + 1,
      ∀ hit ∈ program.matchAt subject start, hit.start < hit.stop := by
  constructor
  · intro full start _ hit matched
    exact full start hit matched
  · intro full start hit matched
    have inside := Nat.le_trans hit.start_le_stop hit.stop_le_size
    rw [start_of_matchAt matched] at inside
    exact full start (Nat.lt_succ_of_le inside) hit matched

instance (program : Program) (subject : Array Char) : Decidable (program.NeverEmpty subject) :=
  decidable_of_iff' _ (neverEmpty_iff program subject)

namespace NeverEmpty

variable {program : Program} (full : program.NeverEmpty subject)

include full

theorem hitAfter_eq_search (cursor : Nat) :
    program.hitAfter subject cursor = program.search subject cursor := by
  unfold hitAfter
  cases found : program.search subject cursor with
  | none => rfl
  | some hit =>
      have positive := full hit.start hit (matchAt_of_search found)
      have behind := le_start_of_search found
      have moved : hit.stop ≠ cursor := by omega
      exact if_neg moved

theorem row_eq_rowAfter : program.row subject = program.rowAfter subject 0 := by
  have same := full.hitAfter_eq_search 0
  unfold row
  cases found : program.search subject 0 with
  | none => exact (rowAfter_of_none (same.trans found)).symm
  | some hit => exact (rowAfter_of_some (same.trans found)).symm

end NeverEmpty

section

variable [PropertyTable] [SizeRule]

theorem compile_congr {source : Text} {left right : Options}
    (modes : Modes.ofFlags left.flags = Modes.ofFlags right.flags)
    (size : left.sizeLimit = right.sizeLimit) (nest : left.nestLimit = right.nestLimit) :
    compile source left = compile source right := by
  unfold compile
  rw [modes, size, nest]

/-- The global and the sticky flag are none of the program's concern. -/
theorem compile_set_row (source : Text) (options : Options) {flag : Flag}
    (row : flag = .global ∨ flag = .sticky) (enabled : Bool) :
    compile source (options.set (.flag flag enabled)) = compile source options := by
  refine compile_congr ?_ rfl rfl
  rcases row with rfl | rfl <;> simp [Options.set, Modes.ofFlags, FlagSet.has_switch]

theorem compile_set_global (source : Text) (options : Options) (enabled : Bool) :
    compile source (options.set (.flag .global enabled)) = compile source options :=
  compile_set_row source options (Or.inl rfl) enabled

end

end Program

/-! ### Expressions -/

namespace Matcher

variable {source : Text} {options : Options} {matcher : Matcher}

theorem compile_eq_ok_iff [PropertyTable] [SizeRule] :
    compile source options = .ok matcher ↔
      matcher.source = source ∧ matcher.flags = options.flags ∧
        Program.compile source options = .ok matcher.program := by
  unfold compile
  constructor
  · intro compiled
    split at compiled
    · rename_i program assembled
      cases compiled
      exact ⟨rfl, rfl, assembled⟩
    · cases compiled
  · rintro ⟨rfl, same, assembled⟩
    rw [assembled, ← same]

theorem exec_eq_some_iff {hit : Hit subject} :
    matcher.exec subject = some hit ↔
      matcher.program.search subject 0 = some hit ∧
        (matcher.flags.has .sticky = true → hit.start = 0) := by
  unfold exec
  cases matcher.program.search subject 0 with
  | none => simp
  | some first =>
      by_cases late : matcher.flags.has .sticky = true ∧ first.start ≠ 0
      · simp only [if_pos late]
        constructor
        · intro absent
          cases absent
        · intro ⟨found, begins⟩
          cases found
          exact absurd (begins late.1) late.2
      · simp only [if_neg late]
        constructor
        · intro found
          cases found
          exact ⟨rfl, fun sticky => Classical.not_not.mp (fun apart => late ⟨sticky, apart⟩)⟩
        · intro ⟨found, _⟩
          exact found

/-- A sticky expression finds what its program matches at the very start. -/
theorem exec_of_sticky (subject : Array Char) (sticky : matcher.flags.has .sticky = true) :
    matcher.exec subject = matcher.program.matchAt subject 0 := by
  apply Option.ext
  intro hit
  rw [Program.matchAt_eq_some_iff, exec_eq_some_iff]
  constructor
  · intro ⟨found, begins⟩
    exact ⟨found, begins sticky⟩
  · intro ⟨found, begins⟩
    exact ⟨found, fun _ => begins⟩

theorem exec_of_not_sticky (subject : Array Char) (free : matcher.flags.has .sticky = false) :
    matcher.exec subject = matcher.program.search subject 0 := by
  apply Option.ext
  intro hit
  rw [exec_eq_some_iff]
  constructor
  · intro ⟨found, _⟩
    exact found
  · intro found
    exact ⟨found, fun sticky => by rw [free] at sticky; cases sticky⟩

theorem isMatch_eq_isSome_exec (matcher : Matcher) (subject : Array Char) :
    matcher.isMatch subject = (matcher.exec subject).isSome := by
  unfold isMatch exec
  cases matcher.program.search subject 0 with
  | none => rfl
  | some hit =>
      by_cases begins : hit.start = 0
      · simp [begins]
      · cases sticky : matcher.flags.has .sticky <;> simp [begins]

theorem hits_eq (matcher : Matcher) (subject : Array Char) :
    matcher.hits subject =
      if matcher.flags.has .sticky then
        matcher.program.chainFrom subject (matcher.flags.has .global) 0
      else if matcher.flags.has .global then matcher.program.row subject
      else (matcher.program.search subject 0).toList := by
  unfold hits
  rw [Program.stickyHits_eq_chainFrom, Program.hits_eq_row]

theorem matchAt_of_mem_hits {hit : Hit subject} (member : hit ∈ matcher.hits subject) :
    matcher.program.matchAt subject hit.start = some hit := by
  rw [hits_eq] at member
  split at member
  · exact Program.matchAt_of_mem_chainFrom member
  · split at member
    · exact Program.matchAt_of_mem_row member
    · exact Program.matchAt_of_search (Option.mem_toList.mp member)

theorem head?_hits (matcher : Matcher) (subject : Array Char) :
    (matcher.hits subject).head? = matcher.exec subject := by
  rw [hits_eq]
  by_cases sticky : matcher.flags.has .sticky = true
  · rw [if_pos sticky, exec_of_sticky subject sticky, Program.head?_chainFrom]
  · rw [if_neg sticky, exec_of_not_sticky subject (Bool.of_not_eq_true sticky)]
    split
    · exact Program.head?_row _ _
    · exact Option.head?_toList

theorem hits_of_single (subject : Array Char) (single : matcher.flags.has .global = false) :
    matcher.hits subject = (matcher.exec subject).toList := by
  rw [hits_eq, single]
  by_cases sticky : matcher.flags.has .sticky = true
  · rw [if_pos sticky, exec_of_sticky subject sticky, Program.chainFrom_of_single]
  · rw [if_neg sticky, exec_of_not_sticky subject (Bool.of_not_eq_true sticky)]
    rfl

theorem exec_congr {other : Matcher} (subject : Array Char)
    (program : other.program = matcher.program)
    (sticky : other.flags.has .sticky = matcher.flags.has .sticky) :
    other.exec subject = matcher.exec subject := by
  unfold exec
  rw [program, sticky]

/-- Whatever its flags, an expression matches if it finds a first match and if it has any match
at all; the first match found is the first of them all. Without the global flag it has the first
of the matches that the same pattern has with it, and no other. -/
theorem answers_agree [PropertyTable] [SizeRule]
    (compiled : compile source options = .ok matcher) (subject : Array Char) :
    (matcher.isMatch subject = true ↔ (matcher.exec subject).isSome = true) ∧
    ((matcher.exec subject).isSome = true ↔ matcher.texts subject ≠ []) ∧
    (matcher.hits subject).head? = matcher.exec subject ∧
    (∀ hit, matcher.exec subject = some hit →
      (matcher.texts subject).head? = some (hit.groupText 0)) ∧
    (matcher.flags.has .global = false →
      ∃ other, compile source (options.set (.flag .global true)) = .ok other ∧
        (∀ flag, other.flags.has flag = (matcher.flags.has flag || flag == .global)) ∧
        matcher.hits subject = (other.hits subject).take 1 ∧
        matcher.texts subject = (other.texts subject).take 1) := by
  have first := matcher.head?_hits subject
  obtain ⟨_, flags, assembled⟩ := compile_eq_ok_iff.mp compiled
  refine ⟨?_, ?_, first, ?_, ?_⟩
  · rw [isMatch_eq_isSome_exec]
  · rw [← first, List.isSome_head?, texts]
    simp
  · intro hit found
    rw [texts, List.head?_map, first, found]
    rfl
  · intro single
    let many : Matcher := ⟨source, (options.set (.flag .global true)).flags, matcher.program⟩
    have switched : ∀ flag, many.flags.has flag = (matcher.flags.has flag || flag == .global) := by
      intro flag
      rw [flags]
      exact FlagSet.has_enable _ _ _
    have sticky : many.flags.has .sticky = matcher.flags.has .sticky := by
      rw [switched]
      exact Bool.or_false _
    have same : many.exec subject = matcher.exec subject := exec_congr subject rfl sticky
    have rows : matcher.hits subject = (many.hits subject).take 1 := by
      rw [hits_of_single subject single, List.take_one, head?_hits, same]
    refine ⟨many, ?_, switched, rows, ?_⟩
    · apply compile_eq_ok_iff.mpr
      exact ⟨rfl, rfl, by rw [Program.compile_set_global, assembled]⟩
    · rw [texts, rows, List.map_take]
      rfl

end Matcher

theorem answers_agree_of_sticky :
    ∃ matcher, Matcher.compile "b*".toList
          { Options.initial with flags := ⟨0x10#8⟩ } = .ok matcher ∧
      matcher.texts #['b', 'b', 'a', 'b'] = [['b', 'b']] ∧
      matcher.isMatch #['b', 'b', 'a', 'b'] = true ∧
      ∃ other, Matcher.compile "b*".toList
          { Options.initial with flags := ⟨0x11#8⟩ } = .ok other ∧
        [['b', 'b']] = (other.texts #['b', 'b', 'a', 'b']).take 1 := by
  have compiled : (Matcher.compile "b*".toList
        { Options.initial with flags := ⟨0x10#8⟩ }).toOption.map
      (fun matcher => (matcher.flags, matcher.texts #['b', 'b', 'a', 'b'])) =
        some (⟨0x10#8⟩, [['b', 'b']]) := by
    decide +kernel
  cases result : Matcher.compile "b*".toList { Options.initial with flags := ⟨0x10#8⟩ } with
  | error cause =>
      rw [result] at compiled
      cases compiled
  | ok matcher =>
      rw [result] at compiled
      obtain ⟨flags, texts⟩ := Prod.mk.inj (Option.some.inj compiled)
      obtain ⟨asked, answered, _, _, more⟩ :=
        Matcher.answers_agree result #['b', 'b', 'a', 'b']
      have nonempty : matcher.texts #['b', 'b', 'a', 'b'] ≠ [] := by
        rw [texts]
        decide
      obtain ⟨other, again, _, _, taken⟩ := more (by rw [flags]; rfl)
      refine ⟨matcher, rfl, texts, asked.mpr (answered.mpr nonempty), other, again, ?_⟩
      rw [← texts]
      exact taken

end ReadableRegex

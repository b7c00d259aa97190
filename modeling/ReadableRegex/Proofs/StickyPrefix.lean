import ReadableRegex.Proofs.Replacing

/-!
Sticky rows beside plain ones. If no match is empty, both loops go on from the end of each match.
They part at the first gap between matches: the sticky row ends there, and the plain one goes on
behind it.
-/

namespace ReadableRegex

variable {program : Program} {subject : Array Char} {cursor : Nat} {hits later : List (Hit subject)}

/-! ### Rows without gaps -/

/-- The first match begins at the cursor, and each other one where the one before it ended. -/
inductive Contiguous : Nat → List (Hit subject) → Prop where
  | nil {cursor : Nat} : Contiguous cursor []
  | cons {cursor : Nat} {hit : Hit subject} {rest : List (Hit subject)}
      (begins : hit.start = cursor) (contiguous : Contiguous hit.stop rest) :
      Contiguous cursor (hit :: rest)

def rowEnd (cursor : Nat) : List (Hit subject) → Nat
  | [] => cursor
  | hit :: rest => rowEnd hit.stop rest

namespace Contiguous

theorem of_append (contiguous : Contiguous cursor (hits ++ later)) :
    Contiguous (rowEnd cursor hits) later := by
  induction hits generalizing cursor with
  | nil => exact contiguous
  | cons hit rest inductionHypothesis =>
      cases contiguous with
      | cons begins behind => exact inductionHypothesis behind

theorem bounds (contiguous : Contiguous cursor hits) (inside : cursor ≤ subject.size) :
    cursor ≤ rowEnd cursor hits ∧ rowEnd cursor hits ≤ subject.size := by
  induction contiguous with
  | nil => exact ⟨Nat.le_refl _, inside⟩
  | @cons cursor hit rest begins behind inductionHypothesis =>
      obtain ⟨low, high⟩ := inductionHypothesis hit.stop_le_size
      have order := hit.start_le_stop
      rw [rowEnd]
      exact ⟨by omega, high⟩

theorem flatMap_text (contiguous : Contiguous cursor hits) (inside : cursor ≤ subject.size) :
    hits.flatMap Hit.text = Hit.between subject cursor (rowEnd cursor hits) := by
  induction contiguous with
  | nil =>
      rw [rowEnd, List.flatMap_nil, Hit.between_self]
  | @cons cursor hit rest begins behind inductionHypothesis =>
      have order := hit.start_le_stop
      rw [List.flatMap_cons, inductionHypothesis hit.stop_le_size, Hit.text, begins, rowEnd]
      exact Hit.between_append subject (by omega) (behind.bounds hit.stop_le_size).1

/-- Only the matches are replaced, because there is nothing between them. -/
theorem splice_append (contiguous : Contiguous cursor hits) (expand : Hit subject → Text) :
    Matcher.splice expand cursor (hits ++ later) =
      hits.flatMap expand ++ Matcher.splice expand (rowEnd cursor hits) later := by
  induction contiguous with
  | nil => rfl
  | @cons cursor hit rest begins behind inductionHypothesis =>
      rw [List.cons_append, Matcher.splice, inductionHypothesis, begins, Hit.between_self,
        List.nil_append, List.flatMap_cons, List.append_assoc]
      rfl

theorem prefix_of_gap {row : List (Hit subject)} (contiguous : Contiguous cursor row)
    (begins : row <+: hits ++ later)
    (gap : ∀ hit, later.head? = some hit → hit.start ≠ rowEnd cursor hits) : row <+: hits := by
  rcases List.prefix_or_prefix_of_prefix begins (List.prefix_append hits later) with
    inside | ⟨beyond, rfl⟩
  · exact inside
  · have further := (List.prefix_append_right_inj hits).mp begins
    cases contiguous.of_append with
    | nil => simp
    | @cons _ hit rest start behind =>
        obtain ⟨others, rfl⟩ := further
        exact absurd start (gap hit rfl)

end Contiguous

/-! ### Both loops -/

namespace Program.NeverEmpty

variable (full : program.NeverEmpty subject)

include full

theorem chainFrom_of_some {hit : Hit subject} (found : program.matchAt subject cursor = some hit) :
    program.chainFrom subject true cursor = hit :: program.chainFrom subject true hit.stop := by
  have begins := start_of_matchAt found
  have positive := full cursor hit found
  have moved : cursorAfter cursor hit = hit.stop := if_neg (by omega)
  rw [Program.chainFrom_of_some found, if_pos rfl, moved]

theorem contiguous_chainFrom (cursor : Nat) :
    Contiguous cursor (program.chainFrom subject true cursor) := by
  induction remaining : subject.size - cursor using Nat.strongRecOn generalizing cursor with
  | ind bound inductionHypothesis =>
      cases found : program.matchAt subject cursor with
      | none =>
          rw [chainFrom_of_none found]
          exact .nil
      | some hit =>
          have begins := start_of_matchAt found
          have positive := full cursor hit found
          have within := hit.stop_le_size
          rw [full.chainFrom_of_some found]
          exact .cons begins (inductionHypothesis _ (by omega) hit.stop rfl)

/-- A plain row begins with the sticky one, and goes on behind a gap or not at all. -/
theorem rowAfter_eq_append (cursor : Nat) :
    ∃ later, program.rowAfter subject cursor = program.chainFrom subject true cursor ++ later ∧
      ∀ hit, later.head? = some hit →
        hit.start ≠ rowEnd cursor (program.chainFrom subject true cursor) := by
  induction remaining : subject.size - cursor using Nat.strongRecOn generalizing cursor with
  | ind bound inductionHypothesis =>
      have next := full.hitAfter_eq_search cursor
      cases found : program.matchAt subject cursor with
      | some hit =>
          obtain ⟨searched, begins⟩ := matchAt_eq_some_iff.mp found
          have positive := full cursor hit found
          have within := hit.stop_le_size
          obtain ⟨later, split, gap⟩ := inductionHypothesis _ (by omega) hit.stop rfl
          rw [full.chainFrom_of_some found, rowAfter_of_some (next.trans searched), split]
          exact ⟨later, rfl, gap⟩
      | none =>
          rw [chainFrom_of_none found]
          refine ⟨program.rowAfter subject cursor, rfl, ?_⟩
          intro hit first here
          cases searched : program.search subject cursor with
          | none =>
              rw [rowAfter_of_none (next.trans searched)] at first
              cases first
          | some other =>
              rw [rowAfter_of_some (next.trans searched)] at first
              cases first
              rw [matchAt_eq_some_iff.mpr ⟨searched, here⟩] at found
              cases found

end Program.NeverEmpty

/-- If no match is empty, the matches of a sticky expression are the matches of the plain one up to
the first gap, the start of the subject counting as an end. What is replaced there is replaced in
the same way, and the sticky expression leaves the text behind it as it is. -/
theorem Matcher.sticky_row_of_plain [PropertyTable] [SizeRule] {source : Text} {options : Options}
    {plain : Matcher} (subject : Array Char) (compiled : compile source options = .ok plain)
    (global : plain.flags.has .global = true) (free : plain.flags.has .sticky = false)
    (full : plain.program.NeverEmpty subject) :
    ∃ sticky, compile source (options.set (.flag .sticky true)) = .ok sticky ∧
      (∀ flag, sticky.flags.has flag = (plain.flags.has flag || flag == .sticky)) ∧
      Contiguous 0 (sticky.hits subject) ∧
      (∀ row, row <+: plain.hits subject → Contiguous 0 row → row <+: sticky.hits subject) ∧
      ∃ stop later,
        stop ≤ subject.size ∧
        (sticky.hits subject).flatMap Hit.text = Hit.between subject 0 stop ∧
        plain.hits subject = sticky.hits subject ++ later ∧
        (∀ expand,
          sticky.replaceBy subject expand =
            (sticky.hits subject).flatMap expand ++ Hit.between subject stop subject.size ∧
          plain.replaceBy subject expand =
            (sticky.hits subject).flatMap expand ++ splice expand stop later) ∧
        ∀ template,
          sticky.replace subject template =
            (sticky.hits subject).flatMap (template.expand plain.program) ++
              Hit.between subject stop subject.size ∧
          plain.replace subject template =
            (sticky.hits subject).flatMap (template.expand plain.program) ++
              splice (template.expand plain.program) stop later := by
  obtain ⟨_, flags, assembled⟩ := compile_eq_ok_iff.mp compiled
  let sticky : Matcher := ⟨source, (options.set (.flag .sticky true)).flags, plain.program⟩
  have switched : ∀ flag, sticky.flags.has flag = (plain.flags.has flag || flag == .sticky) := by
    intro flag
    rw [flags]
    exact FlagSet.has_enable _ _ _
  have isSticky : sticky.flags.has .sticky = true := (switched .sticky).trans (Bool.or_true _)
  have isGlobal : sticky.flags.has .global = true := by
    rw [switched, global, Bool.true_or]
  have stuck : sticky.hits subject = plain.program.chainFrom subject true 0 := by
    rw [hits_eq, if_pos isSticky, isGlobal]
  have row : plain.hits subject = plain.program.rowAfter subject 0 := by
    rw [hits_eq, free, global, if_neg (by decide), if_pos rfl, full.row_eq_rowAfter]
  have contiguous := full.contiguous_chainFrom 0
  obtain ⟨later, split, gap⟩ := full.rowAfter_eq_append 0
  rw [← stuck] at contiguous split gap
  have replaced (expand : Hit subject → Text) :
      sticky.replaceBy subject expand = (sticky.hits subject).flatMap expand ++
          Hit.between subject (rowEnd 0 (sticky.hits subject)) subject.size ∧
        plain.replaceBy subject expand = (sticky.hits subject).flatMap expand ++
          splice expand (rowEnd 0 (sticky.hits subject)) later := by
    have alone : splice expand 0 (sticky.hits subject ++ []) =
        (sticky.hits subject).flatMap expand ++
          splice expand (rowEnd 0 (sticky.hits subject)) [] :=
      contiguous.splice_append expand
    rw [List.append_nil] at alone
    rw [replaceBy_eq_splice, replaceBy_eq_splice, row, split]
    exact ⟨alone, contiguous.splice_append expand⟩
  refine ⟨sticky, ?_, switched, contiguous, ?_, rowEnd 0 (sticky.hits subject), later,
    (contiguous.bounds (Nat.zero_le _)).2, contiguous.flatMap_text (Nat.zero_le _),
    row.trans split, replaced, fun template => replaced (template.expand plain.program)⟩
  · apply compile_eq_ok_iff.mpr
    exact ⟨rfl, rfl, by rw [Program.compile_set_row source options (Or.inr rfl), assembled]⟩
  · intro other begins unbroken
    rw [row, split] at begins
    exact unbroken.prefix_of_gap begins gap

theorem Matcher.sticky_row_of_plain_of_gap :
    ∃ plain, compile "ab?".toList { Options.initial with flags := ⟨0x01#8⟩ } = .ok plain ∧
      plain.texts #['a', 'b', 'a', 'é', 'a'] = [['a', 'b'], ['a'], ['a']] ∧
      ∃ sticky, compile "ab?".toList { Options.initial with flags := ⟨0x11#8⟩ } = .ok sticky ∧
        Contiguous 0 (sticky.hits #['a', 'b', 'a', 'é', 'a']) ∧
        sticky.hits #['a', 'b', 'a', 'é', 'a'] <+: plain.hits #['a', 'b', 'a', 'é', 'a'] := by
  have compiled : (compile "ab?".toList { Options.initial with flags := ⟨0x01#8⟩ }).toOption.map
      (fun plain => (plain.flags, plain.texts #['a', 'b', 'a', 'é', 'a'],
        decide (plain.program.NeverEmpty #['a', 'b', 'a', 'é', 'a']))) =
        some (⟨0x01#8⟩, [['a', 'b'], ['a'], ['a']], true) := by
    decide +kernel
  cases result : compile "ab?".toList { Options.initial with flags := ⟨0x01#8⟩ } with
  | error cause =>
      rw [result] at compiled
      cases compiled
  | ok plain =>
      rw [result] at compiled
      obtain ⟨flags, rest⟩ := Prod.mk.inj (Option.some.inj compiled)
      obtain ⟨texts, full⟩ := Prod.mk.inj rest
      obtain ⟨sticky, again, _, contiguous, _, _, later, _, _, split, _⟩ :=
        Matcher.sticky_row_of_plain #['a', 'b', 'a', 'é', 'a'] result (by rw [flags]; rfl)
          (by rw [flags]; rfl) (of_decide_eq_true full)
      refine ⟨plain, rfl, texts, sticky, again, contiguous, ?_⟩
      rw [split]
      exact List.prefix_append _ _

end ReadableRegex

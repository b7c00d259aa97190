import ReadableRegex.Proofs.Raw.Extending
import ReadableRegex.Proofs.Slashes.Pieces

/-!
Classes of a protected text. A slash is a member or an end of a range there, with a backslash before
it or without, and none of the signs that decide how a class goes on.
-/

namespace ReadableRegex

open Slashed (protect)
open Text (IsPlain)

namespace Lexeme

variable {verbose : Bool} {text rest : Text}

/-! ### Openings of classes -/

theorem openMembers_protect {negated : Bool} {frame : ClassFrame}
    (opened : openMembers negated text verbose = (frame, rest)) :
    (rest ≠ [] → text.Leaves rest) ∧
      openMembers negated (protect text) verbose = (frame, protect rest) := by
  unfold openMembers at opened
  split at opened
  · next collected =>
      cases opened
      obtain ⟨leaves, same⟩ := collect_protect_of_test (by decide) (by decide) collected
      rw [Slashed.protect_cons (by decide)] at same
      refine ⟨fun _ => (leaves (List.cons_ne_nil _ _)).past (by decide) (.all _), ?_⟩
      simp only [openMembers, same]
  · next hyphens behind other collected =>
      cases opened
      obtain ⟨leaves, same⟩ := collect_protect_of_test (by decide) (by decide) collected
      refine ⟨leaves, openMembers_of_collect same ?_⟩
      rintro rfl others begins
      exact absurd begins (Slashed.protect_ne_cons (by decide) (fun rest => other rest rfl) others)

theorem openClass_protect {frame : ClassFrame} (opened : openClass text verbose = (frame, rest)) :
    (rest ≠ [] → text.Leaves rest) ∧
      openClass (protect text) verbose = (frame, protect rest) := by
  unfold openClass at opened
  split at opened
  · next goesOn =>
      obtain ⟨leaves, same⟩ := openMembers_protect opened
      have caret := leaves_of_resume goesOn
      refine ⟨fun present => caret.past (by decide) (leaves present), ?_⟩
      simp only [openClass, resume_protect_of_isPlain goesOn (by decide), same]
  · next other =>
      obtain ⟨leaves, same⟩ := openMembers_protect opened
      constructor
      · intro present
        have starts : resume verbose text ≠ [] := by
          intro ends
          rw [ends] at opened
          cases verbose <;> cases opened <;> exact present rfl
        exact (leaves_resume starts).trans (leaves present)
      · unfold openClass
        rw [resume_protect]
        split
        · next behind begins =>
            exact absurd begins (Slashed.protect_ne_cons (by decide) other behind)
        · exact same

theorem after?_protect {opening : Text} (plain : ∀ sign ∈ opening, IsPlain sign) (text : Text) :
    Text.after? opening (protect text) = (Text.after? opening text).map protect := by
  induction opening generalizing text with
  | nil => rfl
  | cons sign others inductionHypothesis =>
      obtain ⟨first, later⟩ := List.forall_mem_cons.mp plain
      cases text with
      | nil => rfl
      | cons head tail =>
          by_cases same : sign = head
          · subst same
            rw [Slashed.protect_cons first, Text.after?, Text.after?, if_pos rfl, if_pos rfl,
              inductionHypothesis later]
          · obtain ⟨changed, behind, shape, signs⟩ := Slashed.exists_protect_cons head tail
            have apart : sign ≠ changed := by
              rcases signs with rfl | rfl
              · exact same
              · exact first.2
            rw [shape, Text.after?, Text.after?, if_neg apart, if_neg same]
            rfl

theorem isPlain_posixClasses :
    ∀ entry ∈ posixClasses, ∀ sign ∈ entry.1 ++ [':', ']'], IsPlain sign := by
  have names : ∀ entry ∈ posixClasses,
      '/' ∉ entry.1 ++ [':', ']'] ∧ '\\' ∉ entry.1 ++ [':', ']'] := by
    decide
  intro entry member sign inside
  obtain ⟨slash, backslash⟩ := names entry member
  exact ⟨ne_of_mem_of_not_mem inside slash, ne_of_mem_of_not_mem inside backslash⟩

theorem namedPosix?_protect (negated : Bool) (text : Text) :
    namedPosix? negated (protect text) =
      (namedPosix? negated text).map (fun found => (found.1, protect found.2)) := by
  have names := isPlain_posixClasses
  unfold namedPosix?
  generalize posixClasses = entries at names ⊢
  induction entries with
  | nil => rfl
  | cons entry others inductionHypothesis =>
      obtain ⟨first, later⟩ := List.forall_mem_cons.mp names
      rw [List.findSome?_cons, List.findSome?_cons, after?_protect first,
        inductionHypothesis later]
      cases Text.after? (entry.1 ++ [':', ']']) text <;> rfl

theorem leaves_of_namedPosix? {negated : Bool} {set : CharClass}
    (read : namedPosix? negated text = some (set, rest)) : text.Leaves rest := by
  obtain ⟨entry, member, found⟩ := List.exists_of_findSome?_eq_some read
  obtain ⟨remaining, after, same⟩ := Option.map_eq_some_iff.mp found
  cases same
  rw [Text.eq_append_of_after? after]
  exact Text.leaves_append (isPlain_posixClasses entry member) rest

theorem readPosix?_protect (text : Text) :
    readPosix? (protect text) =
      (readPosix? text).map (fun found => (found.1, protect found.2)) := by
  fun_cases readPosix? text with
  | case1 behind =>
      rw [Slashed.protect_cons (by decide), Slashed.protect_cons (by decide)]
      exact namedPosix?_protect true behind
  | case2 behind other =>
      rw [Slashed.protect_cons (by decide), readPosix?]
      · exact namedPosix?_protect false behind
      · exact Slashed.protect_ne_cons (by decide) other
  | case3 text negated other =>
      rw [readPosix?]
      · rfl
      · exact Slashed.protect_ne_pair (by decide) negated
      · exact Slashed.protect_ne_cons (by decide) other

theorem leaves_of_readPosix? {set : CharClass} (read : readPosix? text = some (set, rest)) :
    text.Leaves rest := by
  unfold readPosix? at read
  split at read
  · exact .single (by decide) (.single (by decide) (leaves_of_namedPosix? read))
  · exact .single (by decide) (leaves_of_namedPosix? read)
  · cases read

/-! ### Members -/

theorem readClassAtom_protect {atom : ClassAtom}
    (read : readClassAtom text verbose = .ok (atom, rest)) :
    text.Leaves rest ∧ readClassAtom (protect text) verbose = .ok (atom, protect rest) := by
  cases text using Slashed.unitInduction with
  | nil => cases read
  | dangling => cases read
  | escape character tail =>
      have shape : protect ('\\' :: character :: tail) = '\\' :: character :: protect tail := rfl
      rw [shape]
      simp only [readClassAtom] at read ⊢
      split at read
      · next escape remaining escaped =>
          obtain ⟨leaves, same⟩ := readEscape_protect escaped
          rw [same]
          split at read
          · next member =>
              cases read
              simp only [member]
              exact ⟨.escape character leaves, trivial⟩
          · cases read
      · cases read
  | slash tail =>
      cases read
      exact ⟨.single (by decide) (.all _), rfl⟩
  | plain character tail plain =>
      have single (behind : Text) :
          readClassAtom (character :: behind) verbose = .ok (.single character, behind) := by
        rw [readClassAtom]
        exact plain.2
      rw [single] at read
      cases read
      rw [Slashed.protect_cons plain]
      exact ⟨.single plain.2 (.all _), single _⟩

theorem readRangeEnd_protect {first : ClassAtom} {set : CharClass}
    (read : readRangeEnd first text verbose = .ok (set, rest)) :
    text.Leaves rest ∧ readRangeEnd first (protect text) verbose = .ok (set, protect rest) := by
  unfold readRangeEnd at read
  split at read
  · next low high remaining atom =>
      obtain ⟨leaves, same⟩ := readClassAtom_protect atom
      split at read
      · next ordered =>
          cases read
          refine ⟨leaves, ?_⟩
          simp only [readRangeEnd, same, if_pos ordered]
      · cases read
  · cases read
  · cases read

theorem head?_protect_eq_some {sign : Char} (plain : IsPlain sign) (text : Text) :
    (protect text).head? = some sign ↔ text.head? = some sign := by
  constructor
  · intro begins
    obtain ⟨behind, same⟩ := List.head?_eq_some_iff.mp begins
    obtain ⟨rest, rfl, _⟩ := Slashed.eq_cons_of_protect plain.2 same
    rfl
  · intro begins
    obtain ⟨behind, rfl⟩ := List.head?_eq_some_iff.mp begins
    rw [Slashed.protect_cons plain]
    rfl

theorem signBehind?_protect_eq_some {sign : Char} (plain : IsPlain sign) (text : Text)
    (verbose : Bool) :
    signBehind? (protect text) verbose = some sign ↔ signBehind? text verbose = some sign := by
  cases verbose with
  | false => exact head?_protect_eq_some plain text
  | true =>
      unfold signBehind?
      simp only [(dropWhile_isBlank_protect text).2]
      generalize text.dropWhile Unicode.isBlank = start
      split
      · next begins =>
          obtain ⟨behind, rfl, rfl⟩ := Slashed.eq_cons_of_protect (by decide) begins
          rw [(dropWhile_isBlank_protect behind).2]
          exact head?_protect_eq_some plain _
      · next other =>
          split
          · exact absurd (Slashed.protect_cons (by decide) _) (other _)
          · exact head?_protect_eq_some plain _

theorem readMember_protect {set : CharClass} (read : readMember text verbose = .ok (set, rest)) :
    text.Leaves rest ∧ readMember (protect text) verbose = .ok (set, protect rest) := by
  unfold readMember at read
  split at read
  · next atom remaining first =>
      obtain ⟨leaves, same⟩ := readClassAtom_protect first
      unfold readMember
      simp only [same]
      split at read
      · next behind goesOn =>
          rw [resume_protect_of_isPlain goesOn (by decide)]
          have bracket : IsPlain ']' := by decide
          have hyphen : IsPlain '-' := by decide
          simp only [signBehind?_protect_eq_some bracket, signBehind?_protect_eq_some hyphen]
          split at read
          · next single =>
              cases read
              exact ⟨leaves, if_pos single⟩
          · next range =>
              obtain ⟨further, later⟩ := readRangeEnd_protect read
              have present : resume verbose behind ≠ [] := by
                intro ends
                rw [ends] at read
                cases atom <;> cases read
              have last := (leaves_resume present).trans further
              rw [if_neg range, resume_protect, later]
              exact ⟨leaves.trans ((leaves_of_resume goesOn).past (by decide) last), rfl⟩
      · next single =>
          cases read
          refine ⟨leaves, ?_⟩
          rw [resume_protect]
          split
          · next begins =>
              exact absurd begins (Slashed.protect_ne_cons (by decide) single _)
          · rfl
  · cases read

/-! ### Classes -/

theorem operator?_protect (text : Text) : operator? (protect text) = operator? text := by
  fun_cases operator? text with
  | case1 => rfl
  | case2 => rfl
  | case3 => rfl
  | case4 text intersection difference symmetric =>
      rw [operator?]
      · exact Slashed.protect_ne_pair (by decide) intersection
      · exact Slashed.protect_ne_pair (by decide) difference
      · exact Slashed.protect_ne_pair (by decide) symmetric

theorem eq_cons_of_operator? {head : Char} {tail : Text} {operator : SetOperator}
    (found : operator? (head :: tail) = some operator) :
    IsPlain head ∧ ∃ behind, tail = head :: behind := by
  unfold operator? at found
  split at found
  · next same =>
      cases same
      exact ⟨by decide, _, rfl⟩
  · next same =>
      cases same
      exact ⟨by decide, _, rfl⟩
  · next same =>
      cases same
      exact ⟨by decide, _, rfl⟩
  · cases found

theorem ne_nil_of_readMembers {frame : ClassFrame} {outer : List ClassFrame} {set : CharClass}
    (read : readMembers frame outer text verbose = .ok (set, rest)) : text ≠ [] :=
  List.ne_nil_of_mem (mem_of_readMembers read)

theorem readMembers_protect {frame : ClassFrame} {outer : List ClassFrame} {set : CharClass}
    (read : readMembers frame outer text verbose = .ok (set, rest)) :
    text.Leaves rest ∧ readMembers frame outer (protect text) verbose = .ok (set, protect rest) := by
  fun_induction readMembers frame outer text verbose with
  | case1 => cases read
  | case2 frame text behind goesOn =>
      cases read
      refine ⟨(leaves_of_resume goesOn).past (by decide) (.all _), ?_⟩
      rw [readMembers_closing (resume_protect_of_isPlain goesOn (by decide))]
  | case3 frame text behind goesOn parent outer inductionHypothesis =>
      obtain ⟨leaves, same⟩ := inductionHypothesis read
      refine ⟨(leaves_of_resume goesOn).past (by decide) leaves, ?_⟩
      rw [readMembers_closing (resume_protect_of_isPlain goesOn (by decide))]
      exact same
  | case4 frame outer text behind goesOn member remaining posix inductionHypothesis =>
      obtain ⟨leaves, same⟩ := inductionHypothesis read
      have inside := (leaves_of_readPosix? posix).trans leaves
      refine ⟨(leaves_of_resume goesOn).past (by decide) inside, ?_⟩
      rw [readMembers_bracket (resume_protect_of_isPlain goesOn (by decide)), readPosix?_protect,
        posix]
      exact same
  | case5 frame outer text behind goesOn posix inductionHypothesis =>
      obtain ⟨leaves, same⟩ := inductionHypothesis read
      obtain ⟨opens, opened⟩ := openClass_protect (Eq.refl (openClass behind verbose))
      have inside := (opens (ne_nil_of_readMembers read)).trans leaves
      refine ⟨(leaves_of_resume goesOn).past (by decide) inside, ?_⟩
      rw [readMembers_bracket (resume_protect_of_isPlain goesOn (by decide)), readPosix?_protect,
        posix, opened]
      exact same
  | case6 frame outer text head behind inside single goesOn operator found inductionHypothesis =>
      obtain ⟨leaves, same⟩ := inductionHypothesis read
      have operators := operator?_protect (head :: behind)
      obtain ⟨plain, others, rfl⟩ := eq_cons_of_operator? found
      have pair := leaves_of_resume goesOn
      refine ⟨pair.past plain (.single plain.2 leaves), ?_⟩
      rw [Slashed.protect_cons plain, Slashed.protect_cons plain] at operators
      have begins := resume_protect_of_isPlain goesOn plain
      rw [Slashed.protect_cons plain] at begins
      rw [readMembers_plain begins inside single, operators, found]
      exact same
  | case7 frame outer text head behind inside single goesOn none member remaining first
      inductionHypothesis =>
      obtain ⟨leaves, same⟩ := inductionHypothesis read
      obtain ⟨before, later⟩ := readMember_protect first
      refine ⟨(leaves_of_resume goesOn).trans (before.trans leaves), ?_⟩
      have operator := operator?_protect (head :: behind)
      obtain ⟨sign, others, shape, signs⟩ := Slashed.exists_protect_cons head behind
      have noClosing : sign ≠ ']' := by
        rcases signs with rfl | rfl
        · exact inside
        · decide
      have noOpening : sign ≠ '[' := by
        rcases signs with rfl | rfl
        · exact single
        · decide
      have begins := resume_protect verbose text
      rw [goesOn, shape] at begins
      rw [shape] at operator later
      rw [readMembers_plain begins noClosing noOpening, operator, none, later]
      exact same
  | case8 => cases read

theorem readClass_protect {set : CharClass} (read : readClass text verbose = .ok (set, rest)) :
    text.Leaves rest ∧ readClass (protect text) verbose = .ok (set, protect rest) := by
  obtain ⟨opens, opened⟩ := openClass_protect (Eq.refl (openClass text verbose))
  obtain ⟨leaves, same⟩ := readMembers_protect read
  refine ⟨(opens (ne_nil_of_readMembers read)).trans leaves, ?_⟩
  rw [readClass, opened]
  exact same

end Lexeme
end ReadableRegex

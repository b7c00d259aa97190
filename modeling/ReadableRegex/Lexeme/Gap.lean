import ReadableRegex.Text

/-!
Gaps between the signs of a pattern. In verbose mode blanks and comments mean nothing, be it between
lexemes or between the signs of a count, an escape or a class. Outside of it there are no gaps.
-/

namespace ReadableRegex.Lexeme

/-- What stands behind blanks and comments. A comment goes on to the end of its line. -/
def pastGap (inComment : Bool) : Text → Text
  | [] => []
  | sign :: rest =>
      if inComment then pastGap (sign != '\n') rest
      else if sign == '#' then pastGap true rest
      else if Unicode.isBlank sign then pastGap false rest
      else sign :: rest

def resume (verbose : Bool) (text : Text) : Text :=
  match verbose with
  | true => pastGap false text
  | false => text

def collectPast (test : Char → Bool) (inComment : Bool) : Text → Text × Text
  | [] => ([], [])
  | sign :: rest =>
      if inComment then collectPast test (sign != '\n') rest
      else if sign == '#' then collectPast test true rest
      else if Unicode.isBlank sign then collectPast test false rest
      else if test sign then
        let (signs, behind) := collectPast test false rest
        (sign :: signs, behind)
      else ([], sign :: rest)

/-- The signs up to the first one that fails the test, without the gaps between them, and the text
from that one on. -/
def collect (verbose : Bool) (test : Char → Bool) (text : Text) : Text × Text :=
  match verbose with
  | true => collectPast test false text
  | false => (text.takeWhile test, text.dropWhile test)

/-- The next `count` signs, without the gaps between them. -/
def takeSigns? (verbose : Bool) : Nat → Text → Option (Text × Text)
  | 0, text => some ([], text)
  | count + 1, text =>
      match resume verbose text with
      | [] => none
      | sign :: rest =>
          (takeSigns? verbose count rest).map (fun (signs, behind) => (sign :: signs, behind))

@[simp] theorem resume_false (text : Text) : resume false text = text := rfl

/-! ### What is left to read -/

theorem pastGap_suffix (inComment : Bool) (text : Text) : pastGap inComment text <:+ text := by
  fun_induction pastGap inComment text with
  | case1 => exact List.suffix_refl _
  | case2 _ _ inductionHypothesis => exact inductionHypothesis.trans (List.suffix_cons _ _)
  | case3 _ _ _ _ _ inductionHypothesis => exact inductionHypothesis.trans (List.suffix_cons _ _)
  | case4 _ _ _ _ _ _ inductionHypothesis => exact inductionHypothesis.trans (List.suffix_cons _ _)
  | case5 => exact List.suffix_refl _

theorem resume_suffix (verbose : Bool) (text : Text) : resume verbose text <:+ text := by
  cases verbose with
  | true => exact pastGap_suffix false text
  | false => exact List.suffix_refl _

theorem suffix_of_resume {verbose : Bool} {sign : Char} {text rest : Text}
    (goesOn : resume verbose text = sign :: rest) : rest <:+ text := by
  have start := resume_suffix verbose text
  rw [goesOn] at start
  exact (List.suffix_cons sign rest).trans start

theorem collectPast_suffix (test : Char → Bool) (inComment : Bool) (text : Text) :
    (collectPast test inComment text).2 <:+ text := by
  fun_induction collectPast test inComment text with
  | case1 => exact List.suffix_refl _
  | case2 _ _ inductionHypothesis => exact inductionHypothesis.trans (List.suffix_cons _ _)
  | case3 _ _ _ _ _ inductionHypothesis => exact inductionHypothesis.trans (List.suffix_cons _ _)
  | case4 _ _ _ _ _ _ inductionHypothesis => exact inductionHypothesis.trans (List.suffix_cons _ _)
  | case5 _ _ _ _ _ _ _ signs behind same inductionHypothesis =>
      rw [same] at inductionHypothesis
      exact inductionHypothesis.trans (List.suffix_cons _ _)
  | case6 => exact List.suffix_refl _

theorem collect_suffix (verbose : Bool) (test : Char → Bool) (text : Text) :
    (collect verbose test text).2 <:+ text := by
  cases verbose with
  | true => exact collectPast_suffix test false text
  | false => exact List.dropWhile_suffix test

theorem suffix_of_collect {verbose : Bool} {test : Char → Bool} {text signs rest : Text}
    (collected : collect verbose test text = (signs, rest)) : rest <:+ text := by
  have left := collect_suffix verbose test text
  rw [collected] at left
  exact left

theorem suffix_of_takeSigns? {verbose : Bool} {count : Nat} {text signs rest : Text}
    (taken : takeSigns? verbose count text = some (signs, rest)) : rest <:+ text := by
  induction count generalizing text signs with
  | zero =>
      cases taken
      exact List.suffix_refl _
  | succ count inductionHypothesis =>
      rw [takeSigns?] at taken
      split at taken
      · cases taken
      · next goesOn =>
          obtain ⟨⟨others, remaining⟩, later, shape⟩ := Option.map_eq_some_iff.mp taken
          cases shape
          exact (inductionHypothesis later).trans (suffix_of_resume goesOn)

/-! ### The first sign behind a gap -/

theorem collectPast_cons {test : Char → Bool} {inComment : Bool} {sign : Char} {text rest : Text}
    (goesOn : pastGap inComment text = sign :: rest) :
    collectPast test inComment text =
      if test sign then
        (sign :: (collectPast test false rest).1, (collectPast test false rest).2)
      else ([], sign :: rest) := by
  fun_induction pastGap inComment text with
  | case1 => cases goesOn
  | case2 other others inductionHypothesis =>
      rw [collectPast, if_pos rfl]
      exact inductionHypothesis goesOn
  | case3 inComment other others outside comment inductionHypothesis =>
      rw [collectPast, if_neg outside, if_pos comment]
      exact inductionHypothesis goesOn
  | case4 inComment other others outside plain blank inductionHypothesis =>
      rw [collectPast, if_neg outside, if_neg plain, if_pos blank]
      exact inductionHypothesis goesOn
  | case5 inComment other others outside plain apart =>
      cases goesOn
      rw [collectPast, if_neg outside, if_neg plain, if_neg apart]

theorem collect_cons {verbose : Bool} (test : Char → Bool) {sign : Char} {text rest : Text}
    (goesOn : resume verbose text = sign :: rest) :
    collect verbose test text =
      if test sign then (sign :: (collect verbose test rest).1, (collect verbose test rest).2)
      else ([], sign :: rest) := by
  cases verbose with
  | true => exact collectPast_cons goesOn
  | false =>
      cases goesOn
      unfold collect
      by_cases passes : test sign = true <;> simp [passes]

theorem length_lt_of_resume {verbose : Bool} {sign : Char} {text rest : Text}
    (goesOn : resume verbose text = sign :: rest) : rest.length < text.length := by
  have left := (resume_suffix verbose text).length_le
  rwa [goesOn, List.length_cons] at left

theorem collectPast_of_pastGap_nil {test : Char → Bool} {inComment : Bool} {text : Text}
    (ends : pastGap inComment text = []) : collectPast test inComment text = ([], []) := by
  fun_induction pastGap inComment text with
  | case1 => rfl
  | case2 other others inductionHypothesis =>
      rw [collectPast, if_pos rfl]
      exact inductionHypothesis ends
  | case3 inComment other others outside comment inductionHypothesis =>
      rw [collectPast, if_neg outside, if_pos comment]
      exact inductionHypothesis ends
  | case4 inComment other others outside plain blank inductionHypothesis =>
      rw [collectPast, if_neg outside, if_neg plain, if_pos blank]
      exact inductionHypothesis ends
  | case5 => cases ends

theorem collect_of_resume_nil {verbose : Bool} {test : Char → Bool} {text : Text}
    (ends : resume verbose text = []) : collect verbose test text = ([], []) := by
  cases verbose with
  | true => exact collectPast_of_pastGap_nil ends
  | false =>
      cases ends
      rfl

/-- The signs pass the test, and the one that ends them fails it. -/
theorem collect_spec {verbose : Bool} {test : Char → Bool} {text signs rest : Text}
    (collected : collect verbose test text = (signs, rest)) :
    (∀ sign ∈ signs, test sign = true) ∧
      ∀ sign behind, rest = sign :: behind → ¬ test sign = true := by
  cases goesOn : resume verbose text with
  | nil =>
      rw [collect_of_resume_nil goesOn] at collected
      cases collected
      exact ⟨List.forall_mem_nil _, nofun⟩
  | cons head tail =>
      rw [collect_cons test goesOn] at collected
      split at collected
      · next passes =>
          cases collected
          have _shorter := length_lt_of_resume goesOn
          obtain ⟨others, stops⟩ := collect_spec (Eq.refl (collect verbose test tail))
          exact ⟨List.forall_mem_cons.mpr ⟨passes, others⟩, stops⟩
      · next fails =>
          cases collected
          refine ⟨List.forall_mem_nil _, ?_⟩
          rintro sign behind same
          cases same
          exact fails
termination_by text.length

end ReadableRegex.Lexeme

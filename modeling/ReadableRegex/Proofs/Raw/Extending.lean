import ReadableRegex.Proofs.Raw.Pieces
import ReadableRegex.Proofs.Trees.ClassReading

/-!
Classes and whole rows of lexemes in front of more text. Within a class much is decided by the signs
that follow; but a class that was read was closed, and nothing is decided beyond its closing.
-/

namespace ReadableRegex

namespace Text

/-- An opening that ends in a bracket cannot go beyond a bracket in the text. -/
theorem after?_append_of_mem {opening text : Text} (inside : ']' ∉ opening) (closed : ']' ∈ text)
    (more : Text) :
    after? (opening ++ [']']) (text ++ more) =
      (after? (opening ++ [']']) text).map (· ++ more) := by
  induction opening generalizing text with
  | nil =>
      cases text with
      | nil => cases closed
      | cons head tail =>
          by_cases same : ']' = head
          · simp [after?, ← same]
          · simp [after?, same]
  | cons sign rest inductionHypothesis =>
      cases text with
      | nil => cases closed
      | cons head tail =>
          by_cases same : sign = head
          · have further : ']' ∈ tail := by
              rcases List.mem_cons.mp closed with here | later
              · exact absurd (List.mem_cons.mpr (Or.inl (here.trans same.symm))) inside
              · exact later
            have later := inductionHypothesis (mt (List.mem_cons_of_mem sign) inside) further
            simp only [List.cons_append, after?, same, if_true]
            exact later
          · simp [after?, same]

end Text

namespace Lexeme

variable {verbose : Bool} {text rest : Text}

/-! ### Openings of classes -/

theorem openMembers_of_collect {negated : Bool} {hyphens : Text}
    (collected : collect verbose (· == '-') text = (hyphens, rest))
    (plain : hyphens = [] → ∀ behind, rest ≠ ']' :: behind) :
    openMembers negated text verbose = (⟨negated, none, hyphens.map single⟩, rest) := by
  unfold openMembers
  rw [collected]
  split
  · next same =>
      cases same
      exact absurd rfl (plain rfl _)
  · next same =>
      cases same
      rfl

theorem openMembers_append {negated : Bool} {frame : ClassFrame}
    (opened : openMembers negated text verbose = (frame, rest)) (present : rest ≠ [])
    (more : Text) : openMembers negated (text ++ more) verbose = (frame, rest ++ more) := by
  unfold openMembers at opened
  split at opened
  · next collected =>
      cases opened
      unfold openMembers
      rw [collect_append collected (List.cons_ne_nil _ _) more]
      rfl
  · next hyphens behind plain collected =>
      cases opened
      apply openMembers_of_collect (collect_append collected present more)
      rintro rfl others same
      cases rest with
      | nil => exact present rfl
      | cons head tail =>
          cases same
          exact plain tail rfl rfl

theorem openClass_of_ne {head : Char} {tail : Text} (goesOn : resume verbose text = head :: tail)
    (plain : head ≠ '^') : openClass text verbose = openMembers false (head :: tail) verbose := by
  unfold openClass
  rw [goesOn]
  split
  · next same =>
      cases same
      exact absurd rfl plain
  · rfl

theorem openClass_append {frame : ClassFrame} (opened : openClass text verbose = (frame, rest))
    (present : rest ≠ []) (more : Text) :
    openClass (text ++ more) verbose = (frame, rest ++ more) := by
  cases goesOn : resume verbose text with
  | nil =>
      unfold openClass at opened
      rw [goesOn] at opened
      cases verbose <;> cases opened <;> exact absurd rfl present
  | cons head tail =>
      by_cases caret : head = '^'
      · subst caret
        unfold openClass at opened ⊢
        rw [goesOn] at opened
        rw [resume_append goesOn more]
        exact openMembers_append opened present more
      · rw [openClass_of_ne goesOn caret] at opened
        rw [openClass_of_ne (resume_append goesOn more) caret]
        exact openMembers_append opened present more

theorem namedPosix?_append (negated : Bool) (closed : ']' ∈ text) (more : Text) :
    namedPosix? negated (text ++ more) =
      (namedPosix? negated text).map (fun found => (found.1, found.2 ++ more)) := by
  have names : ∀ entry ∈ posixClasses, ']' ∉ entry.1 ++ [':'] := by decide
  unfold namedPosix?
  generalize posixClasses = entries at names ⊢
  induction entries with
  | nil => rfl
  | cons entry others inductionHypothesis =>
      have longer : Text.after? (entry.1 ++ [':', ']']) (text ++ more) =
          (Text.after? (entry.1 ++ [':', ']']) text).map (· ++ more) := by
        have grown := Text.after?_append_of_mem (names entry List.mem_cons_self) closed more
        rw [List.append_assoc] at grown
        exact grown
      rw [List.findSome?_cons, List.findSome?_cons, longer,
        inductionHypothesis (fun other member => names other (List.mem_cons_of_mem _ member))]
      cases Text.after? (entry.1 ++ [':', ']']) text <;> rfl

theorem readPosix?_append (closed : ']' ∈ text) (more : Text) :
    readPosix? (text ++ more) =
      (readPosix? text).map (fun found => (found.1, found.2 ++ more)) := by
  cases text with
  | nil => cases closed
  | cons head tail =>
      by_cases colon : head = ':'
      · subst colon
        have further : ']' ∈ tail := by simpa using closed
        cases tail with
        | nil => cases further
        | cons second others =>
            by_cases caret : second = '^'
            · subst caret
              exact namedPosix?_append true (by simpa using further) more
            · have plain (behind : Text) : readPosix? (':' :: second :: behind) =
                  namedPosix? false (second :: behind) := by
                simp [readPosix?, caret]
              rw [List.cons_append, List.cons_append, plain, plain, ← List.cons_append]
              exact namedPosix?_append false further more
      · simp [readPosix?, colon]

/-! ### Members -/

theorem readClassAtom_append {atom : ClassAtom}
    (read : readClassAtom text verbose = .ok (atom, rest)) (more : Text) :
    readClassAtom (text ++ more) verbose = .ok (atom, rest ++ more) := by
  unfold readClassAtom at read
  split at read
  · cases read
  · next behind =>
      split at read
      · next escape remaining escaped =>
          split at read
          · next found isAtom =>
              cases read
              have noAnchor : ∀ assertion, escape ≠ .anchor assertion := by
                rintro assertion rfl
                cases isAtom
              have longer : Lexeme.readEscape (behind ++ more) verbose = _ :=
                readEscape_append escaped (Or.inl noAnchor)
              simp only [List.cons_append, readClassAtom, longer, isAtom]
          · cases read
      · cases read
  · next character behind plain =>
      cases read
      rw [List.cons_append, readClassAtom]
      rintro same
      exact plain same

theorem readRangeEnd_append {first : ClassAtom} {set : CharClass}
    (read : readRangeEnd first text verbose = .ok (set, rest)) (more : Text) :
    readRangeEnd first (text ++ more) verbose = .ok (set, rest ++ more) := by
  unfold readRangeEnd at read
  split at read
  · next low high remaining atom =>
      have longer := readClassAtom_append atom more
      simp only [readRangeEnd, longer]
      split at read
      · next ordered =>
          cases read
          rw [if_pos ordered]
      · cases read
  · cases read
  · cases read

theorem dropWhile_isBlank_ne_nil {inComment : Bool} (present : pastGap inComment text ≠ []) :
    text.dropWhile Unicode.isBlank ≠ [] := by
  fun_induction pastGap inComment text with
  | case1 => exact absurd rfl present
  | case2 sign others inductionHypothesis =>
      rw [List.dropWhile_cons]
      split
      · exact inductionHypothesis present
      · exact List.cons_ne_nil _ _
  | case3 inComment sign others outside comment inductionHypothesis =>
      rw [List.dropWhile_cons]
      split
      · exact inductionHypothesis present
      · exact List.cons_ne_nil _ _
  | case4 inComment sign others outside plain blank inductionHypothesis =>
      rw [List.dropWhile_cons_of_pos blank]
      exact inductionHypothesis present
  | case5 inComment sign others outside plain apart =>
      rw [List.dropWhile_cons_of_neg apart]
      exact List.cons_ne_nil _ _

theorem signBehind?_append {sign : Char} (found : signBehind? text verbose = some sign)
    (more : Text) : signBehind? (text ++ more) verbose = some sign := by
  have head?_append {text : Text} (first : text.head? = some sign) :
      (text ++ more).head? = some sign := by
    rw [List.head?_append, first]
    rfl
  have ne_nil {text : Text} (first : text.head? = some sign) : text ≠ [] := by
    rintro rfl
    cases first
  unfold signBehind? at found ⊢
  cases verbose with
  | false => exact head?_append found
  | true =>
      dsimp only at found ⊢
      split at found
      · next others same =>
          have begins : text.dropWhile Unicode.isBlank ≠ [] := by simp [same]
          rw [Text.dropWhile_append_of_ne begins, same, List.cons_append]
          simp only
          rw [Text.dropWhile_append_of_ne (ne_nil found)]
          exact head?_append found
      · next plain =>
          rw [Text.dropWhile_append_of_ne (ne_nil found)]
          split
          · next others same =>
              cases shape : text.dropWhile Unicode.isBlank with
              | nil => exact absurd shape (ne_nil found)
              | cons head tail =>
                  rw [shape] at same
                  cases same
                  exact absurd shape (plain _)
          · exact head?_append found

theorem pastGap_dropWhile (text : Text) :
    pastGap false (text.dropWhile Unicode.isBlank) = pastGap false text := by
  induction text with
  | nil => rfl
  | cons sign others inductionHypothesis =>
      by_cases blank : Unicode.isBlank sign = true
      · have plain : ¬ (sign == '#') = true := by
          intro same
          rw [eq_of_beq same] at blank
          exact absurd blank (by decide)
        rw [List.dropWhile_cons_of_pos blank, inductionHypothesis, pastGap, if_neg (by simp),
          if_neg plain, if_pos blank]
      · rw [List.dropWhile_cons_of_neg blank]

theorem exists_signBehind? (present : resume verbose text ≠ []) :
    ∃ sign, signBehind? text verbose = some sign := by
  cases verbose with
  | false =>
      cases text with
      | nil => exact absurd rfl present
      | cons head tail => exact ⟨head, rfl⟩
  | true =>
      have gap : pastGap false text ≠ [] := present
      unfold signBehind?
      simp only
      split
      · next others same =>
          rw [← pastGap_dropWhile, same] at gap
          have further : pastGap true others ≠ [] := gap
          exact ⟨_, List.head?_eq_some_head (dropWhile_isBlank_ne_nil further)⟩
      · exact ⟨_, List.head?_eq_some_head (dropWhile_isBlank_ne_nil gap)⟩

theorem readMember_append {set : CharClass} (read : readMember text verbose = .ok (set, rest))
    (present : resume verbose rest ≠ []) (more : Text) :
    readMember (text ++ more) verbose = .ok (set, rest ++ more) := by
  unfold readMember at read
  split at read
  · next atom remaining first =>
      have longer := readClassAtom_append first more
      unfold readMember
      rw [longer]
      dsimp only
      split at read
      · next behind goesOn =>
          rw [resume_append goesOn more]
          simp only
          split at read
          · next single =>
              cases read
              have same : ∀ sign, signBehind? behind verbose = some sign →
                  signBehind? (behind ++ more) verbose = some sign :=
                fun sign found => signBehind?_append found more
              rw [if_pos (single.imp (same _) (same _))]
          · next range =>
              have further : resume verbose behind ≠ [] := by
                intro none
                rw [none] at read
                cases atom <;> cases read
              obtain ⟨sign, found⟩ := exists_signBehind? further
              rw [signBehind?_append found more]
              rw [found] at range
              rw [if_neg range]
              cases resumed : resume verbose behind with
              | nil => exact absurd resumed further
              | cons head tail =>
                  rw [resumed] at read
                  rw [resume_append resumed more]
                  exact readRangeEnd_append read more
      · next plain =>
          cases read
          cases goesOn : resume verbose rest with
          | nil => exact absurd goesOn present
          | cons head tail =>
              rw [resume_append goesOn more]
              split
              · next same =>
                  cases same
                  exact absurd goesOn (plain _)
              · rfl
  · cases read

/-! ### What is left of a class -/

theorem mem_of_readMembers {frame : ClassFrame} {outer : List ClassFrame} {set : CharClass}
    (read : readMembers frame outer text verbose = .ok (set, rest)) : ']' ∈ text := by
  fun_induction readMembers frame outer text verbose with
  | case1 => cases read
  | case2 _ _ _ goesOn => exact (resume_suffix _ _).mem (goesOn ▸ List.mem_cons_self)
  | case3 _ _ _ goesOn => exact (resume_suffix _ _).mem (goesOn ▸ List.mem_cons_self)
  | case4 _ _ _ _ goesOn _ _ posix inductionHypothesis =>
      exact (suffix_of_resume goesOn).mem ((suffix_of_readPosix? posix).mem
        (inductionHypothesis read))
  | case5 _ _ _ _ goesOn _ inductionHypothesis =>
      exact (suffix_of_resume goesOn).mem ((openClass_suffix _ _).mem (inductionHypothesis read))
  | case6 _ _ _ _ _ _ _ goesOn _ _ inductionHypothesis =>
      exact (suffix_of_resume goesOn).mem ((List.drop_suffix _ _).mem (inductionHypothesis read))
  | case7 _ _ _ _ _ _ _ goesOn _ _ _ member inductionHypothesis =>
      exact (suffix_of_resume goesOn).mem ((suffix_of_readMember member).mem
        (inductionHypothesis read))
  | case8 => cases read

theorem resume_ne_nil_of_readMembers {frame : ClassFrame} {outer : List ClassFrame}
    {set : CharClass} (read : readMembers frame outer text verbose = .ok (set, rest)) :
    resume verbose text ≠ [] := by
  intro none
  rw [readMembers.eq_def] at read
  split at read
  · cases read
  all_goals
    next goesOn =>
      rw [none] at goesOn
      cases goesOn

/-! ### Classes -/

theorem operator?_append (second : Char) (behind more : Text) (head : Char) :
    operator? (head :: second :: behind ++ more) = operator? (head :: second :: behind) := by
  unfold operator?
  simp only [List.cons_append]
  split <;> split <;> simp_all

theorem readMembers_closing {tail : Text} (goesOn : resume verbose text = ']' :: tail)
    (frame : ClassFrame) (outer : List ClassFrame) :
    readMembers frame outer text verbose =
      match outer with
      | [] => .ok (frame.close, tail)
      | parent :: outer => readMembers (parent.add frame.close) outer tail verbose := by
  rw [readMembers.eq_def]
  split
  · next same =>
      rw [goesOn] at same
      cases same
  · next same =>
      rw [goesOn] at same
      cases same
      cases outer <;> rfl
  · next same =>
      rw [goesOn] at same
      cases same
  · next inside _ same =>
      rw [goesOn] at same
      cases same
      exact absurd rfl inside

theorem readMembers_bracket {tail : Text} (goesOn : resume verbose text = '[' :: tail)
    (frame : ClassFrame) (outer : List ClassFrame) :
    readMembers frame outer text verbose =
      match readPosix? tail with
      | some (set, remaining) => readMembers (frame.add set) outer remaining verbose
      | none =>
          readMembers (openClass tail verbose).1 (frame :: outer) (openClass tail verbose).2
            verbose := by
  rw [readMembers.eq_def]
  split
  · next same =>
      rw [goesOn] at same
      cases same
  · next same =>
      rw [goesOn] at same
      cases same
  · next same =>
      rw [goesOn] at same
      cases same
      split <;> simp_all
  · next _ single same =>
      rw [goesOn] at same
      cases same
      exact absurd rfl single

theorem readMembers_append {frame : ClassFrame} {outer : List ClassFrame} {set : CharClass}
    (read : readMembers frame outer text verbose = .ok (set, rest)) (more : Text) :
    readMembers frame outer (text ++ more) verbose = .ok (set, rest ++ more) := by
  fun_induction readMembers frame outer text verbose with
  | case1 => cases read
  | case2 frame text behind goesOn =>
      cases read
      rw [readMembers_closing (resume_append goesOn more)]
  | case3 frame text behind goesOn parent outer inductionHypothesis =>
      rw [readMembers_closing (resume_append goesOn more)]
      exact inductionHypothesis read
  | case4 frame outer text behind goesOn member remaining posix inductionHypothesis =>
      have closed := (suffix_of_readPosix? posix).mem (mem_of_readMembers read)
      rw [readMembers_bracket (resume_append goesOn more), readPosix?_append closed, posix]
      exact inductionHypothesis read
  | case5 frame outer text behind goesOn posix inductionHypothesis =>
      have closed := mem_of_readMembers read
      rw [readMembers_bracket (resume_append goesOn more),
        readPosix?_append ((openClass_suffix behind verbose).mem closed), posix,
        openClass_append rfl (List.ne_nil_of_mem closed)]
      exact inductionHypothesis read
  | case6 frame outer text head behind inside single goesOn operator found inductionHypothesis =>
      cases behind with
      | nil => simp [operator?] at found
      | cons second others =>
          rw [readMembers_plain (resume_append goesOn more) inside single, ← List.cons_append,
            operator?_append, found]
          exact inductionHypothesis read
  | case7 frame outer text head behind inside single goesOn none member remaining first
      inductionHypothesis =>
      have present := resume_ne_nil_of_readMembers read
      have longer := readMember_append first present more
      -- The class is closed further on, so there is a second sign to rule an operator out.
      cases behind with
      | nil =>
          have closed := (suffix_of_readMember first).mem (mem_of_readMembers read)
          cases closed
      | cons second others =>
          rw [readMembers_plain (resume_append goesOn more) inside single, ← List.cons_append,
            operator?_append, none, longer]
          exact inductionHypothesis read
  | case8 => cases read

theorem readClass_append {set : CharClass} (read : readClass text verbose = .ok (set, rest))
    (more : Text) : readClass (text ++ more) verbose = .ok (set, rest ++ more) := by
  unfold readClass at read ⊢
  rw [openClass_append rfl (List.ne_nil_of_mem (mem_of_readMembers read))]
  exact readMembers_append read more

/-! ### Lexemes -/

/-- Whether the lexeme may leave verbose mode on or off other than it was. -/
def switches : Lexeme → Bool
  | .opening (.plain _) => true
  | .part (.modes _) => true
  | .closing => true
  | _ => false

theorem here_after {lexeme : Lexeme} (steady : lexeme.switches = false) (state : Verbosity) :
    (state.after lexeme).here = state.here := by
  cases lexeme with
  | opening opening =>
      cases opening with
      | plain change => cases steady
      | capture name => rfl
  | part part =>
      cases part with
      | modes change => cases steady
      | _ => rfl
  | closing => cases steady
  | bar => rfl
  | quantifier counts => rfl

theorem Parted.quiet {more : Text} (parted : Parted Separate verbose rest more) :
    Parted Separate false rest more where
  follows := by
    rcases parted.follows with present | ⟨-, separate⟩
    · refine Or.inl ?_
      rintro rfl
      cases verbose <;> exact present rfl
    · exact Or.inr ⟨rfl, separate⟩
  brace := by
    rintro behind same rfl
    have present := parted.brace [] same
    cases verbose <;> exact present rfl

theorem read_append {more : Text} {head : Char} {lexeme : Lexeme}
    (reading : read head text verbose = .ok (lexeme, rest))
    (parted : lexeme.switches = false → Parted Separate verbose rest more) :
    read head (text ++ more) verbose = .ok (lexeme, rest ++ more) := by
  unfold read at reading
  split at reading
  · refine readGroup_append reading ?_
    rintro rfl
    exact parted rfl
  · cases reading
    rfl
  · cases reading
    rfl
  · split at reading
    · next set remaining found =>
        cases reading
        simp only [read, readClass_append found]
    · cases reading
  · cases reading
    exact readSign_append rfl (parted rfl).quiet
  · cases reading
    exact readSign_append rfl (parted rfl).quiet
  · cases reading
    exact readSign_append rfl (parted rfl).quiet
  · split at reading
    · next counts remaining found =>
        cases reading
        simp only [read, readCounts_append found (parted rfl)]
    · cases reading
  · split at reading
    · next escape remaining found =>
        cases reading
        have steady : (Lexeme.part escape.part).switches = false := by cases escape <;> rfl
        simp only [read, readEscape_append found (Or.inr ((parted steady).imp (·.boundary)))]
    · cases reading
  · cases reading
    rfl
  · cases reading
    rfl
  · cases reading
    rfl
  · cases reading
    rw [read]
    all_goals assumption

/-! ### Rows of lexemes -/

theorem readFrom_brace {state : Verbosity} (ends : resume state.here text = []) :
    readFrom state ('\x7b' :: text) = .error .badCount := by
  have begins : resume state.here ('\x7b' :: text) = '\x7b' :: text := by
    cases state.here <;> rfl
  apply readFrom_of_read_error begins
  simp only [read, readCounts, readCount, ends]
  cases state.here <;> rfl

/-- A text that is read on its own is read in the same way in front of another one, unless verbose
mode is left on. -/
theorem readFrom_append {state : Verbosity} {lexemes : List Lexeme}
    (reading : readFrom state text = .ok lexemes)
    (quiet : (state.afterAll lexemes).here = false) {more : Text} (separate : Separate more) :
    readFrom state (text ++ more) =
      (readFrom (state.afterAll lexemes) more).map (lexemes ++ ·) := by
  fun_induction readFrom state text generalizing lexemes with
  | case1 state text ends =>
      cases reading
      have off : state.here = false := quiet
      rw [off, resume_false] at ends
      rw [ends, List.nil_append, map_nil_append]
      rfl
  | case2 state text head tail goesOn lexeme remaining first others later inductionHypothesis =>
      cases reading
      have parted : lexeme.switches = false → Parted Separate state.here remaining more := by
        intro steady
        have same := here_after steady state
        constructor
        · cases off : state.here with
          | false => exact Or.inr ⟨rfl, separate⟩
          | true =>
              refine Or.inl ?_
              intro ends
              rw [off] at same
              rw [readFrom_of_resume_nil (by rwa [same])] at later
              cases later
              exact absurd (quiet.symm.trans same) Bool.false_ne_true
        · rintro behind rfl ends
          rw [readFrom_brace (by rwa [same])] at later
          cases later
      rw [readFrom_of_read (resume_append goesOn more) (read_append first parted),
        inductionHypothesis later quiet]
      exact map_append_append [lexeme] others _
  | case3 => cases reading
  | case4 => cases reading

end Lexeme
end ReadableRegex

import ReadableRegex.Proofs.Trees.Writing

/-!
Escapes, bounds and group openings in front of more text. What is read at the start of a text is
read in the same way when more text is appended, and only left over with that text behind it. Where
a piece may go on, what follows must not begin with the sign that it would go on with; in verbose
mode the text itself must have another sign behind the gap, since a comment would go on as well.
-/

namespace ReadableRegex

namespace Text

variable {test : Char → Bool} {text : Text}

theorem dropWhile_append_of_ne (stops : text.dropWhile test ≠ []) (more : Text) :
    (text ++ more).dropWhile test = text.dropWhile test ++ more := by
  rw [List.dropWhile_append, List.isEmpty_eq_false_iff.mpr stops]
  rfl

theorem takeWhile_append_of_ne (stops : text.dropWhile test ≠ []) (more : Text) :
    (text ++ more).takeWhile test = text.takeWhile test := by
  have whole := congrArg List.length (List.takeWhile_append_dropWhile (p := test) (l := text))
  have some := List.length_pos_iff.mpr stops
  rw [List.length_append] at whole
  rw [List.takeWhile_append, if_neg (by omega)]

end Text

namespace Lexeme

variable {verbose : Bool} {text rest more : Text}

/-! ### Gaps -/

theorem pastGap_append (inComment : Bool) (present : pastGap inComment text ≠ []) (more : Text) :
    pastGap inComment (text ++ more) = pastGap inComment text ++ more := by
  fun_induction pastGap inComment text with
  | case1 => exact absurd rfl present
  | case2 sign rest inductionHypothesis =>
      rw [List.cons_append, pastGap, if_pos rfl]
      exact inductionHypothesis present
  | case3 inComment sign rest outside comment inductionHypothesis =>
      rw [List.cons_append, pastGap, if_neg outside, if_pos comment]
      exact inductionHypothesis present
  | case4 inComment sign rest outside plain blank inductionHypothesis =>
      rw [List.cons_append, pastGap, if_neg outside, if_neg plain, if_pos blank]
      exact inductionHypothesis present
  | case5 inComment sign rest outside plain apart =>
      rw [List.cons_append, pastGap, if_neg outside, if_neg plain, if_neg apart]

theorem resume_append {sign : Char} (goesOn : resume verbose text = sign :: rest) (more : Text) :
    resume verbose (text ++ more) = sign :: (rest ++ more) := by
  cases verbose with
  | true =>
      have gap : pastGap false text = sign :: rest := goesOn
      have present : pastGap false text ≠ [] := by simp [gap]
      exact (pastGap_append false present more).trans (congrArg (· ++ more) gap)
  | false => exact congrArg (· ++ more) goesOn

theorem collectPast_append (test : Char → Bool) (inComment : Bool)
    (present : (collectPast test inComment text).2 ≠ []) (more : Text) :
    collectPast test inComment (text ++ more) =
      ((collectPast test inComment text).1, (collectPast test inComment text).2 ++ more) := by
  fun_induction collectPast test inComment text with
  | case1 => exact absurd rfl present
  | case2 sign rest inductionHypothesis =>
      rw [List.cons_append, collectPast, if_pos rfl]
      exact inductionHypothesis present
  | case3 inComment sign rest outside comment inductionHypothesis =>
      rw [List.cons_append, collectPast, if_neg outside, if_pos comment]
      exact inductionHypothesis present
  | case4 inComment sign rest outside plain blank inductionHypothesis =>
      rw [List.cons_append, collectPast, if_neg outside, if_neg plain, if_pos blank]
      exact inductionHypothesis present
  | case5 inComment sign rest outside plain apart holds signs behind same inductionHypothesis =>
      rw [same] at inductionHypothesis
      rw [List.cons_append, collectPast, if_neg outside, if_neg plain, if_neg apart, if_pos holds,
        inductionHypothesis present]
  | case6 inComment sign rest outside plain apart fails =>
      rw [List.cons_append, collectPast, if_neg outside, if_neg plain, if_neg apart, if_neg fails]

theorem collect_append {test : Char → Bool} {signs : Text}
    (collected : collect verbose test text = (signs, rest)) (present : rest ≠ []) (more : Text) :
    collect verbose test (text ++ more) = (signs, rest ++ more) := by
  cases verbose with
  | true =>
      have past : collectPast test false text = (signs, rest) := collected
      have further : (collectPast test false text).2 ≠ [] := by rwa [past]
      have longer := collectPast_append test false further more
      rw [past] at longer
      exact longer
  | false =>
      cases collected
      exact Prod.ext (Text.takeWhile_append_of_ne present more)
        (Text.dropWhile_append_of_ne present more)

theorem takeSigns?_append {count : Nat} {signs : Text}
    (taken : takeSigns? verbose count text = some (signs, rest)) (more : Text) :
    takeSigns? verbose count (text ++ more) = some (signs, rest ++ more) := by
  induction count generalizing text signs with
  | zero =>
      cases taken
      rfl
  | succ count inductionHypothesis =>
      rw [takeSigns?] at taken ⊢
      split at taken
      · cases taken
      · next sign others goesOn =>
          obtain ⟨⟨later, remaining⟩, found, same⟩ := Option.map_eq_some_iff.mp taken
          cases same
          rw [resume_append goesOn more]
          dsimp only
          rw [inductionHypothesis found]
          rfl

/-! ### Where a piece ends -/

def NamesNoEdge (text : Text) : Prop :=
  readWordEdge text = .ok (.boundary, text)

/-- No earlier piece could go on with the text. -/
structure Separate (text : Text) : Prop where
  detached : text.Detached
  boundary : NamesNoEdge text

theorem readWordEdge_cons {head : Char} (plain : head ≠ '\x7b') (tail : Text) :
    readWordEdge (head :: tail) verbose = .ok (.boundary, head :: tail) := by
  rw [readWordEdge]
  rintro behind same
  cases same
  exact plain rfl

theorem Separate.of_head {head : Char} (mark : head ≠ '?') (brace : head ≠ '\x7b') (tail : Text) :
    Separate (head :: tail) where
  detached := by
    intro marked
    cases marked
    exact mark rfl
  boundary := readWordEdge_cons brace tail

/-- What is left behind a piece keeps it away from more text, or the text is as it should be. A brace
that is left could begin the name of a word edge, so it must not be the last sign. -/
structure Parted (apart : Text → Prop) (verbose : Bool) (rest more : Text) : Prop where
  follows : resume verbose rest ≠ [] ∨ (verbose = false ∧ apart more)
  brace : ∀ behind, rest = '\x7b' :: behind → resume verbose behind ≠ []

theorem Parted.cases {apart : Text → Prop} (parted : Parted apart verbose rest more) :
    (∃ sign others, resume verbose rest = sign :: others) ∨
      (verbose = false ∧ rest = [] ∧ apart more) := by
  cases goesOn : resume verbose rest with
  | cons sign others => exact Or.inl ⟨sign, others, rfl⟩
  | nil =>
      rcases parted.follows with present | ⟨quiet, separate⟩
      · exact absurd goesOn present
      · subst quiet
        exact Or.inr ⟨rfl, goesOn, separate⟩

theorem Parted.imp {apart other : Text → Prop} (parted : Parted apart verbose rest more)
    (implies : apart more → other more) : Parted other verbose rest more where
  follows := parted.follows.imp_right (And.imp_right implies)
  brace := parted.brace

/-! ### Escapes -/

theorem readFixedHex_append {count : Nat} {character : Char}
    (read : readFixedHex count text verbose = .ok (character, rest)) (more : Text) :
    readFixedHex count (text ++ more) verbose = .ok (character, rest ++ more) := by
  unfold readFixedHex at read ⊢
  split at read
  · cases read
  · next taken =>
      rw [takeSigns?_append taken more]
      dsimp only
      split at read
      · cases read
        rfl
      · cases read

theorem readBracedHex_append {character : Char}
    (read : readBracedHex text verbose = .ok (character, rest)) (more : Text) :
    readBracedHex (text ++ more) verbose = .ok (character, rest ++ more) := by
  unfold readBracedHex at read ⊢
  split at read
  · cases read
  · next collected =>
      rw [collect_append collected (List.cons_ne_nil _ _) more]
      dsimp only [List.cons_append]
      split at read
      · cases read
        rfl
      · cases read

theorem readFixedHex_nil {count : Nat} (positive : 0 < count) :
    readFixedHex count [] verbose = .error .openEscape := by
  cases count with
  | zero => cases positive
  | succ count => cases verbose <;> rfl

theorem readHex_append {count : Nat} {escape : Escape} (positive : 0 < count)
    (read : readHex count text verbose = .ok (escape, rest)) (more : Text) :
    readHex count (text ++ more) verbose = .ok (escape, rest ++ more) := by
  cases goesOn : resume verbose text with
  | nil =>
      unfold readHex at read
      rw [goesOn] at read
      dsimp only at read
      rw [readFixedHex_nil positive] at read
      cases read
  | cons sign others =>
      unfold readHex at read ⊢
      rw [goesOn] at read
      rw [resume_append goesOn more]
      by_cases braced : sign = '\x7b'
      · subst braced
        simp only at read ⊢
        split at read
        · next hex =>
            cases read
            rw [readBracedHex_append hex more]
        · cases read
      · split at read
        · next same =>
            cases same
            exact absurd rfl braced
        · split at read
          · next fixed =>
              have longer := readFixedHex_append fixed more
              rw [List.cons_append] at longer
              split
              · next same =>
                  cases same
                  exact absurd rfl braced
              · rw [longer]
                dsimp only
                split at read
                · next big =>
                    cases read
                    rw [if_pos big]
                · next small =>
                    cases read
                    rw [if_neg small]
          · cases read

/-- Behind a word boundary a brace may begin the name of an edge. -/
theorem readWordEdge_append {edge : WordEdge} (read : readWordEdge text verbose = .ok (edge, rest))
    (parted : Parted NamesNoEdge verbose rest more) :
    readWordEdge (text ++ more) verbose = .ok (edge, rest ++ more) := by
  cases text with
  | nil =>
      cases read
      rcases parted.cases with ⟨sign, others, goesOn⟩ | ⟨rfl, -, separate⟩
      · have none : resume verbose [] = [] := by cases verbose <;> rfl
        rw [none] at goesOn
        cases goesOn
      · exact separate
  | cons head tail =>
      by_cases braced : head = '\x7b'
      · subst braced
        rw [readWordEdge] at read
        rw [List.cons_append, readWordEdge]
        split at read
        · next collected =>
            cases read
            cases goesOn : resume verbose tail with
            | nil => exact absurd goesOn (parted.brace tail rfl)
            | cons sign others =>
                rw [collect_cons _ goesOn] at collected
                have other : isEdgeChar sign ≠ true := by
                  intro isEdge
                  rw [if_pos isEdge] at collected
                  cases collected
                rw [collect_cons _ (resume_append goesOn more), if_neg other]
                rfl
        · next collected =>
            rw [collect_append collected (List.cons_ne_nil _ _) more]
            split
            · next same =>
                cases same
                simp_all
            · next same =>
                cases same
                split at read
                · cases read
                  rfl
                · cases read
            · simp_all
        · cases read
      · rw [readWordEdge_cons braced] at read
        cases read
        exact readWordEdge_cons braced (tail ++ more)

theorem propertyNamed_append {negated : Bool} {name behind : Text} {escape : Escape}
    (read : propertyNamed name negated behind = .ok (escape, rest)) (more : Text) :
    propertyNamed name negated (behind ++ more) = .ok (escape, rest ++ more) := by
  unfold propertyNamed at read ⊢
  split at read
  · next allowed =>
      cases read
      rw [if_pos allowed]
  · cases read

theorem readProperty_append {negated : Bool} {escape : Escape}
    (read : readProperty negated text verbose = .ok (escape, rest)) (more : Text) :
    readProperty negated (text ++ more) verbose = .ok (escape, rest ++ more) := by
  unfold readProperty at read ⊢
  split at read
  · cases read
  · next goesOn =>
      rw [resume_append goesOn more]
      simp only
      split at read
      · cases read
      · next collected =>
          rw [collect_append collected (List.cons_ne_nil _ _) more]
          exact propertyNamed_append read more
  · next plain goesOn =>
      rw [resume_append goesOn more]
      split
      · next same => cases same
      · next same =>
          cases same
          exact absurd rfl plain
      · next same =>
          cases same
          exact propertyNamed_append read more

theorem readEscape_append {escape : Escape} (read : readEscape text verbose = .ok (escape, rest))
    (apart : (∀ assertion, escape ≠ .anchor assertion) ∨ Parted NamesNoEdge verbose rest more) :
    readEscape (text ++ more) verbose = .ok (escape, rest ++ more) := by
  unfold readEscape at read
  split at read
  · cases read
  · exact readHex_append (by decide) read more
  · exact readHex_append (by decide) read more
  · exact readHex_append (by decide) read more
  · split at read
    · next edge remaining word =>
        cases read
        rcases apart with noAnchor | parted
        · exact absurd rfl (noAnchor _)
        · have longer := readWordEdge_append word parted
          simp only [List.cons_append, readEscape, longer]
    · cases read
  · exact readProperty_append read more
  · exact readProperty_append read more
  · next character tail _ _ _ _ _ _ =>
      split at read
      · next plain =>
          cases read
          rw [List.cons_append, readEscape, if_pos plain] <;> assumption
      · next special =>
          split at read
          · cases read
          · next letter =>
              split at read
              · next found named =>
                  cases read
                  rw [List.cons_append, readEscape, if_neg special, if_neg letter, named] <;>
                    assumption
              · cases read

/-! ### Bounds -/

theorem readCount_nil : readCount [] verbose = .error .badCount := by
  cases verbose <;> rfl

theorem readCount_append {count : Nat} {sign : Char}
    (read : readCount text verbose = .ok (count, sign :: rest)) (more : Text) :
    readCount (text ++ more) verbose = .ok (count, sign :: rest ++ more) := by
  cases goesOn : resume verbose text with
  | nil =>
      unfold readCount at read
      rw [goesOn] at read
      cases verbose <;> cases read
  | cons head tail =>
      unfold readCount at read ⊢
      rw [goesOn] at read
      rw [resume_append goesOn more, ← List.cons_append]
      generalize head :: tail = start at read ⊢
      cases collected : collect verbose Char.isDigit (start.dropWhile Unicode.isBlank) with
      | mk digits behind =>
          rw [collected] at read
          dsimp only at read
          split at read
          · cases read
          · next value numeral =>
              split at read
              · next small =>
                  injection read with same
                  injection same with counted remaining
                  have stops : behind.dropWhile Unicode.isBlank ≠ [] := by
                    rw [remaining]
                    exact List.cons_ne_nil _ _
                  have further : behind ≠ [] := by
                    rintro rfl
                    exact stops rfl
                  have begins : start.dropWhile Unicode.isBlank ≠ [] := by
                    intro none
                    rw [none] at collected
                    cases verbose <;> cases collected <;> exact further rfl
                  rw [Text.dropWhile_append_of_ne begins, collect_append collected further more]
                  dsimp only
                  rw [numeral, Text.dropWhile_append_of_ne stops, remaining, counted]
                  exact if_pos (counted ▸ small)
              · cases read

section

variable {counts : Counts}

theorem readGreed_append {greedy : Bool} (read : readGreed text verbose = (greedy, rest))
    (parted : Parted Separate verbose rest more) :
    readGreed (text ++ more) verbose = (greedy, rest ++ more) := by
  unfold readGreed at read ⊢
  split at read
  · next goesOn =>
      cases read
      rw [resume_append goesOn more]
      rfl
  · next plain =>
      cases read
      rcases parted.cases with ⟨sign, others, goesOn⟩ | ⟨rfl, rfl, separate⟩
      · rw [resume_append goesOn more]
        split
        · next same =>
            cases same
            exact absurd goesOn (plain _)
        · rfl
      · rw [List.nil_append, resume_false]
        split
        · exact absurd rfl separate.detached
        · rfl

theorem finishCounts_append {lower : Nat} {upper : Option Nat}
    (finished : finishCounts lower upper text verbose = (counts, rest))
    (parted : Parted Separate verbose rest more) :
    finishCounts lower upper (text ++ more) verbose = (counts, rest ++ more) := by
  cases greed : readGreed text verbose with
  | mk greedy behind =>
      unfold finishCounts at finished ⊢
      rw [greed] at finished
      cases finished
      rw [readGreed_append greed parted]

theorem readUpper_append {lower : Nat} (read : readUpper lower text verbose = .ok (counts, rest))
    (parted : Parted Separate verbose rest more) :
    readUpper lower (text ++ more) verbose = .ok (counts, rest ++ more) := by
  unfold readUpper at read
  split at read
  · next upper remaining counted =>
      have longer := readCount_append counted more
      simp only [readUpper, longer, List.cons_append]
      split at read
      · next ordered =>
          injection read with finished
          rw [if_pos ordered, finishCounts_append finished parted]
      · cases read
  · cases read
  · cases read

theorem readCounts_append (read : readCounts text verbose = .ok (counts, rest))
    (parted : Parted Separate verbose rest more) :
    readCounts (text ++ more) verbose = .ok (counts, rest ++ more) := by
  unfold readCounts at read
  split at read
  · next count remaining counted =>
      have longer := readCount_append counted more
      injection read with finished
      simp only [readCounts, longer, List.cons_append, finishCounts_append finished parted]
  · next lower remaining counted =>
      have longer := readCount_append counted more
      unfold readCounts
      rw [longer]
      simp only [List.cons_append]
      split at read
      · next goesOn =>
          injection read with finished
          rw [resume_append goesOn more]
          simp only [finishCounts_append finished parted]
      · next open? =>
          cases goesOn : resume verbose remaining with
          | nil =>
              rw [goesOn, readUpper, readCount_nil] at read
              cases read
          | cons head tail =>
              rw [goesOn] at read
              rw [resume_append goesOn more]
              split
              · next same =>
                  cases same
                  exact absurd goesOn (open? _)
              · exact readUpper_append read parted
  · cases read
  · cases read

theorem readSign_append {lower : Nat} {upper : Option Nat} {lexeme : Lexeme}
    (read : readSign lower upper text = .ok (lexeme, rest)) (parted : Parted Separate false rest more) :
    readSign lower upper (text ++ more) = .ok (lexeme, rest ++ more) := by
  cases read
  unfold readSign
  rw [finishCounts_append rfl parted]

end

/-! ### Group openings -/

theorem readModes_append {reading : ModeReading} {change : ModeChange} {opens : Bool}
    (read : readModes reading text = .ok (change, opens, rest)) (more : Text) :
    readModes reading (text ++ more) = .ok (change, opens, rest ++ more) := by
  fun_induction readModes reading text with
  | case1 => cases read
  | case2 => cases read
  | case3 reading behind complete =>
      cases read
      simp [readModes, complete]
  | case4 => cases read
  | case5 reading behind complete =>
      cases read
      simp [readModes, complete]
  | case6 => cases read
  | case7 reading behind positive inductionHypothesis =>
      have later := inductionHypothesis read
      simp only [List.cons_append, readModes, positive, Bool.false_eq_true, if_false]
      exact later
  | case8 => cases read
  | case9 => cases read
  | case10 reading letter behind colon parenthesis hyphen mode known fresh inductionHypothesis =>
      have later := inductionHypothesis read
      rw [List.cons_append, readModes]
      · simp only [known]
        rw [if_neg fresh]
        exact later
      all_goals assumption

theorem readModeGroup_append {lexeme : Lexeme} (read : readModeGroup text = .ok (lexeme, rest))
    (more : Text) : readModeGroup (text ++ more) = .ok (lexeme, rest ++ more) := by
  unfold readModeGroup at read ⊢
  split at read
  · next modes =>
      cases read
      rw [readModes_append modes more]
  · cases read
  · next change remaining some modes =>
      cases read
      rw [readModes_append modes more]
      split
      · next same => cases same
      · next same =>
          cases same
          exact (some rfl).elim
      · next same =>
          cases same
          rfl
      · next same => cases same
  · cases read

theorem readGroupName_append {lexeme : Lexeme} (read : readGroupName text = .ok (lexeme, rest))
    (more : Text) : readGroupName (text ++ more) = .ok (lexeme, rest ++ more) := by
  unfold readGroupName at read ⊢
  split at read
  · cases read
  · next closing behind stops =>
      have present : text.dropWhile (· != '>') ≠ [] := by
        rw [stops]
        exact List.cons_ne_nil _ _
      rw [Text.dropWhile_append_of_ne present, Text.takeWhile_append_of_ne present, stops]
      dsimp only [List.cons_append] at read ⊢
      split at read
      · next named =>
          cases read
          rw [if_pos named]
      · cases read

/-- Right behind a parenthesis a question mark would begin the kind of the group. -/
theorem readOpening_append {lexeme : Lexeme} (read : readOpening text = .ok (lexeme, rest))
    (apart : text = [] → more.Detached) :
    readOpening (text ++ more) = .ok (lexeme, rest ++ more) := by
  unfold readOpening at read
  split at read
  · cases read
  · cases read
  · cases read
  · cases read
  · exact readGroupName_append read more
  · next name notAhead notBehind =>
      cases name with
      | nil => cases read
      | cons head tail =>
          rw [List.cons_append, List.cons_append, readOpening]
          · exact readGroupName_append read more
          · rintro behind same
            cases same
            exact notAhead _ rfl
          · rintro behind same
            cases same
            exact notBehind _ rfl
  · next change notAhead notAfter _ _ _ notNamed =>
      cases change with
      | nil => cases read
      | cons head tail =>
          have noMode : head ≠ 'P' := by
            rintro rfl
            cases read
          rw [List.cons_append, List.cons_append, readOpening]
          · exact readModeGroup_append read more
          all_goals
            rintro behind same
            obtain ⟨rfl, _⟩ := List.cons.inj same
            first
              | exact notAhead _ rfl
              | exact notAfter _ rfl
              | exact notNamed _ rfl
              | exact noMode rfl
  · next unmarked =>
      cases read
      have detached : (text ++ more).Detached := by
        cases text with
        | nil => exact apart rfl
        | cons head tail =>
            intro marked
            cases marked
            exact unmarked _ rfl
      exact readGroup_of_detached detached

theorem readGroup_append {lexeme : Lexeme} (read : readGroup text verbose = .ok (lexeme, rest))
    (parted : lexeme = .opening (.capture none) → Parted Separate verbose rest more) :
    readGroup (text ++ more) verbose = .ok (lexeme, rest ++ more) := by
  unfold readGroup at read ⊢
  cases goesOn : resume verbose text with
  | nil =>
      rw [goesOn] at read
      cases read
      rcases (parted rfl).cases with ⟨sign, others, later⟩ | ⟨rfl, -, separate⟩
      · cases verbose <;> cases later
      · rw [resume_false] at goesOn
        rw [resume_false, goesOn]
        exact readGroup_of_detached separate.detached
  | cons head tail =>
      rw [goesOn] at read
      rw [resume_append goesOn more]
      exact readOpening_append read nofun

end Lexeme
end ReadableRegex

import ReadableRegex.Proofs.Raw.Alone
import ReadableRegex.Proofs.Raw.Units
import ReadableRegex.Proofs.Offsets.Layout

/-!
Raw fragments and the quantifiers behind them. Whether a fragment is grouped is decided by counting
its units; a single unit that can stand alone is a part of its own, and anything else becomes one
inside a group. So the quantifier repeats the fragment, neither less nor more, as long as the text
before the fragment is complete itself and has not left verbose mode on.
-/

namespace ReadableRegex

/-! ### Drafts around a token -/

namespace Draft

variable {draft : Draft}

/-- The text before whatever is appended next. -/
def ahead (draft : Draft) : Text :=
  draft.opening ++ (draft.finished.flatMap (fun alternative => alternative ++ ['|']) ++ draft.branch)

/-- The text behind whatever is appended next. -/
def behind (draft : Draft) : Text :=
  (if draft.closesCaptures then draft.closers else []) ++ draft.closing

theorem render_eq (draft : Draft) : draft.render = draft.ahead ++ draft.behind := by
  simp only [render, body, ahead, behind, List.append_assoc]

theorem ahead_append (draft : Draft) (token : Token) :
    (draft.edit (.append token)).ahead = draft.ahead ++ token.text := by
  have opening : (draft.edit (.append token)).opening = draft.opening ∧
      (draft.edit (.append token)).finished = draft.finished := by
    by_cases empty : token.text = []
    · rw [edit_append_of_empty empty]
      exact ⟨rfl, rfl⟩
    · rw [edit_append_of_ne empty]
      exact ⟨rfl, rfl⟩
  rw [ahead, branch_append, opening.1, opening.2]
  simp only [ahead, List.append_assoc]

theorem behind_append (draft : Draft) (token : Token) :
    (draft.edit (.append token)).behind = draft.behind := by
  by_cases empty : token.text = []
  · rw [edit_append_of_empty empty]
    rfl
  · rw [edit_append_of_ne empty]
    rfl

theorem render_append (draft : Draft) (token : Token) :
    (draft.edit (.append token)).render = draft.ahead ++ (token.text ++ draft.behind) := by
  rw [render_eq, ahead_append, behind_append, List.append_assoc]

/-- What a token becomes when it is repeated is what would have been appended at once. -/
theorem quantify_append {token : Token} (present : token.text ≠ []) (quantifier : Quantifier) :
    (draft.edit (.append token)).edit (.quantify quantifier) =
      draft.edit (.append (token.quantify quantifier)) := by
  have longer : (token.quantify quantifier).text ≠ [] :=
    List.append_ne_nil_of_right_ne_nil _ quantifier.text_ne_nil
  rw [edit_append_of_ne present, edit_append_of_ne longer]
  exact edit_quantify_of_some rfl quantifier

end Draft

/-! ### Texts around and inside -/

open Lexeme (Alone Separate NamesNoEdge Verbosity readAll readFrom read)
open Pattern (Assembly Context)

theorem exists_readFrom_completing {text : Text} (signs : ∀ sign ∈ text, sign = ')' ∨ sign = '$') :
    ∃ lexemes, (∀ state, readFrom state text = .ok lexemes) ∧
      ∀ lexeme ∈ lexemes, lexeme.completes = true := by
  induction text with
  | nil => exact ⟨[], Lexeme.readFrom_nil, nofun⟩
  | cons sign rest inductionHypothesis =>
      obtain ⟨lexemes, reading, completes⟩ :=
        inductionHypothesis (fun other member => signs other (List.mem_cons_of_mem _ member))
      have first : ∃ lexeme : Lexeme, lexeme.completes = true ∧ ∀ verbose,
          Lexeme.resume verbose (sign :: rest) = sign :: rest ∧
            read sign rest verbose = .ok (lexeme, rest) := by
        rcases signs sign List.mem_cons_self with same | same
        · subst same
          exact ⟨.closing, rfl, fun verbose => by cases verbose <;> exact ⟨rfl, rfl⟩⟩
        · subst same
          exact ⟨.part (.anchor .dollar), rfl,
            fun verbose => by cases verbose <;> exact ⟨rfl, rfl⟩⟩
      obtain ⟨lexeme, complete, begins⟩ := first
      refine ⟨lexeme :: lexemes, ?_, List.forall_mem_cons.mpr ⟨complete, completes⟩⟩
      intro state
      rw [Lexeme.readFrom_of_read (begins state.here).1 (begins state.here).2, reading]
      rfl

theorem separate_of_completing {text : Text} (signs : ∀ sign ∈ text, sign = ')' ∨ sign = '$') :
    Separate text := by
  cases text with
  | nil => exact ⟨Text.detached_nil, rfl⟩
  | cons sign rest =>
      rcases signs sign List.mem_cons_self with rfl | rfl
      · exact .of_head (by decide) (by decide) rest
      · exact .of_head (by decide) (by decide) rest

theorem Draft.signs_behind (draft : Draft) : ∀ sign ∈ draft.behind, sign = ')' ∨ sign = '$' := by
  intro sign member
  unfold behind closing closers at member
  rcases List.mem_append.mp member with closers | closing
  · split at closers
    · exact Or.inl (List.eq_of_mem_replicate closers)
    · cases closers
  · rcases List.mem_append.mp closing with group | anchor
    · split at group
      · exact Or.inl (List.mem_singleton.mp group)
      · cases group
    · split at anchor
      · exact Or.inr (List.mem_singleton.mp anchor)
      · cases anchor

/-- A pattern does not begin with a quantifier, so nothing before it takes its first sign. -/
theorem separate_of_parses {text : Text} {pattern : Pattern} (present : text ≠ [])
    (parsed : Pattern.ofText text = .ok pattern) (more : Text) : Separate (text ++ more) := by
  cases text with
  | nil => exact absurd rfl present
  | cons head tail =>
      obtain ⟨lexemes, reading, assembled⟩ := Assembly.exists_of_ofText parsed
      have begins : Lexeme.resume Verbosity.quiet.here (head :: tail) = head :: tail := rfl
      obtain ⟨lexeme, rest, others, first, later, shape⟩ :=
        Lexeme.exists_of_readFrom begins reading
      subst shape
      refine .of_head ?_ ?_ (tail ++ more)
      · rintro rfl
        cases first
        cases assembled
      · rintro rfl
        rw [Lexeme.read] at first
        split at first
        · cases first
          cases assembled
        · cases first

theorem alone_of_parses {text : Text} {lexemes : List Lexeme} {pattern : Pattern}
    (reading : readAll text = .ok lexemes) (parsed : Pattern.ofText text = .ok pattern)
    (off : (Verbosity.quiet.afterAll lexemes).here = false) : Alone text lexemes := by
  obtain ⟨row, again, assembled⟩ := Assembly.exists_of_ofText parsed
  cases reading.symm.trans again
  obtain ⟨last, taken, closed, -⟩ := Assembly.exists_of_ofLexemes assembled
  exact ⟨reading, ⟨last, taken, closed⟩, off⟩

/-! ### Texts in place of others -/

/-- Whatever is written in the place of a fragment, only the part that it adds differs. -/
theorem exists_context_of_ofText {ahead fragment behind : Text} {earlier inside : List Lexeme}
    {written : Pattern} (before : readAll ahead = .ok earlier)
    (off : (Verbosity.quiet.afterAll earlier).here = false) (alone : Alone fragment inside)
    (separate : Separate (fragment ++ behind)) (signs : ∀ sign ∈ behind, sign = ')' ∨ sign = '$')
    (whole : Pattern.ofText (ahead ++ (fragment ++ behind)) = .ok written) :
    ∃ assembly : Assembly, ∃ context : Context,
      assembly.captures = earlier.countP Lexeme.captures ∧
      (∀ name, .opening (.capture (some name)) ∈ inside → name ∉ assembly.names) ∧
      ∀ text row part, Alone text row → Separate (text ++ behind) → assembly.Adds row part →
        Pattern.ofText (ahead ++ (text ++ behind)) = .ok (context.plug part) := by
  obtain ⟨closings, closing, completes⟩ := exists_readFrom_completing signs
  have lexemes {text : Text} {row : List Lexeme} (alone : Alone text row)
      (separate : Separate (text ++ behind)) :
      readAll (ahead ++ (text ++ behind)) = .ok (earlier ++ (row ++ closings)) := by
    unfold readAll
    rw [Lexeme.readFrom_append before off separate,
      alone.readFrom_append off (separate_of_completing signs), closing]
    rfl
  have balanced : inside.countP Lexeme.closes = inside.countP Lexeme.opens := by
    obtain ⟨last, taken, closed⟩ := alone.closed
    have levels := Assembly.outer_length_of_takeAll taken
    simpa [closed, Assembly.blank] using levels
  have opened : closings.countP Lexeme.opens = 0 := by
    refine List.countP_eq_zero.mpr ?_
    intro lexeme member opens
    have complete := completes lexeme member
    cases lexeme with
    | opening opening => cases complete
    | _ => cases opens
  unfold Pattern.ofText at whole
  rw [lexemes alone separate] at whole
  obtain ⟨last, taken, ends, -⟩ := Assembly.exists_of_ofLexemes whole
  obtain ⟨assembly, first, second⟩ := Assembly.exists_of_takeAll_append taken
  obtain ⟨middle, within, after⟩ := Assembly.exists_of_takeAll_append second
  have depth : closings.countP Lexeme.closes = assembly.outer.length := by
    have inner := Assembly.outer_length_of_takeAll within
    have outer := Assembly.outer_length_of_takeAll after
    rw [ends, List.length_nil, opened] at outer
    omega
  obtain ⟨context, fills⟩ := Assembly.exists_context completes depth
  refine ⟨assembly, context, ?_, fun _ => Assembly.fresh_of_takeAll within, ?_⟩
  · exact (Assembly.captures_of_takeAll first).trans (Nat.zero_add _)
  · intro text row part other apart adds
    obtain ⟨final, added, finished⟩ := fills row part adds
    unfold Pattern.ofText
    rw [lexemes other apart]
    unfold Pattern.ofLexemes
    simp only [Assembly.takeAll_append_of_ok _ first, added, finished]

/-! ### Fragments as operands -/

/-- What a quantifier repeats if it stands behind a token of the kind, with captures numbered after
so many others. -/
def TokenKind.operand (kind : TokenKind) (shift : Nat) (pattern : Pattern) : Pattern :=
  if kind.needsGroup then .group (.plain []) (pattern.renumber shift) else pattern.renumber shift

section

variable {fragment : Text} {inside : List Lexeme} {operand : Pattern}

theorem exists_adds_operand (noBar : fragment ≠ ['|']) (alone : Alone fragment inside)
    (parsed : Pattern.ofText fragment = .ok operand) :
    ∃ row, (∀ assembly : Assembly,
        (∀ name, .opening (.capture (some name)) ∈ inside → name ∉ assembly.names) →
        ∃ part, part = (Token.kindOf fragment).operand assembly.captures operand ∧
          assembly.Adds row part ∧ ∀ change, part ≠ .modes change) ∧
      (Verbosity.quiet.afterAll row).here = false ∧
      ∀ more, NamesNoEdge more →
        readAll ((Token.ofRaw fragment).operand ++ more) = (readAll more).map (row ++ ·) := by
  by_cases single : (Text.units fragment).length = 1
  · obtain ⟨reading, repeatable, spells⟩ := Lexeme.part_of_unit single noBar parsed
    refine ⟨[.part operand], ?_, ?_, ?_⟩
    · intro assembly _
      have leaf := Lexeme.renumber_of_readFrom reading assembly.captures operand List.mem_cons_self
      refine ⟨operand, ?_, assembly.adds_part operand, repeatable⟩
      simp [TokenKind.operand, Token.kindOf, single, TokenKind.needsGroup, leaf]
    · have calm : ∀ lexeme ∈ [Lexeme.part operand], lexeme.wakes = false :=
        List.forall_mem_singleton.mpr (Lexeme.wakes_part repeatable)
      exact (Verbosity.agrees_afterAll_quiet calm (Verbosity.agrees_refl _)).1
    · simpa [Token.operand, Token.ofRaw, Token.kindOf, single, TokenKind.needsGroup] using spells
  · obtain ⟨row, again, assembled⟩ := Assembly.exists_of_ofText parsed
    cases alone.reading.symm.trans again
    obtain ⟨last, taken, closed, pattern⟩ := Assembly.exists_of_ofLexemes assembled
    subst pattern
    refine ⟨.opening (.plain []) :: (inside ++ [.closing]), ?_, ?_, ?_⟩
    · intro assembly fresh
      refine ⟨_, ?_, Assembly.adds_group taken closed
        (Lexeme.renumber_of_readFrom alone.reading _) fresh, nofun⟩
      simp [TokenKind.operand, Token.kindOf, single, TokenKind.needsGroup]
    · have opened : Verbosity.quiet.afterAll (.opening (.plain []) :: (inside ++ [.closing])) =
          ((Verbosity.mk false [false]).afterAll inside).after .closing :=
        Verbosity.afterAll_append ⟨false, [false]⟩ inside [.closing]
      have inner : (Verbosity.mk false [false]).afterAll inside = ⟨false, [false]⟩ :=
        alone.afterAll_eq rfl
      rw [opened, inner]
      rfl
    · intro more _
      have separate : Separate ([')'] ++ more) := .of_head (by decide) (by decide) more
      have text : (Token.ofRaw fragment).operand ++ more =
          ['(', '?', ':'] ++ (fragment ++ ([')'] ++ more)) := by
        simp [Token.operand, Token.ofRaw, Token.kindOf, single, TokenKind.needsGroup]
      rw [text, spellsFirmly_opening, alone.readAll_append separate, spellsFirmly_closing,
        Lexeme.map_append_append, Lexeme.map_append_append]
      rfl

theorem separate_of_operand (present : fragment ≠ [])
    (parsed : Pattern.ofText fragment = .ok operand) (more : Text) :
    Separate ((Token.ofRaw fragment).operand ++ more) := by
  unfold Token.operand
  split
  · exact .of_head (by decide) (by decide) _
  · exact separate_of_parses present parsed more

end

theorem alone_literal (character : Char) :
    Alone (Text.escapeLiteral [character]) [.part (.literal character)] where
  reading := (Lexeme.spellsFirmly_escapeLiteral [character]).spells.readAll_eq
  closed := ⟨_, rfl, rfl⟩
  off := rfl

theorem ofText_literal (character : Char) :
    Pattern.ofText (Text.escapeLiteral [character]) = .ok (.literal character) := by
  unfold Pattern.ofText
  rw [(alone_literal character).reading]
  rfl

section

variable {phrase : Phrase} {call next : Call} {token : Token} {quantifier : Quantifier}

theorem Phrase.source_append (appends : call.edits = [.append token]) :
    (phrase.after call).source = phrase.draft.ahead ++ (token.text ++ phrase.draft.behind) := by
  rw [source, draft_after, appends]
  exact Draft.render_append phrase.draft token

theorem Phrase.source_quantify (appends : call.edits = [.append token])
    (repeats : next.edits = [.quantify quantifier]) (present : token.text ≠ []) :
    ((phrase.after call).after next).source =
      phrase.draft.ahead ++ (token.operand ++ quantifier.text ++ phrase.draft.behind) := by
  have edited : ((phrase.after call).after next).draft =
      (phrase.draft.edit (.append token)).edit (.quantify quantifier) := by
    rw [draft_after, draft_after, appends, repeats]
    rfl
  rw [source, edited, Draft.quantify_append present]
  exact Draft.render_append phrase.draft (token.quantify quantifier)

end

/-- A raw fragment that is a pattern is repeated as a whole, and nothing before it, if the text
before it is read as whole lexemes: the pattern around the repetition is the one around any other
part in this place. Verbose mode must be off before the fragment, since the fragment would mean
something else there than it does alone, and must be off behind it, since what is written next could
belong to a comment. -/
theorem Phrase.quantify_raw {phrase : Phrase} {fragment : Text} {call : Call}
    {quantifier : Quantifier} {earlier inside : List Lexeme} {operand written : Pattern}
    (present : fragment ≠ []) (noBar : fragment ≠ ['|'])
    (repeats : call.edits = [.quantify quantifier]) (ordered : quantifier.isOrdered = true)
    (before : readAll phrase.draft.ahead = .ok earlier)
    (offBefore : (Verbosity.quiet.afterAll earlier).here = false)
    (reading : readAll fragment = .ok inside)
    (offBehind : (Verbosity.quiet.afterAll inside).here = false)
    (parsed : Pattern.ofText fragment = .ok operand)
    (whole : Pattern.ofText (phrase.after (.raw fragment)).source = .ok written) :
    ((phrase.after (.raw fragment)).after call).source = phrase.draft.ahead ++
        ((Token.ofRaw fragment).operand ++ quantifier.text ++ phrase.draft.behind) ∧
      ∃ context : Context,
        (∀ character, Pattern.ofText (phrase.after (.literal [character])).source =
          .ok (context.plug (.literal character))) ∧
        Pattern.ofText ((phrase.after (.raw fragment)).after call).source =
          .ok (context.plug (.repetition quantifier.counts
            ((Token.kindOf fragment).operand (earlier.countP Lexeme.captures) operand))) := by
  have appends : (Call.raw fragment).edits = [.append (.ofRaw fragment)] := rfl
  have raw : (phrase.after (.raw fragment)).source =
      phrase.draft.ahead ++ (fragment ++ phrase.draft.behind) :=
    source_append appends
  have literal (character : Char) : (phrase.after (.literal [character])).source =
      phrase.draft.ahead ++ (Text.escapeLiteral [character] ++ phrase.draft.behind) := by
    have literals : (Call.literal [character]).edits = [.append (.ofLiteral [character])] := rfl
    exact source_append literals
  have quantified : ((phrase.after (.raw fragment)).after call).source = phrase.draft.ahead ++
      ((Token.ofRaw fragment).operand ++ quantifier.text ++ phrase.draft.behind) :=
    source_quantify appends repeats present
  have alone := alone_of_parses reading parsed offBehind
  refine ⟨quantified, ?_⟩
  rw [raw] at whole
  obtain ⟨assembly, context, counted, fresh, fills⟩ := exists_context_of_ofText before offBefore
    alone (separate_of_parses present parsed _) phrase.draft.signs_behind whole
  obtain ⟨row, adds, off, spells⟩ := exists_adds_operand noBar alone parsed
  refine ⟨context, ?_, ?_⟩
  · intro character
    have escaped : Text.escapeLiteral [character] ≠ [] := by
      rw [Text.escapeLiteral, Text.escapeWith_cons]
      exact List.append_ne_nil_of_left_ne_nil (Text.escapeChar_ne_nil _ _) _
    have separate := separate_of_parses escaped (ofText_literal character) phrase.draft.behind
    rw [literal]
    exact fills _ _ _ (alone_literal character) separate (assembly.adds_part (.literal character))
  · obtain ⟨part, shape, added, repeatable⟩ := adds assembly fresh
    subst shape
    have repeated : Alone ((Token.ofRaw fragment).operand ++ quantifier.text)
        (row ++ [.quantifier quantifier.counts]) := by
      obtain ⟨other, -, addedAlone, repeatableAlone⟩ := adds Assembly.blank (fun _ _ => nofun)
      obtain ⟨captures, names, taken⟩ := addedAlone.quantify repeatableAlone quantifier.counts
      have boundary := Lexeme.namesNoEdge_quantifier quantifier []
      rw [List.append_nil] at boundary
      refine ⟨?_, ⟨_, taken, rfl⟩, ?_⟩
      · rw [spells _ boundary, (Lexeme.spells_quantifier ordered).readAll_eq]
        rfl
      · rw [Verbosity.afterAll_append]
        exact off
    have separate := separate_of_operand present parsed (quantifier.text ++ phrase.draft.behind)
    rw [quantified, ← counted]
    exact fills _ _ _ repeated (by rwa [List.append_assoc])
      (added.quantify repeatable quantifier.counts)

theorem Phrase.quantify_raw_of_captures :
    ((initial.run [.beginCapture, .literal ['a'], .raw "(x|y)z".toList]).after .oneOrMore).source =
        "(a(?:(x|y)z)+)".toList ∧
      ∃ context : Context,
        (∀ character, Pattern.ofText (initial.run [.beginCapture, .literal ['a'],
          .literal [character]]).source = .ok (context.plug (.literal character))) ∧
        Pattern.ofText ((initial.run [.beginCapture, .literal ['a'],
          .raw "(x|y)z".toList]).after .oneOrMore).source =
            .ok (context.plug (.repetition ⟨1, none, true⟩ (.group (.plain []) (.sequence
              (.group (.capture 2 none) (.choice (.literal 'x') (.literal 'y')))
              (.literal 'z'))))) := by
  have repeats : Call.oneOrMore.edits = [.quantify .oneOrMore] := rfl
  have ok {Value : Type} {result : Except Fault Value} {value : Value}
      (same : result.toOption = some value) : result = .ok value := by
    cases result with
    | error fault => cases same
    | ok found =>
        cases same
        rfl
  have before : readAll (initial.run [.beginCapture, .literal ['a']]).draft.ahead =
      .ok [.opening (.capture none), .part (.literal 'a')] :=
    ok (by decide +kernel)
  have reading : readAll "(x|y)z".toList = .ok [.opening (.capture none), .part (.literal 'x'),
      .bar, .part (.literal 'y'), .closing, .part (.literal 'z')] :=
    ok (by decide +kernel)
  have parsed : Pattern.ofText "(x|y)z".toList = .ok (.sequence
      (.group (.capture 1 none) (.choice (.literal 'x') (.literal 'y'))) (.literal 'z')) :=
    ok (by decide +kernel)
  have whole : Pattern.ofText ((initial.run [.beginCapture, .literal ['a']]).after
      (.raw "(x|y)z".toList)).source = .ok (.group (.capture 1 none) (.sequence (.literal 'a')
        (.sequence (.group (.capture 2 none) (.choice (.literal 'x') (.literal 'y')))
          (.literal 'z')))) :=
    ok (by decide +kernel)
  -- The fragment has no modes of its own.
  have calm : ∀ lexeme ∈ ([.opening (.capture none), .part (.literal 'x'), .bar,
      .part (.literal 'y'), .closing, .part (.literal 'z')] : List Lexeme),
      lexeme.wakes = false := by
    simp [Lexeme.wakes]
  have offBehind := (Verbosity.agrees_afterAll_quiet calm (Verbosity.agrees_refl .quiet)).1
  exact quantify_raw (by decide) (by decide) repeats rfl before rfl reading offBehind parsed whole

/-- A bar cannot be repeated. Nor can a fragment be, if a backslash left over before it takes its first
character, or if it is nothing but a gap where it stands. -/
theorem Phrase.quantify_raw_unreadable :
    ((Pattern.ofText ['|']).toOption = some (.choice .empty .empty) ∧
      (Pattern.ofText (initial.run [.raw ['|']]).source).toOption = some (.choice .empty .empty) ∧
      (Pattern.ofText (initial.run [.raw ['|'], .oneOrMore]).source).toOption = none) ∧
    ((Pattern.ofText "dd".toList).toOption = some (.sequence (.literal 'd') (.literal 'd')) ∧
      (Pattern.ofText (initial.run [.raw ['\\'], .raw "dd".toList]).source).toOption =
        some (.sequence (.charClass (.named .digit false)) (.literal 'd')) ∧
      (Pattern.ofText (initial.run [.raw ['\\'], .raw "dd".toList, .oneOrMore]).source).toOption =
        none) ∧
    (Pattern.ofText [' ']).toOption = some (.literal ' ') ∧
    (Pattern.ofText (initial.run [.raw "(?x)".toList, .raw [' ']]).source).toOption =
      some (.modes [(.verbose, true)]) ∧
    (Pattern.ofText (initial.run [.raw "(?x)".toList, .raw [' '], .oneOrMore]).source).toOption =
      none := by
  decide +kernel

end ReadableRegex

import ReadableRegex.Proofs.Trees.Following

/-!
What the pattern text of a run is read as. If no bounds are out of order where they count and no
capture is left open, the text is a pattern and its outline is the sketch of the run; otherwise it
is no pattern at all.
-/

namespace ReadableRegex

open Pattern (ofParts ofAlternatives outline)
open Lexeme (Spells SpellsFirmly Unreadable)

/-! ### Bounds in order -/

/-- Whether the call, behind the given last token, writes no bounds out of order. -/
def Call.isOrderedBehind (last : Option NodeRow) : Call → Bool
  | .range bounds => ClassText.areOrdered bounds
  | .repeatPrevious lower upper => last.isNone || (Quantifier.times lower upper).isOrdered
  | .multiple value lower upper => value.isEmpty || (Quantifier.ofBounds lower upper).isOrdered
  | _ => true

def Sketch.staysOrdered (modes : Modes) : Sketch → List Call → Bool
  | _, [] => true
  | sketch, call :: rest =>
      call.isOrderedBehind sketch.last && (sketch.after modes call).staysOrdered modes rest

namespace Call

/-- Whether the bounds that the call is given are in order. -/
def isOrdered : Call → Bool
  | .range bounds => ClassText.areOrdered bounds
  | .repeatPrevious lower upper => (Quantifier.times lower upper).isOrdered
  | .multiple _ lower upper => (Quantifier.ofBounds lower upper).isOrdered
  | _ => true

theorem isOrderedBehind_of_isOrdered {call : Call} (ordered : call.isOrdered = true)
    (last : Option NodeRow) : call.isOrderedBehind last = true := by
  cases call with
  | range bounds => exact ordered
  | repeatPrevious lower upper =>
      have inOrder : (Quantifier.times lower upper).isOrdered = true := ordered
      simp [isOrderedBehind, inOrder]
  | multiple value lower upper =>
      have inOrder : (Quantifier.ofBounds lower upper).isOrdered = true := ordered
      simp [isOrderedBehind, inOrder]
  | _ => rfl

end Call

theorem Sketch.staysOrdered_of_isOrdered (modes : Modes) (sketch : Sketch) {calls : List Call}
    (ordered : ∀ call ∈ calls, call.isOrdered = true) : sketch.staysOrdered modes calls = true := by
  induction calls generalizing sketch with
  | nil => rfl
  | cons call rest inductionHypothesis =>
      have later := inductionHypothesis (sketch.after modes call)
        (fun other member => ordered other (List.mem_cons_of_mem _ member))
      rw [staysOrdered, later,
        Call.isOrderedBehind_of_isOrdered (ordered call List.mem_cons_self), Bool.and_true]

/-! ### Texts of anchors, and unreadable texts -/

def anchorParts (enabled : Bool) (anchor : Anchor) : List Pattern :=
  if enabled then [.anchor anchor] else []

theorem spellsFirmly_anchor (enabled : Bool) (anchor : Anchor) (sign : Char)
    (read : ∀ rest, Lexeme.read sign rest = .ok (.part (.anchor anchor), rest)) :
    SpellsFirmly (if enabled then [sign] else [])
      ((anchorParts enabled anchor).map Lexeme.part) := by
  cases enabled with
  | false => exact Lexeme.spellsFirmly_nil
  | true => exact Lexeme.spellsFirmly_of_read read

theorem builds_anchorParts (enabled : Bool) (anchor : Anchor) (first : Nat) :
    Builds ((anchorParts enabled anchor).map Lexeme.part) (anchorParts enabled anchor)
      first first := by
  cases enabled with
  | false => exact builds_nil
  | true => exact builds_part (.anchor anchor) first

theorem parse_error_of_unreadable {text : Text} (unreadable : Unreadable text) :
    ∃ fault, Pattern.ofText text = .error fault := by
  obtain ⟨fault, failed⟩ := unreadable []
  rw [List.append_nil] at failed
  unfold Pattern.ofText
  rw [failed]
  exact ⟨fault, rfl⟩

theorem parse_error_of_unbalanced {text : Text} {lexemes : List Lexeme}
    (spells : Spells text lexemes)
    (unbalanced : lexemes.countP Lexeme.closes ≠ lexemes.countP Lexeme.opens) :
    ∃ fault, Pattern.ofText text = .error fault := by
  unfold Pattern.ofText
  rw [spells.readAll_eq]
  cases parsed : Pattern.ofLexemes lexemes with
  | ok pattern => exact absurd (Pattern.balanced_of_ofLexemes parsed) unbalanced
  | error fault => exact ⟨fault, parsed⟩

section

variable [PropertyTable] {modes : Modes} {draft : Draft} {sketch : Sketch} {sound : Bool}

/-! ### Calls -/

namespace Follows

theorem after {call : Call} (follows : Follows modes draft sketch sound)
    (cooked : call.isRaw = false) (usual : modes.Usual) :
    Follows modes (call.edits.foldl Draft.edit draft) (sketch.after modes call)
      (sound && call.isOrderedBehind sketch.last) := by
  have appended {token : Token} {row : NodeRow} (means : token.Means modes row true) :
      Follows modes (draft.edit (.append token)) (sketch.edit (.append row)) (sound && true) :=
    follows.append means usual
  have unchanged {other : Draft} {row : Sketch} (same : Follows modes other row sound) :
      Follows modes other row (sound && true) := by
    rwa [Bool.and_true]
  cases call with
  | startOfLine enabled => exact unchanged (follows.setStartAnchor enabled)
  | endOfLine enabled => exact unchanged (follows.setEndAnchor enabled)
  | literal value => exact appended (.literal value)
  | optional value =>
      have quantified := (appended (.literal value)).quantify usual .optional
      rw [show Quantifier.isOrdered .optional = true from rfl, Bool.or_true, Bool.and_true]
        at quantified
      exact quantified
  | raw fragment => cases cooked
  | alternative value => exact follows.alternate.append (.literal value) usual
  | anything => exact appended .anything
  | something => exact appended .something
  | anythingBut excluded => exact appended (.excluded excluded)
  | anyOf members => exact appended (.members members)
  | range bounds => exact follows.append (.bounds bounds) usual
  | lineBreak => exact appended .lineBreak
  | tab => exact appended .tab
  | word => exact appended .word
  | digit => exact appended .digit
  | blank => exact appended .blank
  | flag flag enabled => exact unchanged follows
  | flagLetter letter enabled => exact unchanged follows
  | anyCase enabled => exact unchanged follows
  | stopAtFirst enabled => exact unchanged follows
  | searchOneLine enabled => exact unchanged follows
  | repeatPrevious lower upper => exact follows.quantify usual _
  | oneOrMore =>
      have quantified := follows.quantify usual .oneOrMore
      rw [show Quantifier.isOrdered .oneOrMore = true from rfl, Bool.or_true] at quantified
      exact quantified
  | multiple value lower upper =>
      have quantified := (appended (.literal value)).quantify usual (.ofBounds lower upper)
      have last : (sketch.edit (.append (Node.ofText modes value))).last.isNone = value.isEmpty := by
        cases value <;> rfl
      rw [last, Bool.and_true] at quantified
      exact quantified
  | beginCapture => exact unchanged follows.openCapture
  | endCapture => exact unchanged follows.closeCapture

theorem run {calls : List Call} (follows : Follows modes draft sketch sound)
    (cooked : ∀ call ∈ calls, call.isRaw = false) (usual : modes.Usual) :
    Follows modes ((calls.flatMap Call.edits).foldl Draft.edit draft) (sketch.run modes calls)
      (sound && sketch.staysOrdered modes calls) := by
  induction calls generalizing draft sketch sound with
  | nil =>
      rw [Sketch.staysOrdered, Bool.and_true]
      exact follows
  | cons call rest inductionHypothesis =>
      have first := follows.after (cooked call List.mem_cons_self) usual
      have later := inductionHypothesis first
        (fun other member => cooked other (List.mem_cons_of_mem _ member))
      rw [List.flatMap_cons, List.foldl_append, Sketch.staysOrdered, ← Bool.and_assoc]
      exact later

end Follows

theorem Phrase.follows_run (options : Options) {calls : List Call}
    (cooked : ∀ call ∈ calls, call.isRaw = false) (usual : modes.Usual) :
    Follows modes ((ofOptions options).run calls).draft ((Sketch.blank 0).run modes calls)
      ((Sketch.blank 0).staysOrdered modes calls) := by
  rw [draft_run]
  exact (Follows.blank options.closesCaptures).run cooked usual

/-! ### Whole texts -/

/-- The parts are the alternatives of the sketch in outline. Several alternatives make up one
group. -/
structure Sketch.IsWritten (modes : Modes) (sketch : Sketch) (parts : List Pattern) : Prop where
  steady : ∀ part ∈ parts, part.Steady modes
  outline : parts.flatMap (outline modes) = Node.ofBranches sketch.branches
  grouped : sketch.finished ≠ [] → ∃ alternatives,
    parts = [.group (.plain []) (ofAlternatives alternatives)] ∧
    (∀ part ∈ alternatives, part.Steady modes) ∧
    alternatives.map (Pattern.outline modes) = sketch.branches

def WritesBranches (modes : Modes) (sketch : Sketch) (text : Text) : Prop :=
  ∃ lexemes parts, Spells text lexemes ∧ Builds lexemes parts 0 sketch.captures ∧
    sketch.IsWritten modes parts

def WritesWhole (modes : Modes) (sketch : Sketch) (text : Text) : Prop :=
  ∃ parts, sketch.IsWritten modes parts ∧
    Pattern.ofText text = .ok (ofParts (anchorParts sketch.startAnchor .caret ++ (parts ++
      anchorParts sketch.endAnchor .dollar)))

theorem Legible.no_alternatives {start : Nat}
    (legible : Legible (WritesAlternatives modes [] 0 start) sound []) :
    sound = true ∧ start = 0 := by
  cases legible with
  | unreadable unreadable => exact absurd rfl unreadable.ne_nil
  | good writes =>
      obtain ⟨lexemes, alternatives, firm, builds, _, _⟩ := writes
      have nothing : lexemes = [] := by
        have whole := firm.spells.readAll_eq
        rw [Lexeme.readAll_nil] at whole
        cases whole
        rfl
      subst nothing
      have taken := builds Pattern.Assembly.blank rfl rfl
      injection taken with same
      exact ⟨rfl, (congrArg Pattern.Assembly.captures same).symm⟩

namespace Follows

theorem middle (follows : Follows modes draft sketch sound) :
    Legible (WritesBranches modes sketch) sound
      ((if draft.isAlternating then ['(', '?', ':'] else []) ++
        (draft.finished.flatMap (fun alternative => alternative ++ ['|']) ++
          ((draft.branch ++ draft.closers) ++
            (if draft.isAlternating then [')'] else [])))) := by
  obtain ⟨finished, enclosed, inner, start, low, alternatives, surrounds, legible, detached,
    split⟩ := follows.inside
  have closed := surrounds.close legible detached
  subst split
  by_cases single : sketch.finished = []
  · have none : draft.finished = [] := follows.alternating.mpr single
    have plain : draft.isAlternating = false := by simp [Draft.isAlternating, none]
    rw [single, none] at alternatives
    obtain ⟨sound, zero⟩ := alternatives.no_alternatives
    subst sound zero
    rw [plain, none, Bool.true_and]
    simp only [Bool.false_eq_true, if_false, List.nil_append, List.flatMap_nil, List.append_nil]
    refine closed.imp ?_
    rintro ⟨lexemes, parts, spells, builds, steady, outline⟩
    refine ⟨lexemes, parts, spells, builds, steady, ?_, ?_⟩
    · rw [outline, Sketch.branches, single]
      rfl
    · intro several
      exact absurd single several
  · have some : draft.finished ≠ [] := fun none => single (follows.alternating.mp none)
    have grouped : draft.isAlternating = true := by simp [Draft.isAlternating, some]
    rw [grouped]
    simp only [if_true]
    cases alternatives with
    | unreadable unreadable =>
        exact .unreadable (spellsFirmly_opening.append_unreadable (unreadable.append _))
    | good alternatives =>
        rw [Bool.true_and]
        generalize (enclosed && inner) = readable at closed ⊢
        cases closed with
        | unreadable unreadable =>
            obtain ⟨lexemes, patterns, firm, _⟩ := alternatives
            exact .unreadable (spellsFirmly_opening.append_unreadable
              (firm.append_unreadable (unreadable.append _)))
        | good branch =>
            obtain ⟨lexemes, patterns, firm, builds, steady, outlines, wholeSteady, outline⟩ :=
              alternatives.group branch
            refine .good ⟨lexemes, _, firm.spells, builds, ?_, ?_, ?_⟩
            · intro part member
              rw [List.mem_singleton.mp member]
              exact wholeSteady
            · rw [List.flatMap_cons, List.flatMap_nil, List.append_nil, outline]
              rfl
            · intro _
              exact ⟨patterns, rfl, steady, outlines⟩

theorem legible_render (follows : Follows modes draft sketch sound)
    (closed : draft.closesCaptures = true ∨ draft.enclosing = []) :
    Legible (WritesWhole modes sketch) sound draft.render := by
  have closers : (if draft.closesCaptures then draft.closers else []) = draft.closers := by
    rcases closed with closes | none
    · rw [closes, if_pos rfl]
    · have nothing : draft.closers = [] := by simp [Draft.closers, Draft.openCaptures, none]
      rw [nothing, ite_self]
  have shape : draft.render =
      (if draft.startAnchor then ['^'] else []) ++
        (((if draft.isAlternating then ['(', '?', ':'] else []) ++
          (draft.finished.flatMap (fun alternative => alternative ++ ['|']) ++
            ((draft.branch ++ draft.closers) ++
              (if draft.isAlternating then [')'] else [])))) ++
          (if draft.endAnchor then ['$'] else [])) := by
    unfold Draft.render Draft.opening Draft.body Draft.closing
    rw [closers]
    simp only [List.append_assoc]
  have front := spellsFirmly_anchor draft.startAnchor .caret '^' fun _ => rfl
  have back := spellsFirmly_anchor draft.endAnchor .dollar '$' fun _ => rfl
  have separate : Text.Detached (if draft.endAnchor then ['$'] else []) := by
    cases draft.endAnchor <;> simp [Text.Detached]
  rw [shape]
  cases follows.middle with
  | unreadable unreadable => exact .unreadable (front.append_unreadable (unreadable.append _))
  | good writes =>
      obtain ⟨lexemes, parts, spells, builds, written⟩ := writes
      refine .good ⟨parts, written, ?_⟩
      have whole := front.append_spells (spells.append back.spells separate)
      have built := (builds_anchorParts draft.startAnchor .caret 0).append
        (builds.append (builds_anchorParts draft.endAnchor .dollar sketch.captures))
      rw [← follows.startAnchor, ← follows.endAnchor]
      unfold Pattern.ofText
      rw [whole.readAll_eq]
      exact built.ofLexemes

/-- With a capture left open, the text is no pattern. -/
theorem parse_error_of_open (follows : Follows modes draft sketch sound)
    (leaves : draft.closesCaptures = false) (opened : draft.enclosing ≠ []) :
    ∃ fault, Pattern.ofText draft.render = .error fault := by
  obtain ⟨finished, enclosed, inner, start, low, alternatives, surrounds, legible, detached,
    split⟩ := follows.inside
  have branch := surrounds.leaveOpen (legible.imp Writes.unclosed) detached
  have shape : draft.render =
      (if draft.startAnchor then ['^'] else []) ++
        ((if draft.isAlternating then ['(', '?', ':'] else []) ++
          (draft.finished.flatMap (fun alternative => alternative ++ ['|']) ++
            (draft.branch ++ ((if draft.isAlternating then [')'] else []) ++
              (if draft.endAnchor then ['$'] else []))))) := by
    unfold Draft.render Draft.opening Draft.body Draft.closing
    rw [leaves]
    simp
  have caret := spellsFirmly_anchor draft.startAnchor .caret '^' fun _ => rfl
  have dollar := spellsFirmly_anchor draft.endAnchor .dollar '$' fun _ => rfl
  have opening : SpellsFirmly (if draft.isAlternating then ['(', '?', ':'] else [])
      (if draft.isAlternating then [.opening (.plain [])] else []) := by
    cases draft.isAlternating
    · exact Lexeme.spellsFirmly_nil
    · exact spellsFirmly_opening
  have closing : SpellsFirmly (if draft.isAlternating then [')'] else [])
      (if draft.isAlternating then [.closing] else []) := by
    cases draft.isAlternating
    · exact Lexeme.spellsFirmly_nil
    · exact spellsFirmly_closing
  have separate : Text.Detached ((if draft.isAlternating then [')'] else []) ++
      (if draft.endAnchor then ['$'] else [])) := by
    cases draft.isAlternating <;> cases draft.endAnchor <;> simp [Text.Detached]
  rw [shape]
  cases alternatives with
  | unreadable unreadable =>
      exact parse_error_of_unreadable (caret.append_unreadable
        (opening.append_unreadable (unreadable.append _)))
  | good alternatives =>
      obtain ⟨lexemes, patterns, firm, builds, _⟩ := alternatives
      generalize (enclosed && inner) = readable at branch
      cases branch with
      | unreadable unreadable =>
          exact parse_error_of_unreadable (caret.append_unreadable
            (opening.append_unreadable (firm.append_unreadable (unreadable.append _))))
      | good unclosed =>
          obtain ⟨branchLexemes, spells, sums⟩ := unclosed
          have whole := caret.append_spells (opening.append_spells (firm.append_spells
            (spells.append (closing.append dollar).spells separate)))
          refine parse_error_of_unbalanced whole ?_
          have some : 0 < draft.enclosing.length := List.length_pos_iff.mpr opened
          have balanced := builds.balanced
          have caretBalanced := (builds_anchorParts draft.startAnchor .caret 0).balanced
          have dollarBalanced := (builds_anchorParts draft.endAnchor .dollar 0).balanced
          have grouped : (if draft.isAlternating then
              [Lexeme.opening (.plain [])] else []).countP Lexeme.opens =
                (if draft.isAlternating then [Lexeme.closing] else []).countP Lexeme.closes ∧
              (if draft.isAlternating then
                [Lexeme.opening (.plain [])] else []).countP Lexeme.closes = 0 ∧
              (if draft.isAlternating then [Lexeme.closing] else []).countP Lexeme.opens = 0 := by
            cases draft.isAlternating <;> exact ⟨rfl, rfl, rfl⟩
          simp only [List.countP_append]
          omega

end Follows

/-- A text is a pattern only if all bounds that count are in order and no capture is left open. -/
theorem Follows.written_of_parses (follows : Follows modes draft sketch sound) {pattern : Pattern}
    (parsed : Pattern.ofText draft.render = .ok pattern) :
    sound = true ∧ (draft.closesCaptures = true ∨ draft.enclosing = []) ∧
      ∃ parts, sketch.IsWritten modes parts ∧
        pattern = ofParts (anchorParts sketch.startAnchor .caret ++ (parts ++
          anchorParts sketch.endAnchor .dollar)) := by
  by_cases closed : draft.closesCaptures = true ∨ draft.enclosing = []
  · cases follows.legible_render closed with
    | unreadable unreadable =>
        obtain ⟨fault, failed⟩ := parse_error_of_unreadable unreadable
        rw [parsed] at failed
        cases failed
    | good whole =>
        obtain ⟨parts, written, read⟩ := whole
        rw [parsed] at read
        cases read
        exact ⟨rfl, closed, parts, written, rfl⟩
  · rw [not_or] at closed
    have leaves : draft.closesCaptures = false := Bool.eq_false_iff.mpr closed.1
    obtain ⟨fault, failed⟩ := follows.parse_error_of_open leaves closed.2
    rw [parsed] at failed
    cases failed

/-! ### Outlines of whole texts -/

theorem steady_anchorParts (enabled : Bool) (anchor : Anchor) :
    ∀ part ∈ anchorParts enabled anchor, part.Steady modes := by
  intro part member
  cases enabled with
  | false => cases member
  | true =>
      rw [List.mem_singleton.mp member]
      exact ⟨⟨_, rfl⟩, ⟨_, rfl⟩⟩

namespace Sketch.IsWritten

variable {parts : List Pattern}

theorem steady_anchored (written : sketch.IsWritten modes parts) :
    ∀ part ∈ anchorParts sketch.startAnchor .caret ++ (parts ++
      anchorParts sketch.endAnchor .dollar), part.Steady modes := by
  intro part member
  rcases List.mem_append.mp member with front | behind
  · exact steady_anchorParts _ _ part front
  · rcases List.mem_append.mp behind with inside | back
    · exact written.steady part inside
    · exact steady_anchorParts _ _ part back

theorem outline_anchored (written : sketch.IsWritten modes parts) :
    (ofParts (anchorParts sketch.startAnchor .caret ++ (parts ++
      anchorParts sketch.endAnchor .dollar))).outline modes = sketch.row modes := by
  have anchorOutline (enabled : Bool) (anchor : Anchor) :
      (anchorParts enabled anchor).flatMap (Pattern.outline modes) =
        if enabled then [Node.anchor modes anchor] else [] := by
    cases enabled <;> rfl
  rw [Pattern.outline_of_branches (Pattern.branches_ofParts written.steady_anchored),
    List.flatMap_append, List.flatMap_append, anchorOutline, anchorOutline, written.outline]
  unfold Sketch.row
  rw [List.append_assoc]

end Sketch.IsWritten

namespace Phrase

/-- The pattern text of calls is a pattern, and in outline it is what the calls make of trees. -/
theorem outline_source {options : Options} (closes : options.closesCaptures = true)
    {calls : List Call} (cooked : ∀ call ∈ calls, call.isRaw = false)
    (ordered : ∀ call ∈ calls, call.isOrdered = true) :
    ∃ pattern, Pattern.ofText ((ofOptions options).run calls).source = .ok pattern ∧
      ∀ flags : FlagSet, pattern.outline (Modes.ofFlags flags) =
        ((Sketch.blank 0).run (Modes.ofFlags flags) calls).row (Modes.ofFlags flags) := by
  have parsed (flags : FlagSet) : ∃ pattern,
      Pattern.ofText ((ofOptions options).run calls).source = .ok pattern ∧
        pattern.outline (Modes.ofFlags flags) =
          ((Sketch.blank 0).run (Modes.ofFlags flags) calls).row (Modes.ofFlags flags) := by
    have follows : Follows (Modes.ofFlags flags) _ _ _ :=
      follows_run options cooked (Modes.usual_ofFlags flags)
    rw [Sketch.staysOrdered_of_isOrdered _ _ ordered] at follows
    have closesDraft : ((ofOptions options).run calls).draft.closesCaptures = true := by
      rw [closesCaptures_run]
      exact closes
    cases follows.legible_render (Or.inl closesDraft) with
    | good whole =>
        obtain ⟨parts, written, read⟩ := whole
        exact ⟨_, read, written.outline_anchored⟩
  obtain ⟨pattern, read, _⟩ := parsed FlagSet.empty
  refine ⟨pattern, read, ?_⟩
  intro flags
  obtain ⟨other, readAgain, outline⟩ := parsed flags
  rw [read] at readAgain
  cases readAgain
  exact outline

end Phrase

end

namespace Phrase

/-- A text of two characters repeated twice, then a capture left open, or else a character
repeated. -/
theorem outline_source_of_alternatives :
    ∃ pattern,
      Pattern.ofText "^(?:(?:(?:a\\.)+)+([0-9])|b\x7b2\x7d)".toList = .ok pattern ∧
      pattern.outline (Modes.ofFlags .empty) =
        [.anchor (Modes.ofFlags .empty) .caret,
          .choice
            [[.repetition ⟨1, none, true⟩ [.repetition ⟨1, none, true⟩
                (Node.ofText (Modes.ofFlags .empty) ['a', '.'])],
              .capture 1 none [.set ((Modes.ofFlags .empty).comparison.Between [('0', '9')])]],
            [.repetition ⟨2, some 2, true⟩ (Node.ofText (Modes.ofFlags .empty) ['b'])]]] := by
  have closes : Options.initial.closesCaptures = true := rfl
  have cooked : ∀ call ∈ ([.startOfLine true, .literal ['a', '.'], .oneOrMore, .oneOrMore,
      .beginCapture, .range ['0', '9'], .alternative ['b'], .repeatPrevious 2 none] : List Call),
      call.isRaw = false := by
    decide
  have ordered : ∀ call ∈ ([.startOfLine true, .literal ['a', '.'], .oneOrMore, .oneOrMore,
      .beginCapture, .range ['0', '9'], .alternative ['b'], .repeatPrevious 2 none] : List Call),
      call.isOrdered = true := by
    decide
  obtain ⟨pattern, read, outline⟩ := outline_source closes cooked ordered
  have source : ((ofOptions Options.initial).run [.startOfLine true, .literal ['a', '.'],
      .oneOrMore, .oneOrMore, .beginCapture, .range ['0', '9'], .alternative ['b'],
      .repeatPrevious 2 none]).source = "^(?:(?:(?:a\\.)+)+([0-9])|b\x7b2\x7d)".toList := by
    decide +kernel
  rw [source] at read
  exact ⟨pattern, read, outline FlagSet.empty⟩

/-- The class holds more than what is not listed, if both characters around the surrogates are. -/
theorem outline_holds_listed :
    ∃ pattern members,
      Pattern.ofText ((ofOptions .initial).run
        [.anythingBut [belowSurrogates, aboveSurrogates]]).source = .ok pattern ∧
      pattern.outline (Modes.ofFlags .empty) = [.repetition ⟨1, none, true⟩ [.set members]] ∧
      members belowSurrogates := by
  have read : (Pattern.ofText ((ofOptions .initial).run
      [.anythingBut [belowSurrogates, aboveSurrogates]]).source).toOption =
        some (.repetition ⟨1, none, true⟩ (.charClass (.bracketed true
          (.union (.range belowSurrogates belowSurrogates)
            (.range aboveSurrogates aboveSurrogates))))) := by
    decide +kernel
  cases parsed : Pattern.ofText ((ofOptions .initial).run
      [.anythingBut [belowSurrogates, aboveSurrogates]]).source with
  | error fault =>
      rw [parsed] at read
      cases read
  | ok pattern =>
      rw [parsed] at read
      cases read
      refine ⟨_, _, rfl, rfl, ?_⟩
      decide +kernel

end Phrase
end ReadableRegex

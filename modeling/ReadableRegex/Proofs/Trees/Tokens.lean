import ReadableRegex.Proofs.EscapedUnits
import ReadableRegex.Proofs.Trees.ClassReading
import ReadableRegex.Proofs.Trees.Sketch
import ReadableRegex.Proofs.Trees.Writing

/-!
The tokens that calls append, raw fragments left out, write the nodes that the calls stand for.
-/

namespace ReadableRegex

open Lexeme (Spells SpellsFirmly Unreadable)

namespace ClassText

def areOrdered (bounds : List Char) : Bool :=
  (pairs bounds).1.all (fun pair => decide (pair.1 ≤ pair.2))

end ClassText

/-- What the token stands for, and whether its text can be read. -/
inductive Token.Means (modes : Modes) : Token → NodeRow → Bool → Prop where
  | literal (value : Text) : Means modes (ofLiteral value) (Node.ofText modes value) true
  | members (members : Text) : Means modes (ofMembers members) (Node.ofMembers modes members) true
  | excluded (excluded : Text) :
      Means modes (ofExcluded excluded) (Node.ofExcluded modes excluded) true
  | bounds (bounds : List Char) :
      Means modes (ofBounds bounds) (Node.ofBounds modes bounds) (ClassText.areOrdered bounds)
  | anything : Means modes ⟨Fragment.anything, .quantified⟩ (Node.anything modes) true
  | something : Means modes ⟨Fragment.something, .quantified⟩ (Node.something modes) true
  | lineBreak : Means modes ⟨Fragment.lineBreak, .atom⟩ (Node.lineBreak modes) true
  | tab : Means modes ⟨Fragment.tab, .atom⟩ (Node.ofText modes ['\t']) true
  | word : Means modes ⟨Fragment.word, .quantified⟩ Node.word true
  | digit : Means modes ⟨Fragment.digit, .atom⟩ Node.digit true
  | blank : Means modes ⟨Fragment.blank, .atom⟩ (Node.blank modes) true

variable {modes : Modes} {first : Nat}

namespace Token.Means

variable {token : Token} {row : NodeRow} {sound : Bool}

theorem cooked (means : token.Means modes row sound) : token.Cooked := by
  cases means <;> constructor

theorem text_eq_nil_iff (means : token.Means modes row sound) : token.text = [] ↔ row = [] := by
  cases means with
  | literal value =>
      cases value with
      | nil => exact iff_of_true rfl rfl
      | cons character rest =>
          refine iff_of_false ?_ (by simp [Node.ofText])
          exact Text.escapeLiteral_ne_nil (List.cons_ne_nil character rest)
  | members members =>
      unfold ofMembers ClassText.anyOf Node.ofMembers
      by_cases empty : members.isEmpty = true <;> simp [empty]
  | excluded excluded =>
      unfold ofExcluded ClassText.noneOf Node.ofExcluded
      by_cases empty : excluded.isEmpty = true <;>
        simp [empty, Fragment.something, Node.something]
  | bounds bounds =>
      simp only [ofBounds, ClassText.ofBounds, Node.ofBounds]
      by_cases empty : (ClassText.pairs bounds).1.isEmpty = true <;> simp [empty]
  | _ => exact iff_of_false (by decide) (List.cons_ne_nil _ _)

end Token.Means

variable [PropertyTable]

/-! ### Literals -/

theorem writesUnit_character (character : Char) :
    WritesUnit modes [.literal modes character] first first (Text.escapeLiteral [character]) :=
  writesUnit_of_part (.literal character) (Lexeme.spellsFirmly_escapeLiteral [character]) rfl
    ⟨_, rfl⟩ (fun change same => by cases same)

theorem writes_escapeLiteral (value : Text) :
    Writes modes (Node.ofText modes value) first first (Text.escapeLiteral value) := by
  have builds (characters : Text) :
      Builds (characters.map (fun character => .part (.literal character)))
        (characters.map Pattern.literal) first first := by
    induction characters with
    | nil => exact builds_nil
    | cons character rest inductionHypothesis =>
        exact (builds_part _ first).append inductionHypothesis
  refine ⟨_, _, (Lexeme.spellsFirmly_escapeLiteral value).spells, builds value, ?_, ?_⟩
  · intro part member
    obtain ⟨character, _, same⟩ := List.mem_map.mp member
    rw [← same]
    exact ⟨⟨_, rfl⟩, ⟨_, rfl⟩⟩
  · unfold Node.ofText
    rw [List.flatMap_map, List.map_eq_flatMap]
    rfl

/-! ### Classes -/

theorem writesUnit_class (usual : modes.Usual) (first : Nat) {set : CharClass} {text : Text}
    (known : set.isKnown = true) (firm : SpellsFirmly text [.part (.charClass set)]) :
    WritesUnit modes [.set (fun character => (set.set modes.comparison).holds character = true)]
      first first text := by
  refine writesUnit_of_part (.charClass set) firm rfl ?_ (fun change same => by cases same)
  simp only [Pattern.alternatives, Modes.charClass, usual.unicode, known, Bool.true_or, if_true]
  exact ⟨_, rfl⟩

theorem writesUnit_brackets (usual : modes.Usual) (first : Nat) {negated : Bool}
    {intervals : List Interval} {text : Text} {members : Char → Prop}
    (firm : SpellsFirmly text [.part (.charClass (.bracketed negated
      (.ofMembers (intervals.reverse.map Interval.charClass))))])
    (holds : ∀ character,
      ((modes.comparison.closure (.ofIntervals intervals)).negateIf negated).holds character = true ↔
        members character) :
    WritesUnit modes [.set members] first first text := by
  have unit : WritesUnit modes _ first first text :=
    writesUnit_class usual first (CharClass.isKnown_bracketed negated intervals) firm
  have same : (fun character => ((CharClass.bracketed negated (.ofMembers
      (intervals.reverse.map Interval.charClass))).set modes.comparison).holds character = true) =
        members := by
    funext character
    rw [CharClass.set_bracketed]
    exact propext (holds character)
  rwa [same] at unit

theorem writesUnit_members (usual : modes.Usual) {members : Text} (present : members ≠ []) :
    WritesUnit modes [.set (modes.comparison.Lists members)] first first
      ('[' :: Text.escapeMembers members ++ [']']) :=
  writesUnit_brackets usual first (Lexeme.spellsFirmly_members false present)
    (modes.comparison.holds_closure_ofChars members)

theorem writesUnit_excluded (usual : modes.Usual) {excluded : Text} (present : excluded ≠ []) :
    WritesUnit modes [.set (modes.comparison.Leaves excluded)] first first
      ('[' :: '^' :: Text.escapeMembers excluded ++ [']']) :=
  writesUnit_brackets usual first (Lexeme.spellsFirmly_members true present)
    (modes.comparison.holds_complement_closure excluded)

theorem legible_intervals (usual : modes.Usual) {pairs : List (Char × Char)}
    (present : pairs ≠ []) :
    Legible (WritesUnit modes [.set (modes.comparison.Between pairs)] first first)
      (pairs.all (fun pair => decide (pair.1 ≤ pair.2)))
      ('[' :: pairs.flatMap ClassText.interval ++ [']']) := by
  cases ordered : pairs.all (fun pair => decide (pair.1 ≤ pair.2)) with
  | true =>
      have inOrder : ∀ pair ∈ pairs, pair.1 ≤ pair.2 := by simpa using ordered
      exact .good (writesUnit_brackets usual first (Lexeme.spellsFirmly_intervals present inOrder)
        (modes.comparison.holds_closure_ofIntervals pairs))
  | false =>
      have crossed : ∃ pair ∈ pairs, ¬ pair.1 ≤ pair.2 := by
        obtain ⟨pair, member, outOfOrder⟩ := List.all_eq_false.mp ordered
        exact ⟨pair, member, by simpa using outOfOrder⟩
      exact .unreadable (Lexeme.unreadable_intervals crossed)

/-! ### Fixed fragments -/

theorem writesUnit_dot (usual : modes.Usual) : WritesUnit modes [.dot modes] first first ['.'] := by
  refine writesUnit_of_part .dot (Lexeme.spellsFirmly_of_read fun _ => rfl) rfl ?_
    (fun change same => by cases same)
  simp only [Pattern.alternatives, Modes.dot, usual.unicode, if_true]
  exact ⟨_, rfl⟩

theorem writes_anything (usual : modes.Usual) :
    Writes modes (Node.anything modes) first first Fragment.anything := by
  refine (writesUnit_dot usual).repeated usual (Lexeme.spells_of_readsAs ?_)
  intro rest detached
  refine ⟨'*', [], rfl, ?_⟩
  simp only [Lexeme.read, Lexeme.readSign, List.nil_append,
    Lexeme.finishCounts_of_detached _ _ detached]

theorem writes_something (usual : modes.Usual) :
    Writes modes (Node.something modes) first first Fragment.something :=
  (writesUnit_dot usual).quantify usual .oneOrMore rfl

/-- A named class in a group that switches Unicode off has the ASCII characters of the class. -/
theorem writesUnit_ascii {name : NamedClass} {letter : Char}
    (escaped : ∀ rest, Lexeme.readEscape (letter :: rest) = .ok (.named name false, rest)) :
    WritesUnit modes [.set ((name.set false).holds ·)] first first
      (['(', '?', '-', 'u', ':'] ++ (['\\', letter] ++ [')'])) := by
  have opening : SpellsFirmly ['(', '?', '-', 'u', ':'] [.opening (.plain [(.unicode, false)])] :=
    Lexeme.spellsFirmly_of_read fun _ => rfl
  have named : SpellsFirmly ['\\', letter] [.part (.charClass (.named name false))] := by
    refine Lexeme.spellsFirmly_of_read ?_
    intro rest
    simp only [Lexeme.read, List.cons_append, List.nil_append, escaped]
    rfl
  have builds := buildsAlternatives_nil.group
    (builds_part (.charClass (.named name false)) first) [(.unicode, false)]
  refine ⟨_, _, opening.append (named.append spellsFirmly_closing), builds,
    ⟨⟨_, rfl⟩, ⟨_, rfl⟩⟩, rfl, ?_⟩
  intro change same
  cases same

theorem writes_word (usual : modes.Usual) :
    Writes modes Node.word first first Fragment.word :=
  (writesUnit_ascii fun _ => rfl).quantify usual .oneOrMore rfl

theorem writesUnit_digit : WritesUnit modes Node.digit first first Fragment.digit :=
  writesUnit_ascii fun _ => rfl

theorem writesUnit_blank (usual : modes.Usual) :
    WritesUnit modes (Node.blank modes) first first Fragment.blank := by
  have firm : SpellsFirmly Fragment.blank [.part (.charClass (.named .blank false))] :=
    Lexeme.spellsFirmly_of_read fun _ => rfl
  have unit : WritesUnit modes _ first first Fragment.blank := writesUnit_class usual first rfl firm
  exact unit

theorem writesUnit_tab :
    WritesUnit modes (Node.ofText modes ['\t']) first first Fragment.tab := by
  refine writesUnit_of_part (.literal '\t') ?_ rfl ⟨_, rfl⟩ ?_
  · exact Lexeme.spellsFirmly_of_read fun _ => rfl
  · intro change same
    cases same

theorem writesUnit_lineBreak :
    WritesUnit modes (Node.lineBreak modes) first first Fragment.lineBreak := by
  have escape (letter character : Char)
      (escaped : ∀ rest, Lexeme.readEscape (letter :: rest) = .ok (.literal character, rest)) :
      WritesUnit modes [.literal modes character] first first ['\\', letter] := by
    refine writesUnit_of_part (.literal character) ?_ rfl ⟨_, rfl⟩ ?_
    · refine Lexeme.spellsFirmly_of_read ?_
      intro rest
      simp only [Lexeme.read, List.cons_append, List.nil_append, escaped]
      rfl
    · intro change same
      cases same
  have carriage := escape 'r' '\r' fun _ => rfl
  have feed := escape 'n' '\n' fun _ => rfl
  have both := carriage.writes.append feed.writes (by simp [Text.Detached])
  exact ((writesAlternatives_nil.append both).append carriage.writes).unit feed.writes

/-! ### Tokens -/

namespace Token.Means

variable {token : Token} {row : NodeRow} {sound : Bool}

theorem legible (means : token.Means modes row sound) (usual : modes.Usual)
    (first : Nat) : Legible (Writes modes row first first) sound token.text := by
  cases means with
  | literal value => exact .good (writes_escapeLiteral value)
  | members members =>
      unfold ofMembers ClassText.anyOf Node.ofMembers
      by_cases empty : members.isEmpty = true
      · rw [if_pos empty, if_pos empty]
        exact .nil
      · rw [if_neg empty, if_neg empty]
        exact .good (writesUnit_members usual (by simpa using empty)).writes
  | excluded excluded =>
      unfold ofExcluded ClassText.noneOf Node.ofExcluded
      by_cases empty : excluded.isEmpty = true
      · rw [if_pos empty, if_pos empty]
        exact .good (writes_something usual)
      · rw [if_neg empty, if_neg empty]
        have present : excluded ≠ [] := by simpa using empty
        exact .good ((writesUnit_excluded usual present).quantify usual .oneOrMore rfl)
  | bounds bounds =>
      simp only [ofBounds, ClassText.ofBounds, Node.ofBounds, ClassText.areOrdered]
      by_cases empty : (ClassText.pairs bounds).1.isEmpty = true
      · rw [if_pos empty, if_pos empty, List.isEmpty_iff.mp empty]
        exact .nil
      · rw [if_neg empty, if_neg empty]
        exact (legible_intervals usual (by simpa using empty)).imp WritesUnit.writes
  | anything => exact .good (writes_anything usual)
  | something => exact .good (writes_something usual)
  | lineBreak => exact .good writesUnit_lineBreak.writes
  | tab => exact .good writesUnit_tab.writes
  | word => exact .good (writes_word usual)
  | digit => exact .good writesUnit_digit.writes
  | blank => exact .good (writesUnit_blank usual).writes

theorem legibleUnit (means : token.Means modes row sound) (atom : token.kind = .atom)
    (present : token.text ≠ []) (usual : modes.Usual) (first : Nat) :
    Legible (WritesUnit modes row first first) sound token.text := by
  cases means with
  | literal value =>
      have one : value.length = 1 := (kindOf_escapeLiteral value).mp atom
      obtain ⟨character, same⟩ := List.length_eq_one_iff.mp one
      subst same
      exact .good (writesUnit_character character)
  | members members =>
      unfold ofMembers ClassText.anyOf Node.ofMembers at *
      by_cases empty : members.isEmpty = true
      · simp [empty] at present
      · rw [if_neg empty, if_neg empty]
        exact .good (writesUnit_members usual (by simpa using empty))
  | bounds bounds =>
      simp only [ofBounds, ClassText.ofBounds, Node.ofBounds, ClassText.areOrdered] at *
      by_cases empty : (ClassText.pairs bounds).1.isEmpty = true
      · simp [empty] at present
      · rw [if_neg empty, if_neg empty]
        exact legible_intervals usual (by simpa using empty)
  | excluded excluded => cases atom
  | anything => cases atom
  | something => cases atom
  | word => cases atom
  | lineBreak => exact .good writesUnit_lineBreak
  | tab => exact .good writesUnit_tab
  | digit => exact .good writesUnit_digit
  | blank => exact .good (writesUnit_blank usual)

end Token.Means
end ReadableRegex

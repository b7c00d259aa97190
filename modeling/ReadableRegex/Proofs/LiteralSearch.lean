import ReadableRegex.Phrase.Compile
import ReadableRegex.Proofs.Alternation.Joining
import ReadableRegex.Proofs.Interleaving
import ReadableRegex.Proofs.Replacing

/-!
Searching for a text that stands for itself. The pattern of the text is read as the row of its
characters, whatever they mean in patterns otherwise. So the matches are the occurrences that a scan
from left to right meets, each of them looked for behind the one before.
-/

namespace ReadableRegex

/-! ### Occurrences -/

namespace Text

variable {needle : Text}

/-- The parts of the text between the occurrences of the needle. The text is scanned from left to
right, and the scan goes on behind each occurrence. -/
def splitOn (needle : Text) : Text → List Text
  | [] => [[]]
  | head :: tail =>
      if needle <+: head :: tail then [] :: splitOn needle (tail.drop (needle.length - 1))
      else (splitOn needle tail).modifyHead (head :: ·)
termination_by text => text.length
decreasing_by
  · simp only [List.length_drop, List.length_cons]
    omega
  · simp

theorem splitOn_nil : splitOn needle [] = [[]] := by
  rw [splitOn]

theorem splitOn_of_prefix {text : Text} (nonempty : needle ≠ []) (begins : needle <+: text) :
    splitOn needle text = [] :: splitOn needle (text.drop needle.length) := by
  cases text with
  | nil => exact absurd (List.prefix_nil.mp begins) nonempty
  | cons head tail =>
      obtain ⟨count, length⟩ :=
        Nat.exists_eq_succ_of_ne_zero (mt List.length_eq_zero_iff.mp nonempty)
      rw [splitOn, if_pos begins, length, List.drop_succ_cons, Nat.succ_sub_one]

theorem splitOn_of_not_prefix {head : Char} {tail : Text} (other : ¬ needle <+: head :: tail) :
    splitOn needle (head :: tail) = (splitOn needle tail).modifyHead (head :: ·) := by
  rw [splitOn, if_neg other]

theorem cons_prefix_drop_iff {text rest : Text} {character : Char} {start : Nat} :
    character :: rest <+: text.drop start ↔
      text[start]? = some character ∧ rest <+: text.drop (start + 1) := by
  rw [← List.head?_drop, ← List.tail_drop]
  cases text.drop start with
  | nil => simp
  | cons head tail => simp [List.cons_prefix_cons, eq_comm]

theorem lt_length_of_prefix_drop {text : Text} {start : Nat} (nonempty : needle ≠ [])
    (stands : needle <+: text.drop start) : start < text.length := by
  refine Nat.lt_of_not_le ?_
  intro outside
  rw [List.drop_eq_nil_iff.mpr outside] at stands
  exact nonempty (List.prefix_nil.mp stands)

theorem lt_length_of_drop_eq_cons {text tail : Text} {head : Char} {start : Nat}
    (rest : text.drop start = head :: tail) : start < text.length := by
  refine Nat.lt_of_not_le ?_
  intro outside
  rw [List.drop_eq_nil_iff.mpr outside] at rest
  cases rest

theorem infix_iff_prefix_drop {text : Text} :
    needle <:+: text ↔ ∃ start, needle <+: text.drop start := by
  rw [List.infix_iff_prefix_suffix]
  constructor
  · rintro ⟨rest, begins, ends⟩
    exact ⟨_, List.suffix_iff_eq_drop.mp ends ▸ begins⟩
  · rintro ⟨start, begins⟩
    exact ⟨_, begins, List.drop_suffix start text⟩

end Text

/-! ### The language of a literal -/

namespace Node

variable {subject : Array Char} {modes : Modes}

theorem spans_literal (exact : modes.ignoreCase = false) (character : Char) (start stop : Nat) :
    spans subject (.literal modes character) start stop ↔
      stop = start + 1 ∧ subject.toList[start]? = some character := by
  have same : modes.comparison.closure (.ofChars [character]) = .ofChars [character] := by
    simp [Comparison.closure, Modes.comparison, exact]
  rw [spans, same, Spans.read, Array.getElem?_toList]
  cases subject[start]? with
  | none => simp
  | some found => simp [CharSet.holds_ofChars]

theorem rowSpans_ofText (exact : modes.ignoreCase = false) (value : Text) (start stop : Nat) :
    rowSpans subject (ofText modes value) start stop ↔
      stop = start + value.length ∧ value <+: subject.toList.drop start := by
  induction value generalizing start with
  | nil => simp [ofText, rowSpans, Spans.here, eq_comm]
  | cons character rest inductionHypothesis =>
      have later : rowSpans subject (ofText modes (character :: rest)) start stop ↔
          ∃ middle, spans subject (.literal modes character) start middle ∧
            rowSpans subject (ofText modes rest) middle stop := Iff.rfl
      rw [later, Text.cons_prefix_drop_iff]
      constructor
      · rintro ⟨middle, first, further⟩
        obtain ⟨rfl, here⟩ := (spans_literal exact character start middle).mp first
        obtain ⟨rfl, behind⟩ := (inductionHypothesis _).mp further
        refine ⟨?_, here, behind⟩
        rw [List.length_cons]
        omega
      · rintro ⟨rfl, here, behind⟩
        refine ⟨start + 1, (spans_literal exact character start _).mpr ⟨rfl, here⟩, ?_⟩
        refine (inductionHypothesis _).mpr ⟨?_, behind⟩
        rw [List.length_cons]
        omega

end Node

namespace Phrase

variable {phrase : Phrase} {options : Options} {calls : List Call} {value : Text}
  {subject : Array Char}

theorem language_of_literal [PropertyTable] (run : phrase = (ofOptions options).run calls)
    (only : calls.filter (fun call => call.part ≠ .flags) = [.literal value])
    (nonempty : value ≠ []) (exact : phrase.flags.has .ignoreCase = false) (start stop : Nat) :
    phrase.source.language phrase.flags subject start stop ↔
      stop = start + value.length ∧ value <+: subject.toList.drop start := by
  have draft : phrase.draft = ((ofOptions options).run [.literal value]).draft := by
    rw [run, draft_run_unflagged, only]
  have cooked : ∀ call ∈ [Call.literal value], call.isRaw = false :=
    List.forall_mem_singleton.mpr rfl
  have follows := follows_of_run (rfl : (ofOptions options).run [.literal value] = _) cooked
    phrase.flags
  have closed : ((ofOptions options).run [.literal value]).draft.enclosing = [] := by
    rw [draft_run]
    exact congrArg Draft.enclosing (Draft.edit_append_of_ne (Text.escapeLiteral_ne_nil nonempty))
  have row : ((Sketch.blank 0).run (Modes.ofFlags phrase.flags) [.literal value]).row
      (Modes.ofFlags phrase.flags) = Node.ofText (Modes.ofFlags phrase.flags) value := by
    simp [Sketch.run, Sketch.after, Call.nodeEdits, Sketch.edit, Node.ofText, nonempty, Sketch.row,
      Sketch.branches, Sketch.branch, Sketch.enclose, Sketch.inner, Sketch.settle, Sketch.blank,
      Node.ofBranches]
  have language : ((ofOptions options).run [.literal value]).draft.render.language phrase.flags
      subject = _ := follows.language (Or.inr closed)
  rw [source, draft, language, row]
  exact Node.rowSpans_ofText exact value start stop

end Phrase

/-! ### Rows of occurrences -/

variable {subject : Array Char} {program : Program} {value : Text} {cursor : Nat}

/-- The matches of the program are the places where the text stands in the subject. -/
structure Program.Spells (program : Program) (value : Text) (subject : Array Char) : Prop where
  nonempty : value ≠ []
  found : ∀ start, value <+: subject.toList.drop start →
    (program.matchAt subject start).isSome = true
  covers : ∀ start hit, program.matchAt subject start = some hit →
    value <+: subject.toList.drop hit.start ∧ hit.stop = hit.start + value.length

theorem Hit.between_eq_take (subject : Array Char) (start stop : Nat) :
    between subject start stop = (subject.toList.drop start).take (stop - start) := by
  rw [between, Array.toList_extract]

/-- A character in front of the next match belongs to the text before it. -/
theorem gap_cons {head : Char} {tail : Text} (rest : subject.toList.drop cursor = head :: tail)
    {hits : List (Hit subject)} (spaced : Spaced (cursor + 1) hits) :
    gap subject cursor hits = head :: gap subject (cursor + 1) hits := by
  have inside : cursor < subject.size := Text.lt_length_of_drop_eq_cons rest
  have first : Hit.between subject cursor (cursor + 1) = [head] := by
    rw [Hit.between_eq_take, rest, Nat.add_sub_cancel_left]
    rfl
  have split {stop : Nat} (behind : cursor + 1 ≤ stop) : Hit.between subject cursor stop =
      head :: Hit.between subject (cursor + 1) stop := by
    rw [← Hit.between_append subject (Nat.le_succ cursor) behind, first]
    rfl
  cases spaced with
  | nil => exact split inside
  | cons behind spaced => exact split behind

namespace Program

theorem search_succ (missing : program.matchAt subject cursor = none) :
    program.search subject cursor = program.search subject (cursor + 1) := by
  rw [search_eq_findSome?, search_eq_findSome?]
  by_cases inside : cursor ≤ subject.size
  · rw [Nat.succ_sub inside, List.range'_succ, List.findSome?_cons, missing, Nat.succ_sub_succ]
  · have here : subject.size + 1 - cursor = 0 := by omega
    have next : subject.size + 1 - (cursor + 1) = 0 := by omega
    rw [here, next]
    rfl

namespace Spells

variable (spells : program.Spells value subject)

include spells

theorem length_pos : 0 < value.length :=
  List.length_pos_iff.mpr spells.nonempty

theorem covers_of_search {hit : Hit subject} (found : program.search subject cursor = some hit) :
    value <+: subject.toList.drop hit.start ∧ hit.stop = hit.start + value.length :=
  spells.covers hit.start hit (matchAt_of_search found)

theorem neverEmpty : program.NeverEmpty subject := by
  intro start hit matched
  have positive := spells.length_pos
  have stop := (spells.covers start hit matched).2
  omega

theorem hitAfter_eq_search : program.hitAfter subject cursor = program.search subject cursor :=
  spells.neverEmpty.hitAfter_eq_search cursor

theorem search_of_prefix (stands : value <+: subject.toList.drop cursor) :
    ∃ hit, program.search subject cursor = some hit ∧ hit.start = cursor := by
  obtain ⟨hit, matched⟩ := Option.isSome_iff_exists.mp (spells.found cursor stands)
  exact ⟨hit, matchAt_eq_some_iff.mp matched⟩

theorem search_of_not_prefix (other : ¬ value <+: subject.toList.drop cursor) :
    program.search subject cursor = program.search subject (cursor + 1) := by
  apply search_succ
  refine Option.eq_none_iff_forall_ne_some.mpr ?_
  intro hit matched
  have stands := (spells.covers cursor hit matched).1
  rw [start_of_matchAt matched] at stands
  exact other stands

theorem search_of_size_le (outside : subject.size ≤ cursor) :
    program.search subject cursor = none := by
  refine Option.eq_none_iff_forall_ne_some.mpr ?_
  intro hit found
  have positive := spells.length_pos
  have behind := le_start_of_search found
  have stop := (spells.covers_of_search found).2
  have within := hit.stop_le_size
  omega

theorem isSome_search_iff :
    (program.search subject 0).isSome = true ↔ value <:+: subject.toList := by
  rw [isSome_search_iff_exists, Text.infix_iff_prefix_drop]
  constructor
  · rintro ⟨start, present⟩
    obtain ⟨hit, matched⟩ := Option.isSome_iff_exists.mp present
    exact ⟨hit.start, (spells.covers start hit matched).1⟩
  · rintro ⟨start, stands⟩
    exact ⟨start, spells.found start stands⟩

theorem row_eq_rowAfter : program.row subject = program.rowAfter subject 0 :=
  spells.neverEmpty.row_eq_rowAfter

theorem rowAfter_of_not_prefix (other : ¬ value <+: subject.toList.drop cursor) :
    program.rowAfter subject cursor = program.rowAfter subject (cursor + 1) := by
  have same : program.hitAfter subject cursor = program.hitAfter subject (cursor + 1) := by
    rw [spells.hitAfter_eq_search, spells.hitAfter_eq_search, spells.search_of_not_prefix other]
  cases found : program.hitAfter subject (cursor + 1) with
  | none => rw [rowAfter_of_none found, rowAfter_of_none (same.trans found)]
  | some hit => rw [rowAfter_of_some found, rowAfter_of_some (same.trans found)]

theorem text_of_mem_rowAfter {hit : Hit subject} (member : hit ∈ program.rowAfter subject cursor) :
    hit.text = value := by
  obtain ⟨stands, stop⟩ := spells.covers hit.start hit (matchAt_of_mem_rowAfter member)
  rw [Hit.text, Hit.between_eq_take, stop, Nat.add_sub_cancel_left]
  exact (List.prefix_iff_eq_take.mp stands).symm

/-- The texts before, between and behind the matches are the parts of a split. -/
theorem gaps_eq_splitOn (inside : cursor ≤ subject.size) :
    gap subject cursor (program.rowAfter subject cursor) ::
        (pieces (program.rowAfter subject cursor)).map Prod.snd =
      Text.splitOn value (subject.toList.drop cursor) := by
  induction remaining : subject.size - cursor using Nat.strongRecOn generalizing cursor with
  | ind bound inductionHypothesis =>
      -- Where the text stands a part ends; anywhere else the part gets one character longer.
      by_cases stands : value <+: subject.toList.drop cursor
      · obtain ⟨hit, found, start⟩ := spells.search_of_prefix stands
        have stop := (spells.covers_of_search found).2
        have positive := spells.length_pos
        have within := hit.stop_le_size
        have later := inductionHypothesis _ (by omega) within rfl
        rw [← spells.hitAfter_eq_search] at found
        have front : gap subject cursor (hit :: program.rowAfter subject hit.stop) = [] := by
          rw [gap, start, Hit.between_eq_take, Nat.sub_self, List.take_zero]
        rw [rowAfter_of_some found, front, pieces, List.map_cons, later, stop, start,
          Text.splitOn_of_prefix spells.nonempty stands, List.drop_drop]
      · cases rest : subject.toList.drop cursor with
        | nil =>
            have outside : subject.size ≤ cursor := List.drop_eq_nil_iff.mp rest
            have missing : program.hitAfter subject cursor = none := by
              rw [spells.hitAfter_eq_search, spells.search_of_size_le outside]
            rw [rowAfter_of_none missing, gap, Hit.between_eq_take, rest, List.take_nil,
              Text.splitOn_nil]
            rfl
        | cons head tail =>
            have next : subject.toList.drop (cursor + 1) = tail := by
              rw [← List.tail_drop, rest]
              rfl
            have within : cursor < subject.size := Text.lt_length_of_drop_eq_cons rest
            have later := inductionHypothesis _ (by omega) within rfl
            rw [next] at later
            have row := spells.rowAfter_of_not_prefix stands
            rw [rest] at stands
            rw [row, gap_cons rest (spaced_rowAfter program subject (cursor + 1)),
              Text.splitOn_of_not_prefix stands, ← later]
            rfl

end Spells
end Program

/-! ### Whole searches -/

theorem fill_eq_intercalate (replacement first : Text) (parts : List (Hit subject × Text)) :
    first ++ fill (fun _ => replacement) parts =
      List.intercalate replacement (first :: parts.map Prod.snd) := by
  induction parts generalizing first with
  | nil => simp [fill]
  | cons part rest inductionHypothesis =>
      rw [fill_cons, inductionHypothesis, List.map_cons, List.intercalate_cons_cons,
        List.append_assoc]

namespace Phrase

variable {phrase : Phrase} {options : Options} {calls : List Call} {matcher : Matcher}

theorem spells_of_literal [PropertyTable] [SizeRule] (run : phrase = (ofOptions options).run calls)
    (only : calls.filter (fun call => call.part ≠ .flags) = [.literal value])
    (nonempty : value ≠ []) (exact : phrase.flags.has .ignoreCase = false)
    (compiled : phrase.compile = .ok matcher) (subject : Array Char) :
    matcher.program.Spells value subject := by
  obtain ⟨_, _, assembled⟩ := Matcher.compile_eq_ok_iff.mp compiled
  have language (start stop : Nat) : phrase.source.language phrase.flags subject start stop ↔ _ :=
    language_of_literal run only nonempty exact start stop
  refine ⟨nonempty, ?_, ?_⟩
  · intro start stands
    apply (Program.isSome_matchAt_of_compile assembled start).mpr
    have inside := Text.lt_length_of_prefix_drop nonempty stands
    exact ⟨Nat.le_of_lt inside, _, (language start _).mpr ⟨rfl, stands⟩⟩
  · intro start hit matched
    obtain ⟨stop, stands⟩ := (language _ _).mp (Program.language_of_matchAt assembled matched)
    exact ⟨stands, stop⟩

/-- Searching for a literal is searching for its text, whatever its characters mean in patterns.
The matches are the occurrences that a scan from left to right meets, and replacing them is
replacing these occurrences. -/
theorem search_of_literal [PropertyTable] [SizeRule] (run : phrase = (ofOptions options).run calls)
    (only : calls.filter (fun call => call.part ≠ .flags) = [.literal value])
    (nonempty : value ≠ []) (all : phrase.flags.has .global = true)
    (exact : phrase.flags.has .ignoreCase = false) (free : phrase.flags.has .sticky = false)
    (compiled : phrase.compile = .ok matcher) (subject : Array Char) :
    (matcher.isMatch subject = true ↔ value <:+: subject.toList) ∧
    matcher.texts subject =
      List.replicate ((Text.splitOn value subject.toList).length - 1) value ∧
    (∀ replacement, matcher.replaceLiteral subject replacement =
      List.intercalate replacement (Text.splitOn value subject.toList)) ∧
    ∀ start stop, phrase.source.language phrase.flags subject start stop ↔
      stop = start + value.length ∧ value <+: subject.toList.drop start := by
  have spells := spells_of_literal run only nonempty exact compiled subject
  have flags : matcher.flags = phrase.flags := (Matcher.compile_eq_ok_iff.mp compiled).2.1
  have hits : matcher.hits subject = matcher.program.rowAfter subject 0 := by
    rw [Matcher.hits_eq, flags, free, all, if_neg (by decide), if_pos rfl, spells.row_eq_rowAfter]
  have gaps := spells.gaps_eq_splitOn (Nat.zero_le subject.size)
  rw [← hits, List.drop_zero] at gaps
  refine ⟨?_, ?_, ?_, language_of_literal run only nonempty exact⟩
  · rw [Matcher.isMatch_eq_isSome_exec, Matcher.exec_of_not_sticky subject (flags ▸ free)]
    exact spells.isSome_search_iff
  · apply List.eq_replicate_iff.mpr
    refine ⟨?_, ?_⟩
    · have count := congrArg List.length (map_fst_pieces (matcher.hits subject))
      rw [List.length_map] at count
      rw [← gaps, List.length_cons, List.length_map, count, Matcher.texts, List.length_map]
      rfl
    · intro text member
      obtain ⟨hit, found, rfl⟩ := List.mem_map.mp member
      rw [hits] at found
      exact spells.text_of_mem_rowAfter found
  · intro replacement
    rw [Matcher.replaceLiteral, Matcher.replaceBy_eq_fill, fill_eq_intercalate, gaps]

/-- Occurrences that overlap are passed over, and the dot is no more than a dot. -/
theorem search_of_literal_of_overlap :
    ∃ matcher, (initial.run [.flag .dotAll true, .literal "a.a".toList]).compile = .ok matcher ∧
      matcher.texts "a.a.a.aba".toList.toArray = ["a.a".toList, "a.a".toList] ∧
      matcher.replaceLiteral "a.a.a.aba".toList.toArray "$0".toList = "$0.$0ba".toList ∧
      matcher.isMatch "aba".toList.toArray = false := by
  let phrase := initial.run [.flag .dotAll true, .literal "a.a".toList]
  have compiles : phrase.compile.toOption.isSome = true := by decide +kernel
  cases compiled : phrase.compile with
  | error cause =>
      rw [compiled] at compiles
      cases compiles
  | ok matcher =>
      have searched := search_of_literal (rfl : phrase = _) rfl (by decide) (by decide) (by decide)
        (by decide) compiled
      have parts : Text.splitOn "a.a".toList "a.a.a.aba".toList = [[], ['.'], "ba".toList] := by
        simp [Text.splitOn]
      obtain ⟨_, texts, replaced, _⟩ := searched "a.a.a.aba".toList.toArray
      rw [parts] at texts
      refine ⟨matcher, rfl, texts, ?_, ?_⟩
      · rw [replaced, parts]
        rfl
      · apply Bool.eq_false_iff.mpr
        rw [ne_eq, (searched "aba".toList.toArray).1]
        decide

end Phrase
end ReadableRegex

import ReadableRegex.Proofs.FirstMatch
import ReadableRegex.Proofs.Offsets.Cuts

/-!
Replacements by the matches of an expression. A subject is a row of pieces: the text before the
first match, then each match with the text behind it. A replacement puts something else in the
place of each match and leaves everything between as it is.
-/

namespace ReadableRegex

variable {program : Program} {subject : Array Char} {cursor : Nat} {hit : Hit subject}
  {hits rest : List (Hit subject)}

/-! ### Matches that follow one another -/

/-- No match begins before the cursor, nor before the one in front of it has ended. -/
inductive Spaced : Nat → List (Hit subject) → Prop where
  | nil {cursor : Nat} : Spaced cursor []
  | cons {cursor : Nat} {hit : Hit subject} {rest : List (Hit subject)}
      (behind : cursor ≤ hit.start) (spaced : Spaced hit.stop rest) : Spaced cursor (hit :: rest)

namespace Spaced

theorem mono {earlier : Nat} (spaced : Spaced cursor hits) (order : earlier ≤ cursor) :
    Spaced earlier hits := by
  cases spaced with
  | nil => exact .nil
  | cons behind spaced => exact .cons (Nat.le_trans order behind) spaced

theorem le_start (spaced : Spaced cursor hits) (member : hit ∈ hits) : cursor ≤ hit.start := by
  induction spaced with
  | nil => cases member
  | @cons cursor first rest behind spaced inductionHypothesis =>
      rcases List.mem_cons.mp member with same | later
      · rw [same]
        exact behind
      · have order := first.start_le_stop
        have bound := inductionHypothesis later
        omega

theorem pairwise (spaced : Spaced cursor hits) :
    hits.Pairwise (fun earlier later => earlier.stop ≤ later.start) := by
  induction spaced with
  | nil => exact .nil
  | cons behind spaced inductionHypothesis =>
      apply List.pairwise_cons.mpr
      exact ⟨fun later member => spaced.le_start member, inductionHypothesis⟩

end Spaced

theorem Program.start_of_hitAfter (found : program.hitAfter subject cursor = some hit) :
    cursor ≤ hit.start := by
  unfold Program.hitAfter at found
  split at found
  · rename_i first searched
    split at found
    · exact Nat.le_trans (Nat.le_succ cursor) (Program.le_start_of_search found)
    · cases found
      exact Program.le_start_of_search searched
  · cases found

theorem spaced_rowAfter (program : Program) (subject : Array Char) (cursor : Nat) :
    Spaced cursor (program.rowAfter subject cursor) := by
  induction remaining : subject.size - cursor using Nat.strongRecOn generalizing cursor with
  | ind bound inductionHypothesis =>
      rw [Program.rowAfter]
      split
      · rename_i hit found
        have progress := Program.lt_stop_of_hitAfter found
        have within := hit.stop_le_size
        apply Spaced.cons (Program.start_of_hitAfter found)
        exact inductionHypothesis _ (by omega) _ rfl
      · exact .nil

theorem spaced_row (program : Program) (subject : Array Char) :
    Spaced 0 (program.row subject) := by
  unfold Program.row
  split
  · exact .cons (Nat.zero_le _) (spaced_rowAfter program subject _)
  · exact .nil

theorem spaced_chainFrom (program : Program) (subject : Array Char) (global : Bool)
    (cursor : Nat) : Spaced cursor (program.chainFrom subject global cursor) := by
  induction remaining : subject.size + 1 - cursor using Nat.strongRecOn generalizing cursor with
  | ind bound inductionHypothesis =>
      cases found : program.matchAt subject cursor with
      | none =>
          rw [Program.chainFrom_of_none found]
          exact .nil
      | some hit =>
          have begins := Program.start_of_matchAt found
          have within := Nat.le_trans hit.start_le_stop hit.stop_le_size
          have progress := Program.lt_cursorAfter (Nat.le_of_eq begins.symm)
          rw [Program.chainFrom_of_some found]
          apply Spaced.cons (Nat.le_of_eq begins.symm)
          cases global with
          | false => exact .nil
          | true =>
              have later := inductionHypothesis _ (by omega) (Program.cursorAfter cursor hit) rfl
              exact later.mono (Program.stop_le_cursorAfter hit)

theorem Matcher.spaced_hits (matcher : Matcher) (subject : Array Char) :
    Spaced 0 (matcher.hits subject) := by
  rw [Matcher.hits_eq]
  split
  · exact spaced_chainFrom _ _ _ _
  · split
    · exact spaced_row _ _
    · cases matcher.program.search subject 0 with
      | none => exact .nil
      | some hit => exact .cons (Nat.zero_le _) .nil

/-! ### Pieces -/

/-- The text from the cursor to the first match, or to the end if there is none. -/
def gap (subject : Array Char) (cursor : Nat) : List (Hit subject) → Text
  | [] => Hit.between subject cursor subject.size
  | hit :: _ => Hit.between subject cursor hit.start

/-- Each match with the text between it and the next one. -/
def pieces {subject : Array Char} : List (Hit subject) → List (Hit subject × Text)
  | [] => []
  | hit :: rest => (hit, gap subject hit.stop rest) :: pieces rest

def fill {subject : Array Char} (expand : Hit subject → Text)
    (pieces : List (Hit subject × Text)) : Text :=
  pieces.flatMap (fun piece => expand piece.1 ++ piece.2)

theorem fill_cons (expand : Hit subject → Text) (piece : Hit subject × Text)
    (rest : List (Hit subject × Text)) :
    fill expand (piece :: rest) = expand piece.1 ++ (piece.2 ++ fill expand rest) := by
  rw [fill, List.flatMap_cons, List.append_assoc]
  rfl

theorem map_fst_pieces (hits : List (Hit subject)) : (pieces hits).map Prod.fst = hits := by
  induction hits with
  | nil => rfl
  | cons hit rest inductionHypothesis => exact congrArg (hit :: ·) inductionHypothesis

theorem splice_eq_fill (expand : Hit subject → Text) (cursor : Nat) (hits : List (Hit subject)) :
    Matcher.splice expand cursor hits = gap subject cursor hits ++ fill expand (pieces hits) := by
  induction hits generalizing cursor with
  | nil => exact (List.append_nil _).symm
  | cons hit rest inductionHypothesis =>
      rw [Matcher.splice, inductionHypothesis, pieces, fill_cons, List.append_assoc]
      rfl

theorem Hit.between_append (subject : Array Char) {start middle stop : Nat}
    (front : start ≤ middle) (back : middle ≤ stop) :
    between subject start middle ++ between subject middle stop = between subject start stop := by
  unfold between
  rw [← Array.toList_append, Array.extract_append_extract, Nat.min_eq_left front,
    Nat.max_eq_right back]

theorem Hit.between_self (subject : Array Char) (position : Nat) :
    between subject position position = [] := by
  simp [between]

theorem Spaced.fill_text (spaced : Spaced cursor hits) (inside : cursor ≤ subject.size) :
    gap subject cursor hits ++ fill Hit.text (pieces hits) =
      Hit.between subject cursor subject.size := by
  induction spaced with
  | nil => exact List.append_nil _
  | @cons cursor hit rest behind spaced inductionHypothesis =>
      have later := inductionHypothesis hit.stop_le_size
      have order := hit.start_le_stop
      rw [pieces, fill_cons, later, gap, Hit.text,
        Hit.between_append subject order hit.stop_le_size,
        Hit.between_append subject behind (Nat.le_trans order hit.stop_le_size)]

theorem Spaced.fill_text_before {earlier later : List (Hit subject × Text)} {behind : Text}
    (spaced : Spaced cursor hits) (split : pieces hits = earlier ++ (hit, behind) :: later) :
    gap subject cursor hits ++ fill Hit.text earlier = Hit.between subject cursor hit.start := by
  induction spaced generalizing earlier with
  | nil => simp [pieces] at split
  | @cons cursor first rest bound spaced inductionHypothesis =>
      cases earlier with
      | nil =>
          cases split
          exact List.append_nil _
      | cons piece before =>
          rw [pieces, List.cons_append] at split
          injection split with same split
          have further := inductionHypothesis split
          have member : hit ∈ rest := by
            rw [← map_fst_pieces rest, split]
            simp
          have order := first.start_le_stop
          have reached := spaced.le_start member
          rw [← same, fill_cons, further, gap, Hit.text,
            Hit.between_append subject order reached,
            Hit.between_append subject bound (Nat.le_trans order reached)]

/-! ### Replacements -/

theorem Hit.isBoundary_between {position : Nat} (inside : position ≤ subject.size) :
    Text.IsBoundary subject.toList (Text.byteSize (Hit.between subject 0 position)) := by
  refine ⟨Hit.between subject 0 position, Hit.between subject position subject.size, ?_, rfl⟩
  rw [Hit.between_append subject (Nat.zero_le position) inside, Hit.between, Array.extract_size]

theorem Template.expand_whole (program : Program) (hit : Hit subject) :
    Template.expand program (Template.ofText ['$', '0']) hit = hit.text := by
  have index : Template.reference ['0'] = .group 0 := by decide
  have parsed : Template.ofText ['$', '0'] = [.group 0] := by
    simp [Template.ofText, Template.isNameChar, index]
  rw [parsed, Template.expand, List.flatMap_singleton]
  rfl

namespace Matcher

theorem replaceBy_eq_fill (matcher : Matcher) (subject : Array Char)
    (expand : Hit subject → Text) :
    matcher.replaceBy subject expand =
      gap subject 0 (matcher.hits subject) ++ fill expand (pieces (matcher.hits subject)) := by
  rw [replaceBy_eq_splice, splice_eq_fill]

theorem fill_text_hits (matcher : Matcher) (subject : Array Char) :
    gap subject 0 (matcher.hits subject) ++ fill Hit.text (pieces (matcher.hits subject)) =
      subject.toList := by
  rw [(matcher.spaced_hits subject).fill_text (Nat.zero_le _), Hit.between, Array.extract_size]

/-- Under all flags a replacement exchanges the matches of the subject and nothing else. The
subject is a text before the first match and then each match with the text behind it; the result
has the same texts with what the replacement makes of each match between them. -/
theorem replaces_matches (matcher : Matcher) (subject : Array Char) :
    (∃ (first : Text) (parts : List (Hit subject × Text)),
      parts.map Prod.fst = matcher.hits subject ∧
      parts.map (fun part => part.1.text) = matcher.texts subject ∧
      first ++ fill Hit.text parts = subject.toList ∧
      (∀ earlier hit behind later, parts = earlier ++ (hit, behind) :: later →
        first ++ fill Hit.text earlier = Hit.between subject 0 hit.start) ∧
      (∀ expand, matcher.replaceBy subject expand = first ++ fill expand parts) ∧
      (∀ template, matcher.replace subject template =
        first ++ fill (Template.expand matcher.program template) parts) ∧
      ∀ replacement, matcher.replaceLiteral subject replacement =
        first ++ fill (fun _ => replacement) parts) ∧
    (matcher.hits subject).Pairwise (fun earlier later => earlier.stop ≤ later.start) ∧
    (∀ hit ∈ matcher.hits subject,
      Text.IsBoundary subject.toList (Text.byteSize (Hit.between subject 0 hit.start)) ∧
      Text.IsBoundary subject.toList (Text.byteSize (Hit.between subject 0 hit.stop))) ∧
    (matcher.texts subject = [] → ∀ expand, matcher.replaceBy subject expand = subject.toList) ∧
    matcher.replace subject (Template.ofText ['$', '0']) = subject.toList := by
  have whole := matcher.fill_text_hits subject
  have replaced := matcher.replaceBy_eq_fill subject
  have spaced := matcher.spaced_hits subject
  have firsts := map_fst_pieces (matcher.hits subject)
  refine ⟨⟨gap subject 0 (matcher.hits subject), pieces (matcher.hits subject), firsts, ?_,
    whole, ?_, replaced, fun template => replaced _, fun replacement => replaced _⟩,
    spaced.pairwise, ?_, ?_, ?_⟩
  · rw [texts, ← firsts, List.map_map, firsts]
    rfl
  · intro earlier hit behind later split
    exact spaced.fill_text_before split
  · intro hit member
    constructor
    · apply Hit.isBoundary_between
      exact Nat.le_trans hit.start_le_stop hit.stop_le_size
    · exact Hit.isBoundary_between hit.stop_le_size
  · intro none expand
    have missing : matcher.hits subject = [] := List.map_eq_nil_iff.mp none
    -- without pieces there is nowhere to put the replacement
    rw [missing] at whole
    rw [replaced, missing]
    exact whole
  · have same : Template.expand matcher.program (Template.ofText ['$', '0']) =
        (Hit.text : Hit subject → Text) := funext (Template.expand_whole matcher.program)
    rw [replace, same, replaced]
    exact whole

/-- A sticky row of stars passes over what stands between its empty matches. -/
example :
    (compile "a*".toList { Options.initial with flags := ⟨0x11#8⟩ }).toOption.map
        (fun matcher => matcher.replaceBy #['a', 'é'] (fun hit => '<' :: (hit.text ++ ['>']))) =
      some "<a><>é<>".toList := by
  decide +kernel

end Matcher
end ReadableRegex

import ReadableRegex.Proofs.Hosted

/-!
Bounds in pattern text. The text of a quantifier tells which one it is, and read back where a draft
puts it, it is one greedy repetition with the bounds it was made of. Bounds out of order have a text
as well, but no reading.
-/

namespace ReadableRegex

namespace Counts

/-- What optional bounds ask for: one or more without any, and no lower bound is zero. -/
def ofBounds : Option UInt32 → Option UInt32 → Counts
  | none, none => ⟨1, none, true⟩
  | some lower, none => ⟨lower.toNat, none, true⟩
  | none, some upper => ⟨0, some upper.toNat, true⟩
  | some lower, some upper => ⟨lower.toNat, some upper.toNat, true⟩

/-- What a number of times asks for: a single number is met exactly. -/
def ofTimes (lower : UInt32) : Option UInt32 → Counts
  | none => ⟨lower.toNat, some lower.toNat, true⟩
  | some upper => ⟨lower.toNat, some upper.toNat, true⟩

def InOrder (counts : Counts) : Prop :=
  ∀ upper ∈ counts.upper, counts.lower ≤ upper

end Counts

namespace Quantifier

theorem counts_ofBounds (lower upper : Option UInt32) :
    (ofBounds lower upper).counts = Counts.ofBounds lower upper := by
  cases lower with
  | none =>
      cases upper with
      | none => rfl
      | some upper => rfl
  | some lower =>
      cases upper with
      | none => rfl
      | some upper => rfl

theorem counts_times (lower : UInt32) (upper : Option UInt32) :
    (times lower upper).counts = Counts.ofTimes lower upper := by
  cases upper with
  | none => rfl
  | some upper => rfl

theorem isOrdered_iff (quantifier : Quantifier) :
    quantifier.isOrdered = true ↔ quantifier.counts.InOrder := by
  cases quantifier with
  | between lower upper => simp [isOrdered, counts, Counts.InOrder, minimum, maximum?]
  | _ => simp [isOrdered, counts, Counts.InOrder, minimum, maximum?]

def ofText? : Text → Option Quantifier
  | ['?'] => some .optional
  | ['+'] => some .oneOrMore
  | '\x7b' :: bounds =>
      match Lexeme.readCount bounds with
      | .ok (lower, ',' :: behind) =>
          match Lexeme.readCount behind with
          | .ok (upper, _) => some (.between (.ofNat lower) (.ofNat upper))
          | .error _ => some (.atLeast (.ofNat lower))
      | .ok (count, _) => some (.exactly (.ofNat count))
      | .error _ => none
  | _ => none

theorem ofText?_text (quantifier : Quantifier) : ofText? quantifier.text = some quantifier := by
  cases quantifier with
  | optional => rfl
  | oneOrMore => rfl
  | exactly count =>
      have counted := Lexeme.readCount_decimal count (Or.inl rfl) []
      simp only [text, List.cons_append, ofText?, counted]
      change some (exactly (UInt32.ofNat count.toNat)) = some (exactly count)
      rw [UInt32.ofNat_toNat]
  | atLeast lower =>
      have counted := Lexeme.readCount_decimal lower (Or.inr rfl) ['\x7d']
      have closing : Lexeme.readCount ['\x7d'] = .error .badCount := rfl
      simp only [text, List.cons_append, ofText?, counted, closing, UInt32.ofNat_toNat]
  | between lower upper =>
      have first := Lexeme.readCount_decimal lower (Or.inr rfl)
        (Text.decimal upper.toNat ++ ['\x7d'])
      have second := Lexeme.readCount_decimal upper (Or.inl rfl) []
      simp only [text, List.cons_append, List.append_assoc, ofText?, first, second,
        UInt32.ofNat_toNat]

theorem text_injective : Function.Injective text := by
  intro left right same
  have told := ofText?_text left
  rw [same, ofText?_text] at told
  exact (Option.some.inj told).symm

end Quantifier

/-- Bounds in order are read as they were asked for, with the text left over that stands behind
them, and bounds out of order are not read at all. -/
structure BoundsRead (rest : Text) : Prop where
  bounds : ∀ lower upper, (Counts.ofBounds lower upper).InOrder →
    Lexeme.ReadsAs (Quantifier.ofBounds lower upper).text
      (.quantifier (Counts.ofBounds lower upper)) rest
  times : ∀ lower upper, (Counts.ofTimes lower upper).InOrder →
    Lexeme.ReadsAs (Quantifier.times lower upper).text
      (.quantifier (Counts.ofTimes lower upper)) rest
  crossedBounds : ∀ lower upper, ¬ (Counts.ofBounds lower upper).InOrder →
    Lexeme.Unreadable (Quantifier.ofBounds lower upper).text
  crossedTimes : ∀ lower upper, ¬ (Counts.ofTimes lower upper).InOrder →
    Lexeme.Unreadable (Quantifier.times lower upper).text

theorem Quantifier.readsAs_of_inOrder {quantifier : Quantifier} {counts : Counts}
    (asked : quantifier.counts = counts) (inOrder : counts.InOrder) {rest : Text}
    (detached : rest.Detached) : Lexeme.ReadsAs quantifier.text (.quantifier counts) rest := by
  subst asked
  exact Lexeme.readsAs_quantifier (quantifier.isOrdered_iff.mpr inOrder) detached

theorem Quantifier.unreadable_of_not_inOrder {quantifier : Quantifier} {counts : Counts}
    (asked : quantifier.counts = counts) (crossed : ¬ counts.InOrder) :
    Lexeme.Unreadable quantifier.text := by
  subst asked
  apply Lexeme.unreadable_quantifier
  rw [Bool.eq_false_iff, ne_eq, quantifier.isOrdered_iff]
  exact crossed

theorem BoundsRead.of_detached {rest : Text} (detached : rest.Detached) : BoundsRead rest where
  bounds lower upper inOrder :=
    Quantifier.readsAs_of_inOrder (Quantifier.counts_ofBounds lower upper) inOrder detached
  times lower upper inOrder :=
    Quantifier.readsAs_of_inOrder (Quantifier.counts_times lower upper) inOrder detached
  crossedBounds lower upper crossed :=
    Quantifier.unreadable_of_not_inOrder (Quantifier.counts_ofBounds lower upper) crossed
  crossedTimes lower upper crossed :=
    Quantifier.unreadable_of_not_inOrder (Quantifier.counts_times lower upper) crossed

namespace Phrase

/-- No two quantifiers have the same text. Whatever is called behind one, unless it is a raw
fragment that begins with a question mark, the text stands in the pattern as it was written, and
outside of verbose mode bounds in order are read there as one greedy repetition with just these
bounds. -/
theorem bounds_read_whole {phrase : Phrase} {token : Token} {later : List Call}
    (found : phrase.draft.last = some token)
    (detached : ∀ fragment : Text, .raw fragment ∈ later → fragment.Detached) :
    Function.Injective Quantifier.text ∧
    ∃ ahead rest : Text, BoundsRead rest ∧ ∀ quantifier : Quantifier,
      ((phrase.quantify quantifier).phrase.run later).source =
        ahead ++ (quantifier.text ++ rest) := by
  constructor
  · exact Quantifier.text_injective
  · obtain ⟨ahead, rest, restDetached, written⟩ := hosted_run found detached
    exact ⟨ahead, rest, .of_detached restDetached, written⟩

theorem bounds_read_whole_of_optional :
    ∃ ahead rest : Text,
      Lexeme.ReadsAs (Quantifier.times 2 (some 3)).text (.quantifier ⟨2, some 3, true⟩) rest ∧
      ∀ quantifier : Quantifier,
        (((initial.run [.literal ['a', 'b']]).quantify quantifier).phrase.run
          [.optional ['?'], .endOfLine true]).source = ahead ++ (quantifier.text ++ rest) := by
  have found : (initial.run [.literal ['a', 'b']]).draft.last = some ⟨['a', 'b'], .sequence⟩ := by
    decide
  have detached : ∀ fragment : Text,
      Call.raw fragment ∈ [Call.optional ['?'], Call.endOfLine true] → fragment.Detached := by
    intro fragment member
    simp at member
  obtain ⟨_, ahead, rest, reads, written⟩ := bounds_read_whole found detached
  have inOrder : (Counts.ofTimes 2 (some 3)).InOrder := by
    intro upper same
    cases same
    decide
  exact ⟨ahead, rest, reads.times 2 (some 3) inOrder, written⟩

/-- Bounds out of order are written all the same. In verbose mode the sign of another call may end
up as the mark of a lazy repetition, since the blank before it means nothing. -/
theorem bounds_not_read_whole :
    ((initial.run [.multiple ['a'] (some 2) (some 1)]).source =
        'a' :: (Quantifier.ofBounds (some 2) (some 1)).text ∧
      ¬ Lexeme.ReadsAs (Quantifier.ofBounds (some 2) (some 1)).text
        (.quantifier (Counts.ofBounds (some 2) (some 1))) []) ∧
    (Lexeme.readAll (initial.run [.raw "(?x)".toList, .multiple ['a'] (some 1) (some 2),
        .optional [' ']]).source).toOption =
      some [.part (.modes [(.verbose, true)]), .part (.literal 'a'),
        .quantifier ⟨1, some 2, false⟩] := by
  constructor
  · constructor
    · decide +kernel
    · intro reads
      obtain ⟨head, tail, same, reading⟩ := reads
      obtain ⟨fault, failed⟩ := Lexeme.unreadable_quantifier
        (show (Quantifier.ofBounds (some 2) (some 1)).isOrdered = false by decide) []
      rw [same, List.cons_append, Lexeme.readAll_of_read reading, Lexeme.readAll_nil] at failed
      cases failed
  · decide +kernel

end Phrase
end ReadableRegex

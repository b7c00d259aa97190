import ReadableRegex.Proofs.Captures.Scan
import ReadableRegex.Proofs.Detached
import ReadableRegex.Proofs.Numeral

/-!
What calls write, raw fragments left out, is inert.
-/

namespace ReadableRegex

open ScanState

namespace ScanState

theorem pass?_escapeLiteral (value : Text) :
    pass? .outside (Text.escapeLiteral value) = some .outside := by
  unfold Text.escapeLiteral
  induction value with
  | nil => rfl
  | cons character rest inductionHypothesis =>
      have unit : pass? .outside (Text.escapeChar Text.literalSpecials character) =
          some .outside := by
        unfold Text.escapeChar
        split
        · simp [pass?, next]
        · rename_i plain
          simp only [Text.literalSpecials, List.mem_cons, List.not_mem_nil, or_false,
            not_or] at plain
          simp [pass?, next, plain]
      rw [Text.escapeWith_cons, pass?_append _ unit, inductionHypothesis]

theorem pass?_escapeMembers (members : Text) :
    pass? .inClass (Text.escapeMembers members) = some .inClass := by
  unfold Text.escapeMembers
  induction members with
  | nil => rfl
  | cons character rest inductionHypothesis =>
      have unit : pass? .inClass (Text.escapeChar Text.classSpecials character) =
          some .inClass := by
        unfold Text.escapeChar
        split
        · simp [pass?, next]
        · rename_i plain
          simp only [Text.classSpecials, List.mem_cons, List.not_mem_nil, or_false,
            not_or] at plain
          simp [pass?, next, plain]
      rw [Text.escapeWith_cons, pass?_append _ unit, inductionHypothesis]

theorem pass?_interval (bounds : Char × Char) :
    pass? .inClass (ClassText.interval bounds) = some .inClass := by
  unfold ClassText.interval
  rw [pass?_append _ (pass?_escapeMembers _)]
  exact pass?_escapeMembers _

theorem pass?_intervals (intervals : List (Char × Char)) :
    pass? .inClass (intervals.flatMap ClassText.interval) = some .inClass := by
  induction intervals with
  | nil => rfl
  | cons bounds rest inductionHypothesis =>
      rw [List.flatMap_cons, pass?_append _ (pass?_interval bounds), inductionHypothesis]

/-- A class is passed over whatever stands between its brackets, if that stays within them. -/
theorem pass?_brackets {inside : Text} (passed : pass? .inClass inside = some .inClass) :
    pass? .outside ('[' :: inside ++ [']']) = some .outside := by
  have closing : pass? .inClass (inside ++ [']']) = some .outside := by
    rw [pass?_append _ passed]
    rfl
  simpa [pass?, next] using closing

theorem pass?_digits {digits : Text} (all : ∀ digit ∈ digits, digit.isDigit = true) :
    pass? .outside digits = some .outside := by
  induction digits with
  | nil => rfl
  | cons digit rest inductionHypothesis =>
      have isDigit := all digit List.mem_cons_self
      have plain : digit ≠ '(' ∧ digit ≠ ')' ∧ digit ≠ '\\' ∧ digit ≠ '[' := by
        refine ⟨?_, ?_, ?_, ?_⟩
        all_goals
          intro same
          rw [same] at isDigit
          exact absurd isDigit (by decide)
      have rest := inductionHypothesis fun other member => all other (List.mem_cons_of_mem _ member)
      simpa [pass?, next, plain] using rest

theorem pass?_decimal (value : Nat) :
    pass? .outside (Text.decimal value) = some .outside :=
  pass?_digits fun _ => Text.isDigit_of_mem_decimal

theorem pass?_quantifier (quantifier : Quantifier) :
    pass? .outside quantifier.text = some .outside := by
  have braced {inside : Text} (passed : pass? .outside inside = some .outside) (tail : Text) :
      pass? .outside ('\x7b' :: inside ++ tail) = pass? .outside tail := by
    have front : pass? .outside ('\x7b' :: inside) = some .outside := by
      simpa [pass?, next] using passed
    rw [pass?_append _ front]
  cases quantifier with
  | optional => rfl
  | oneOrMore => rfl
  | exactly count => exact braced (pass?_decimal _) _
  | atLeast lower => exact braced (pass?_decimal _) _
  | between lower upper =>
      have second : pass? .outside (',' :: Text.decimal upper.toNat ++ ['\x7d']) =
          some .outside := by
        have digits := pass?_append ['\x7d'] (pass?_decimal upper.toNat)
        simpa [pass?, next] using digits
      simp only [Quantifier.text, List.append_assoc]
      exact (braced (pass?_decimal _) _).trans second

end ScanState

namespace Token.Cooked

variable {token : Token}

theorem inert (cooked : token.Cooked) : Inert token.text := by
  cases cooked with
  | literal value => exact .of_pass (pass?_escapeLiteral value)
  | members members =>
      unfold ofMembers ClassText.anyOf
      by_cases empty : members.isEmpty = true
      · simpa [empty] using Inert.nil
      · simpa [empty] using Inert.of_pass (pass?_brackets (pass?_escapeMembers members))
  | excluded excluded =>
      unfold ofExcluded ClassText.noneOf
      by_cases empty : excluded.isEmpty = true
      · have anyRun : Inert Fragment.something := .of_pass rfl
        simpa [empty] using anyRun
      · have inside : pass? .inClass ('^' :: Text.escapeMembers excluded) = some .inClass := by
          simpa [pass?, next] using pass?_escapeMembers excluded
        have quantified := pass?_append ['+'] (pass?_brackets inside)
        simpa [empty] using Inert.of_pass (quantified.trans rfl)
  | bounds bounds =>
      simp only [ofBounds, ClassText.ofBounds]
      by_cases empty : (ClassText.pairs bounds).1.isEmpty = true
      · simpa [empty] using Inert.nil
      · simpa [empty] using Inert.of_pass (pass?_brackets (pass?_intervals _))
  | anything => exact .of_pass rfl
  | something => exact .of_pass rfl
  | lineBreak => exact Inert.group ":\\r\\n|\\r|\\n".toList (.of_pass rfl)
  | tab => exact .of_pass rfl
  | word =>
      exact Inert.append (Inert.group "-u:\\w".toList (.of_pass rfl)) (.of_pass rfl)
  | digit => exact Inert.group "-u:\\d".toList (.of_pass rfl)
  | blank => exact .of_pass rfl

end Token.Cooked
end ReadableRegex

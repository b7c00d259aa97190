import ReadableRegex.Proofs.Alternation.Joining
import ReadableRegex.Proofs.FirstMatch
import ReadableRegex.Proofs.Interleaving
import ReadableRegex.Proofs.Trees.Compiling

/-!
Expressions between both anchors. They match what their alternatives match, where a match may begin
and end: at the ends of the subject if it is searched as one line, at the ends of lines otherwise.
-/

namespace ReadableRegex

/-! ### Ends of subjects -/

namespace Modes

variable {modes : Modes} {subject : Array Char}

theorem holds_caret_of_oneLine (oneLine : modes.multiline = false) {start : Nat}
    (inside : start ≤ subject.size) :
    (modes.anchor .caret).holds (Spans.before subject start) subject[start]? = true ↔
      start = 0 := by
  have before : Spans.before subject start = none ↔ start = 0 := by
    unfold Spans.before
    by_cases first : start = 0
    · simp [first]
    · rw [if_neg first, Array.getElem?_eq_none_iff]
      omega
  simp only [anchor, oneLine, Bool.false_eq_true, if_false, Look.holds,
    Option.isNone_iff_eq_none, before]

theorem holds_dollar_of_oneLine (oneLine : modes.multiline = false) (stop : Nat) :
    (modes.anchor .dollar).holds (Spans.before subject stop) subject[stop]? = true ↔
      subject.size ≤ stop := by
  simp only [anchor, oneLine, Bool.false_eq_true, if_false, Look.holds,
    Option.isNone_iff_eq_none, Array.getElem?_eq_none_iff]

end Modes

theorem Sketch.branches_append_blank (row : NodeRow) :
    ((blank 0).edit (.append row)).branches = [row] := by
  cases row with
  | nil => rfl
  | cons node rest => rfl

theorem Sketch.enclosing_append_blank (row : NodeRow) :
    ((blank 0).edit (.append row)).enclosing = [] := by
  cases row with
  | nil => rfl
  | cons node rest => rfl

/-! ### Anchored expressions -/

namespace Phrase

variable [PropertyTable] {phrase : Phrase} {options : Options} {calls body : List Call} {matcher : Matcher}

theorem parses_of_compile [SizeRule] (compiled : phrase.compile = .ok matcher) :
    ∃ pattern, Pattern.ofText phrase.source = .ok pattern := by
  cases parsed : Pattern.ofText phrase.source with
  | ok pattern => exact ⟨pattern, rfl⟩
  | error fault =>
      rw [compile_of_parse_error parsed] at compiled
      cases compiled

/-- The draft is what the calls on the body make of a blank one, between both anchors. -/
theorem follows_of_body (run : phrase = (ofOptions options).run calls)
    (only : calls.filter (fun call => call.part = .body) = body)
    (cooked : ∀ call ∈ body, call.isRaw = false)
    (startAnchor : phrase.draft.startAnchor = true) (endAnchor : phrase.draft.endAnchor = true)
    {modes : Modes} (usual : modes.Usual) :
    Follows modes phrase.draft
      ((((Sketch.blank 0).run modes body).edit (.startAnchor true)).edit (.endAnchor true))
      ((Sketch.blank 0).staysOrdered modes body) := by
  have continues := continues_run_body (Draft.Continues.self (ofOptions options).draft) calls
  rw [only, ← run] at continues
  have bare : Follows modes ((ofOptions options).run body).draft _ _ :=
    follows_run options cooked usual
  have anchored : Draft.Continues [] ((((ofOptions options).run body).draft.edit
      (.startAnchor true)).edit (.endAnchor true)) ((ofOptions options).run body).draft :=
    ⟨rfl, rfl, rfl, rfl, rfl⟩
  rw [continues.eq_of_anchors anchored startAnchor endAnchor]
  exact (bare.setStartAnchor true).setEndAnchor true

/-- Within its limits an anchored text compiles if all counts are in order and no capture is left
open. -/
theorem compiles_of_anchored [SizeRule] (run : phrase = (ofOptions options).run calls)
    (only : calls.filter (fun call => call.part = .body) = body)
    (cooked : ∀ call ∈ body, call.isRaw = false)
    (startAnchor : phrase.draft.startAnchor = true) (endAnchor : phrase.draft.endAnchor = true)
    (ordered : (Sketch.blank 0).staysOrdered (Modes.ofFlags phrase.flags) body = true)
    (closed : ((Sketch.blank 0).run (Modes.ofFlags phrase.flags) body).enclosing = [])
    (limits : phrase.KeepsLimits) : ∃ matcher, phrase.compile = .ok matcher := by
  have follows := follows_of_body run only cooked startAnchor endAnchor
    (Modes.usual_ofFlags phrase.flags)
  have none : phrase.draft.enclosing = [] := by
    have length := follows.enclosing_length
    exact List.length_eq_zero_iff.mp (length.trans (congrArg List.length closed))
  rw [ordered] at follows
  obtain ⟨pattern, regex, parsed, meant⟩ := follows.meant_of_sound (Or.inr none)
  exact ⟨_, compile_of_meant limits parsed meant⟩

/-- An anchored text that can be read keeps the order of its counts, and matches where the anchors
hold around what an alternative matches. -/
theorem language_of_anchored (run : phrase = (ofOptions options).run calls)
    (only : calls.filter (fun call => call.part = .body) = body)
    (cooked : ∀ call ∈ body, call.isRaw = false)
    (startAnchor : phrase.draft.startAnchor = true) (endAnchor : phrase.draft.endAnchor = true)
    {pattern : Pattern} (parsed : Pattern.ofText phrase.source = .ok pattern)
    {modes : Modes} (same : modes = Modes.ofFlags phrase.flags) (subject : Array Char) :
    (Sketch.blank 0).staysOrdered modes body = true ∧
      ∀ start stop, phrase.source.language phrase.flags subject start stop ↔
        (modes.anchor .caret).holds (Spans.before subject start) subject[start]? = true ∧
        (modes.anchor .dollar).holds (Spans.before subject stop) subject[stop]? = true ∧
        Spans.choice (((Sketch.blank 0).run modes body).branches.map (Node.rowSpans subject))
          start stop := by
  subst same
  have follows := follows_of_body run only cooked startAnchor endAnchor
    (Modes.usual_ofFlags phrase.flags)
  obtain ⟨sound, closed, _⟩ := follows.written_of_parses parsed
  rw [sound] at follows
  have language : phrase.source.language phrase.flags subject = _ := follows.language closed
  constructor
  · exact sound
  · intro start stop
    rw [language, Sketch.rowSpans_row]
    simp only [Sketch.edit, forall_const]
    rfl

theorem isMatch_iff_language [SizeRule] (compiled : phrase.compile = .ok matcher)
    (free : phrase.flags.has .sticky = false) (subject : Array Char) :
    matcher.isMatch subject = true ↔
      ∃ start, start ≤ subject.size ∧
        ∃ stop, phrase.source.language phrase.flags subject start stop := by
  obtain ⟨_, flags, assembled⟩ := Matcher.compile_eq_ok_iff.mp compiled
  rw [Matcher.isMatch_eq_isSome_exec, Matcher.exec_of_not_sticky subject (flags ▸ free),
    Program.isSome_search_iff_exists]
  exact exists_congr (fun start => Program.isSome_matchAt_of_compile assembled start)

end Phrase
end ReadableRegex

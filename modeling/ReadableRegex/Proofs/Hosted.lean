import ReadableRegex.Proofs.Raw.Quantifying

/-!
The place of a quantifier in the text of a draft. Once it is written, no call takes it apart: what
is written later stands before or behind it, the same text whichever quantifier it is, and behind it
there is never a question mark, unless a raw fragment brings one.
-/

namespace ReadableRegex

open Text (Detached)

/-- The texts differ in their quantifier only, and behind it comes no question mark. -/
def Hosted (texts : Quantifier → Text) : Prop :=
  ∃ ahead rest, Detached rest ∧ ∀ quantifier : Quantifier,
    texts quantifier = ahead ++ (quantifier.text ++ rest)

namespace Hosted

variable {texts : Quantifier → Text}

theorem quantifier : Hosted Quantifier.text := by
  refine ⟨[], [], Text.detached_nil, ?_⟩
  intro quantifier
  rw [List.nil_append, List.append_nil]

theorem after (hosted : Hosted texts) (text : Text) :
    Hosted (fun quantifier => text ++ texts quantifier) := by
  obtain ⟨ahead, rest, detached, same⟩ := hosted
  refine ⟨text ++ ahead, rest, detached, ?_⟩
  intro quantifier
  simp only [same, List.append_assoc]

theorem before (hosted : Hosted texts) {text : Text} (detached : text.Detached) :
    Hosted (fun quantifier => texts quantifier ++ text) := by
  obtain ⟨ahead, rest, restDetached, same⟩ := hosted
  refine ⟨ahead, rest ++ text, restDetached.append detached, ?_⟩
  intro quantifier
  simp only [same, List.append_assoc]

theorem closed (hosted : Hosted texts) (text : Text) :
    Hosted (fun quantifier => texts quantifier ++ [')'] ++ text) := by
  have whole := hosted.before (Text.detached_cons (show ')' ≠ '?' by decide) text)
  simp only [List.append_assoc]
  exact whole

theorem enclose (hosted : Hosted texts) (openings : List Text) :
    Hosted (fun quantifier => Draft.enclose openings (texts quantifier)) := by
  induction openings generalizing texts with
  | nil => exact hosted
  | cons before outer inductionHypothesis =>
      have opened := (hosted.after ['(']).after before
      exact inductionHypothesis opened

end Hosted

theorem Hosted.enclosing {texts : Quantifier → Text} (hosted : Hosted texts)
    (inner outer : List Text) (text : Text) :
    Hosted (fun quantifier => Draft.enclose (inner ++ texts quantifier :: outer) text) := by
  simp only [Draft.enclose_append_cons]
  have opened := hosted.before
    (Text.detached_cons (show '(' ≠ '?' by decide) (Draft.enclose inner text))
  exact opened.enclose outer

/-- Drafts that differ in the text of one quantifier only: in their last token, which can be
repeated once more, in the text before it, before an open capture, or in a finished alternative. -/
inductive Draft.Hosts : (Quantifier → Draft) → Prop where
  | last (draft : Draft) {texts : Quantifier → Text} {kind : TokenKind} (hosted : Hosted texts)
      (repeated : ∀ next : Quantifier,
        Hosted (fun quantifier => Token.operand ⟨texts quantifier, kind⟩ ++ next.text)) :
      Hosts (fun quantifier => { draft with last := some ⟨texts quantifier, kind⟩ })
  | written (draft : Draft) {texts : Quantifier → Text} (hosted : Hosted texts)
      (behind : ∀ token ∈ draft.last, token.text ≠ [] ∧ token.text.Detached) :
      Hosts (fun quantifier => { draft with written := texts quantifier })
  | enclosing (draft : Draft) {texts : Quantifier → Text} (hosted : Hosted texts)
      (inner outer : List Text) :
      Hosts (fun quantifier => { draft with enclosing := inner ++ texts quantifier :: outer })
  | finished (draft : Draft) {texts : Quantifier → Text} (hosted : Hosted texts)
      (earlier later : List Text) :
      Hosts (fun quantifier => { draft with finished := earlier ++ texts quantifier :: later })

namespace Draft.Hosts

variable {drafts : Quantifier → Draft}

theorem of_quantify {draft : Draft} {token : Token} (found : draft.last = some token) :
    Hosts (fun quantifier => draft.edit (.quantify quantifier)) := by
  simp only [edit_quantify_of_some found]
  have hosted := Hosted.quantifier.after token.operand
  apply last draft hosted
  intro next
  have grouped := hosted.after ['(', '?', ':']
  exact grouped.closed next.text

theorem detached_last {last : Option Token}
    (behind : ∀ token ∈ last, token.text ≠ [] ∧ token.text.Detached) :
    Detached ((last.map Token.text).getD []) := by
  cases last with
  | none => exact Text.detached_nil
  | some token => exact (behind token rfl).2

theorem settleAs (hosts : Hosts drafts) {next : Option Token}
    (behind : ∀ token ∈ next, token.text ≠ [] ∧ token.text.Detached) :
    Hosts (fun quantifier => { (drafts quantifier).settle with last := next }) := by
  cases hosts with
  | last draft hosted repeated =>
      exact written { draft with last := next } (hosted.after draft.written) behind
  | written draft hosted present =>
      have settled := hosted.before (detached_last present)
      exact written { draft with last := next } settled behind
  | enclosing draft hosted inner outer =>
      exact enclosing { draft.settle with last := next } hosted inner outer
  | finished draft hosted earlier later =>
      exact finished { draft.settle with last := next } hosted earlier later

theorem openCapture (hosts : Hosts drafts) :
    Hosts (fun quantifier => (drafts quantifier).edit .openCapture) := by
  cases hosts with
  | last draft hosted repeated =>
      exact enclosing { draft with written := [], last := none } (hosted.after draft.written) []
        draft.enclosing
  | written draft hosted behind =>
      exact enclosing { draft with written := [], last := none }
        (hosted.before (detached_last behind)) [] draft.enclosing
  | enclosing draft hosted inner outer =>
      exact enclosing { draft with written := [], last := none } hosted (draft.inner :: inner) outer
  | finished draft hosted earlier later =>
      exact finished draft.beginCapture hosted earlier later

theorem append (hosts : Hosts drafts) {token : Token} (detached : token.text.Detached) :
    Hosts (fun quantifier => (drafts quantifier).edit (.append token)) := by
  by_cases empty : token.text = []
  · simp only [edit_append_of_empty empty]
    exact hosts.settleAs nofun
  · simp only [edit_append_of_ne empty]
    apply hosts.settleAs
    intro next same
    cases same
    exact ⟨empty, detached⟩

theorem quantify (hosts : Hosts drafts) (next : Quantifier) :
    Hosts (fun quantifier => (drafts quantifier).edit (.quantify next)) := by
  simp only [edit_quantify]
  cases hosts with
  | last draft hosted repeated =>
      apply last draft (repeated next)
      intro again
      have grouped := (repeated next).after ['(', '?', ':']
      exact grouped.closed again.text
  | written draft hosted behind =>
      apply written { draft with last := draft.last.map (·.quantify next) } hosted
      intro token member
      obtain ⟨before, found, same⟩ := Option.map_eq_some_iff.mp member
      subst same
      have operand := Token.detached_operand (behind before found).1 (behind before found).2
      constructor
      · exact List.append_ne_nil_of_left_ne_nil operand.2 _
      · exact operand.1.append_of_ne operand.2
  | enclosing draft hosted inner outer =>
      exact enclosing { draft with last := draft.last.map (·.quantify next) } hosted inner outer
  | finished draft hosted earlier later =>
      exact finished { draft with last := draft.last.map (·.quantify next) } hosted earlier later

theorem closed (draft : Draft) {texts : Quantifier → Text} (hosted : Hosted texts) :
    Hosts (fun quantifier =>
      { draft with last := some ⟨'(' :: texts quantifier ++ [')'], .atom⟩ }) := by
  have opened := hosted.after ['(']
  apply last draft (opened.before (Text.detached_cons (by decide) []))
  exact fun next => opened.closed next.text

theorem closeCapture (hosts : Hosts drafts) :
    Hosts (fun quantifier => (drafts quantifier).edit .closeCapture) := by
  cases hosts with
  | last draft hosted repeated =>
      cases opened : draft.enclosing with
      | nil => exact last { draft with enclosing := [] } hosted repeated
      | cons before outer =>
          exact closed { draft with enclosing := outer, written := before }
            (hosted.after draft.written)
  | written draft hosted behind =>
      cases opened : draft.enclosing with
      | nil => exact written { draft with enclosing := [] } hosted behind
      | cons before outer =>
          exact closed { draft with enclosing := outer, written := before }
            (hosted.before (detached_last behind))
  | enclosing draft hosted inner outer =>
      cases inner with
      | nil =>
          apply written { draft with
            enclosing := outer
            last := some ⟨'(' :: draft.inner ++ [')'], .atom⟩ } hosted
          intro token same
          cases same
          exact ⟨List.cons_ne_nil _ _, Text.detached_cons (by decide) _⟩
      | cons before inner =>
          exact enclosing { draft with
            written := before
            last := some ⟨'(' :: draft.inner ++ [')'], .atom⟩ } hosted inner outer
  | finished draft hosted earlier later =>
      cases opened : draft.enclosing with
      | nil => exact finished { draft with enclosing := [] } hosted earlier later
      | cons before outer =>
          exact finished { draft with
            enclosing := outer
            written := before
            last := some ⟨'(' :: draft.inner ++ [')'], .atom⟩ } hosted earlier later

theorem detached_closings (count : Nat) : Detached (List.replicate count ')') := by
  cases count with
  | zero => exact Text.detached_nil
  | succ count => exact Text.detached_cons (by decide) _

theorem alternate (hosts : Hosts drafts) :
    Hosts (fun quantifier => (drafts quantifier).edit .alternate) := by
  cases hosts with
  | last draft hosted repeated =>
      have branch := (hosted.after draft.written).enclose draft.enclosing
      have complete := branch.before (detached_closings draft.enclosing.length)
      exact finished { draft with enclosing := [], written := [], last := none } complete
        draft.finished []
  | written draft hosted behind =>
      have branch := (hosted.before (detached_last behind)).enclose draft.enclosing
      have complete := branch.before (detached_closings draft.enclosing.length)
      exact finished { draft with enclosing := [], written := [], last := none } complete
        draft.finished []
  | enclosing draft hosted inner outer =>
      have branch := hosted.enclosing inner outer draft.inner
      have complete := branch.before (detached_closings (inner.length + (outer.length + 1)))
      simp only [edit, Draft.alternate, closers, openCaptures, List.length_append, List.length_cons]
      exact finished { draft with enclosing := [], written := [], last := none } complete
        draft.finished []
  | finished draft hosted earlier later =>
      simp only [edit, Draft.alternate, List.append_assoc, List.cons_append]
      exact finished { draft with enclosing := [], written := [], last := none } hosted earlier
        (later ++ [draft.branch ++ draft.closers])

theorem around (draft : Draft) {texts : Quantifier → Text} (branch : Hosted texts) :
    Hosted (fun quantifier => draft.opening ++
      (draft.finished.flatMap (fun alternative => alternative ++ ['|']) ++ texts quantifier) ++
        draft.behind) := by
  have inside := (branch.after (draft.finished.flatMap (fun alternative => alternative ++ ['|'])))
  have detached := (separate_of_completing draft.signs_behind).detached
  exact (inside.after draft.opening).before detached

theorem render (hosts : Hosts drafts) : Hosted (fun quantifier => (drafts quantifier).render) := by
  simp only [render_eq, ahead]
  cases hosts with
  | last draft hosted repeated =>
      exact around draft ((hosted.after draft.written).enclose draft.enclosing)
  | written draft hosted behind =>
      exact around draft ((hosted.before (detached_last behind)).enclose draft.enclosing)
  | enclosing draft hosted inner outer =>
      have whole := around { draft with enclosing := inner ++ [] :: outer }
        (hosted.enclosing inner outer draft.inner)
      simp only [behind, closers, openCaptures, List.length_append, List.length_cons] at whole ⊢
      exact whole
  | finished draft hosted earlier later =>
      -- the group around the alternatives is there whatever the alternative is
      have opening (text : Text) : Draft.opening { draft with finished := earlier ++ text :: later } =
          Draft.opening { draft with finished := [[]] } := by
        simp [Draft.opening, isAlternating]
      have behind (text : Text) : Draft.behind { draft with finished := earlier ++ text :: later } =
          Draft.behind { draft with finished := [[]] } := by
        simp [Draft.behind, closing, isAlternating, closers, openCaptures]
      have branch (text : Text) : Draft.branch { draft with finished := earlier ++ text :: later } =
          draft.branch := rfl
      have barred (others : Text) := hosted.before
        (Text.detached_cons (show '|' ≠ '?' by decide) others)
      simp only [opening, behind, branch, List.flatMap_append, List.flatMap_cons, List.append_assoc,
        List.cons_append, List.nil_append]
      exact ((barred _).after _).after _

theorem anchors (hosts : Hosts drafts) (start stop : Bool → Bool) :
    Hosts (fun quantifier => { drafts quantifier with
      startAnchor := start (drafts quantifier).startAnchor
      endAnchor := stop (drafts quantifier).endAnchor }) := by
  cases hosts with
  | last draft hosted repeated =>
      exact last { draft with
        startAnchor := start draft.startAnchor
        endAnchor := stop draft.endAnchor } hosted repeated
  | written draft hosted behind =>
      exact written { draft with
        startAnchor := start draft.startAnchor
        endAnchor := stop draft.endAnchor } hosted behind
  | enclosing draft hosted inner outer =>
      exact enclosing { draft with
        startAnchor := start draft.startAnchor
        endAnchor := stop draft.endAnchor } hosted inner outer
  | finished draft hosted earlier later =>
      exact finished { draft with
        startAnchor := start draft.startAnchor
        endAnchor := stop draft.endAnchor } hosted earlier later

theorem edit (hosts : Hosts drafts) {change : Edit Token}
    (detached : ∀ token, change = .append token → token.text.Detached) :
    Hosts (fun quantifier => (drafts quantifier).edit change) := by
  cases change with
  | append token => exact hosts.append (detached token rfl)
  | quantify next => exact hosts.quantify next
  | openCapture => exact hosts.openCapture
  | closeCapture => exact hosts.closeCapture
  | alternate => exact hosts.alternate
  | startAnchor enabled => exact hosts.anchors (fun _ => enabled) id
  | endAnchor enabled => exact hosts.anchors id (fun _ => enabled)

theorem edits (hosts : Hosts drafts) {changes : List (Edit Token)}
    (detached : ∀ token, .append token ∈ changes → token.text.Detached) :
    Hosts (fun quantifier => changes.foldl Draft.edit (drafts quantifier)) := by
  induction changes generalizing drafts with
  | nil => exact hosts
  | cons change rest inductionHypothesis =>
      have next := hosts.edit (fun token same => detached token (same ▸ List.mem_cons_self))
      exact inductionHypothesis next
        (fun token member => detached token (List.mem_cons_of_mem _ member))

end Draft.Hosts

/-- Nothing that is written later reaches into a quantifier, or makes it lazy. -/
theorem Phrase.hosted_run {phrase : Phrase} {token : Token} {later : List Call}
    (found : phrase.draft.last = some token)
    (detached : ∀ fragment : Text, .raw fragment ∈ later → fragment.Detached) :
    Hosted (fun quantifier => ((phrase.quantify quantifier).phrase.run later).source) := by
  have appended : ∀ token, .append token ∈ later.flatMap Call.edits → token.text.Detached := by
    intro token member
    obtain ⟨call, called, written⟩ := List.mem_flatMap.mp member
    cases raw : call.isRaw with
    | false => exact (Token.cooked_of_mem_edits raw written).detached
    | true =>
        cases call with
        | raw fragment =>
            cases List.mem_singleton.mp written
            exact detached fragment called
        | _ => cases raw
  have hosts := (Draft.Hosts.of_quantify found).edits appended
  simp only [source, draft_run, draft_quantify]
  exact hosts.render

end ReadableRegex

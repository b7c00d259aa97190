import ReadableRegex.Proofs.Captures.Grouped

/-!
The captures of a pattern text are those that the calls opened, in the order of the calls. Each
is closed by the call that ends it: the matching closing call, the next alternative, or the end
of the text.
-/

namespace ReadableRegex

open StampedText (erase ofText erase_append erase_ofText)

namespace Call

/-- The call that closes a capture, if `depth` captures opened after it are still open. -/
def closingCall (index depth : Nat) : List Call → Nat
  | [] => index
  | .beginCapture :: rest => closingCall (index + 1) (depth + 1) rest
  | .endCapture :: rest => if depth = 0 then index else closingCall (index + 1) (depth - 1) rest
  | .alternative _ :: _ => index
  | _ :: rest => closingCall (index + 1) depth rest

/-- For each capture in the order of the calls, the call that opens it and the one that closes
it. -/
def capturePairs (index : Nat) : List Call → List (Nat × Nat)
  | [] => []
  | .beginCapture :: rest =>
      (index, closingCall (index + 1) 0 rest) :: capturePairs (index + 1) rest
  | _ :: rest => capturePairs (index + 1) rest

theorem length_capturePairs (index : Nat) (calls : List Call) :
    (capturePairs index calls).length = calls.count .beginCapture := by
  induction calls generalizing index with
  | nil => rfl
  | cons call rest inductionHypothesis =>
      by_cases opens : call = .beginCapture
      · subst opens
        rw [capturePairs, List.length_cons, inductionHypothesis, List.count_cons_self]
      · have other : capturePairs index (call :: rest) = capturePairs (index + 1) rest := by
          cases call with
          | beginCapture => exact absurd rfl opens
          | _ => rfl
        rw [other, inductionHypothesis, List.count_cons_of_ne opens]

end Call

namespace StampedDraft

theorem enclose_append (enclosing : List OpenCapture) (left right : StampedText) :
    enclose enclosing (left ++ right) = enclose enclosing left ++ right := by
  induction enclosing generalizing left with
  | nil => rfl
  | cons capture outer inductionHypothesis =>
      rw [enclose, enclose, ← inductionHypothesis, List.append_assoc, List.cons_append]

/-- The open captures, the innermost first, each with the call that will close it. What stands
before and between them is grouped and written until `low`; the pairs are those of the captures
up to and with the open ones. -/
inductive Opened (base : List (Nat × Nat)) (start : Nat) :
    (closing : Nat → Nat) → List OpenCapture → List (Nat × Nat) → Nat → Prop where
  | nil {closing : Nat → Nat} : Opened base start closing [] base start
  | cons {closing : Nat → Nat} {capture : OpenCapture} {outer : List OpenCapture}
      {pairs more : List (Nat × Nat)} {low : Nat}
      (outside : Opened base start (fun depth => closing (depth + 1)) outer pairs low)
      (grouped : Grouped low (2 * capture.call) pairs.length more capture.before)
      (detached : (erase capture.before).Detached)
      (counted : capture.index = (pairs ++ more).length) :
      Opened base start closing (capture :: outer)
        (pairs ++ more ++ [(capture.call, closing 0)]) (2 * capture.call + 2)

variable {base pairs more : List (Nat × Nat)} {start low : Nat} {closing : Nat → Nat}
  {enclosing : List OpenCapture}

theorem Opened.congr {other : Nat → Nat} (opened : Opened base start closing enclosing pairs low)
    (same : ∀ depth, depth < enclosing.length → closing depth = other depth) :
    Opened base start other enclosing pairs low := by
  induction opened generalizing other with
  | nil => exact .nil
  | cons outside grouped detached counted inductionHypothesis =>
      rw [same 0 (by simp)]
      refine .cons (inductionHypothesis ?_) grouped detached counted
      intro depth bounded
      exact same (depth + 1) (by simpa using bounded)

theorem grouped_capture {capture : OpenCapture} {others : List (Nat × Nat)} {call : Nat}
    {inner : StampedText} (counted : capture.index = (pairs ++ more).length)
    (inside : Grouped (2 * capture.call + 2) (2 * call)
      (pairs ++ more ++ [(capture.call, call)]).length others inner)
    (detached : (erase inner).Detached) :
    Grouped (2 * capture.call) (2 * call) (pairs ++ more).length ((capture.call, call) :: others)
      (capture.opening :: inner ++ [capture.closing call]) := by
  unfold OpenCapture.opening OpenCapture.closing
  rw [counted]
  refine .capture ?_ detached (Nat.le_refl _) (Nat.le_refl _)
  simpa [Nat.add_assoc] using inside

theorem erase_closed_detached {capture : OpenCapture} (inner : StampedText) (call : Nat)
    (detached : (erase capture.before).Detached) :
    (erase (capture.before ++ (capture.opening :: inner ++ [capture.closing call]))).Detached := by
  rw [erase_append]
  refine detached.append ?_
  simp [Text.Detached, erase, OpenCapture.opening]

theorem Opened.close {inner : StampedText} {call : Nat}
    (opened : Opened base start closing enclosing pairs low)
    (closes : ∀ depth, depth < enclosing.length → closing depth = call)
    (inside : Grouped low (2 * call) pairs.length more inner)
    (detached : (erase inner).Detached) :
    ∃ extra, pairs ++ more = base ++ extra ∧
      Grouped start (2 * call) base.length extra
        (enclose enclosing inner ++ enclosing.map (OpenCapture.closing · call)) := by
  induction opened generalizing more inner with
  | nil => exact ⟨more, rfl, by simpa [enclose] using inside⟩
  | @cons closing capture outer pairs between low outside grouped separate counted
      inductionHypothesis =>
      have ends : closing 0 = call := closes 0 (by simp)
      rw [ends] at inside ⊢
      have captured := grouped_capture counted inside detached
      rw [List.length_append] at captured
      have whole := grouped.append captured
      have later : ∀ depth, depth < outer.length → closing (depth + 1) = call := by
        intro depth bounded
        exact closes (depth + 1) (by simpa using bounded)
      obtain ⟨extra, split, result⟩ :=
        inductionHypothesis later whole (erase_closed_detached inner call separate)
      refine ⟨extra, ?_, ?_⟩
      · rw [← split]
        simp
      · rw [enclose, List.map_cons]
        have shape : capture.before ++ (capture.opening :: inner ++ [capture.closing call]) =
            (capture.before ++ capture.opening :: inner) ++ [capture.closing call] := by
          simp
        rw [shape, enclose_append, List.append_assoc, List.singleton_append] at result
        exact result

/-! ### What a draft has written -/

inductive LastGrouped (low high first : Nat) :
    List (Nat × Nat) → Option (StampedText × TokenKind) → Prop where
  | none (ordered : low ≤ high) : LastGrouped low high first [] none
  | some {pairs : List (Nat × Nat)} {text : StampedText} {kind : TokenKind}
      (grouped : Grouped low high first pairs text) (detached : (erase text).Detached)
      (nonempty : text ≠ []) :
      LastGrouped low high first pairs (some (text, kind))

namespace LastGrouped

variable {middle high first : Nat} {last : Option (StampedText × TokenKind)}

theorem mono {higher : Nat} (lastGrouped : LastGrouped low high first pairs last)
    (above : high ≤ higher) : LastGrouped low higher first pairs last := by
  cases lastGrouped with
  | none ordered => exact .none (by omega)
  | some grouped detached nonempty =>
      exact .some (grouped.mono (Nat.le_refl _) above) detached nonempty

theorem grouped (lastGrouped : LastGrouped low high first pairs last) :
    Grouped low high first pairs ((last.map Prod.fst).getD []) := by
  cases lastGrouped with
  | none ordered => exact .nil ordered
  | some grouped detached nonempty => exact grouped

theorem detached (lastGrouped : LastGrouped low high first pairs last) :
    (erase ((last.map Prod.fst).getD [])).Detached := by
  cases lastGrouped with
  | none ordered => exact Text.detached_nil
  | some grouped detached nonempty => exact detached

end LastGrouped

/-- The draft has been written until `time`, and its captures are those of the pairs; `closing`
tells for each open capture the call that will close it. -/
structure Tracked (draft : StampedDraft) (time : Nat) (closing : Nat → Nat)
    (pairs : List (Nat × Nat)) : Prop where
  parts : ∃ (base opened more last : List (Nat × Nat)) (start low middle : Nat),
    Grouped 0 start 0 base draft.sealed ∧
    Opened base start closing draft.enclosing opened low ∧
    Grouped low middle opened.length more draft.written ∧
    LastGrouped middle time (opened ++ more).length last draft.last ∧
    pairs = opened ++ more ++ last
  separate : (erase draft.written).Detached
  counted : draft.opened = pairs.length

variable {draft : StampedDraft} {time call : Nat}

/-- What an edit needs to know of a draft: the text since the innermost opening in one piece. -/
theorem Tracked.inside (tracked : Tracked draft time closing pairs) :
    ∃ (base opened more : List (Nat × Nat)) (start low : Nat),
      Grouped 0 start 0 base draft.sealed ∧
      Opened base start closing draft.enclosing opened low ∧
      Grouped low time opened.length more draft.inner ∧
      (erase draft.inner).Detached ∧
      pairs = opened ++ more := by
  obtain ⟨base, opened, more, last, start, low, middle, sealedGrouped, enclosed, written, token,
    split⟩ := tracked.parts
  refine ⟨base, opened, more ++ last, start, low, sealedGrouped, enclosed, ?_, ?_, ?_⟩
  · refine .append written ?_
    rw [← List.length_append]
    exact token.grouped
  · unfold inner
    rw [erase_append]
    exact tracked.separate.append token.detached
  · rw [split, List.append_assoc]

theorem tracked_blank : Tracked blank 0 closing [] where
  parts := ⟨[], [], [], [], 0, 0, 0, .nil (Nat.le_refl _), .nil, .nil (Nat.le_refl _),
    .none (Nat.le_refl _), rfl⟩
  separate := Text.detached_nil
  counted := rfl

namespace Tracked

theorem mono {later : Nat} (tracked : Tracked draft time closing pairs) (ordered : time ≤ later) :
    Tracked draft later closing pairs := by
  obtain ⟨base, opened, more, last, start, low, middle, sealedGrouped, enclosed, written, token,
    split⟩ := tracked.parts
  exact ⟨⟨base, opened, more, last, start, low, middle, sealedGrouped, enclosed, written,
    token.mono ordered, split⟩, tracked.separate, tracked.counted⟩

theorem congr {other : Nat → Nat} (tracked : Tracked draft time closing pairs)
    (same : ∀ depth, depth < draft.enclosing.length → closing depth = other depth) :
    Tracked draft time other pairs := by
  obtain ⟨base, opened, more, last, start, low, middle, sealedGrouped, enclosed, written, token,
    split⟩ := tracked.parts
  exact ⟨⟨base, opened, more, last, start, low, middle, sealedGrouped, enclosed.congr same, written,
    token, split⟩, tracked.separate, tracked.counted⟩

theorem settle (tracked : Tracked draft time closing pairs) :
    Tracked draft.settle time closing pairs := by
  obtain ⟨base, opened, more, start, low, sealedGrouped, enclosed, inside, detached, split⟩ :=
    tracked.inside
  refine ⟨⟨base, opened, more, [], start, low, time, sealedGrouped, enclosed, inside,
    .none (Nat.le_refl _), ?_⟩, detached, tracked.counted⟩
  rw [split, List.append_nil]

theorem append (tracked : Tracked draft time closing pairs) (ordered : time ≤ 2 * call + 1)
    {token : Token} (cooked : token.Cooked) :
    Tracked (draft.edit call (.append token)) (2 * call + 1) closing pairs := by
  have settled := tracked.settle
  by_cases empty : token.text = []
  · simp only [edit, if_pos empty]
    exact settled.mono ordered
  · simp only [edit, if_neg empty]
    obtain ⟨base, opened, more, start, low, sealedGrouped, enclosed, inside, detached, split⟩ :=
      tracked.inside
    refine ⟨⟨base, opened, more, [], start, low, time, sealedGrouped, enclosed, inside,
      .some (.plain cooked.inert ordered (Nat.le_refl _)) ?_ ?_, ?_⟩, detached, tracked.counted⟩
    · rw [erase_ofText]
      exact cooked.detached
    · simpa [ofText] using empty
    · rw [split, List.append_nil]

/-- A group made for a quantifier keeps the captures in the token. -/
theorem grouped_operand {low first : Nat} {text : StampedText} {kind : TokenKind}
    (grouped : Grouped low time first pairs text) (ordered : time ≤ 2 * call + 1) :
    Grouped low (2 * call + 1) first pairs (operand call (text, kind)) := by
  unfold operand
  split
  · exact .group grouped ordered (Nat.le_refl _)
  · exact grouped.mono (Nat.le_refl _) ordered

theorem detached_operand {text : StampedText} {kind : TokenKind}
    (detached : (erase text).Detached) : (erase (operand call (text, kind))).Detached := by
  unfold operand
  split
  · rw [erase_append, erase_append, erase_ofText]
    simp [Text.Detached]
  · exact detached

theorem operand_ne_nil {text : StampedText} {kind : TokenKind} (nonempty : text ≠ []) :
    operand call (text, kind) ≠ [] := by
  unfold operand
  split
  · simp [ofText]
  · exact nonempty

theorem quantify (tracked : Tracked draft time closing pairs) (ordered : time ≤ 2 * call + 1)
    (quantifier : Quantifier) :
    Tracked (draft.edit call (.quantify quantifier)) (2 * call + 1) closing pairs := by
  obtain ⟨base, opened, more, last, start, low, middle, sealedGrouped, enclosed, written, token,
    split⟩ := tracked.parts
  cases found : draft.last with
  | none =>
      simp only [edit, found]
      exact tracked.mono ordered
  | some lastToken =>
      obtain ⟨text, kind⟩ := lastToken
      rw [found] at token
      simp only [edit, found]
      cases token with
      | some grouped detached nonempty =>
          have present : operand call (text, kind) ≠ [] := operand_ne_nil nonempty
          refine ⟨⟨base, opened, more, last, start, low, middle, sealedGrouped, enclosed, written,
            .some ?_ ?_ ?_, split⟩, tracked.separate, tracked.counted⟩
          · have behind : Grouped (2 * call + 1) (2 * call + 1)
                ((opened ++ more).length + last.length) [] (ofText call quantifier.text) :=
              .plain (.of_pass (ScanState.pass?_quantifier quantifier)) (Nat.le_refl _)
                (Nat.le_refl _)
            have ready : Grouped middle (2 * call + 1) (opened ++ more).length last
                (operand call (text, kind)) := grouped_operand grouped ordered
            have whole := ready.append behind
            rwa [List.append_nil] at whole
          · rw [erase_append]
            refine (detached_operand detached).append_of_ne ?_
            simpa [erase] using present
          · simp [present]

theorem anchors (tracked : Tracked draft time closing pairs) (startAnchor endAnchor : Bool) :
    Tracked { draft with startAnchor := startAnchor, endAnchor := endAnchor } time closing pairs :=
  ⟨tracked.parts, tracked.separate, tracked.counted⟩

theorem openCapture {other : Nat → Nat} (tracked : Tracked draft time closing pairs)
    (ordered : time ≤ 2 * call) (later : ∀ depth, other (depth + 1) = closing depth) :
    Tracked (draft.edit call .openCapture) (2 * call + 2) other (pairs ++ [(call, other 0)]) := by
  obtain ⟨base, opened, more, start, low, sealedGrouped, enclosed, inside, detached, split⟩ :=
    tracked.inside
  have outside : Opened base start (fun depth => other (depth + 1)) draft.enclosing opened low :=
    enclosed.congr (fun depth _ => (later depth).symm)
  have counted : draft.opened = (opened ++ more).length := by rw [tracked.counted, split]
  refine ⟨⟨base, pairs ++ [(call, other 0)], [], [], start, 2 * call + 2, 2 * call + 2,
    sealedGrouped, ?_, .nil (Nat.le_refl _), .none (Nat.le_refl _), by simp⟩, Text.detached_nil, ?_⟩
  · rw [split]
    exact .cons outside (inside.mono (Nat.le_refl _) ordered) detached counted
  · simp [edit, tracked.counted]

theorem closeCapture {other : Nat → Nat} (tracked : Tracked draft time closing pairs)
    (ordered : time ≤ 2 * call) (now : closing 0 = call)
    (later : ∀ depth, closing (depth + 1) = other depth) :
    Tracked (draft.edit call .closeCapture) (2 * call) other pairs := by
  obtain ⟨base, opened, more, start, low, sealedGrouped, enclosed, inside, detached, split⟩ :=
    tracked.inside
  cases enclosing : draft.enclosing with
  | nil =>
      simp only [edit, enclosing]
      refine (tracked.mono ordered).congr ?_
      intro depth bounded
      simp [enclosing] at bounded
  | cons capture outer =>
      rw [enclosing] at enclosed
      cases enclosed with
      | @cons _ _ _ outerPairs between outerLow outside grouped separate counted =>
          rw [now] at inside split
          simp only [edit, enclosing]
          refine ⟨⟨base, outerPairs, between, (capture.call, call) :: more, start, outerLow,
            2 * capture.call, sealedGrouped, ?_, grouped, .some ?_ ?_ ?_, ?_⟩, separate,
            tracked.counted⟩
          · exact outside.congr (fun depth _ => later depth)
          · exact grouped_capture counted (inside.mono (Nat.le_refl _) ordered) detached
          · simp [Text.Detached, erase, OpenCapture.opening]
          · simp
          · rw [split]
            simp

theorem alternate {other : Nat → Nat} (tracked : Tracked draft time closing pairs)
    (ordered : time ≤ 2 * call) (now : ∀ depth, closing depth = call) :
    Tracked (draft.edit call .alternate) (2 * call + 1) other pairs := by
  obtain ⟨base, opened, more, start, low, sealedGrouped, enclosed, inside, detached, split⟩ :=
    tracked.inside
  obtain ⟨extra, same, closed⟩ := enclosed.close (fun depth _ => now depth)
    (inside.mono (Nat.le_refl _) ordered) detached
  have bar : Grouped (2 * call) (2 * call + 1) (0 + (base ++ extra).length) []
      (ofText call ['|']) := .plain (.of_pass rfl) (by omega) (Nat.le_refl _)
  have branches : Grouped 0 (2 * call) 0 (base ++ extra)
      (draft.sealed ++ (draft.branch ++ draft.closers call)) := by
    refine .append sealedGrouped ?_
    rw [Nat.zero_add]
    exact closed
  refine ⟨⟨pairs, pairs, [], [], 2 * call + 1, 2 * call + 1, 2 * call + 1, ?_, .nil,
    .nil (Nat.le_refl _), .none (Nat.le_refl _), by simp⟩, Text.detached_nil, tracked.counted⟩
  rw [split, same]
  have whole := Grouped.append branches bar
  rw [List.append_nil] at whole
  simpa [edit, sealed] using whole

/-- Edits that neither open nor close captures nor start an alternative. -/
def IsPlain : Edit Token → Prop
  | .append token => token.Cooked
  | .quantify _ => True
  | .startAnchor _ => True
  | .endAnchor _ => True
  | _ => False

theorem plain (tracked : Tracked draft time closing pairs) (ordered : time ≤ 2 * call + 1)
    {edit : Edit Token} (plain : IsPlain edit) :
    Tracked (draft.edit call edit) (2 * call + 1) closing pairs := by
  cases edit with
  | append token => exact tracked.append ordered plain
  | quantify quantifier => exact tracked.quantify ordered quantifier
  | startAnchor enabled => exact (tracked.anchors enabled draft.endAnchor).mono ordered
  | endAnchor enabled => exact (tracked.anchors draft.startAnchor enabled).mono ordered
  | openCapture => cases plain
  | closeCapture => cases plain
  | alternate => cases plain

theorem foldl_plain (tracked : Tracked draft time closing pairs) (ordered : time ≤ 2 * call + 1)
    {edits : List (Edit Token)} (plain : ∀ edit ∈ edits, IsPlain edit) :
    Tracked (edits.foldl (StampedDraft.edit call) draft) (2 * call + 1) closing pairs := by
  induction edits generalizing draft time with
  | nil => exact tracked.mono ordered
  | cons edit rest inductionHypothesis =>
      have first := tracked.plain ordered (plain edit List.mem_cons_self)
      exact inductionHypothesis first (Nat.le_refl _)
        (fun other member => plain other (List.mem_cons_of_mem _ member))

end Tracked
end StampedDraft

namespace Call

def IsQuiet (call : Call) : Prop :=
  call ≠ .beginCapture ∧ call ≠ .endCapture ∧ ∀ value, call ≠ .alternative value

theorem closingCall_cons_of_quiet {call : Call} (quiet : call.IsQuiet) (index depth : Nat)
    (rest : List Call) :
    closingCall index depth (call :: rest) = closingCall (index + 1) depth rest := by
  cases call with
  | beginCapture => exact absurd rfl quiet.1
  | endCapture => exact absurd rfl quiet.2.1
  | alternative value => exact absurd rfl (quiet.2.2 value)
  | _ => rfl

theorem capturePairs_cons_of_ne {call : Call} (other : call ≠ .beginCapture) (index : Nat)
    (rest : List Call) : capturePairs index (call :: rest) = capturePairs (index + 1) rest := by
  cases call with
  | beginCapture => exact absurd rfl other
  | _ => rfl

theorem isPlain_of_mem_edits {call : Call} (cooked : call.isRaw = false) (quiet : call.IsQuiet)
    {edit : Edit Token} (member : edit ∈ call.edits) : StampedDraft.Tracked.IsPlain edit := by
  cases edit with
  | append token => exact Token.cooked_of_mem_edits cooked member
  | quantify quantifier => trivial
  | startAnchor enabled => trivial
  | endAnchor enabled => trivial
  | openCapture =>
      cases call with
      | beginCapture => exact absurd rfl quiet.1
      | _ => simp [edits] at member
  | closeCapture =>
      cases call with
      | endCapture => exact absurd rfl quiet.2.1
      | _ => simp [edits] at member
  | alternate =>
      cases call with
      | alternative value => exact absurd rfl (quiet.2.2 value)
      | _ => simp [edits] at member

end Call

namespace StampedDraft

variable {draft : StampedDraft} {pairs : List (Nat × Nat)} {index : Nat}

theorem Tracked.step {call : Call} {rest : List Call} (cooked : call.isRaw = false)
    (tracked : Tracked draft (2 * index)
      (fun depth => Call.closingCall index depth (call :: rest)) pairs) :
    ∃ more, Call.capturePairs index (call :: rest) =
        more ++ Call.capturePairs (index + 1) rest ∧
      Tracked (call.edits.foldl (edit index) draft) (2 * (index + 1))
        (fun depth => Call.closingCall (index + 1) depth rest) (pairs ++ more) := by
  by_cases quiet : call.IsQuiet
  · refine ⟨[], Call.capturePairs_cons_of_ne quiet.1 index rest, ?_⟩
    rw [List.append_nil]
    simp only [Call.closingCall_cons_of_quiet quiet] at tracked
    have edited := tracked.foldl_plain (Nat.le_succ _)
      (fun edit member => Call.isPlain_of_mem_edits cooked quiet member)
    exact edited.mono (by omega)
  · cases call with
    | beginCapture =>
        refine ⟨[(index, Call.closingCall (index + 1) 0 rest)], rfl, ?_⟩
        exact tracked.openCapture (Nat.le_refl _) (fun depth => rfl)
    | endCapture =>
        refine ⟨[], rfl, ?_⟩
        rw [List.append_nil]
        have closed := tracked.closeCapture (Nat.le_refl _) rfl (fun depth => rfl)
        exact closed.mono (by omega)
    | alternative value =>
        refine ⟨[], rfl, ?_⟩
        rw [List.append_nil]
        have started : Tracked (draft.edit index .alternate) (2 * index + 1)
            (fun depth => Call.closingCall (index + 1) depth rest) pairs :=
          tracked.alternate (Nat.le_refl _) (fun depth => rfl)
        have appended := started.append (Nat.le_refl _) (.literal value)
        exact appended.mono (by omega)
    | _ => exact absurd (by simp [Call.IsQuiet]) quiet

/-- A run keeps a draft tracked; at its end every open capture is closed by what comes next. -/
theorem Tracked.runFrom {calls : List Call} (cooked : ∀ call ∈ calls, call.isRaw = false)
    (tracked : Tracked draft (2 * index) (fun depth => Call.closingCall index depth calls) pairs) :
    Tracked (draft.runFrom index calls) (2 * (index + calls.length))
      (fun _ => index + calls.length) (pairs ++ Call.capturePairs index calls) := by
  induction calls generalizing draft pairs index with
  | nil =>
      rw [Call.capturePairs, List.append_nil]
      exact tracked
  | cons call rest inductionHypothesis =>
      obtain ⟨more, split, stepped⟩ := tracked.step (cooked call List.mem_cons_self)
      have finished := inductionHypothesis
        (fun other member => cooked other (List.mem_cons_of_mem _ member)) stepped
      rw [split, ← List.append_assoc, List.length_cons,
        show index + (rest.length + 1) = index + 1 + rest.length by omega]
      exact finished

theorem Tracked.source_parts {call : Nat}
    (tracked : Tracked draft (2 * call) (fun _ => call) pairs) :
    ∃ (front back : Text) (middle : StampedText), Inert front ∧ Inert back ∧
      Grouped 0 (2 * call + 1) 0 pairs middle ∧
      draft.source call = ofText call front ++ middle ++ ofText call back := by
  obtain ⟨base, opened, more, start, low, sealedGrouped, enclosed, inside, detached, split⟩ :=
    tracked.inside
  obtain ⟨extra, same, closed⟩ := enclosed.close (fun depth _ => rfl) inside detached
  have body : Grouped 0 (2 * call) 0 pairs (draft.body call) := by
    rw [split, same]
    unfold StampedDraft.body
    rw [List.append_assoc]
    refine .append sealedGrouped ?_
    rw [Nat.zero_add]
    exact closed
  have anchor {enabled : Bool} (character : Char)
      (plain : ScanState.pass? .outside [character] = some .outside) :
      Inert (if enabled then [character] else []) := by
    cases enabled with
    | false => exact Inert.nil
    | true => exact .of_pass plain
  refine ⟨if draft.toDraft.startAnchor then ['^'] else [],
    if draft.toDraft.endAnchor then ['$'] else [],
    if draft.finished = [] then draft.body call
      else ofText call ['(', '?', ':'] ++ draft.body call ++ ofText call [')'],
    anchor '^' rfl, anchor '$' rfl, ?_, ?_⟩
  · split
    · exact body.mono (Nat.le_refl _) (Nat.le_succ _)
    · exact .group body (Nat.le_succ _) (Nat.le_refl _)
  · by_cases single : draft.finished = []
    · have plain : draft.toDraft.isAlternating = false := by
        simp [Draft.isAlternating, toDraft, single]
      unfold source Draft.opening Draft.closing
      rw [plain, if_pos single]
      simp
    · have grouped : draft.toDraft.isAlternating = true := by
        simp [Draft.isAlternating, toDraft, single]
      unfold source Draft.opening Draft.closing
      rw [grouped, if_neg single]
      simp [ofText]

theorem Tracked.placed {call : Nat}
    (tracked : Tracked draft (2 * call) (fun _ => call) pairs) :
    Placed (draft.source call) 0 0 pairs
      (ScanState.captureSpans .outside 0 (erase (draft.source call))) := by
  obtain ⟨front, back, middle, frontInert, backInert, grouped, shape⟩ := tracked.source_parts
  obtain ⟨spans, scan, placed⟩ := grouped.captureSpans_append front.length back
  have behind := backInert.spans (front.length + middle.length) []
  rw [List.append_nil] at behind
  have found : ScanState.captureSpans .outside 0 (erase (draft.source call)) = spans := by
    rw [shape, erase_append, erase_append, erase_ofText, erase_ofText, List.append_assoc,
      frontInert.spans, Nat.zero_add, scan, behind]
    exact List.append_nil _
  rw [found, shape]
  refine Placed.widen (ofText call front) (ofText call back) ?_ ?_
  · simpa [ofText] using placed
  · intro pair pairMember item member
    have pairTime := grouped.time_of_pair_mem pairMember
    have written : item.2.time = 2 * call + 1 := by
      rcases List.mem_append.mp member with opening | closing
      · exact Grouped.time_of_mem_ofText opening
      · exact Grouped.time_of_mem_ofText closing
    have callTime := item.2.time_le
    omega

end StampedDraft

/-- The pattern text of calls, each character with the call that wrote it. -/
def StampedText.ofCalls (calls : List Call) : StampedText :=
  (StampedDraft.blank.runFrom 0 calls).source calls.length

namespace Phrase

theorem source_run_ofOptions {options : Options} (closes : options.closesCaptures = true)
    (calls : List Call) :
    ((ofOptions options).run calls).source = erase (.ofCalls calls) := by
  unfold source StampedText.ofCalls
  rw [draft_run, StampedDraft.erase_source, StampedDraft.toDraft_runFrom,
    StampedDraft.toDraft_blank]
  unfold ofOptions
  rw [closes]

/-- The captures of the pattern text are those of the calls that open captures, in their order.
The parentheses of each are written by that call and by the one that closes its capture, and
enclose just what the calls between these two wrote. -/
theorem captures_follow_calls {options : Options} (closes : options.closesCaptures = true)
    {calls : List Call} (cooked : ∀ call ∈ calls, call.isRaw = false) :
    ((ofOptions options).run calls).source = erase (.ofCalls calls) ∧
    (ScanState.captureSpans .outside 0 ((ofOptions options).run calls).source).length =
      calls.count .beginCapture ∧
    (Call.capturePairs 0 calls).length = calls.count .beginCapture ∧
    ∀ number pair span, (Call.capturePairs 0 calls)[number]? = some pair →
      (ScanState.captureSpans .outside 0 ((ofOptions options).run calls).source)[number]? =
        some span →
      Encloses (.ofCalls calls) 0 number pair span := by
  have tracked : StampedDraft.Tracked (StampedDraft.blank.runFrom 0 calls) (2 * calls.length)
      (fun _ => calls.length) (Call.capturePairs 0 calls) := by
    have blank : StampedDraft.Tracked .blank (2 * 0)
        (fun depth => Call.closingCall 0 depth calls) [] := StampedDraft.tracked_blank
    have run := blank.runFrom cooked
    simpa using run
  have placed := tracked.placed
  have numbered := Call.length_capturePairs 0 calls
  refine ⟨source_run_ofOptions closes calls, ?_, numbered, ?_⟩
  · rw [source_run_ofOptions closes, ← numbered]
    exact placed.1
  · intro number pair span foundPair foundSpan
    rw [source_run_ofOptions closes] at foundSpan
    have encloses := placed.2 number pair span foundPair foundSpan
    rwa [Nat.zero_add] at encloses

/-- The text of these calls is `(?:(\\((?:()+)+)|b)`. -/
theorem captures_follow_calls_of_nested :
    Call.capturePairs 0 [.beginCapture, .literal ['('], .beginCapture, .endCapture, .oneOrMore,
      .oneOrMore, .alternative ['b']] = [(0, 6), (2, 3)] ∧
    Encloses (.ofCalls [.beginCapture, .literal ['('], .beginCapture, .endCapture, .oneOrMore,
      .oneOrMore, .alternative ['b']]) 0 1 (2, 3) (9, some 10) := by
  have closes : Options.initial.closesCaptures = true := rfl
  have cooked : ∀ call ∈ ([.beginCapture, .literal ['('], .beginCapture, .endCapture, .oneOrMore,
      .oneOrMore, .alternative ['b']] : List Call), call.isRaw = false := by
    decide
  obtain ⟨_, _, _, placed⟩ := captures_follow_calls closes cooked
  constructor
  · decide
  · exact placed 1 _ _ (by decide) (by decide +kernel)

end Phrase
end ReadableRegex

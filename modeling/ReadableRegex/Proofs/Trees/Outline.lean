import ReadableRegex.Regex.OfPattern

/-!
The outline of a pattern under modes: rows of nodes, in which sequences are flat, groups that only
group are gone, and every class is the set of its characters. Modes are kept at the leaves that
read them.
-/

namespace ReadableRegex

/-- A part of a pattern without regard to how it is written. -/
inductive Node where
  | literal (modes : Modes) (character : Char)
  | dot (modes : Modes)
  | set (members : Char → Prop)
  | anchor (modes : Modes) (anchor : Anchor)
  | repetition (counts : Counts) (row : List Node)
  | capture (index : Nat) (name : Option Text) (row : List Node)
  | choice (rows : List (List Node))

abbrev NodeRow := List Node

namespace Node

/-- Several alternatives are one node, a single one is the row itself. -/
def ofBranches : List NodeRow → NodeRow
  | [row] => row
  | rows => [.choice rows]

end Node

namespace Pattern

variable [PropertyTable]

/-- The alternatives of the pattern in outline, and the modes after it. -/
@[simp] def branches (modes : Modes) : Pattern → List NodeRow × Modes
  | .empty => ([[]], modes)
  | .literal character => ([[.literal modes character]], modes)
  | .byte character => ([[.literal modes character]], modes)
  | .dot => ([[.dot modes]], modes)
  | .charClass set =>
      ([[.set (fun character => (set.set modes.comparison).holds character = true)]], modes)
  | .anchor assertion => ([[.anchor modes assertion]], modes)
  | .repetition counts part =>
      let (rows, after) := part.branches modes
      ([[.repetition (modes.counts counts) (Node.ofBranches rows)]], after)
  | .group (.capture index name) part =>
      let (rows, _) := part.branches modes
      ([[.capture index name (Node.ofBranches rows)]], modes)
  | .group (.plain change) part =>
      let (rows, _) := part.branches (modes.change change)
      ([Node.ofBranches rows], modes)
  | .modes change => ([[]], modes.change change)
  | .sequence left right =>
      let (lefts, between) := left.branches modes
      let (rights, after) := right.branches between
      ([Node.ofBranches lefts ++ Node.ofBranches rights], after)
  | .choice left right =>
      let (lefts, between) := left.branches modes
      let (rights, after) := right.branches between
      (lefts ++ rights, after)

def outline (modes : Modes) (pattern : Pattern) : NodeRow :=
  Node.ofBranches (pattern.branches modes).1

/-- The part is a single alternative with a meaning, and leaves the modes behind it as they are. -/
structure Steady (modes : Modes) (part : Pattern) : Prop where
  single : ∃ row, part.branches modes = ([row], modes)
  meant : ∃ regex, part.alternatives modes = .ok ([regex], modes)

variable {modes : Modes} {part : Pattern} {rows : List NodeRow}

theorem branches_of_steady (steady : part.Steady modes) :
    part.branches modes = ([part.outline modes], modes) := by
  obtain ⟨row, single⟩ := steady.single
  unfold outline
  rw [single]
  rfl

theorem outline_of_branches {row : NodeRow} (single : part.branches modes = ([row], modes)) :
    part.outline modes = row := by
  unfold outline
  rw [single]
  rfl

theorem branches_ne_nil (modes : Modes) (pattern : Pattern) : (pattern.branches modes).1 ≠ [] := by
  induction pattern generalizing modes with
  | group kind part inductionHypothesis => cases kind <;> exact List.cons_ne_nil _ _
  | choice left right leftHypothesis rightHypothesis =>
      exact List.append_ne_nil_of_left_ne_nil (leftHypothesis modes) _
  | _ => exact List.cons_ne_nil _ _

theorem Steady.ne_choice (steady : part.Steady modes) (left right : Pattern) :
    part ≠ .choice left right := by
  intro same
  subst same
  obtain ⟨row, single⟩ := steady.single
  have lefts := List.length_pos_iff.mpr (branches_ne_nil modes left)
  have rights := List.length_pos_iff.mpr (branches_ne_nil (left.branches modes).2 right)
  have both := congrArg (fun result => result.1.length) single
  simp only [branches, List.length_append, List.length_singleton] at both
  omega

theorem branches_ofParts {parts : List Pattern} (steady : ∀ part ∈ parts, part.Steady modes) :
    (ofParts parts).branches modes = ([parts.flatMap (outline modes)], modes) := by
  induction parts with
  | nil => rfl
  | cons part rest inductionHypothesis =>
      have first := branches_of_steady (steady part List.mem_cons_self)
      cases rest with
      | nil =>
          rw [List.flatMap_cons, List.flatMap_nil, List.append_nil]
          exact first
      | cons second others =>
          have later := inductionHypothesis
            (fun other member => steady other (List.mem_cons_of_mem _ member))
          simp only [ofParts, branches, first, List.flatMap_cons]
          simp only [later, Node.ofBranches, List.flatMap_cons]

theorem branches_ofAlternatives {alternatives : List Pattern} (present : alternatives ≠ [])
    (steady : ∀ part ∈ alternatives, part.Steady modes) :
    (ofAlternatives alternatives).branches modes = (alternatives.map (outline modes), modes) := by
  induction alternatives with
  | nil => exact absurd rfl present
  | cons part rest inductionHypothesis =>
      have first := branches_of_steady (steady part List.mem_cons_self)
      cases rest with
      | nil => exact first
      | cons second others =>
          have later := inductionHypothesis (by simp)
            (fun other member => steady other (List.mem_cons_of_mem _ member))
          simp only [ofAlternatives, branches, first, List.map_cons]
          simp only [later, List.map_cons, List.singleton_append]

theorem branches_group (inside : part.branches modes = (rows, modes)) :
    (Pattern.group (.plain []) part).branches modes = ([Node.ofBranches rows], modes) := by
  simp only [branches, Modes.change, List.foldl_nil, inside]

theorem branches_capture (index : Nat) (name : Option Text)
    (inside : part.branches modes = (rows, modes)) :
    (Pattern.group (.capture index name) part).branches modes =
      ([[.capture index name (Node.ofBranches rows)]], modes) := by
  simp only [branches, inside]

theorem branches_repetition (counts : Counts) (steady : part.Steady modes) :
    (Pattern.repetition counts part).branches modes =
      ([[.repetition (modes.counts counts) (part.outline modes)]], modes) := by
  simp only [branches, branches_of_steady steady, Node.ofBranches]

/-! ### Meanings -/

theorem Steady.ofParts {parts : List Pattern} (steady : ∀ part ∈ parts, part.Steady modes) :
    (ofParts parts).Steady modes := by
  refine ⟨⟨_, branches_ofParts steady⟩, ?_⟩
  induction parts with
  | nil => exact ⟨_, rfl⟩
  | cons part rest inductionHypothesis =>
      obtain ⟨first, firstMeant⟩ := (steady part List.mem_cons_self).meant
      cases rest with
      | nil => exact ⟨first, firstMeant⟩
      | cons second others =>
          obtain ⟨later, laterMeant⟩ := inductionHypothesis
            (fun other member => steady other (List.mem_cons_of_mem _ member))
          simp only [Pattern.ofParts, alternatives, firstMeant, laterMeant]
          exact ⟨_, rfl⟩

theorem alternatives_ofAlternatives {parts : List Pattern} (present : parts ≠ [])
    (steady : ∀ part ∈ parts, part.Steady modes) :
    ∃ regexes, (ofAlternatives parts).alternatives modes = .ok (regexes, modes) := by
  induction parts with
  | nil => exact absurd rfl present
  | cons part rest inductionHypothesis =>
      obtain ⟨first, firstMeant⟩ := (steady part List.mem_cons_self).meant
      cases rest with
      | nil => exact ⟨_, firstMeant⟩
      | cons second others =>
          obtain ⟨later, laterMeant⟩ := inductionHypothesis (List.cons_ne_nil _ _)
            (fun other member => steady other (List.mem_cons_of_mem _ member))
          simp only [ofAlternatives, alternatives, firstMeant, laterMeant]
          exact ⟨_, rfl⟩

theorem Steady.group {parts : List Pattern} (present : parts ≠ [])
    (steady : ∀ part ∈ parts, part.Steady modes) :
    (Pattern.group (.plain []) (ofAlternatives parts)).Steady modes := by
  refine ⟨⟨_, branches_group (branches_ofAlternatives present steady)⟩, ?_⟩
  obtain ⟨regexes, meant⟩ := alternatives_ofAlternatives present steady
  have inside : (ofAlternatives parts).alternatives (modes.inside (.plain [])) =
    .ok (regexes, modes) := meant
  simp only [alternatives, inside]
  exact ⟨_, rfl⟩

theorem Steady.capture (index : Nat) (name : Option Text) (steady : part.Steady modes) :
    (Pattern.group (.capture index name) part).Steady modes := by
  refine ⟨⟨_, branches_capture index name (branches_of_steady steady)⟩, ?_⟩
  obtain ⟨regex, meant⟩ := steady.meant
  have inside : part.alternatives (modes.inside (.capture index name)) = .ok ([regex], modes) :=
    meant
  simp only [alternatives, inside]
  exact ⟨_, rfl⟩

theorem Steady.repetition (counts : Counts) (steady : part.Steady modes) :
    (Pattern.repetition counts part).Steady modes := by
  refine ⟨⟨_, branches_repetition counts steady⟩, ?_⟩
  obtain ⟨regex, meant⟩ := steady.meant
  simp only [alternatives, meant]
  exact ⟨_, rfl⟩

end Pattern

/-! ### Modes of whole patterns -/

/-- Quantifiers are greedy unless they say otherwise, and characters are not bytes. -/
structure Modes.Usual (modes : Modes) : Prop where
  greedy : modes.swapGreed = false
  unicode : modes.unicode = true

theorem Modes.usual_ofFlags (flags : FlagSet) : (ofFlags flags).Usual :=
  ⟨rfl, rfl⟩

end ReadableRegex

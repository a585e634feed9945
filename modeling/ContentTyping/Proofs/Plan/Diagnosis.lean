import ContentTyping.Proofs.Plan.BestEffort
import ContentTyping.Proofs.Tree.Below

/-!
# Where a search ends

A node without a viable candidate is left for the first of its active children that has none below
the node's first candidate, and so on down the tree. The way ends at a node that no type can be
given, or at one whose children could all be typed but not together. It is as long as the tree is
deep at most, so following it step by step comes to its end. What is listed before the end is above
it, or it has been typed with all that lies below.
-/

namespace ContentTyping

open ContentTree

/-- A node is above what is listed for its active children. -/
theorem ContentTree.WellFormed.mem_ancestors_of_mem_activeChildren {tree : ContentTree}
    (wellFormed : tree.WellFormed) {id child member : NodeId}
    (isChild : child ∈ tree.activeChildren id) (listed : member ∈ tree.activeSubtree child) :
    id ∈ tree.ancestors member := by
  have active := isActive_of_mem_activeChildren isChild
  have link := wellFormed.parent?_of_mem_activeChildren isChild
  have below : Below tree id member :=
    .trans (.child link .self) (wellFormed.below_of_mem_activeSubtree active listed)
  have live := contains_of_mem_activeSubtree listed
  rcases (wellFormed.mem_ancestors_or_self_iff live).2 below with rfl | above
  · exact absurd listed (wellFormed.parent_not_mem_activeSubtree active link)
  · exact above

namespace DomainProfile

/-- Why no type can be given to a node of a file kind below a parent type, or at the top of a tree. -/
def noPlaceFor (profile : DomainProfile) (kind : Option FileKind) : Option NodeTypeId → Obstacle
  | none => .notARoot kind
  | some parent => .notBelow kind (profile.typeLabel parent)

/-- The first active child without a viable candidate. -/
def firstStuck? (profile : DomainProfile) (tree : ContentTree) (type : NodeTypeId) (id : NodeId) :
    Option NodeId :=
  (tree.activeChildren id).find? fun child => (profile.firstViable? tree (some type) child).isNone

/-- The way down from a node below a parent type ends at a node, for a reason. -/
inductive EndsAt (profile : DomainProfile) (tree : ContentTree) :
    Option NodeTypeId → NodeId → NodeId → Obstacle → Prop
  | unplaced {parentType : Option NodeTypeId} {id : NodeId}
      (noCandidate : profile.candidates tree parentType id = []) :
      EndsAt profile tree parentType id id (profile.noPlaceFor (tree.fileKind id) parentType)
  | unfit {parentType : Option NodeTypeId} {id : NodeId} {first : Candidate} {rest : List Candidate}
      (tried : profile.candidates tree parentType id = first :: rest)
      (noneStuck : profile.firstStuck? tree first.nodeType id = none) :
      EndsAt profile tree parentType id id (.childrenUnfit (profile.typeLabel first.nodeType))
  | descend {parentType : Option NodeTypeId} {id child ending : NodeId} {first : Candidate}
      {rest : List Candidate} {obstacle : Obstacle}
      (tried : profile.candidates tree parentType id = first :: rest)
      (isStuck : profile.firstStuck? tree first.nodeType id = some child)
      (ends : EndsAt profile tree (some first.nodeType) child ending obstacle) :
      EndsAt profile tree parentType id ending obstacle

variable {profile : DomainProfile} {tree : ContentTree} {parentType : Option NodeTypeId}
  {id child ending : NodeId} {type : NodeTypeId} {obstacle : Obstacle}

theorem firstStuck?_eq_none_iff :
    profile.firstStuck? tree type id = none ↔
      ∀ child ∈ tree.activeChildren id, profile.firstViable? tree (some type) child ≠ none := by
  rw [firstStuck?, List.find?_eq_none]
  simp only [Option.isNone_iff_eq_none, ne_eq]

theorem viable_iff_firstStuck? (wellFormed : tree.WellFormed) :
    profile.viable tree id type = true ↔
      type ∈ profile.typesForKind (tree.fileKind id) ∧ profile.firstStuck? tree type id = none ∧
        profile.brokenChildConstraints type
          ((tree.activeChildren id).filterMap fun child =>
            (profile.firstViable? tree (some type) child).map Candidate.edge) = [] := by
  rw [viable_iff wellFormed, firstStuck?_eq_none_iff]
  refine and_congr_right' (and_congr_left' (forall₂_congr fun child _ => ?_))
  rw [← Option.isSome_iff_ne_none, firstViable?_isSome_iff]

theorem mem_activeChildren_of_firstStuck?
    (isStuck : profile.firstStuck? tree type id = some child) : child ∈ tree.activeChildren id :=
  List.mem_of_find?_eq_some isStuck

/-- The children before the stuck one have viable candidates. -/
theorem exists_split_of_firstStuck? (isStuck : profile.firstStuck? tree type id = some child) :
    profile.firstViable? tree (some type) child = none ∧
      ∃ passed later, tree.activeChildren id = passed ++ child :: later ∧
        ∀ sibling ∈ passed, profile.firstViable? tree (some type) sibling ≠ none := by
  obtain ⟨notViable, passed, later, children, complete⟩ := List.find?_eq_some_iff_append.1 isStuck
  refine ⟨Option.isNone_iff_eq_none.1 notViable, passed, later, children, fun sibling before => ?_⟩
  rw [← Option.isSome_iff_ne_none, ← Option.isNone_eq_false_iff, ← Bool.not_eq_true']
  exact complete sibling before

/-! ## Following the way -/

theorem exists_endsAt (wellFormed : tree.WellFormed) (active : tree.isActive id = true)
    (parentType : Option NodeTypeId) :
    ∃ ending obstacle, profile.EndsAt tree parentType id ending obstacle := by
  revert parentType
  refine wellFormed.active_induction (motive := fun id => ∀ parentType,
    ∃ ending obstacle, profile.EndsAt tree parentType id ending obstacle) ?_ active
  intro id active inductionHypothesis parentType
  cases tried : profile.candidates tree parentType id with
  | nil =>
      exact ⟨id, _, .unplaced tried⟩
  | cons first rest =>
      cases stuck : profile.firstStuck? tree first.nodeType id with
      | none =>
          exact ⟨id, _, .unfit tried stuck⟩
      | some child =>
          obtain ⟨ending, obstacle, ends⟩ := inductionHypothesis child
            (mem_activeChildren_of_firstStuck? stuck) (some first.nodeType)
          exact ⟨ending, obstacle, .descend tried stuck ends⟩

/-- The first child that is stuck by the table. -/
theorem find?_choose?_viability (wellFormed : tree.WellFormed) {top : NodeId}
    (listed : id ∈ tree.activeSubtree top) (type : NodeTypeId) :
    ((tree.activeChildren id).find? fun child =>
        (profile.choose? tree (profile.viability tree top) (some type) child).isNone) =
      profile.firstStuck? tree type id := by
  refine List.find?_congr fun child member => ?_
  rw [choose?_viability wellFormed
    (wellFormed.mem_activeSubtree_of_mem_activeChildren listed member)]

namespace EndsAt

/-- With a step for each level of the tree the planner follows the way to its end. The table is that of
a larger subtree. -/
theorem diagnose_eq (ends : profile.EndsAt tree parentType id ending obstacle)
    (wellFormed : tree.WellFormed) {top : NodeId} (listed : id ∈ tree.activeSubtree top)
    {steps : Nat} (enough : tree.nodes.size ≤ steps + tree.depth id) :
    profile.diagnose tree (profile.viability tree top) steps parentType id =
      (ending, obstacle) := by
  have bound := wellFormed.depth_lt (contains_of_mem_activeSubtree listed)
  obtain ⟨fewer, rfl⟩ : ∃ fewer, steps = fewer + 1 := Nat.exists_eq_succ_of_ne_zero (by omega)
  induction ends generalizing fewer with
  | @unplaced parentType id noCandidate =>
      rw [diagnose, noCandidate]
      cases parentType with
      | none => rfl
      | some parent => rfl
  | unfit tried noneStuck =>
      rw [diagnose, tried]
      simp only [find?_choose?_viability wellFormed listed, noneStuck]
  | descend tried isStuck _ inductionHypothesis =>
      have member := mem_activeChildren_of_firstStuck? isStuck
      have childListed := wellFormed.mem_activeSubtree_of_mem_activeChildren listed member
      have childDepth := wellFormed.depth_activeChild member
      have childBound := wellFormed.depth_lt (contains_of_mem_activeSubtree childListed)
      obtain ⟨fewest, rfl⟩ : ∃ fewest, fewer = fewest + 1 :=
        Nat.exists_eq_succ_of_ne_zero (by omega)
      rw [diagnose, tried]
      simp only [find?_choose?_viability wellFormed listed, isStuck]
      exact inductionHypothesis childListed childBound fewest (by omega)

end EndsAt

/-! ## What is decided on the way -/

/-- What a best choice says of the node at which a search ends. -/
inductive Culprit (profile : DomainProfile) (tree : ContentTree)
    (choice : NodeId → Option Candidate) (ending : NodeId) : Obstacle → Prop
  | unplaced {parentType : Option NodeTypeId} (undecided : choice ending = none) :
      Culprit profile tree choice ending (profile.noPlaceFor (tree.fileKind ending) parentType)
  | unfit {candidate : Candidate} (chosen : choice ending = some candidate)
      (noneStuck : profile.firstStuck? tree candidate.nodeType ending = none)
      (notViable : ¬ profile.viable tree ending candidate.nodeType = true) :
      Culprit profile tree choice ending (.childrenUnfit (profile.typeLabel candidate.nodeType))

variable {choice : NodeId → Option Candidate}

namespace BestChoice

/-- A node without a viable candidate is given its first candidate. -/
theorem start_eq_first (isBest : profile.BestChoice tree id parentType choice)
    (notViable : profile.firstViable? tree parentType id = none) {first : Candidate}
    {rest : List Candidate} (tried : profile.candidates tree parentType id = first :: rest) :
    choice id = some first := by
  rw [isBest.atStart, bestCandidate?_of_not_viable notViable, tried, List.head?_cons]

/-- Where the start has a viable candidate all below it have what was chosen for them. -/
theorem viable_of_start (wellFormed : tree.WellFormed)
    (isBest : profile.BestChoice tree id parentType choice)
    (startViable : profile.firstViable? tree parentType id ≠ none) {node : NodeId}
    (listed : node ∈ tree.activeSubtree id) :
    ∃ candidate, choice node = some candidate ∧
      profile.viable tree node candidate.nodeType = true := by
  obtain ⟨candidate, viable⟩ := Option.ne_none_iff_exists'.1 startViable
  obtain ⟨first, isFirst⟩ :=
    exists_firstChoice wellFormed (isActive_start_of_mem_activeSubtree listed) viable
  exact ⟨first node, isBest.eq_firstChoice wellFormed isFirst node listed,
    isFirst.viable wellFormed listed⟩

end BestChoice

namespace EndsAt

variable (ends : profile.EndsAt tree parentType id ending obstacle)
  (wellFormed : tree.WellFormed) (active : tree.isActive id = true)
  (isBest : profile.BestChoice tree id parentType choice)
  (notViable : profile.firstViable? tree parentType id = none)

include ends wellFormed active isBest notViable

theorem culprit : profile.Culprit tree choice ending obstacle := by
  induction ends with
  | unplaced noCandidate =>
      refine .unplaced ?_
      rw [isBest.atStart, bestCandidate?_eq_none_iff]
      exact noCandidate
  | @unfit parentType id first rest tried noneStuck =>
      refine .unfit (isBest.start_eq_first notViable tried) noneStuck fun viable => ?_
      have found := List.find?_eq_none.1 notViable first (by rw [tried]; exact List.mem_cons_self)
      exact found viable
  | descend tried isStuck _ inductionHypothesis =>
      have member := mem_activeChildren_of_firstStuck? isStuck
      exact inductionHypothesis (isActive_of_mem_activeChildren member)
        (isBest.below wellFormed (wellFormed.mem_activeSubtree_self active) member
          (isBest.start_eq_first notViable tried))
        (exists_split_of_firstStuck? isStuck).1

/-- What is listed before the end is above it, or else it was given a type that it can take with all that
lies below. -/
theorem exists_split : ∃ front back, tree.activeSubtree id = front ++ ending :: back ∧
    ∀ node ∈ front, node ∈ tree.ancestors ending ∨ ∃ candidate, choice node = some candidate ∧
      profile.viable tree node candidate.nodeType = true := by
  induction ends with
  | @unplaced parentType id noCandidate =>
      exact ⟨[], _, wellFormed.activeSubtree_eq active, fun _ member => absurd member List.not_mem_nil⟩
  | @unfit parentType id first rest tried noneStuck =>
      exact ⟨[], _, wellFormed.activeSubtree_eq active, fun _ member => absurd member List.not_mem_nil⟩
  | @descend parentType id child ending first rest obstacle tried isStuck ends inductionHypothesis =>
      obtain ⟨childStuck, passed, later, children, complete⟩ := exists_split_of_firstStuck? isStuck
      have member := mem_activeChildren_of_firstStuck? isStuck
      have chosen := isBest.start_eq_first notViable tried
      have listed := wellFormed.mem_activeSubtree_self active
      have below {child : NodeId} (member : child ∈ tree.activeChildren id) :=
        isBest.below wellFormed listed member chosen
      obtain ⟨front, back, childSplit, frontCases⟩ := inductionHypothesis
        (isActive_of_mem_activeChildren member) (below member) childStuck
      have endingListed : ending ∈ tree.activeSubtree child := by
        rw [childSplit]
        exact List.mem_append_right front List.mem_cons_self
      refine ⟨id :: passed.flatMap tree.activeSubtree ++ front,
        back ++ later.flatMap tree.activeSubtree, ?_, ?_⟩
      · rw [wellFormed.activeSubtree_eq active, children, List.flatMap_append, List.flatMap_cons,
          childSplit]
        simp only [List.cons_append, List.append_assoc]
      · intro node before
        rcases List.mem_append.1 before with outside | inChild
        · rcases List.mem_cons.1 outside with rfl | inPassed
          · exact .inl (wellFormed.mem_ancestors_of_mem_activeChildren member endingListed)
          · right
            obtain ⟨sibling, siblingPassed, siblingListed⟩ := List.mem_flatMap.1 inPassed
            have siblingMember : sibling ∈ tree.activeChildren id := by
              rw [children]
              exact List.mem_append_left _ siblingPassed
            exact (below siblingMember).viable_of_start wellFormed (complete sibling siblingPassed)
              siblingListed
        · exact frontCases node inChild

theorem mem_activeSubtree : ending ∈ tree.activeSubtree id := by
  obtain ⟨front, back, split, _⟩ := ends.exists_split wellFormed active isBest notViable
  rw [split]
  exact List.mem_append_right front List.mem_cons_self

theorem above_or_viable_of_before {node : NodeId}
    (before : node ∈ (tree.activeSubtree id).takeWhile (· ≠ ending)) :
    node ∈ tree.ancestors ending ∨ ∃ candidate, choice node = some candidate ∧
      profile.viable tree node candidate.nodeType = true := by
  obtain ⟨front, back, split, frontCases⟩ :=
    ends.exists_split wellFormed active isBest notViable
  refine frontCases node ?_
  rw [split, List.takeWhile_append] at before
  split at before
  · rw [List.takeWhile_cons_of_neg (by simp), List.append_nil] at before
    exact before
  · exact (List.takeWhile_prefix _).subset before

end EndsAt

end DomainProfile

end ContentTyping

import ContentTyping.Proofs.Plan.Viability

/-!
# First choices

The recursive choice gives the start its first viable candidate below the parent's type, and every
node below it its first viable candidate below the type chosen for its parent. A plan is complete
exactly when there is such a choice, and then it lists the choice over the active subtree.
-/

namespace ContentTyping.DomainProfile

variable {profile : DomainProfile} {tree : ContentTree}

/-- Every node of the active subtree is given its first viable candidate below the type that was
chosen for its parent. -/
structure FirstChoice (profile : DomainProfile) (tree : ContentTree) (start : NodeId)
    (parentType : Option NodeTypeId) (choice : NodeId → Candidate) : Prop where
  atStart : profile.firstViable? tree parentType start = some (choice start)
  atChild : ∀ id ∈ tree.activeSubtree start, ∀ child ∈ tree.activeChildren id,
    profile.firstViable? tree (some (choice id).nodeType) child = some (choice child)

/-- The placements of a choice over an active subtree. -/
def placementsOf (tree : ContentTree) (start : NodeId) (choice : NodeId → Candidate) :
    List Placement :=
  (tree.activeSubtree start).map fun id => (choice id).at id

theorem placementsOf_nodes (start : NodeId) (choice : NodeId → Candidate) :
    (placementsOf tree start choice).map Placement.node = tree.activeSubtree start := by
  rw [placementsOf, List.map_map]
  exact List.map_id _

theorem contains_of_mem_placementsOf {start : NodeId} {choice : NodeId → Candidate} :
    ∀ placement ∈ placementsOf tree start choice, tree.contains placement.node = true :=
  List.forall_mem_map.2 fun _ listed => ContentTree.contains_of_mem_activeSubtree listed

theorem viable_of_firstViable? {parentType : Option NodeTypeId} {id : NodeId}
    {candidate : Candidate} (first : profile.firstViable? tree parentType id = some candidate) :
    profile.viable tree id candidate.nodeType = true :=
  suits_of_firstSuitable? first

theorem firstViable?_isSome_iff {parentType : Option NodeTypeId} {id : NodeId} :
    (profile.firstViable? tree parentType id).isSome = true ↔
      ∃ candidate ∈ profile.candidates tree parentType id,
        profile.viable tree id candidate.nodeType = true :=
  firstSuitable?_isSome_iff

theorem exists_firstViable?_of_viable (wellFormed : tree.WellFormed) {id child : NodeId}
    {type : NodeTypeId} (suitable : profile.viable tree id type = true)
    (member : child ∈ tree.activeChildren id) :
    ∃ candidate, profile.firstViable? tree (some type) child = some candidate := by
  have childrenPlaced := ((viable_iff wellFormed).1 suitable).2.1
  exact Option.isSome_iff_exists.1
    (firstViable?_isSome_iff.2 (childrenPlaced child member))

/-- When the start has a first viable candidate, the choice can be made all the way down. -/
theorem exists_firstChoice (wellFormed : tree.WellFormed) {start : NodeId}
    (active : tree.isActive start = true) {parentType : Option NodeTypeId}
    {chosen : Candidate} (first : profile.firstViable? tree parentType start = some chosen) :
    ∃ choice, profile.FirstChoice tree start parentType choice := by
  let next (above : Candidate) (id : NodeId) : Candidate :=
    (profile.firstViable? tree (some above.nodeType) id).getD above
  let choice := tree.handedDown start chosen next
  have choiceStart : choice start = chosen := ContentTree.handedDown_start start chosen next
  -- What is handed down stays viable, so that the next choice can be made.
  have viableBelow : ∀ id ∈ tree.activeSubtree start,
      profile.viable tree id (choice id).nodeType = true := by
    refine wellFormed.activeSubtree_induction active ?_ ?_
    · rw [choiceStart]
      exact viable_of_firstViable? first
    · intro id listed suitable child member
      obtain ⟨candidate, found⟩ := exists_firstViable?_of_viable wellFormed suitable member
      have choiceChild : choice child = next (choice id) child :=
        wellFormed.handedDown_child listed member chosen next
      rw [choiceChild]
      simp only [next, found, Option.getD_some]
      exact viable_of_firstViable? found
  refine ⟨choice, ?_, ?_⟩
  · rw [choiceStart]
    exact first
  · intro id listed child member
    obtain ⟨candidate, found⟩ :=
      exists_firstViable?_of_viable wellFormed (viableBelow id listed) member
    have choiceChild : choice child = next (choice id) child :=
      wellFormed.handedDown_child listed member chosen next
    rw [choiceChild]
    simp only [next, found, Option.getD_some]

namespace FirstChoice

variable {start : NodeId} {parentType : Option NodeTypeId} {choice : NodeId → Candidate}

theorem child_of_parent (wellFormed : tree.WellFormed)
    (isFirst : profile.FirstChoice tree start parentType choice) {id : NodeId}
    (listed : id ∈ tree.activeSubtree start) (notStart : id ≠ start) :
    ∃ parent ∈ tree.activeSubtree start, id ∈ tree.activeChildren parent ∧
      profile.firstViable? tree (some (choice parent).nodeType) id = some (choice id) := by
  obtain ⟨parent, parentListed, member⟩ :=
    wellFormed.exists_parent_of_mem_activeSubtree listed notStart
  exact ⟨parent, parentListed, member, isFirst.atChild parent parentListed id member⟩

theorem viable (wellFormed : tree.WellFormed)
    (isFirst : profile.FirstChoice tree start parentType choice) {id : NodeId}
    (listed : id ∈ tree.activeSubtree start) :
    profile.viable tree id (choice id).nodeType = true := by
  by_cases isStart : id = start
  · subst isStart
    exact viable_of_firstViable? isFirst.atStart
  · obtain ⟨parent, _, _, found⟩ := isFirst.child_of_parent wellFormed listed isStart
    exact viable_of_firstViable? found

theorem unique (wellFormed : tree.WellFormed) {other : NodeId → Candidate}
    (isFirst : profile.FirstChoice tree start parentType choice)
    (otherIsFirst : profile.FirstChoice tree start parentType other) :
    ∀ id ∈ tree.activeSubtree start, choice id = other id := by
  intro id listed
  have active := ContentTree.isActive_start_of_mem_activeSubtree listed
  refine wellFormed.activeSubtree_induction (motive := fun id => choice id = other id) active
    ?_ ?_ id listed
  · exact Option.some.inj (isFirst.atStart.symm.trans otherIsFirst.atStart)
  · intro id listed same child member
    have found := isFirst.atChild id listed child member
    rw [same] at found
    exact Option.some.inj (found.symm.trans (otherIsFirst.atChild id listed child member))

/-- From any node of the active subtree on, the choice is the first one below the type above it. -/
theorem within (wellFormed : tree.WellFormed)
    (isFirst : profile.FirstChoice tree start parentType choice) {id : NodeId}
    (listed : id ∈ tree.activeSubtree start) {above : Option NodeTypeId}
    (first : profile.firstViable? tree above id = some (choice id)) :
    profile.FirstChoice tree id above choice where
  atStart := first
  atChild inner innerListed :=
    isFirst.atChild inner (wellFormed.mem_activeSubtree_trans listed innerListed)

theorem below (wellFormed : tree.WellFormed)
    (isFirst : profile.FirstChoice tree start parentType choice) {id child : NodeId}
    (listed : id ∈ tree.activeSubtree start) (member : child ∈ tree.activeChildren id) :
    profile.FirstChoice tree child (some (choice id).nodeType) choice :=
  isFirst.within wellFormed (wellFormed.mem_activeSubtree_of_mem_activeChildren listed member)
    (isFirst.atChild id listed child member)

end FirstChoice

/-- Collecting follows the first choice. The table is that of a larger subtree. -/
theorem collect_eq (wellFormed : tree.WellFormed) {top start : NodeId}
    (listed : start ∈ tree.activeSubtree top) {parentType : Option NodeTypeId}
    {choice : NodeId → Candidate}
    (isFirst : profile.FirstChoice tree start parentType choice) {steps : Nat}
    (enough : tree.nodes.size ≤ steps + tree.depth start) :
    profile.collect tree (profile.viability tree top) steps (choice start) start =
      placementsOf tree start choice := by
  have active := ContentTree.isActive_of_mem_activeSubtree listed
  revert listed parentType steps
  refine wellFormed.active_induction
    (motive := fun start => start ∈ tree.activeSubtree top →
      ∀ {parentType : Option NodeTypeId},
        profile.FirstChoice tree start parentType choice →
        ∀ {steps : Nat}, tree.nodes.size ≤ steps + tree.depth start →
          profile.collect tree (profile.viability tree top) steps (choice start) start =
            placementsOf tree start choice) ?_ active
  intro start active inductionHypothesis listed parentType isFirst steps enough
  have bound := wellFormed.depth_lt (ContentTree.contains_of_isActive active)
  have startListed := wellFormed.mem_activeSubtree_self active
  cases steps with
  | zero =>
      omega
  | succ steps =>
      rw [collect, placementsOf, wellFormed.activeSubtree_eq active, List.map_cons,
        List.map_flatMap]
      refine congrArg _ (List.flatMap_congr fun child member => ?_)
      have childListed := wellFormed.mem_activeSubtree_of_mem_activeChildren listed member
      have childDepth := wellFormed.depth_activeChild member
      rw [choose?_viability wellFormed childListed,
        isFirst.atChild start startListed child member]
      exact inductionHypothesis child member childListed
        (isFirst.below wellFormed startListed member) (by omega)

/-- A plan is complete exactly when there is a first choice, and it lists that choice. -/
theorem plan_eq_complete_iff_firstChoice (wellFormed : tree.WellFormed) {start : NodeId}
    (active : tree.isActive start = true) {parentType : Option NodeTypeId}
    {placements : List Placement} :
    profile.plan tree start parentType = .complete placements ↔
      ∃ choice, profile.FirstChoice tree start parentType choice ∧
        placements = placementsOf tree start choice := by
  have startListed := wellFormed.mem_activeSubtree_self active
  rw [plan, choose?_viability wellFormed startListed]
  cases first : profile.firstViable? tree parentType start with
  | none =>
      constructor
      · intro complete
        exact absurd complete (by simp)
      · rintro ⟨choice, isFirst, _⟩
        rw [isFirst.atStart] at first
        exact absurd first (by simp)
  | some chosen =>
      obtain ⟨choice, isFirst⟩ := exists_firstChoice wellFormed active first
      have sameStart : chosen = choice start :=
        Option.some.inj (first.symm.trans isFirst.atStart)
      subst sameStart
      simp only [collect_eq wellFormed startListed isFirst
        (show tree.nodes.size ≤ tree.nodes.size + 1 + tree.depth start by omega),
        Plan.complete.injEq]
      constructor
      · rintro rfl
        exact ⟨choice, isFirst, rfl⟩
      · rintro ⟨other, otherIsFirst, rfl⟩
        refine List.map_congr_left fun id listed => ?_
        rw [isFirst.unique wellFormed otherIsFirst id listed]

end ContentTyping.DomainProfile

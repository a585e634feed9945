import ContentTyping.Proofs.Tree.Surroundings
import ContentTyping.Proofs.Validation.Defects

/-!
# How far a change reaches

A check of a node looks at the node, at the type of its parent and at the edges to its children. So
when a tree in order is changed at one node, only there, at the parent, at the children, and at nodes
whose children were exchanged can something be wrong afterwards.
-/

namespace ContentTyping

/-- A node without its children and its object. -/
def Node.alone (node : Node) : Node :=
  { node with children := [], object := none }

namespace ContentTree

/-- The second tree is the first one after a change at a node. Of further nodes, only the children of
some parents are not the same. -/
structure ChangedAt (before after : ContentTree) (id : NodeId) (parents : List NodeId) :
    Prop where
  root : after.root = before.root
  nodes : ∀ other, other ≠ id → after.contains other = true →
    (after.get? other).map Node.alone = (before.get? other).map Node.alone
  children : ∀ other, after.contains other = true → other ∉ after.surroundings id →
    other ∉ parents → after.children other = before.children other

section Observations

variable {first second : ContentTree} {id : NodeId}
  (same : (first.get? id).map Node.alone = (second.get? id).map Node.alone)

include same

theorem map_eq_of_alone {α : Type} {view : Node → α}
    (isBlind : ∀ node : Node, view node.alone = view node) :
    (first.get? id).map view = (second.get? id).map view := by
  have viewed := congrArg (Option.map view) same
  rw [Option.map_map, Option.map_map] at viewed
  have sameView : view ∘ Node.alone = view := funext isBlind
  rw [sameView] at viewed
  exact viewed

theorem parent?_eq_of_alone : first.parent? id = second.parent? id := by
  have sameParents : (first.get? id).map Node.parent = (second.get? id).map Node.parent :=
    map_eq_of_alone same fun _ => rfl
  cases found : first.get? id <;> cases otherFound : second.get? id <;>
    simp_all [parent?]

theorem isActive_eq_of_alone : first.isActive id = second.isActive id := by
  have sameIgnored : (first.get? id).map Node.ignored = (second.get? id).map Node.ignored :=
    map_eq_of_alone same fun _ => rfl
  cases found : first.get? id <;> cases otherFound : second.get? id <;>
    simp_all [isActive]

theorem edgeOf_eq_of_alone : first.edgeOf id = second.edgeOf id := by
  let recorded (node : Node) : Edge := ⟨node.nodeType, node.relation⟩
  have sameEdges : (first.get? id).map recorded = (second.get? id).map recorded :=
    map_eq_of_alone same fun _ => rfl
  cases found : first.get? id <;> cases otherFound : second.get? id <;>
    simp_all [edgeOf, recorded]

end Observations

namespace ChangedAt

variable {before after : ContentTree} {id : NodeId} {parents : List NodeId}
  (changed : ChangedAt before after id parents)

include changed

/-- What is listed after a change was listed before it, unless it is the changed node. -/
theorem listed_before (wellFormed : before.WellFormed) (wellFormedAfter : after.WellFormed)
    {root : NodeId} (kept : id ∈ after.activeSubtree root →
      id ∈ before.activeSubtree root ∨ after.children id = [])
    {other : NodeId} (listed : other ∈ after.activeSubtree root) :
    other ∈ before.activeSubtree root ∨ other = id ∧ after.children id = [] := by
  refine wellFormedAfter.activeSubtree_induction
    (motive := fun other => other ∈ before.activeSubtree root ∨
      other = id ∧ after.children id = [])
    (isActive_start_of_mem_activeSubtree listed) ?_ ?_ other listed
  · have rootActive := isActive_start_of_mem_activeSubtree listed
    by_cases isChanged : root = id
    · subst isChanged
      have rootListed := wellFormedAfter.mem_activeSubtree_self rootActive
      exact (kept rootListed).imp_right fun leaf => ⟨rfl, leaf⟩
    · left
      apply wellFormed.mem_activeSubtree_self
      rw [← isActive_eq_of_alone (changed.nodes root isChanged (contains_of_isActive rootActive))]
      exact rootActive
  · intro parent parentListed parentBefore child member
    by_cases isChanged : child = id
    · subst isChanged
      have childListed :=
        wellFormedAfter.mem_activeSubtree_of_mem_activeChildren parentListed member
      exact (kept childListed).imp_right fun leaf => ⟨rfl, leaf⟩
    · have same := changed.nodes child isChanged (contains_of_mem_activeChildren member)
      rcases parentBefore with parentWasListed | ⟨rfl, leaf⟩
      · left
        have link := wellFormedAfter.parent?_of_mem_activeChildren member
        rw [parent?_eq_of_alone same] at link
        have active := isActive_of_mem_activeChildren member
        rw [isActive_eq_of_alone same] at active
        exact wellFormed.mem_activeSubtree_of_mem_activeChildren parentWasListed
          (mem_activeChildren_iff.2 ⟨wellFormed.child_of_parent child parent link, active⟩)
      · -- The changed node is a leaf now, so nothing is listed below it.
        have listedChild := mem_children_of_mem_activeChildren member
        rw [leaf] at listedChild
        exact absurd listedChild List.not_mem_nil

section Distant

variable {other : NodeId} (live : after.contains other = true)
  (distant : other ∉ after.surroundings id)

include distant

theorem ne_of_distant : other ≠ id := by
  rintro rfl
  exact distant (mem_surroundings_iff.2 (.inr (.inl rfl)))

include live

theorem parentEdge?_eq (wellFormed : before.WellFormed) (wellFormedAfter : after.WellFormed) :
    after.parentEdge? other = before.parentEdge? other := by
  have same := changed.nodes other (changed.ne_of_distant distant) live
  rw [wellFormedAfter.parentEdge?_eq, wellFormed.parentEdge?_eq, ← parent?_eq_of_alone same,
    ← edgeOf_eq_of_alone same]
  cases link : after.parent? other with
  | none =>
      rfl
  | some parent =>
      -- A child of the changed node is in its surroundings.
      have notChanged : parent ≠ id := by
        rintro rfl
        have member := wellFormedAfter.child_of_parent other parent link
        exact distant (mem_surroundings_iff.2 (.inr (.inr member)))
      have sameParent := changed.nodes parent notChanged (wellFormedAfter.contains_parent link)
      rw [Option.map_some, Option.map_some, edgeOf_eq_of_alone sameParent]

theorem childEdges_eq (wellFormedAfter : after.WellFormed) (notParent : other ∉ parents) :
    after.childEdges other = before.childEdges other := by
  rw [ContentTree.childEdges_eq, ContentTree.childEdges_eq, activeChildren, activeChildren,
    ← changed.children other live distant notParent]
  have same : ∀ child ∈ after.children other,
      (after.get? child).map Node.alone = (before.get? child).map Node.alone := by
    intro child member
    refine changed.nodes child ?_ (wellFormedAfter.contains_child member)
    -- The parent of the changed node is in its surroundings.
    rintro rfl
    have link := wellFormedAfter.parent_of_child other child member
    exact distant (mem_surroundings_iff.2 (.inl link))
  have sameFilter : (after.children other).filter after.isActive =
      (after.children other).filter before.isActive :=
    List.filter_congr fun child member => isActive_eq_of_alone (same child member)
  rw [sameFilter]
  exact List.map_congr_left fun child member =>
    edgeOf_eq_of_alone (same child (List.mem_of_mem_filter member))

end Distant

end ChangedAt

end ContentTree

namespace DomainProfile

open ContentTree

variable {profile : DomainProfile}

/-- A check of a node looks at the node and at its edges. -/
theorem defects_congr {first second : ContentTree} {id : NodeId}
    (same : (first.get? id).map Node.alone = (second.get? id).map Node.alone)
    (sameParentEdge : first.parentEdge? id = second.parentEdge? id)
    (sameChildEdges : first.childEdges id = second.childEdges id) :
    profile.defects first id = profile.defects second id := by
  cases found : first.get? id with
  | none =>
      rw [found, Option.map_none, eq_comm, Option.map_eq_none_iff] at same
      rw [defects, defects, found, same]
  | some node =>
      rw [found, Option.map_some, eq_comm, Option.map_eq_some_iff] at same
      obtain ⟨other, otherFound, sameAlone⟩ := same
      have sameIgnored : other.ignored = node.ignored := (congrArg Node.ignored sameAlone :)
      have sameType : other.nodeType = node.nodeType := (congrArg Node.nodeType sameAlone :)
      have sameKind : other.fileKind = node.fileKind := (congrArg Node.fileKind sameAlone :)
      have sameSubTypes : other.subTypes = node.subTypes := (congrArg Node.subTypes sameAlone :)
      have sameConstraint : profile.satisfiesParentConstraint first id =
          profile.satisfiesParentConstraint second id := by
        simp only [satisfiesParentConstraint, satisfiedParentConstraint?, found, otherFound,
          Option.bind_some, sameType, EdgeConstraint.matchesParent, sameParentEdge]
      simp only [defects, found, otherFound, sameIgnored, sameType, typedDefects, sameKind,
        sameSubTypes, sameConstraint, sameChildEdges]

/-- Far from a change a tree that was in order stays in order. -/
theorem defects_eq_nil_of_distant {before after : ContentTree} {id root : NodeId}
    {parents : List NodeId} (changed : ChangedAt before after id parents)
    (wellFormed : before.WellFormed) (wellFormedAfter : after.WellFormed)
    (valid : (profile.validationReport before root).violations = [])
    (kept : id ∈ after.activeSubtree root →
      id ∈ before.activeSubtree root ∨ after.children id = [])
    {other : NodeId} (listed : other ∈ after.activeSubtree root)
    (distant : other ∉ after.surroundings id) (notParent : other ∉ parents) :
    profile.defects after other = [] := by
  have live := contains_of_mem_activeSubtree listed
  have different := changed.ne_of_distant distant
  have wasListed : other ∈ before.activeSubtree root := by
    rcases changed.listed_before wellFormed wellFormedAfter kept listed with
      wasListed | ⟨isChanged, _⟩
    · exact wasListed
    · exact absurd isChanged different
  have sameDefects : profile.defects after other = profile.defects before other :=
    defects_congr (changed.nodes other different live)
      (changed.parentEdge?_eq live distant wellFormed wellFormedAfter)
      (changed.childEdges_eq live distant wellFormedAfter notParent)
  rw [sameDefects]
  exact validationReport_violations_eq_nil_iff.1 valid other wasListed

/-! ## Reports on surroundings -/

variable {tree : ContentTree} {root : NodeId}

theorem mem_reportOn_iff {ids : List NodeId} {violation : Violation} :
    violation ∈ (profile.reportOn tree ids).violations ↔
      ∃ id ∈ ids, violation ∈ profile.checkNode tree id :=
  List.mem_flatMap

theorem checkNode_eq_nil {id : NodeId} (inOrder : profile.defects tree id = []) :
    profile.checkNode tree id = [] := by
  rw [checkNode, inOrder, List.map_nil]

theorem mem_filter_surroundings_iff (wellFormed : tree.WellFormed)
    (isRoot : tree.root = some root) {id other : NodeId}
    (listed : other ∈ tree.activeSubtree root) :
    other ∈ (tree.surroundings id).filter (!tree.isExcluded ·) ↔ other ∈ tree.surroundings id := by
  have rootLive := wellFormed.root_contained root isRoot
  have rootIncluded := isExcluded_eq_false_of_parent? (wellFormed.root_parent root isRoot)
    (isActive_start_of_mem_activeSubtree listed)
  have included := ((wellFormed.mem_activeSubtree_iff_not_isExcluded rootLive rootIncluded).1
    listed).2
  rw [List.mem_filter, included]
  simp

/-- When only the surroundings of a node are not in order, a look at them finds everything, and in
the order of the full report. -/
theorem violations_eq_revalidateAround (wellFormed : tree.WellFormed)
    (isRoot : tree.root = some root) {id : NodeId} (live : tree.contains id = true)
    (elsewhere : ∀ other ∈ tree.activeSubtree root, other ∉ tree.surroundings id →
      profile.defects tree other = []) :
    (profile.validationReport tree root).violations =
      (profile.revalidateAround tree id).violations := by
  symm
  apply flatMap_eq_of_sublist (wellFormed.filter_surroundings_sublist isRoot live)
    (wellFormed.activeSubtree_nodup root)
  intro other listed notNear
  rw [mem_filter_surroundings_iff wellFormed isRoot listed] at notNear
  exact checkNode_eq_nil (elsewhere other listed notNear)

/-- When only the surroundings of two nodes are not in order, looks at both find everything. -/
theorem mem_violations_iff_of_two (wellFormed : tree.WellFormed)
    (isRoot : tree.root = some root) {first second : NodeId}
    (firstLive : tree.contains first = true) (secondLive : tree.contains second = true)
    (elsewhere : ∀ other ∈ tree.activeSubtree root, other ∉ tree.surroundings first →
      other ∉ tree.surroundings second → profile.defects tree other = [])
    (violation : Violation) :
    violation ∈ (profile.validationReport tree root).violations ↔
      violation ∈ (profile.revalidateAround tree first).violations ∨
        violation ∈ (profile.revalidateAround tree second).violations := by
  have part {id : NodeId} (live : tree.contains id = true)
      (found : violation ∈ (profile.revalidateAround tree id).violations) :
      violation ∈ (profile.validationReport tree root).violations := by
    obtain ⟨other, near, reported⟩ := mem_reportOn_iff.1 found
    have listed := (wellFormed.filter_surroundings_sublist isRoot live).subset near
    exact mem_reportOn_iff.2 ⟨other, listed, reported⟩
  constructor
  · intro found
    obtain ⟨other, listed, reported⟩ := mem_reportOn_iff.1 found
    by_cases nearFirst : other ∈ tree.surroundings first
    · have included := (mem_filter_surroundings_iff wellFormed isRoot listed).2 nearFirst
      exact .inl (mem_reportOn_iff.2 ⟨other, included, reported⟩)
    · by_cases nearSecond : other ∈ tree.surroundings second
      · have included := (mem_filter_surroundings_iff wellFormed isRoot listed).2 nearSecond
        exact .inr (mem_reportOn_iff.2 ⟨other, included, reported⟩)
      · rw [checkNode_eq_nil (elsewhere other listed nearFirst nearSecond)] at reported
        exact absurd reported List.not_mem_nil
  · rintro (found | found)
    · exact part firstLive found
    · exact part secondLive found

end DomainProfile

end ContentTyping

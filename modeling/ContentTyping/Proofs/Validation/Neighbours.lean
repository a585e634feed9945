import ContentTyping.Proofs.Engine.Syncing
import ContentTyping.Proofs.Plan.Viability
import ContentTyping.Proofs.Tree.Below
import ContentTyping.Proofs.Tree.Links
import ContentTyping.Proofs.Validation.Defects

/-!
# Types among their neighbours

Where siblings cannot constrain each other, only the edge above a node and the edges below it speak
against a type for the node. So when one node of a tree in order gets a type that suits these edges,
the tree stays in order.
-/

namespace ContentTyping

namespace DomainProfile

/-- One of the parent constraints of the type holds on the edge to the parent. -/
def FitsBelow (profile : DomainProfile) (type : NodeTypeId) (edge : Option Edge) : Prop :=
  ∃ definition, profile.nodeType? type = some definition ∧
    ∃ constraint ∈ definition.parentConstraints, constraint.holdsOn edge.toList = true

/-- A node of the type may stand between the edge to its parent and the edges to its children. -/
structure FitsBetween (profile : DomainProfile) (type : NodeTypeId) (edge : Option Edge)
    (children : List Edge) : Prop where
  below : profile.FitsBelow type edge
  above : ∀ child ∈ children, ∃ childType, child.nodeType = some childType ∧
    profile.FitsBelow childType (some ⟨some type, child.relation⟩)

open ContentTree

variable {profile : DomainProfile} {tree : ContentTree} {start id : NodeId}

/-! ## Nodes of a tree in order -/

theorem exists_inOrder_of_listed (valid : (profile.validationReport tree start).violations = [])
    (listed : id ∈ tree.activeSubtree start) :
    ∃ node primary, tree.get? id = some node ∧ node.ignored = false ∧
      profile.InOrder tree id node primary := by
  obtain ⟨node, found, notIgnored⟩ := isActive_iff.1 (isActive_of_mem_activeSubtree listed)
  have nothing := validationReport_violations_eq_nil_iff.1 valid id listed
  obtain ⟨primary, inOrder⟩ := (defects_eq_nil_iff found notIgnored).1 nothing
  exact ⟨node, primary, found, notIgnored, inOrder⟩

theorem inOrder_of_listed (valid : (profile.validationReport tree start).violations = [])
    (listed : id ∈ tree.activeSubtree start) {node : Node} (found : tree.get? id = some node)
    {primary : NodeTypeId} (typed : node.nodeType = some primary) :
    profile.InOrder tree id node primary := by
  obtain ⟨other, otherPrimary, otherFound, _, inOrder⟩ := exists_inOrder_of_listed valid listed
  obtain rfl : node = other := Option.some.inj (found.symm.trans otherFound)
  obtain rfl : primary = otherPrimary := Option.some.inj (typed.symm.trans inOrder.typed)
  exact inOrder

theorem edgeOf_mem_childEdges {child : NodeId} (member : child ∈ tree.activeChildren id) :
    tree.edgeOf child ∈ tree.childEdges id := by
  rw [childEdges_eq]
  exact List.mem_map_of_mem member

/-- In a tree in order every node fits between its edges. -/
theorem fitsBetween_of_listed (wellFormed : tree.WellFormed)
    (valid : (profile.validationReport tree start).violations = [])
    (listed : id ∈ tree.activeSubtree start) {node : Node} (found : tree.get? id = some node)
    {primary : NodeTypeId} (typed : node.nodeType = some primary) :
    profile.FitsBetween primary (tree.parentEdge? id) (tree.childEdges id) where
  below := (inOrder_of_listed valid listed found typed).parent_holds
  above edge member := by
    rw [childEdges_eq] at member
    obtain ⟨child, childMember, rfl⟩ := List.mem_map.1 member
    have childListed := wellFormed.mem_activeSubtree_of_mem_activeChildren listed childMember
    obtain ⟨childNode, childType, childFound, _, inOrder⟩ :=
      exists_inOrder_of_listed valid childListed
    have link := wellFormed.parent?_of_mem_activeChildren childMember
    have holds := inOrder.parent_holds
    refine ⟨childType, ?_, ?_⟩
    · rw [edgeOf_of_get? childFound]
      exact inOrder.typed
    · have childEdge := parentEdge?_of_parent? link (wellFormed.contains_parent link)
      rw [edgeOf_of_get? found, typed] at childEdge
      rw [← childEdge]
      exact holds

end DomainProfile

namespace ContentTree

/-- The second tree is the first one with another type for one node; objects may differ. -/
def Retyped (before after : ContentTree) (id : NodeId) (type : NodeTypeId) : Prop :=
  ObjectsOnly (before.modify id fun node => { node with nodeType := some type }) after

namespace Retyped

variable {before after : ContentTree} {id : NodeId} {type : NodeTypeId}
  (retyped : Retyped before after id type)

include retyped

theorem links : AgreeOn Node.links after before :=
  (retyped.nodes.ignoringObjects fun _ => rfl).trans (.modify id fun _ => rfl)

theorem exists_get? {node : Node} (found : before.get? id = some node) :
    ∃ last, after.get? id = some last ∧
      last.withoutObject = { node with nodeType := some type }.withoutObject := by
  refine retyped.nodes.exists_get? ?_
  rw [get?_modify, if_pos rfl, found, Option.map_some]

theorem exists_get?_of_ne {other : NodeId} (different : other ≠ id) {node : Node}
    (found : before.get? other = some node) :
    ∃ last, after.get? other = some last ∧ last.withoutObject = node.withoutObject := by
  refine retyped.nodes.exists_get? ?_
  rw [get?_modify, if_neg different, found]

theorem edgeOf {node : Node} (found : before.get? id = some node) :
    after.edgeOf id = ⟨some type, node.relation⟩ := by
  obtain ⟨last, lastFound, same⟩ := retyped.exists_get? found
  rw [edgeOf_of_get? lastFound]
  have sameType : last.nodeType = some type := (congrArg Node.nodeType same :)
  have sameRelation : last.relation = node.relation := (congrArg Node.relation same :)
  rw [sameType, sameRelation]

theorem edgeOf_of_ne {other : NodeId} (different : other ≠ id) :
    after.edgeOf other = before.edgeOf other := by
  rw [retyped.nodes.edgeOf, ContentTree.edgeOf, get?_modify, if_neg different, ContentTree.edgeOf]

theorem relation (other : NodeId) :
    (after.edgeOf other).relation = (before.edgeOf other).relation := by
  by_cases isRetyped : other = id
  · rw [retyped.nodes.edgeOf, ContentTree.edgeOf, ContentTree.edgeOf, get?_modify, if_pos isRetyped]
    cases before.get? other with
    | none => rfl
    | some node => rfl
  · rw [retyped.edgeOf_of_ne isRetyped]

variable (wellFormed : before.WellFormed)

include wellFormed

theorem childEdges : after.childEdges id = before.childEdges id := by
  rw [childEdges_eq, childEdges_eq, retyped.links.activeChildren]
  refine List.map_congr_left fun child member => retyped.edgeOf_of_ne ?_
  rintro rfl
  have deeper := wellFormed.depth_activeChild member
  omega

theorem parentEdge?_eq (other : NodeId) :
    after.parentEdge? other = (before.parent? other).map fun parent =>
      ⟨(after.edgeOf parent).nodeType, (before.edgeOf other).relation⟩ := by
  have sameLink := retyped.links.parent? other
  cases link : before.parent? other with
  | none =>
      exact parentEdge?_of_root (sameLink.trans link)
  | some parent =>
      have live := (retyped.links.contains parent).trans (wellFormed.contains_parent link)
      rw [parentEdge?_of_parent? (sameLink.trans link) live, retyped.relation, Option.map_some]

theorem parentEdge?_of_not_child {other : NodeId} (notChild : before.parent? other ≠ some id) :
    after.parentEdge? other = before.parentEdge? other := by
  rw [retyped.parentEdge?_eq wellFormed, wellFormed.parentEdge?_eq]
  refine Option.map_congr fun parent link => ?_
  have elsewhere : parent ≠ id := by
    rintro rfl
    exact notChild link
  rw [retyped.edgeOf_of_ne elsewhere]

theorem parentEdge? : after.parentEdge? id = before.parentEdge? id := by
  apply retyped.parentEdge?_of_not_child wellFormed
  intro link
  exact wellFormed.not_below_parent link .self

theorem parentEdge?_of_child {child : NodeId} (link : before.parent? child = some id) {node : Node}
    (found : before.get? id = some node) :
    after.parentEdge? child = some ⟨some type, (before.edgeOf child).relation⟩ := by
  rw [retyped.parentEdge?_eq wellFormed, link, Option.map_some, retyped.edgeOf found]

end Retyped

end ContentTree

namespace DomainProfile

open ContentTree

variable {profile : DomainProfile} {before after : ContentTree} {start id : NodeId}
  {type : NodeTypeId}

/-- The node that got its type is in order. -/
theorem defects_of_retyped (independent : profile.SiblingsIndependent)
    (wellFormed : before.WellFormed) (retyped : Retyped before after id type)
    (valid : (profile.validationReport before start).violations = [])
    (listed : id ∈ before.activeSubtree start)
    (accepted : type ∈ profile.typesForKind (before.fileKind id))
    (below : profile.FitsBelow type (before.parentEdge? id)) : profile.defects after id = [] := by
  obtain ⟨node, primary, found, notIgnored, inOrder⟩ := exists_inOrder_of_listed valid listed
  obtain ⟨last, lastFound, same⟩ := retyped.exists_get? found
  refine defects_eq_nil_of_withoutObject lastFound same notIgnored
    ⟨rfl, ?_, ?_, independent.brokenChildConstraints_eq_nil type _⟩
  · intro carried member
    rcases List.mem_cons.1 member with rfl | further
    · rw [fileKind, found] at accepted
      exact accepted
    · exact inOrder.types_fit carried (List.mem_cons_of_mem primary further)
  · rw [← retyped.parentEdge? wellFormed] at below
    exact below

/-- So are its children and all other nodes. -/
theorem defects_of_retyped_of_ne (independent : profile.SiblingsIndependent)
    (wellFormed : before.WellFormed) (retyped : Retyped before after id type)
    (valid : (profile.validationReport before start).violations = [])
    (listed : id ∈ before.activeSubtree start)
    (above : ∀ child ∈ before.childEdges id, ∃ childType, child.nodeType = some childType ∧
      profile.FitsBelow childType (some ⟨some type, child.relation⟩))
    {other : NodeId} (otherListed : other ∈ before.activeSubtree start) (different : other ≠ id) :
    profile.defects after other = [] := by
  obtain ⟨idNode, _, idFound, _, _⟩ := exists_inOrder_of_listed valid listed
  obtain ⟨node, primary, found, notIgnored, inOrder⟩ := exists_inOrder_of_listed valid otherListed
  obtain ⟨last, lastFound, same⟩ := retyped.exists_get?_of_ne different found
  refine defects_eq_nil_of_withoutObject lastFound same notIgnored
    ⟨inOrder.typed, inOrder.types_fit, ?_, independent.brokenChildConstraints_eq_nil primary _⟩
  by_cases isChild : before.parent? other = some id
  · have member : other ∈ before.activeChildren id :=
      mem_activeChildren_iff.2 ⟨wellFormed.child_of_parent other id isChild,
        isActive_of_mem_activeSubtree otherListed⟩
    obtain ⟨childType, isType, below⟩ := above (before.edgeOf other) (edgeOf_mem_childEdges member)
    rw [edgeOf_of_get? found, inOrder.typed, Option.some.injEq] at isType
    subst isType
    rw [← retyped.parentEdge?_of_child wellFormed isChild idFound] at below
    exact below
  · have below : profile.FitsBelow primary (before.parentEdge? other) := inOrder.parent_holds
    rw [← retyped.parentEdge?_of_not_child wellFormed isChild] at below
    exact below

/-- A tree in order stays so when one of its nodes gets a type that fits the node's file kind and its
place between its edges. -/
theorem validationReport_of_retyped (independent : profile.SiblingsIndependent)
    (wellFormed : before.WellFormed) (retyped : Retyped before after id type)
    (valid : (profile.validationReport before start).violations = [])
    (listed : id ∈ before.activeSubtree start)
    (accepted : type ∈ profile.typesForKind (before.fileKind id))
    (fits : profile.FitsBetween type (before.parentEdge? id) (before.childEdges id)) :
    (profile.validationReport after start).violations = [] := by
  refine validationReport_violations_eq_nil_iff.2 fun other otherListed => ?_
  rw [retyped.links.activeSubtree] at otherListed
  by_cases isRetyped : other = id
  · rw [isRetyped]
    exact defects_of_retyped independent wellFormed retyped valid listed accepted fits.below
  · exact defects_of_retyped_of_ne independent wellFormed retyped valid listed fits.above
      otherListed isRetyped

end DomainProfile

end ContentTyping

import ContentTyping.Proofs.Plan.FirstChoice
import ContentTyping.Proofs.Validation.Defects

/-!
# Recorded choices are in order

A first choice is made for hypothetical edges. Once it is recorded on the active subtree of a tree,
the edges that a report looks at are the ones that the choice was made for, so no node of the
subtree has a defect.
-/

namespace ContentTyping.DomainProfile

open ContentTree

/-- The sub-types recorded on some nodes are types of the profile that accept the file kind of
their node. -/
def SubTypesFit (profile : DomainProfile) (tree : ContentTree) (ids : List NodeId) : Prop :=
  ∀ id ∈ ids, ∀ node ∈ tree.get? id, ∀ type ∈ node.subTypes,
    type ∈ profile.typesForKind node.fileKind

instance (profile : DomainProfile) (tree : ContentTree) (ids : List NodeId) :
    Decidable (profile.SubTypesFit tree ids) :=
  inferInstanceAs (Decidable (∀ id ∈ ids, ∀ node ∈ tree.get? id, ∀ type ∈ node.subTypes,
    type ∈ profile.typesForKind node.fileKind))

/-- The second tree is the first one with the edges of a choice recorded on the active subtree of
the start; objects may differ. -/
structure Recorded (before after : ContentTree) (start : NodeId)
    (choice : NodeId → Candidate) : Prop where
  nodes : AgreeOn Node.withoutObject after
    (before.retype (before.activeSubtree start) fun id => (choice id).edge)

namespace Recorded

variable {before after : ContentTree} {start : NodeId} {choice : NodeId → Candidate}
  (recorded : Recorded before after start choice)

include recorded

theorem links : AgreeOn Node.links after before :=
  recorded.nodes.links_of_retype

theorem edgeOf {id : NodeId} (listed : id ∈ before.activeSubtree start) :
    after.edgeOf id = (choice id).edge :=
  recorded.nodes.edgeOf_of_retype listed (contains_of_mem_activeSubtree listed)

theorem edgeOf_elsewhere {id : NodeId} (unlisted : id ∉ before.activeSubtree start) :
    after.edgeOf id = before.edgeOf id :=
  recorded.nodes.edgeOf_elsewhere unlisted

theorem exists_get? {id : NodeId} (listed : id ∈ before.activeSubtree start) :
    ∃ node typed, before.get? id = some node ∧ after.get? id = some typed ∧
      typed.withoutObject = (node.typedAs (choice id).edge).withoutObject := by
  obtain ⟨node, found, _⟩ := isActive_iff.1 (isActive_of_mem_activeSubtree listed)
  obtain ⟨typed, typedFound, same⟩ := recorded.nodes.exists_get?_of_retype listed found
  exact ⟨node, typed, found, typedFound, same⟩

theorem childEdges {id : NodeId} (wellFormed : before.WellFormed)
    (listed : id ∈ before.activeSubtree start) :
    after.childEdges id = (before.activeChildren id).map fun child => (choice child).edge := by
  rw [childEdges_eq, recorded.links.activeChildren]
  refine List.map_congr_left fun child member => ?_
  exact recorded.edgeOf (wellFormed.mem_activeSubtree_of_mem_activeChildren listed member)

end Recorded

variable {profile : DomainProfile} {before after : ContentTree} {start : NodeId}
  {parentType : Option NodeTypeId} {choice : NodeId → Candidate}

namespace FirstChoice

/-- The type below which a node has its first viable candidate is the recorded type of its
parent: the one that the start was planned below, or one that was chosen. -/
theorem exists_parentType (wellFormed : before.WellFormed)
    (isFirst : profile.FirstChoice before start parentType choice)
    (recorded : Recorded before after start choice)
    (parentTyped : (before.parent? start).map (fun parent => (before.edgeOf parent).nodeType) =
      parentType.map some)
    {id : NodeId} (listed : id ∈ before.activeSubtree start) :
    ∃ above, profile.firstViable? before above id = some (choice id) ∧
      (after.parent? id).map (fun parent => (after.edgeOf parent).nodeType) = above.map some ∧
      (above = parentType ∨
        ∃ parent ∈ before.activeSubtree start, above = some (choice parent).nodeType) := by
  rw [recorded.links.parent?]
  by_cases isStart : id = start
  · subst isStart
    refine ⟨parentType, isFirst.atStart, ?_, .inl rfl⟩
    rw [← parentTyped]
    cases link : before.parent? id with
    | none =>
        rfl
    | some parent =>
        have unlisted : parent ∉ before.activeSubtree id :=
          wellFormed.parent_not_mem_activeSubtree
            (isActive_start_of_mem_activeSubtree listed) link
        rw [Option.map_some, Option.map_some, recorded.edgeOf_elsewhere unlisted]
  · obtain ⟨parent, parentListed, member, first⟩ :=
      isFirst.child_of_parent wellFormed listed isStart
    refine ⟨some (choice parent).nodeType, first, ?_, .inr ⟨parent, parentListed, rfl⟩⟩
    rw [wellFormed.parent?_of_mem_activeChildren member, Option.map_some,
      recorded.edgeOf parentListed]
    rfl

theorem brokenChildConstraints_eq_nil (wellFormed : before.WellFormed)
    (isFirst : profile.FirstChoice before start parentType choice)
    (recorded : Recorded before after start choice) {id : NodeId}
    (listed : id ∈ before.activeSubtree start) :
    profile.brokenChildConstraints (choice id).nodeType (after.childEdges id) = [] := by
  have unbroken := ((viable_iff wellFormed).1 (isFirst.viable wellFormed listed)).2.2
  have sameEdges :
      ((before.activeChildren id).filterMap fun child =>
          (profile.firstViable? before (some (choice id).nodeType) child).map Candidate.edge) =
        (before.activeChildren id).map fun child => (choice child).edge := by
    rw [← List.filterMap_eq_map]
    refine List.filterMap_congr fun child member => ?_
    rw [isFirst.atChild id listed child member]
    rfl
  rw [recorded.childEdges wellFormed listed, ← sameEdges]
  exact unbroken

/-- Where a first choice is recorded, no listed node has a defect. -/
theorem defects_eq_nil (wellFormed : before.WellFormed)
    (isFirst : profile.FirstChoice before start parentType choice)
    (recorded : Recorded before after start choice)
    (parentTyped : (before.parent? start).map (fun parent => (before.edgeOf parent).nodeType) =
      parentType.map some)
    (subTypesFit : profile.SubTypesFit before (before.activeSubtree start))
    {id : NodeId} (listed : id ∈ before.activeSubtree start) :
    profile.defects after id = [] := by
  obtain ⟨node, typed, found, typedFound, same⟩ := recorded.exists_get? listed
  obtain ⟨above, first, aboveTyped, _⟩ :=
    isFirst.exists_parentType wellFormed recorded parentTyped listed
  have active : node.ignored = false := by
    obtain ⟨other, otherFound, notIgnored⟩ := isActive_iff.1 (isActive_of_mem_activeSubtree listed)
    rw [Option.some.inj (found.symm.trans otherFound), notIgnored]
  refine defects_eq_nil_of_withoutObject typedFound same active ⟨rfl, ?_, ?_, ?_⟩
  · have kind : before.fileKind id = node.fileKind := by
      rw [fileKind, found, Option.bind_some]
    intro type member
    rcases List.mem_cons.1 member with rfl | further
    · have accepted := ((viable_iff wellFormed).1 (isFirst.viable wellFormed listed)).1
      rw [kind] at accepted
      exact accepted
    · exact subTypesFit id listed node found type further
  · obtain ⟨_, _, placement, placed, sameRelation⟩ :=
      mem_candidates_iff.1 (mem_candidates_of_firstSuitable? first)
    obtain ⟨definition, isDefined, declared⟩ := exists_definition_of_placement? placed
    refine ⟨definition, isDefined, placement, declared, ?_⟩
    have parentLive : ∀ parent, after.parent? id = some parent →
        after.contains parent = true := by
      intro parent link
      rw [recorded.links.parent?] at link
      rw [recorded.links.contains]
      exact wellFormed.contains_parent link
    rw [matchesParent_eq_holdsOn parentLive aboveTyped, recorded.edgeOf listed,
      show (choice id).edge.relation = placement.relation from sameRelation.symm]
    exact holdsOn_of_placement? placed
  · exact isFirst.brokenChildConstraints_eq_nil wellFormed recorded listed

theorem validationReport_violations_eq_nil (wellFormed : before.WellFormed)
    (isFirst : profile.FirstChoice before start parentType choice)
    (recorded : Recorded before after start choice)
    (parentTyped : (before.parent? start).map (fun parent => (before.edgeOf parent).nodeType) =
      parentType.map some)
    (subTypesFit : profile.SubTypesFit before (before.activeSubtree start)) :
    (profile.validationReport after start).violations = [] := by
  refine validationReport_violations_eq_nil_iff.2 fun id listed => ?_
  rw [recorded.links.activeSubtree] at listed
  exact isFirst.defects_eq_nil wellFormed recorded parentTyped subTypesFit listed

end FirstChoice

end ContentTyping.DomainProfile

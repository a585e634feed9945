import ContentTyping.Proofs.Engine.BlindToObjects
import ContentTyping.Proofs.Engine.NodeCalls
import ContentTyping.Proofs.Engine.PcdmTransforms

/-!
# Eligible types

What is offered as eligible for a node is judged by edges that are not there yet. Setting an offered
type records such an edge, and so does an assignment, each in its own way. The three agree: a type that
is offered can be set and then stands in its place, and what an assignment decides is offered
afterwards.
-/

namespace ContentTyping

open ContentTree

namespace DomainProfile

variable {profile : DomainProfile} {tree : ContentTree} {id : NodeId} {type : NodeTypeId}

theorem satisfiesParentConstraint_iff_fitsBelow {node : Node} (found : tree.get? id = some node)
    (typed : node.nodeType = some type) :
    profile.satisfiesParentConstraint tree id = true ↔
      profile.FitsBelow type (tree.parentEdge? id) := by
  cases isDefined : profile.nodeType? type with
  | none =>
      simp [satisfiesParentConstraint, satisfiedParentConstraint?, FitsBelow, found, typed, isDefined]
  | some definition =>
      rw [satisfiesParentConstraint_iff found typed isDefined]
      constructor
      · intro holds
        exact ⟨definition, isDefined, holds⟩
      · rintro ⟨other, isOther, holds⟩
        rw [isDefined] at isOther
        cases isOther
        exact holds

/-- The edge recorded for a placement lets the type stand there. -/
theorem fitsBelow_of_placement? {parentType : Option NodeTypeId} {placement : EdgeConstraint}
    (placed : profile.placement? type parentType = some placement) :
    profile.FitsBelow type (parentType.map fun parent => ⟨some parent, placement.relation⟩) := by
  obtain ⟨definition, isDefined, declared⟩ := exists_definition_of_placement? placed
  exact ⟨definition, isDefined, placement, declared, holdsOn_of_placement? placed⟩

/-- The type may be given to the node: it accepts the file, it has a placement below the recorded
type of the parent, and every typed child that is not ignored could stand below it. -/
structure Eligible (profile : DomainProfile) (tree : ContentTree) (id : NodeId) (type : NodeTypeId)
    (parentType : Option NodeTypeId) : Prop where
  accepted : type ∈ profile.typesForKind (tree.fileKind id)
  parentTyped : (tree.parent? id).map (fun parent => (tree.edgeOf parent).nodeType) =
    parentType.map some
  placed : ∃ placement, profile.placement? type parentType = some placement
  above : ∀ child ∈ tree.activeChildren id, ∀ childType,
    (tree.edgeOf child).nodeType = some childType →
      profile.FitsBelow childType (some ⟨some type, (tree.edgeOf child).relation⟩)

/-- The node has the type, which accepts its file, one of the parent constraints of the type holds,
and one of its own holds for every typed child that is not ignored. -/
structure InPlace (profile : DomainProfile) (tree : ContentTree) (id : NodeId)
    (type : NodeTypeId) : Prop where
  typed : ∃ node definition, tree.get? id = some node ∧ node.nodeType = some type ∧
    profile.nodeType? type = some definition ∧
    definition.fileAssociation.accepts node.fileKind = true
  parent_holds : profile.satisfiesParentConstraint tree id = true
  children_hold : ∀ child ∈ tree.children id, ∀ node, tree.get? child = some node →
    node.ignored = false → node.nodeType.isSome = true →
      profile.satisfiesParentConstraint tree child = true

end DomainProfile

namespace ProfileEngine

open DomainProfile

variable {engine : ProfileEngine} {tree : ContentTree} {id : NodeId} {type : NodeTypeId}

/-! ## What is offered -/

theorem mem_typedChildren_iff {child : NodeTypeId × Option RelationId} :
    child ∈ typedChildren tree id ↔
      ∃ listed ∈ tree.activeChildren id, tree.edgeOf listed = ⟨some child.1, child.2⟩ := by
  rw [typedChildren_eq_filterMap, childEdges_eq, List.filterMap_map, List.mem_filterMap]
  apply exists_congr
  intro listed
  apply and_congr_right
  intro _
  rw [Function.comp_apply]
  generalize tree.edgeOf listed = edge
  cases edge with
  | mk nodeType relation =>
      cases nodeType with
      | none => simp
      | some childType => simp [Prod.ext_iff]

theorem suitsChild_iff {child : NodeTypeId × Option RelationId} :
    engine.suitsChild type child = true ↔
      engine.profile.FitsBelow child.1 (some ⟨some type, child.2⟩) := by
  rw [suitsChild, Option.any_eq_true]
  simp only [List.any_eq_true]
  rfl

theorem all_suitsChild_iff :
    (typedChildren tree id).all (engine.suitsChild type) = true ↔
      ∀ child ∈ tree.activeChildren id, ∀ childType,
        (tree.edgeOf child).nodeType = some childType →
          engine.profile.FitsBelow childType (some ⟨some type, (tree.edgeOf child).relation⟩) := by
  rw [List.all_eq_true]
  constructor
  · intro suits child member childType typed
    have listed : (childType, (tree.edgeOf child).relation) ∈ typedChildren tree id := by
      apply mem_typedChildren_iff.2
      refine ⟨child, member, ?_⟩
      rw [← typed]
    exact suitsChild_iff.1 (suits _ listed)
  · intro above typed listed
    obtain ⟨child, member, sameEdge⟩ := mem_typedChildren_iff.1 listed
    have suits := above child member typed.1
    rw [sameEdge] at suits
    exact suitsChild_iff.2 (suits rfl)

/-- A node is offered the types that are eligible for it, and none below an untyped parent. -/
theorem exists_eligibleTypes (free : engine.checkBinding tree = .ok ())
    (live : tree.contains id = true)
    (parentLive : ∀ parent, tree.parent? id = some parent → tree.contains parent = true) :
    ∃ types, engine.eligibleTypes tree id = .ok types ∧
      ∀ type, type ∈ types ↔ ∃ parentType, engine.profile.Eligible tree id type parentType := by
  obtain ⟨node, found⟩ := contains_iff.1 live
  have kind : tree.fileKind id = node.fileKind := by rw [fileKind, found, Option.bind_some]
  -- Where the parent has a type, or there is none, the offer is a filtered list.
  have offered : ∀ parentType : Option NodeTypeId,
      (tree.parent? id).map (fun parent => (tree.edgeOf parent).nodeType) = parentType.map some →
      ∀ type, type ∈ (engine.profile.typesForKind node.fileKind).filter (fun candidate =>
          (engine.profile.placement? candidate parentType).isSome &&
            (typedChildren tree id).all (engine.suitsChild candidate)) ↔
        ∃ parentType, engine.profile.Eligible tree id type parentType := by
    intro parentType parentTyped type
    rw [List.mem_filter, Bool.and_eq_true, Option.isSome_iff_exists, all_suitsChild_iff, ← kind]
    constructor
    · rintro ⟨accepted, placed, above⟩
      exact ⟨parentType, accepted, parentTyped, placed, above⟩
    · rintro ⟨other, eligible⟩
      have sameParent : other.map some = parentType.map some :=
        eligible.parentTyped.symm.trans parentTyped
      have same : other = parentType := Option.map_injective (Option.some_injective _) sameParent
      rw [same] at eligible
      exact ⟨eligible.accepted, eligible.placed, eligible.above⟩
  rw [eligibleTypes, free, node_eq_ok_iff.2 found]
  simp only [Bind.bind, Except.bind]
  have sameParent := parent?_of_get? found
  cases link : node.parent with
  | none =>
      rw [link] at sameParent
      refine ⟨_, rfl, offered none ?_⟩
      rw [sameParent]
      rfl
  | some parent =>
      rw [link] at sameParent
      obtain ⟨above, aboveFound⟩ := contains_iff.1 (parentLive parent sameParent)
      simp only [node_eq_ok_iff.2 aboveFound]
      cases typed : above.nodeType with
      | none =>
          refine ⟨[], by simp only; rfl, fun type => ?_⟩
          constructor
          · intro member
            exact absurd member List.not_mem_nil
          · rintro ⟨parentType, eligible⟩
            have parentTyped := eligible.parentTyped
            rw [sameParent, Option.map_some, edgeOf_of_get? aboveFound, typed] at parentTyped
            cases parentType <;> simp at parentTyped
      | some aboveType =>
          refine ⟨_, by simp only; rfl, offered (some aboveType) ?_⟩
          rw [sameParent, Option.map_some, edgeOf_of_get? aboveFound, typed]
          rfl

/-! ## Setting what is offered -/

section Setting

variable {parentType : Option NodeTypeId} {node : Node}

/-- The relation recorded for an eligible type lets the type stand below the parent. -/
theorem exists_relationFor (found : tree.get? id = some node)
    (eligible : engine.profile.Eligible tree id type parentType) :
    ∃ relation, engine.relationFor tree node type = some relation ∧
      engine.profile.FitsBelow type (parentType.map fun parent => ⟨some parent, relation⟩) := by
  obtain ⟨placement, placed⟩ := eligible.placed
  have fits := fitsBelow_of_placement? placed
  have parentTyped := eligible.parentTyped
  rw [parent?_of_get? found] at parentTyped
  cases link : node.parent with
  | none =>
      -- No relation is recorded for a root, whatever its placement says.
      rw [link, Option.map_none, eq_comm, Option.map_eq_none_iff] at parentTyped
      rw [parentTyped] at fits ⊢
      refine ⟨none, ?_, fits⟩
      rw [relationFor, link]
  | some parent =>
      rw [link, Option.map_some, eq_comm, Option.map_eq_some_iff] at parentTyped
      obtain ⟨aboveType, isAbove, sameType⟩ := parentTyped
      have recorded : (tree.get? parent).bind Node.nodeType = some aboveType := sameType.symm
      rw [isAbove] at placed
      refine ⟨placement.relation, ?_, fits⟩
      simp only [relationFor, link, recorded, placed, Option.map_some]

theorem parentEdge?_of_retype (wellFormed : tree.WellFormed) {after : ContentTree}
    {relation : Option RelationId}
    (agree : AgreeOn Node.withoutObject after (tree.retype [id] fun _ => ⟨some type, relation⟩))
    (live : tree.contains id = true)
    (parentTyped : (tree.parent? id).map (fun parent => (tree.edgeOf parent).nodeType) =
      parentType.map some) :
    after.parentEdge? id = parentType.map fun parent => ⟨some parent, relation⟩ := by
  have edge : after.edgeOf id = ⟨some type, relation⟩ :=
    agree.edgeOf_of_retype List.mem_cons_self live
  have sameLink := agree.links_of_retype.parent? id
  cases link : tree.parent? id with
  | none =>
      rw [link, Option.map_none, eq_comm, Option.map_eq_none_iff] at parentTyped
      rw [link] at sameLink
      rw [parentEdge?_of_root sameLink, parentTyped, Option.map_none]
  | some parent =>
      have other : parent ∉ [id] := by
        rw [List.mem_singleton]
        exact wellFormed.parent_ne link
      have parentLive : after.contains parent = true := by
        rw [agree.links_of_retype.contains]
        exact wellFormed.contains_parent link
      rw [link, Option.map_some, eq_comm, Option.map_eq_some_iff] at parentTyped
      obtain ⟨aboveType, isAbove, sameType⟩ := parentTyped
      rw [link] at sameLink
      rw [parentEdge?_of_parent? sameLink parentLive, edge, agree.edgeOf_elsewhere other, isAbove,
        Option.map_some, sameType]

/-- A node that is given an eligible type, by a relation that lets it stand there, is in its place. -/
theorem inPlace_of_retype (wellFormed : tree.WellFormed) (found : tree.get? id = some node)
    (eligible : engine.profile.Eligible tree id type parentType) {relation : Option RelationId}
    (fits : engine.profile.FitsBelow type
      (parentType.map fun parent => ⟨some parent, relation⟩)) {after : ContentTree}
    (agree : AgreeOn Node.withoutObject after (tree.retype [id] fun _ => ⟨some type, relation⟩)) :
    engine.profile.InPlace after id type := by
  have live : tree.contains id = true := contains_iff.2 ⟨node, found⟩
  obtain ⟨typed, typedFound, same⟩ := agree.exists_get?_of_retype List.mem_cons_self found
  have isTyped : typed.nodeType = some type := congrArg Node.nodeType same
  have sameKind := congrArg Node.fileKind same
  change typed.fileKind = node.fileKind at sameKind
  refine ⟨?_, ?_, ?_⟩
  · have accepted := eligible.accepted
    rw [fileKind, found, Option.bind_some, ← sameKind] at accepted
    obtain ⟨definition, isDefined, accepts⟩ := mem_typesForKind_iff.1 accepted
    exact ⟨typed, definition, typedFound, isTyped, isDefined, accepts⟩
  · apply (satisfiesParentConstraint_iff_fitsBelow typedFound isTyped).2
    rw [parentEdge?_of_retype wellFormed agree live eligible.parentTyped]
    exact fits
  · intro child member childNode childFound notIgnored childTyped
    obtain ⟨childType, isChildType⟩ := Option.isSome_iff_exists.1 childTyped
    rw [agree.links_of_retype.children] at member
    have link := wellFormed.parent_of_child id child member
    have other : child ∉ [id] := by
      rw [List.mem_singleton]
      exact (wellFormed.parent_ne link).symm
    have active : tree.isActive child = true := by
      rw [← agree.links_of_retype.isActive]
      exact isActive_iff.2 ⟨childNode, childFound, notIgnored⟩
    have sameEdge : after.edgeOf child = tree.edgeOf child := agree.edgeOf_elsewhere other
    have recorded : (tree.edgeOf child).nodeType = some childType := by
      rw [← sameEdge, edgeOf_of_get? childFound, isChildType]
    have afterLink : after.parent? child = some id := by
      rw [agree.links_of_retype.parent?, link]
    have afterLive : after.contains id = true := contains_iff.2 ⟨typed, typedFound⟩
    apply (satisfiesParentConstraint_iff_fitsBelow childFound isChildType).2
    rw [parentEdge?_of_parent? afterLink afterLive, edgeOf_of_get? typedFound, isTyped, sameEdge]
    exact eligible.above child (mem_activeChildren_iff.2 ⟨member, active⟩) childType recorded

variable {S : Type} [ObjectStore S] {workspace last : Workspace S} {outcome : Except Error Unit}

/-- A type that accepts the file is recorded with its relation, and then only the store can fail. -/
theorem setNodeType_cases [LawfulObjectStore S]
    (free : engine.checkBinding workspace.tree = .ok ())
    (found : workspace.tree.get? id = some node)
    (accepted : type ∈ engine.profile.typesForKind node.fileKind) {relation : Option RelationId}
    (recorded : engine.relationFor workspace.tree node type = some relation)
    (called : engine.setNodeType id type workspace = (outcome, last)) :
    AgreeOn Node.withoutObject last.tree
        (workspace.tree.retype [id] fun _ => ⟨some type, relation⟩) ∧
      (outcome = .ok () ∨ ∃ fault, outcome = .error (.store fault)) := by
  have only := engine.syncObject_objectsOnly id (workspace.modifyNode id (retype type (some relation)))
  rw [setNodeType, checkFit_eq_ok_iff.2 ⟨free, found, accepted⟩] at called
  simp only [recorded] at called
  split at called
  next error next refused =>
      obtain ⟨rfl, rfl⟩ := Prod.mk.inj called
      rw [refused] at only
      have live : (workspace.modifyNode id (retype type (some relation))).tree.contains id = true := by
        rw [Workspace.modifyNode, contains_modify]
        exact contains_iff.2 ⟨node, found⟩
      obtain ⟨fault, isFault⟩ := engine.syncObject_error live (congrArg Prod.fst refused)
      exact ⟨only.nodes, .inr ⟨fault, congrArg Except.error isFault⟩⟩
  next next synced =>
      obtain ⟨rfl, rfl⟩ := Prod.mk.inj called
      rw [synced] at only
      exact ⟨⟨only.nodes.size, only.nodes.get⟩, .inl rfl⟩

/-- An eligible type can be set, unless the store fails, and then stands in its place. -/
theorem setNodeType_of_eligible [LawfulObjectStore S] (wellFormed : workspace.tree.WellFormed)
    (free : engine.checkBinding workspace.tree = .ok ())
    (live : workspace.tree.contains id = true)
    (eligible : engine.profile.Eligible workspace.tree id type parentType) :
    ∃ outcome last, engine.setNodeType id type workspace = (outcome, last) ∧
      (outcome = .ok () ∨ ∃ fault, outcome = .error (.store fault)) ∧
      engine.profile.InPlace last.tree id type := by
  obtain ⟨node, found⟩ := contains_iff.1 live
  have accepted := eligible.accepted
  rw [fileKind, found, Option.bind_some] at accepted
  obtain ⟨relation, recorded, fits⟩ := exists_relationFor found eligible
  obtain ⟨agree, ended⟩ := setNodeType_cases free found accepted recorded rfl
  exact ⟨_, _, rfl, ended, inPlace_of_retype wellFormed found eligible fits agree⟩

end Setting

/-! ## Offering what was assigned -/

theorem eligible_of_assigned {before after : ContentTree} {start : NodeId}
    {report : AssignmentReport} {parentType : Option NodeTypeId} {choice : NodeId → Candidate}
    (wellFormed : before.WellFormed)
    (assigned : Assigned engine before after start report parentType choice)
    (listed : id ∈ before.activeSubtree start) :
    ∃ above, engine.profile.Eligible after id (choice id).nodeType above := by
  have isFirst := assigned.isFirst
  have recorded := assigned.recorded
  obtain ⟨above, first, aboveTyped, _⟩ :=
    isFirst.exists_parentType wellFormed recorded assigned.parentTyped listed
  obtain ⟨node, typed, found, typedFound, same⟩ := recorded.exists_get? listed
  obtain ⟨_, accepted, placement, placed, _⟩ :=
    mem_candidates_iff.1 (mem_candidates_of_firstSuitable? first)
  refine ⟨above, ?_, aboveTyped, ⟨placement, placed⟩, ?_⟩
  · have sameKind := congrArg Node.fileKind same
    change typed.fileKind = node.fileKind at sameKind
    rw [fileKind, typedFound, Option.bind_some, sameKind]
    rw [fileKind, found, Option.bind_some] at accepted
    exact accepted
  · intro child member childType typedAs
    rw [recorded.links.activeChildren] at member
    have childListed := wellFormed.mem_activeSubtree_of_mem_activeChildren listed member
    rw [recorded.edgeOf childListed] at typedAs ⊢
    obtain ⟨_, _, childPlacement, childPlaced, sameRelation⟩ :=
      mem_candidates_iff.1
        (mem_candidates_of_firstSuitable? (isFirst.atChild id listed child member))
    have fits := fitsBelow_of_placement? childPlaced
    have sameType : (choice child).nodeType = childType := Option.some.inj typedAs
    rw [Option.map_some, sameRelation, sameType] at fits
    exact fits

section Agreement

variable {S : Type} [ObjectStore S] {workspace : Workspace S}

/-- After an assignment, every type that it reports is recorded and among those that are offered for
its node, and every node of the subtree that is not excluded is reported. -/
theorem offered_of_assignNodeTypes_ok (wellFormed : workspace.tree.WellFormed) {start : NodeId}
    {report : AssignmentReport} {last : Workspace S}
    (done : engine.assignNodeTypes start workspace = (.ok report, last)) :
    (∀ placement ∈ report.placements,
        last.tree.edgeOf placement.node = ⟨some placement.nodeType, placement.relation⟩ ∧
        ∃ types, engine.eligibleTypes last.tree placement.node = .ok types ∧
          placement.nodeType ∈ types) ∧
      ∀ id, Below workspace.tree start id → workspace.tree.isExcluded id = false →
        ∃ placement ∈ report.placements, placement.node = id := by
  cases included : workspace.tree.isExcluded start with
  | true =>
      constructor
      · rcases assignNodeTypes_cases done with ⟨_, declined⟩ | ⟨_, searches⟩
        · cases declined with
          | excluded _ _ =>
              intro placement member
              exact absurd member List.not_mem_nil
        · rw [searches.included] at included
          exact absurd included (by simp)
      · intro id below idIncluded
        rw [wellFormed.isExcluded_eq_false_of_below below idIncluded] at included
        exact absurd included (by simp)
  | false =>
      obtain ⟨parentType, choice, searches, assigned, _⟩ :=
        exists_written_of_ok wellFormed included done
      have free : engine.checkBinding last.tree = .ok () := by
        apply checkBinding_eq_ok
        intro bound isBound
        rw [assigned.bound] at isBound
        exact (Option.some.inj isBound).symm
      have links := assigned.recorded.links
      constructor
      · intro placement member
        refine ⟨assigned.edgeOf member, ?_⟩
        rw [assigned.placements, placementsOf] at member
        obtain ⟨id, listed, isPlacement⟩ := List.mem_map.1 member
        have live : last.tree.contains id = true := by
          rw [links.contains]
          exact contains_of_mem_activeSubtree listed
        have parentLive : ∀ parent, last.tree.parent? id = some parent →
            last.tree.contains parent = true := by
          intro parent link
          rw [links.parent?] at link
          rw [links.contains]
          exact wellFormed.contains_parent link
        obtain ⟨types, offered, isOffered⟩ := exists_eligibleTypes free live parentLive
        rw [← isPlacement]
        exact ⟨types, offered, (isOffered _).2 (eligible_of_assigned wellFormed assigned listed)⟩
      · intro id below idIncluded
        have listed : id ∈ workspace.tree.activeSubtree start :=
          (wellFormed.mem_activeSubtree_iff_not_isExcluded searches.live included).2
            ⟨below, idIncluded⟩
        rw [assigned.placements]
        exact ⟨_, List.mem_map_of_mem listed, rfl⟩

/-- What is offered, what can be set and what is assigned agree. Every type that is offered for a node
can be set, unless the store fails, and then the node accepts its file under the type, stands below
its parent and leaves its typed children in their places. What an assignment records is offered. -/
theorem eligibleTypes_agree [LawfulObjectStore S] (wellFormed : workspace.tree.WellFormed)
    (free : engine.checkBinding workspace.tree = .ok ()) :
    (∀ id, workspace.tree.contains id = true →
        ∃ types, engine.eligibleTypes workspace.tree id = .ok types ∧
          ∀ type ∈ types, ∃ outcome last, engine.setNodeType id type workspace = (outcome, last) ∧
            (outcome = .ok () ∨ ∃ fault, outcome = .error (.store fault)) ∧
            engine.profile.InPlace last.tree id type) ∧
      ∀ start report last, engine.assignNodeTypes start workspace = (.ok report, last) →
        (∀ placement ∈ report.placements,
            last.tree.edgeOf placement.node = ⟨some placement.nodeType, placement.relation⟩ ∧
            ∃ types, engine.eligibleTypes last.tree placement.node = .ok types ∧
              placement.nodeType ∈ types) ∧
          ∀ id, Below workspace.tree start id → workspace.tree.isExcluded id = false →
            ∃ placement ∈ report.placements, placement.node = id := by
  constructor
  · intro id live
    have parentLive : ∀ parent, workspace.tree.parent? id = some parent →
        workspace.tree.contains parent = true :=
      fun parent link => wellFormed.contains_parent link
    obtain ⟨types, offered, isOffered⟩ := exists_eligibleTypes free live parentLive
    refine ⟨types, offered, ?_⟩
    intro type member
    obtain ⟨parentType, eligible⟩ := (isOffered type).1 member
    exact setNodeType_of_eligible wellFormed free live eligible
  · intro start report last done
    exact offered_of_assignNodeTypes_ok wellFormed done

theorem objectsKnown_collectionWorkspace : collectionWorkspace.ObjectsKnown := by
  have recorded : ∀ slot ∈ collectionWorkspace.tree.nodes,
      slot.bind Node.object = none ∨ slot.bind Node.object = some "urn:archive" := by
    decide
  intro id node object found isObject
  rw [ContentTree.get?, Option.join_eq_some_iff] at found
  have inStore := recorded (some node) (Array.mem_of_getElem? found)
  rw [Option.bind_some, isObject] at inStore
  rcases inStore with absent | same
  · exact absurd absent (by simp)
  · exact (MemoryStore.contains_put _ _ object _).2 (.inl (Option.some.inj same).symm)

/-- The collection of the small archive could also be an object: its item is recorded as a member, and
objects have members as well. What is then assigned to the item and its page is offered for them. -/
theorem eligibleTypes_agree_collectionWorkspace :
    (∃ last, pcdmEngine.setNodeType ⟨0⟩ Pcdm.object collectionWorkspace = (.ok (), last) ∧
        pcdmEngine.profile.InPlace last.tree ⟨0⟩ Pcdm.object) ∧
      ∃ report last, pcdmEngine.assignNodeTypes ⟨1⟩ collectionWorkspace = (.ok report, last) ∧
        ∃ placement ∈ report.placements, placement.node = ⟨2⟩ ∧
          ∃ types, pcdmEngine.eligibleTypes last.tree ⟨2⟩ = .ok types ∧
            placement.nodeType ∈ types := by
  obtain ⟨settable, assignable⟩ := eligibleTypes_agree wellFormed_collectionWorkspace
    (rfl : pcdmEngine.checkBinding collectionWorkspace.tree = .ok ())
  constructor
  · obtain ⟨types, offered, settableTypes⟩ := settable ⟨0⟩ rfl
    have listed : pcdmEngine.eligibleTypes collectionWorkspace.tree ⟨0⟩ =
        .ok [Pcdm.administrativeSet, Pcdm.collection, Pcdm.object] := rfl
    have sameTypes := Except.ok.inj (offered.symm.trans listed)
    have member : Pcdm.object ∈ types := by
      rw [sameTypes]
      decide
    obtain ⟨outcome, last, called, _, inPlace⟩ := settableTypes Pcdm.object member
    have succeeds : (pcdmEngine.setNodeType ⟨0⟩ Pcdm.object collectionWorkspace).1 = .ok () := by
      decide +kernel
    rw [called] at succeeds
    refine ⟨last, ?_, inPlace⟩
    rw [called, ← succeeds]
  · have isFirst : Pcdm.profile.firstViable? collectionWorkspace.tree (some Pcdm.collection) ⟨1⟩ =
        some ⟨Pcdm.object, some Pcdm.memberOf⟩ := by decide
    obtain ⟨report, succeeds⟩ := exists_ok_of_firstViable? wellFormed_collectionWorkspace
      (rfl : pcdmEngine.checkBinding collectionWorkspace.tree = .ok ()) rfl rfl rfl isFirst
      (pcdmEngine.noStoreFault_assignNodeTypes objectsKnown_collectionWorkspace ⟨1⟩)
    have called : pcdmEngine.assignNodeTypes ⟨1⟩ collectionWorkspace = (.ok report, _) :=
      Prod.ext succeeds rfl
    obtain ⟨offered, complete⟩ := assignable ⟨1⟩ report _ called
    have below : Below collectionWorkspace.tree ⟨1⟩ ⟨2⟩ := .child rfl .self
    obtain ⟨placement, member, isPage⟩ := complete ⟨2⟩ below rfl
    obtain ⟨_, types, areOffered, isOffered⟩ := offered placement member
    rw [isPage] at areOffered
    exact ⟨report, _, called, placement, member, isPage, types, areOffered, isOffered⟩

end Agreement

end ProfileEngine

end ContentTyping

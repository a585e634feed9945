import ContentTyping.Proofs.Profile.Placement
import ContentTyping.Proofs.Tree.Agreement
import ContentTyping.Validation.Report

/-!
# Nodes without defects

A report on a subtree is empty exactly when no node of the active subtree has a defect, and a node
has none exactly when it is typed, its types fit its file kind, a parent constraint holds on the
recorded edge, and the recorded edges to its children break no child constraint.
-/

namespace ContentTyping.DomainProfile

open ContentTree

variable {profile : DomainProfile} {tree : ContentTree}

/-- Nothing is wrong with a node of the primary type. -/
structure InOrder (profile : DomainProfile) (tree : ContentTree) (id : NodeId) (node : Node)
    (primary : NodeTypeId) : Prop where
  typed : node.nodeType = some primary
  types_fit : ∀ type ∈ primary :: node.subTypes, type ∈ profile.typesForKind node.fileKind
  parent_holds : ∃ definition, profile.nodeType? primary = some definition ∧
    ∃ constraint ∈ definition.parentConstraints, constraint.matchesParent tree id = true
  children_hold : profile.brokenChildConstraints primary (tree.childEdges id) = []

theorem typeDefect?_eq_none_iff {kind : Option FileKind} {type : NodeTypeId} :
    profile.typeDefect? kind type = none ↔ type ∈ profile.typesForKind kind := by
  rw [mem_typesForKind_iff, typeDefect?]
  cases isDefined : profile.nodeType? type with
  | none =>
      simp
  | some definition =>
      cases accepted : definition.fileAssociation.accepts kind with
      | false => simp [accepted]
      | true => simp [accepted]

theorem satisfiesParentConstraint_iff {id : NodeId} {node : Node} {primary : NodeTypeId}
    (found : tree.get? id = some node) (typed : node.nodeType = some primary)
    {definition : NodeType} (isDefined : profile.nodeType? primary = some definition) :
    profile.satisfiesParentConstraint tree id = true ↔
      ∃ constraint ∈ definition.parentConstraints, constraint.matchesParent tree id = true := by
  rw [satisfiesParentConstraint, satisfiedParentConstraint?, found, Option.bind_some, typed,
    Option.bind_some, isDefined, Option.bind_some, List.findIdx?_isSome, List.any_eq_true]

theorem typedDefects_eq_nil_iff {id : NodeId} {node : Node} {primary : NodeTypeId}
    {definition : NodeType} :
    profile.typedDefects tree id node primary definition = [] ↔
      (∀ type ∈ primary :: node.subTypes, type ∈ profile.typesForKind node.fileKind) ∧
        profile.satisfiesParentConstraint tree id = true ∧
        profile.brokenChildConstraints primary (tree.childEdges id) = [] := by
  rw [typedDefects, List.append_eq_nil_iff, List.append_eq_nil_iff, List.filterMap_eq_nil_iff,
    List.map_eq_nil_iff, and_assoc]
  refine and_congr (forall₂_congr fun type _ => typeDefect?_eq_none_iff) (and_congr_left' ?_)
  cases profile.satisfiesParentConstraint tree id with
  | false => simp
  | true => simp

theorem defects_eq_nil_iff {id : NodeId} {node : Node} (found : tree.get? id = some node)
    (active : node.ignored = false) :
    profile.defects tree id = [] ↔ ∃ primary, profile.InOrder tree id node primary := by
  rw [defects, found]
  simp only [active, Bool.false_eq_true, if_false]
  cases typed : node.nodeType with
  | none =>
      constructor
      · intro nothing
        exact absurd nothing (by simp)
      · rintro ⟨primary, inOrder⟩
        rw [inOrder.typed] at typed
        exact absurd typed (by simp)
  | some primary =>
      cases isDefined : profile.nodeType? primary with
      | none =>
          constructor
          · intro nothing
            exact absurd nothing (by simp [isDefined])
          · rintro ⟨other, inOrder⟩
            obtain rfl : primary = other := Option.some.inj (typed.symm.trans inOrder.typed)
            obtain ⟨definition, known, _⟩ := inOrder.parent_holds
            rw [isDefined] at known
            exact absurd known (by simp)
      | some definition =>
          simp only [isDefined]
          rw [typedDefects_eq_nil_iff, satisfiesParentConstraint_iff found typed isDefined]
          constructor
          · rintro ⟨fit, parentHolds, childrenHold⟩
            exact ⟨primary, typed, fit, ⟨definition, isDefined, parentHolds⟩, childrenHold⟩
          · rintro ⟨other, inOrder⟩
            obtain rfl : primary = other := Option.some.inj (typed.symm.trans inOrder.typed)
            obtain ⟨known, isKnown, parentHolds⟩ := inOrder.parent_holds
            obtain rfl : definition = known := Option.some.inj (isDefined.symm.trans isKnown)
            exact ⟨inOrder.types_fit, parentHolds, inOrder.children_hold⟩

/-- The object of a node does not matter. -/
theorem defects_eq_nil_of_withoutObject {id : NodeId} {node last : Node} {primary : NodeTypeId}
    (found : tree.get? id = some last) (same : last.withoutObject = node.withoutObject)
    (active : node.ignored = false) (inOrder : profile.InOrder tree id node primary) :
    profile.defects tree id = [] := by
  have sameIgnored : last.ignored = node.ignored := (congrArg Node.ignored same :)
  have sameType : last.nodeType = node.nodeType := (congrArg Node.nodeType same :)
  have sameKind : last.fileKind = node.fileKind := (congrArg Node.fileKind same :)
  have sameSubTypes : last.subTypes = node.subTypes := (congrArg Node.subTypes same :)
  refine (defects_eq_nil_iff found (sameIgnored.trans active)).2
    ⟨primary, sameType.trans inOrder.typed, ?_, inOrder.parent_holds, inOrder.children_hold⟩
  rw [sameKind, sameSubTypes]
  exact inOrder.types_fit

theorem validationReport_violations_eq_nil_iff {start : NodeId} :
    (profile.validationReport tree start).violations = [] ↔
      ∀ id ∈ tree.activeSubtree start, profile.defects tree id = [] := by
  simp only [validationReport, reportOn, checkNode, List.flatMap_eq_nil_iff, List.map_eq_nil_iff]

/-- The edge to a typed parent, or to none, is the edge that a placement would have made. -/
theorem matchesParent_eq_holdsOn {constraint : EdgeConstraint} {id : NodeId}
    {parentType : Option NodeTypeId}
    (parentLive : ∀ parent, tree.parent? id = some parent → tree.contains parent = true)
    (parentTyped : (tree.parent? id).map (fun parent => (tree.edgeOf parent).nodeType) =
      parentType.map some) :
    constraint.matchesParent tree id =
      constraint.holdsOn (edgesToParent parentType (tree.edgeOf id).relation) := by
  cases link : tree.parent? id with
  | none =>
      rw [link, Option.map_none, eq_comm, Option.map_eq_none_iff] at parentTyped
      rw [EdgeConstraint.matchesParent, parentEdge?_of_root link, parentTyped]
      rfl
  | some parent =>
      rw [link, Option.map_some, eq_comm, Option.map_eq_some_iff] at parentTyped
      obtain ⟨type, rfl, sameType⟩ := parentTyped
      rw [EdgeConstraint.matchesParent, parentEdge?_of_parent? link (parentLive parent link),
        ← sameType]
      rfl

end ContentTyping.DomainProfile

import ContentTyping.Profile.Basic

/-!
# Placements and edges

A placement is a parent constraint picked for a node that is still to be typed. The edge that is
recorded for it satisfies the constraint. Conversely a satisfied parent constraint shows that
there is a placement, as long as negative parent constraints only serve roots.
-/

namespace ContentTyping

namespace EdgeConstraint

variable {constraint : EdgeConstraint} {edges : List Edge}

theorem holdsOn_of_matchesNone (negative : constraint.matchesNone = true) :
    constraint.holdsOn edges = true ↔ ∀ edge ∈ edges, constraint.covers edge = false := by
  rw [holdsOn, if_pos negative, Bool.not_eq_true', List.any_eq_false]
  simp

theorem holdsOn_of_not_matchesNone (positive : constraint.matchesNone = false) :
    constraint.holdsOn edges = true ↔ ∃ edge ∈ edges, constraint.covers edge = true := by
  rw [holdsOn, positive]
  simp

theorem covers_iff {edge : Edge} :
    constraint.covers edge = true ↔
      (constraint.nodeType = none ∨ edge.nodeType = constraint.nodeType) ∧
        (constraint.relation = none ∨ edge.relation = constraint.relation) := by
  simp [covers]

theorem holdsOnChildren_of_any (positive : constraint.matchesNone = false)
    (unbounded : constraint.cardinality = Cardinality.any) :
    constraint.holdsOnChildren edges = true := by
  rw [holdsOnChildren, positive, unbounded]
  simp [Cardinality.contains, Cardinality.any]

end EdgeConstraint

/-- The edges that lead to a parent of a type, none where there is no parent. -/
def edgesToParent (parentType : Option NodeTypeId) (relation : Option RelationId) : List Edge :=
  (parentType.map fun parent => ⟨some parent, relation⟩).toList

namespace DomainProfile

variable {profile : DomainProfile}

/-! ## Types by file kind -/

theorem mem_typesForKind_iff {kind : Option FileKind} {type : NodeTypeId} :
    type ∈ profile.typesForKind kind ↔
      ∃ definition, profile.nodeType? type = some definition ∧
        definition.fileAssociation.accepts kind = true := by
  rw [typesForKind, List.mem_filter, Option.any_eq_true]
  constructor
  · rintro ⟨_, definition, isDefined, accepted⟩
    exact ⟨definition, isDefined, accepted⟩
  · rintro ⟨definition, isDefined, accepted⟩
    refine ⟨?_, definition, isDefined, accepted⟩
    have inRange : type.index < profile.nodeTypes.length :=
      (List.getElem?_eq_some_iff.1 isDefined).1
    exact List.mem_map.2 ⟨type.index, List.mem_range.2 inRange, rfl⟩

theorem typesForKind_pairwise (kind : Option FileKind) :
    (profile.typesForKind kind).Pairwise fun first second => first.index < second.index := by
  refine List.Pairwise.filter _ ?_
  rw [typeIds, List.pairwise_map]
  exact List.pairwise_lt_range

/-! ## Placements -/

theorem exists_definition_of_placement? {candidate : NodeTypeId}
    {parentType : Option NodeTypeId} {placement : EdgeConstraint}
    (placed : profile.placement? candidate parentType = some placement) :
    ∃ definition, profile.nodeType? candidate = some definition ∧
      placement ∈ definition.parentConstraints := by
  cases isDefined : profile.nodeType? candidate with
  | none =>
      simp [placement?, isDefined] at placed
  | some definition =>
      refine ⟨definition, rfl, ?_⟩
      cases parentType with
      | none =>
          simp only [placement?, isDefined] at placed
          exact List.mem_of_find?_eq_some placed
      | some parent =>
          simp only [placement?, isDefined] at placed
          exact List.mem_of_find?_eq_some placed

/-- The edge recorded for a placement satisfies it. -/
theorem holdsOn_of_placement? {candidate : NodeTypeId} {parentType : Option NodeTypeId}
    {placement : EdgeConstraint}
    (placed : profile.placement? candidate parentType = some placement) :
    placement.holdsOn (edgesToParent parentType placement.relation) = true := by
  obtain ⟨definition, isDefined, _⟩ := exists_definition_of_placement? placed
  cases parentType with
  | none =>
      simp only [placement?, isDefined] at placed
      have rootShape := List.find?_some placed
      rw [EdgeConstraint.allowsNoParent, Bool.and_eq_true] at rootShape
      rw [EdgeConstraint.holdsOn_of_matchesNone rootShape.1]
      simp [edgesToParent]
  | some parent =>
      simp only [placement?, isDefined] at placed
      have fitting := List.find?_some placed
      simp only [Bool.and_eq_true, Bool.not_eq_true', Bool.or_eq_true, Option.isNone_iff_eq_none,
        decide_eq_true_eq] at fitting
      obtain ⟨positive, sameType⟩ := fitting
      rw [EdgeConstraint.holdsOn_of_not_matchesNone positive]
      refine ⟨⟨some parent, placement.relation⟩, by simp [edgesToParent], ?_⟩
      exact EdgeConstraint.covers_iff.2 ⟨sameType.imp id Eq.symm, .inr rfl⟩

/-- Negative parent constraints of the profile are tied to no type and no relation, and its child
constraints are positive and without bounds: siblings cannot constrain each other. -/
structure SiblingsIndependent (profile : DomainProfile) : Prop where
  childConstraint : ∀ definition ∈ profile.nodeTypes,
    ∀ constraint ∈ definition.childConstraints,
      constraint.matchesNone = false ∧ constraint.cardinality = Cardinality.any
  parentConstraint : ∀ definition ∈ profile.nodeTypes,
    ∀ constraint ∈ definition.parentConstraints,
      constraint.matchesNone = true →
        constraint.nodeType = none ∧ constraint.relation = none

namespace SiblingsIndependent

variable (independent : profile.SiblingsIndependent)

include independent

theorem brokenChildConstraints_eq_nil (type : NodeTypeId) (edges : List Edge) :
    profile.brokenChildConstraints type edges = [] := by
  cases isDefined : profile.nodeType? type with
  | none =>
      simp [brokenChildConstraints, isDefined]
  | some definition =>
      have declared : definition ∈ profile.nodeTypes := List.mem_of_getElem? isDefined
      simp only [brokenChildConstraints, isDefined, List.map_eq_nil_iff, List.filter_eq_nil_iff]
      intro constraint member
      obtain ⟨positive, unbounded⟩ :=
        independent.childConstraint definition declared constraint member
      simp [EdgeConstraint.holdsOnChildren_of_any positive unbounded]

/-- A node of a type whose parent constraint holds could have been placed where it is. -/
theorem placement?_isSome {candidate : NodeTypeId} {definition : NodeType}
    (isDefined : profile.nodeType? candidate = some definition)
    {constraint : EdgeConstraint} (member : constraint ∈ definition.parentConstraints)
    {parentType : Option NodeTypeId} {relation : Option RelationId}
    (holds : constraint.holdsOn (edgesToParent parentType relation) = true) :
    (profile.placement? candidate parentType).isSome = true := by
  have declared : definition ∈ profile.nodeTypes := List.mem_of_getElem? isDefined
  have rootOnly := independent.parentConstraint definition declared constraint member
  cases negative : constraint.matchesNone with
  | true =>
      obtain ⟨noType, noRelation⟩ := rootOnly negative
      rw [EdgeConstraint.holdsOn_of_matchesNone negative] at holds
      cases parentType with
      | none =>
          simp only [placement?, isDefined, List.find?_isSome]
          exact ⟨constraint, member, by simp [EdgeConstraint.allowsNoParent, negative, noType]⟩
      | some parent =>
          have uncovered := holds ⟨some parent, relation⟩ (by simp [edgesToParent])
          simp [EdgeConstraint.covers, noType, noRelation] at uncovered
  | false =>
      rw [EdgeConstraint.holdsOn_of_not_matchesNone negative] at holds
      obtain ⟨edge, edgeMember, covered⟩ := holds
      cases parentType with
      | none =>
          simp [edgesToParent] at edgeMember
      | some parent =>
          simp only [edgesToParent, Option.map_some, Option.toList_some, List.mem_singleton]
            at edgeMember
          subst edgeMember
          have sameType := (EdgeConstraint.covers_iff.1 covered).1
          simp only [placement?, isDefined, List.find?_isSome]
          refine ⟨constraint, member, ?_⟩
          simp only [negative, Bool.not_false, Bool.true_and, Bool.or_eq_true,
            Option.isNone_iff_eq_none, decide_eq_true_eq]
          exact sameType.imp id Eq.symm

end SiblingsIndependent

end DomainProfile

end ContentTyping

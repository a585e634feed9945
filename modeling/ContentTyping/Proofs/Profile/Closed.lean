import Mathlib.Tactic.MkIffOfInductiveProp
import ContentTyping.Profile.Draft
import ContentTyping.Proofs.Decisions

/-!
# Closed profiles

A profile is closed when all that it refers to is declared in it and all its bounds are in order. A draft
can be completed exactly when its profile is closed, and is completed to that profile.
-/

namespace ContentTyping

/-- The lower bound does not exceed the upper one, if there is one. -/
def Cardinality.InOrder (cardinality : Cardinality) : Prop :=
  ∀ max, cardinality.max = some max → cardinality.min ≤ max

theorem Cardinality.isOrdered_iff {cardinality : Cardinality} :
    cardinality.isOrdered = true ↔ cardinality.InOrder := by
  rw [isOrdered, InOrder]
  cases cardinality.max with
  | none => simp
  | some max => simp

namespace DomainProfile

variable {profile : DomainProfile}

/-- The type and the relation of a rule on edges are declared, and its bounds are in order. -/
@[mk_iff]
structure EdgeInRange (profile : DomainProfile) (constraint : EdgeConstraint) : Prop where
  nodeType : ∀ type, constraint.nodeType = some type → type.index < profile.nodeTypes.length
  relation : ∀ relation, constraint.relation = some relation →
    relation.index < profile.relations.length
  cardinality : constraint.cardinality.InOrder

/-- The property of a rule on values is declared, and its bounds are in order. -/
@[mk_iff]
structure PropertyInRange (profile : DomainProfile) (constraint : PropertyConstraint) : Prop where
  property : constraint.property.index < profile.propertyTypes.length
  cardinality : constraint.cardinality.InOrder

/-- A node type refers to what is declared only, and to classes with the outline of an IRI. -/
structure TypeInRange (profile : DomainProfile) (type : NodeType) : Prop where
  parents : ∀ constraint ∈ type.parentConstraints, profile.EdgeInRange constraint
  children : ∀ constraint ∈ type.childConstraints, profile.EdgeInRange constraint
  properties : ∀ constraint ∈ type.propertyConstraints, profile.PropertyInRange constraint
  domainTypes : ∀ uri ∈ type.domainTypes, Iri.isLoose uri = true

/-- A transform leads from one declared type to another that could be given to some of the same files,
under conditions that refer to what is declared only. -/
structure TransformInRange (profile : DomainProfile) (transform : Transform) : Prop where
  ends : ∃ source result, profile.nodeType? transform.source = some source ∧
    profile.nodeType? transform.result = some result ∧
    source.fileAssociation.compatibleWith result.fileAssociation = true
  distinct : transform.source ≠ transform.result
  parent : ∀ constraint ∈ transform.parentCondition, profile.EdgeInRange constraint
  children : ∀ constraint ∈ transform.childConditions, profile.EdgeInRange constraint

/-- All that the profile refers to is declared in it, and all its bounds are in order. -/
structure Closed (profile : DomainProfile) : Prop where
  identifier : Iri.isLoose profile.identifier = true
  domain : Iri.isLoose profile.domain = true
  nodeTypes : ∀ type ∈ profile.nodeTypes, profile.TypeInRange type
  transforms : ∀ transform ∈ profile.transforms, profile.TransformInRange transform

end DomainProfile

namespace ProfileDraft

open DomainProfile

variable {draft : ProfileDraft} {profile : DomainProfile} {owner : String}

/-- A step that is guarded by a condition goes through when the condition holds. -/
theorem guarded_eq_ok_iff {α : Type} {condition : Prop} [Decidable condition]
    {step otherwise : Except ProfileError α} {value : α} (refused : otherwise ≠ .ok value) :
    (if condition then step else otherwise) = .ok value ↔ condition ∧ step = .ok value := by
  by_cases holds : condition
  · simp [holds]
  · simp [holds, refused]

/-- A check that comes first goes through when it finds nothing and the rest goes through. -/
theorem check_bind_eq_ok_iff {α : Type} {check : Except ProfileError Unit}
    {rest : Unit → Except ProfileError α} {value : α} :
    (check >>= rest) = .ok value ↔ check = .ok () ∧ rest () = .ok value := by
  rw [bind_eq_ok_iff]
  exact ⟨fun ⟨_, checked, further⟩ => ⟨checked, further⟩, fun both => ⟨(), both⟩⟩

theorem checkIdentifier_eq_ok_iff {value : String} :
    checkIdentifier value = .ok () ↔ Iri.isLoose value = true := by
  rw [checkIdentifier, guarded_eq_ok_iff (by simp), and_iff_left rfl]

theorem checkConstraint_eq_ok_iff {constraint : EdgeConstraint} :
    checkConstraint profile owner constraint = .ok () ↔ profile.EdgeInRange constraint := by
  have refused {α β : Type} {error : ProfileError} {next : α → Except ProfileError β} {value : β} :
      (throw error >>= next) ≠ .ok value := by
    simp [throw, throwThe, MonadExceptOf.throw, Bind.bind, Except.bind]
  have bounds : (if constraint.cardinality.isOrdered = true then pure ()
      else throw (.invalidEdgeCardinality constraint.cardinality owner) :
        Except ProfileError Unit) = .ok () ↔ constraint.cardinality.InOrder := by
    rw [guarded_eq_ok_iff (by simp [throw, throwThe, MonadExceptOf.throw]),
      Cardinality.isOrdered_iff]
    exact and_iff_left rfl
  rw [checkConstraint, edgeInRange_iff]
  cases constraint.nodeType <;> cases constraint.relation <;>
    simp only [guarded_eq_ok_iff refused, bounds, Option.some.injEq, reduceCtorEq, forall_eq',
      false_implies, imp_true_iff, true_and]

theorem checkPropertyConstraint_eq_ok_iff {constraint : PropertyConstraint} :
    checkPropertyConstraint profile owner constraint = .ok () ↔
      profile.PropertyInRange constraint := by
  rw [checkPropertyConstraint, propertyInRange_iff, propertyType?]
  cases found : profile.propertyTypes[constraint.property.index]? with
  | none =>
      have outside := List.getElem?_eq_none_iff.1 found
      exact iff_of_false (by simp) fun inRange => Nat.not_lt.2 outside inRange.1
  | some property =>
      have inside := (List.getElem?_eq_some_iff.1 found).1
      rw [guarded_eq_ok_iff (by simp), and_iff_left rfl, Cardinality.isOrdered_iff,
        and_iff_right inside]

theorem checkNodeType_eq_ok_iff {type : NodeType} :
    checkNodeType profile type = .ok () ↔ profile.TypeInRange type := by
  simp only [checkNodeType, check_bind_eq_ok_iff, forM_eq_ok_iff, checkConstraint_eq_ok_iff,
    checkPropertyConstraint_eq_ok_iff, checkIdentifier_eq_ok_iff, List.forall_mem_append]
  constructor
  · rintro ⟨⟨parents, children⟩, properties, domainTypes⟩
    exact ⟨parents, children, properties, domainTypes⟩
  · rintro ⟨parents, children, properties, domainTypes⟩
    exact ⟨⟨parents, children⟩, properties, domainTypes⟩

theorem checkTransform_eq_ok_iff {transform : Transform} :
    checkTransform profile transform = .ok () ↔ profile.TransformInRange transform := by
  rw [checkTransform]
  cases isSource : profile.nodeType? transform.source with
  | none =>
      refine iff_of_false (by simp) fun inRange => ?_
      obtain ⟨source, _, found, _⟩ := inRange.ends
      exact absurd (isSource.symm.trans found) (by simp)
  | some source =>
      cases isResult : profile.nodeType? transform.result with
      | none =>
          refine iff_of_false (by simp) fun inRange => ?_
          obtain ⟨_, result, _, found, _⟩ := inRange.ends
          exact absurd (isResult.symm.trans found) (by simp)
      | some result =>
          by_cases same : transform.source = transform.result
          · simp only [if_pos same]
            exact iff_of_false (by simp) fun inRange => inRange.distinct same
          · simp only [if_neg same]
            rw [guarded_eq_ok_iff (by simp), forM_eq_ok_iff, List.forall_mem_append]
            simp only [checkConstraint_eq_ok_iff, Option.mem_toList]
            constructor
            · rintro ⟨compatible, parent, children⟩
              exact ⟨⟨source, result, isSource, isResult, compatible⟩, same, parent, children⟩
            · rintro ⟨⟨_, _, found, alsoFound, compatible⟩, _, parent, children⟩
              obtain rfl := Option.some.inj (isSource.symm.trans found)
              obtain rfl := Option.some.inj (isResult.symm.trans alsoFound)
              exact ⟨compatible, parent, children⟩

/-- A draft is completed when its profile is closed, and to that profile. -/
theorem build_eq_ok_iff :
    draft.build = .ok profile ↔ profile = draft.profile ∧ draft.profile.Closed := by
  simp only [build, check_bind_eq_ok_iff, forM_eq_ok_iff, checkIdentifier_eq_ok_iff,
    checkNodeType_eq_ok_iff, checkTransform_eq_ok_iff, pure, Except.pure, Except.ok.injEq]
  constructor
  · rintro ⟨identifier, domain, nodeTypes, transforms, same⟩
    exact ⟨same.symm, identifier, domain, nodeTypes, transforms⟩
  · rintro ⟨same, identifier, domain, nodeTypes, transforms⟩
    exact ⟨identifier, domain, nodeTypes, transforms, same.symm⟩

end ProfileDraft

end ContentTyping

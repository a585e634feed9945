import ContentTyping.Iri.Loose
import ContentTyping.Profile.Error

/-!
# Drafts of profiles

A draft takes declarations one after the other. A declared element gets its handle at once, so
that constraints may speak of elements declared later; every reference is checked when the
draft is completed to a profile.
-/

namespace ContentTyping

/-- A profile under declaration; its references are not yet checked. -/
structure ProfileDraft where
  profile : DomainProfile
  deriving DecidableEq

namespace ProfileDraft

/-- Accepts the identifiers that have the outline of an absolute IRI. -/
def checkIdentifier (value : String) : Except ProfileError Unit :=
  if Iri.isLoose value then .ok () else .error (.invalidIdentifier value)

/-- A draft without elements. -/
def empty (identifier domain label : String) : ProfileDraft :=
  ⟨⟨identifier, domain, label, [], [], [], []⟩⟩

/-! ## Declarations -/

/-- Declare a relation; the forward predicate names it. -/
def addRelation (draft : ProfileDraft) (forward inverse : String) :
    Except ProfileError (RelationId × ProfileDraft) := do
  checkIdentifier forward
  checkIdentifier inverse
  if (draft.profile.findRelation forward).isSome then
    throw (.duplicateIdentifier forward)
  else
    let relations := draft.profile.relations
    pure (⟨relations.length⟩,
      ⟨{ draft.profile with relations := relations ++ [⟨forward, inverse⟩] }⟩)

/-- Declare a property type. -/
def addPropertyType (draft : ProfileDraft) (identifier label : String) :
    Except ProfileError (PropertyTypeId × ProfileDraft) := do
  checkIdentifier identifier
  if (draft.profile.findPropertyType identifier).isSome then
    throw (.duplicateIdentifier identifier)
  else
    let propertyTypes := draft.profile.propertyTypes
    pure (⟨propertyTypes.length⟩,
      ⟨{ draft.profile with propertyTypes := propertyTypes ++ [⟨identifier, label, ""⟩] }⟩)

/-- Declare a node type; description, domain types and constraints are added to it later. -/
def addNodeType (draft : ProfileDraft) (identifier label : String)
    (association : FileAssociation) :
    Except ProfileError (NodeTypeId × ProfileDraft) := do
  checkIdentifier identifier
  if (draft.profile.findNodeType identifier).isSome then
    throw (.duplicateIdentifier identifier)
  else
    let nodeTypes := draft.profile.nodeTypes
    let declared : NodeType :=
      ⟨identifier, label, "", [], association, [], [], [], draft.profile.identifier⟩
    pure (⟨nodeTypes.length⟩,
      ⟨{ draft.profile with nodeTypes := nodeTypes ++ [declared] }⟩)

/-- Declare a transform; its label names it. -/
def addTransform (draft : ProfileDraft) (transform : Transform) :
    Except ProfileError (TransformId × ProfileDraft) :=
  if (draft.profile.findTransform transform.label).isSome then
    .error (.duplicateIdentifier transform.label)
  else
    let transforms := draft.profile.transforms
    .ok (⟨transforms.length⟩,
      ⟨{ draft.profile with transforms := transforms ++ [transform] }⟩)

/-- Change a declared node type; a handle that the draft does not know changes nothing. -/
def modifyNodeType (draft : ProfileDraft) (id : NodeTypeId) (change : NodeType → NodeType) :
    ProfileDraft :=
  ⟨{ draft.profile with nodeTypes := draft.profile.nodeTypes.modify id.index change }⟩

/-- Set the description of a node type. -/
def describe (draft : ProfileDraft) (id : NodeTypeId) (text : String) : ProfileDraft :=
  draft.modifyNodeType id fun type => { type with description := text }

/-- Add a class for the objects of a node type. -/
def addDomainType (draft : ProfileDraft) (id : NodeTypeId) (uri : String) : ProfileDraft :=
  draft.modifyNodeType id fun type => { type with domainTypes := type.domainTypes ++ [uri] }

/-- Add a constraint on the parent edge of a node type. -/
def addParentConstraint (draft : ProfileDraft) (id : NodeTypeId)
    (constraint : EdgeConstraint) : ProfileDraft :=
  draft.modifyNodeType id fun type =>
    { type with parentConstraints := type.parentConstraints ++ [constraint] }

/-- Add a constraint on the child edges of a node type. -/
def addChildConstraint (draft : ProfileDraft) (id : NodeTypeId)
    (constraint : EdgeConstraint) : ProfileDraft :=
  draft.modifyNodeType id fun type =>
    { type with childConstraints := type.childConstraints ++ [constraint] }

/-- Add a constraint on the property values of a node type. -/
def addPropertyConstraint (draft : ProfileDraft) (id : NodeTypeId)
    (constraint : PropertyConstraint) : ProfileDraft :=
  draft.modifyNodeType id fun type =>
    { type with propertyConstraints := type.propertyConstraints ++ [constraint] }

/-! ## Completion -/

/-- The references of a rule on edges are declared and its bounds are in order. -/
def checkConstraint (profile : DomainProfile) (owner : String)
    (constraint : EdgeConstraint) : Except ProfileError Unit := do
  if let some id := constraint.nodeType then
    unless id.index < profile.nodeTypes.length do
      throw (.danglingReference owner (.nodeType id))
  if let some id := constraint.relation then
    unless id.index < profile.relations.length do
      throw (.danglingReference owner (.relation id))
  unless constraint.cardinality.isOrdered do
    throw (.invalidEdgeCardinality constraint.cardinality owner)

/-- The property of a rule on values is declared and its bounds are in order. -/
def checkPropertyConstraint (profile : DomainProfile) (owner : String)
    (constraint : PropertyConstraint) : Except ProfileError Unit :=
  match profile.propertyType? constraint.property with
  | none => .error (.danglingReference owner (.property constraint.property))
  | some property =>
    if constraint.cardinality.isOrdered then .ok ()
    else
      .error (.invalidPropertyCardinality property.identifier owner constraint.cardinality)

/-- Every reference, bound and domain type of a node type is in order. -/
def checkNodeType (profile : DomainProfile) (type : NodeType) : Except ProfileError Unit := do
  (type.parentConstraints ++ type.childConstraints).forM
    (checkConstraint profile type.identifier)
  type.propertyConstraints.forM (checkPropertyConstraint profile type.identifier)
  type.domainTypes.forM checkIdentifier

/-- Source and result of a transform are declared, distinct and fit the same files, and its
conditions are in order. -/
def checkTransform (profile : DomainProfile) (transform : Transform) :
    Except ProfileError Unit :=
  match profile.nodeType? transform.source, profile.nodeType? transform.result with
  | none, _ => .error (.invalidTransform transform.label (.unknownSource transform.source))
  | some _, none =>
    .error (.invalidTransform transform.label (.unknownResult transform.result))
  | some source, some result =>
    if transform.source = transform.result then
      .error (.invalidTransform transform.label .sameType)
    else if source.fileAssociation.compatibleWith result.fileAssociation then
      (transform.parentCondition.toList ++ transform.childConditions).forM
        (checkConstraint profile transform.label)
    else
      .error (.invalidTransform transform.label
        (.incompatibleFiles source.fileAssociation result.fileAssociation))

/-- Check every name and reference, in declaration order, and give out the profile. -/
def build (draft : ProfileDraft) : Except ProfileError DomainProfile := do
  checkIdentifier draft.profile.identifier
  checkIdentifier draft.profile.domain
  draft.profile.nodeTypes.forM (checkNodeType draft.profile)
  draft.profile.transforms.forM (checkTransform draft.profile)
  pure draft.profile

end ProfileDraft

end ContentTyping

import ContentTyping.Profile.EdgeConstraint
import ContentTyping.Profile.FileAssociation

/-!
# Domain profiles

A profile is a closed description of the node types of a domain: which may sit where, which
properties their objects carry, and how a node of one type may become one of another.
-/

namespace ContentTyping

/-- The two directions of a structural edge: `forward` reads from the child to the parent. -/
structure Relation where
  forward : String
  inverse : String
  deriving DecidableEq

/-- A property that a domain object may carry. -/
structure PropertyType where
  identifier : String
  label : String
  description : String
  deriving DecidableEq

/-- How many values of a property the objects of a node type carry. -/
structure PropertyConstraint where
  property : PropertyTypeId
  cardinality : Cardinality
  deriving DecidableEq

/-- A named node type. Objects of its nodes are given the classes `domainTypes`. -/
structure NodeType where
  identifier : String
  label : String
  description : String
  domainTypes : List String
  fileAssociation : FileAssociation
  parentConstraints : List EdgeConstraint
  childConstraints : List EdgeConstraint
  propertyConstraints : List PropertyConstraint
  /-- Identifier of the profile that declares the type. -/
  domainProfile : String
  deriving DecidableEq

/-- Nodes of a type without domain types stay without an object. -/
def NodeType.isStructural (type : NodeType) : Bool :=
  type.domainTypes.isEmpty

/-- The type has a parent constraint that allows for no parent. -/
def NodeType.mayBeRoot (type : NodeType) : Bool :=
  type.parentConstraints.any EdgeConstraint.allowsNoParent

/-- A re-typing of a node from one type to another, with conditions on its edges. -/
structure Transform where
  label : String
  description : String
  source : NodeTypeId
  parentCondition : Option EdgeConstraint
  childConditions : List EdgeConstraint
  result : NodeTypeId
  deriving DecidableEq

/-- A profile: its names, and its elements in declaration order. -/
structure DomainProfile where
  identifier : String
  domain : String
  label : String
  relations : List Relation
  propertyTypes : List PropertyType
  nodeTypes : List NodeType
  transforms : List Transform
  deriving DecidableEq

namespace DomainProfile

variable (profile : DomainProfile)

/-! ## Elements by handle -/

/-- The node type of a handle. -/
def nodeType? (id : NodeTypeId) : Option NodeType :=
  profile.nodeTypes[id.index]?

/-- The relation of a handle. -/
def relation? (id : RelationId) : Option Relation :=
  profile.relations[id.index]?

/-- The property type of a handle. -/
def propertyType? (id : PropertyTypeId) : Option PropertyType :=
  profile.propertyTypes[id.index]?

/-- The transform of a handle. -/
def transform? (id : TransformId) : Option Transform :=
  profile.transforms[id.index]?

/-- The profile declares a node type under this handle. -/
def defines (id : NodeTypeId) : Bool :=
  (profile.nodeType? id).isSome

/-- The label of a type, or its handle where the profile does not know it. -/
def typeLabel (id : NodeTypeId) : String :=
  match profile.nodeType? id with
  | some type => type.label
  | none => id.display

/-! ## Handles by name -/

/-- The first node type with this identifier. -/
def findNodeType (identifier : String) : Option NodeTypeId :=
  (profile.nodeTypes.findIdx? (·.identifier = identifier)).map NodeTypeId.mk

/-- The first node type with this label. -/
def findNodeTypeByLabel (label : String) : Option NodeTypeId :=
  (profile.nodeTypes.findIdx? (·.label = label)).map NodeTypeId.mk

/-- The first transform with this label. -/
def findTransform (label : String) : Option TransformId :=
  (profile.transforms.findIdx? (·.label = label)).map TransformId.mk

/-- The first relation with this forward predicate. -/
def findRelation (forward : String) : Option RelationId :=
  (profile.relations.findIdx? (·.forward = forward)).map RelationId.mk

/-- The first property type with this identifier. -/
def findPropertyType (identifier : String) : Option PropertyTypeId :=
  (profile.propertyTypes.findIdx? (·.identifier = identifier)).map PropertyTypeId.mk

/-! ## Selections -/

/-- The handles of all node types in declaration order. -/
def typeIds : List NodeTypeId :=
  (List.range profile.nodeTypes.length).map NodeTypeId.mk

/-- The node types that accept a file kind, in declaration order. -/
def typesForKind (kind : Option FileKind) : List NodeTypeId :=
  profile.typeIds.filter fun id =>
    (profile.nodeType? id).any (·.fileAssociation.accepts kind)

/-- The transforms that start from a type, in declaration order. -/
def transformsFrom (source : NodeTypeId) : List TransformId :=
  ((List.range profile.transforms.length).map TransformId.mk).filter fun id =>
    (profile.transform? id).any (·.source = source)

/-- The members of a list at their first places only. -/
def firstOccurrences : List String → List String
  | [] => []
  | first :: rest => first :: (firstOccurrences rest).filter (· ≠ first)

/-- The domain types of the primary type and then of the others, each once; nothing when the
profile does not know one of the types. -/
def domainTypes? (primary : NodeTypeId) (secondary : List NodeTypeId) :
    Option (List String) :=
  ((primary :: secondary).mapM profile.nodeType?).map fun types =>
    firstOccurrences (types.flatMap NodeType.domainTypes)

/-! ## Constraints between types -/

/-- The parent constraint under which a node of the candidate type could sit below a parent of
the given type, or be a root when there is none. -/
def placement? (candidate : NodeTypeId) (parentType : Option NodeTypeId) :
    Option EdgeConstraint :=
  match profile.nodeType? candidate with
  | none => none
  | some type =>
    match parentType with
    | none => type.parentConstraints.find? EdgeConstraint.allowsNoParent
    | some parent =>
      type.parentConstraints.find? fun constraint =>
        !constraint.matchesNone &&
          (constraint.nodeType.isNone || constraint.nodeType = some parent)

/-- The child constraints of a type that a list of edges breaks, each with the number of edges
it covers. -/
def brokenChildConstraints (id : NodeTypeId) (edges : List Edge) :
    List (EdgeConstraint × Nat) :=
  match profile.nodeType? id with
  | none => []
  | some type =>
    (type.childConstraints.filter fun constraint => !constraint.holdsOnChildren edges).map
      fun constraint => (constraint, constraint.count edges)

end DomainProfile

end ContentTyping

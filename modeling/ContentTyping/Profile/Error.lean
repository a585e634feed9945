import ContentTyping.Profile.Basic

/-!
# Faults of a profile

What can be wrong with a declaration or with a finished draft of a profile, and the message for
each fault.
-/

namespace ContentTyping

/-- A handle of any kind, as it is named in messages. -/
inductive ProfileHandle where
  | nodeType (id : NodeTypeId)
  | relation (id : RelationId)
  | property (id : PropertyTypeId)
  deriving DecidableEq

/-- The written form of a handle. -/
def ProfileHandle.display : ProfileHandle → String
  | .nodeType id => id.display
  | .relation id => id.display
  | .property id => id.display

/-- Why a transform is not well formed. -/
inductive TransformFault where
  | unknownSource (id : NodeTypeId)
  | unknownResult (id : NodeTypeId)
  | sameType
  | incompatibleFiles (source result : FileAssociation)
  deriving DecidableEq

/-- The wording of a transform fault. -/
def TransformFault.message : TransformFault → String
  | .unknownSource id => s!"unknown source {id.display}"
  | .unknownResult id => s!"unknown result {id.display}"
  | .sameType => "source and result are the same type"
  | .incompatibleFiles source result =>
    s!"{source.display} nodes cannot become {result.display} nodes"

/-- A fault found while a profile is declared or completed. -/
inductive ProfileError where
  | invalidIdentifier (value : String)
  | duplicateIdentifier (value : String)
  | danglingReference (owner : String) (target : ProfileHandle)
  /-- The bounds of a rule on edges are out of order. -/
  | invalidEdgeCardinality (cardinality : Cardinality) (owner : String)
  /-- The bounds on the values of a property are out of order. -/
  | invalidPropertyCardinality (property owner : String) (cardinality : Cardinality)
  | invalidTransform (label : String) (fault : TransformFault)
  deriving DecidableEq

/-- The name of the kind of a fault. -/
def ProfileError.kind : ProfileError → String
  | .invalidIdentifier .. => "InvalidIdentifier"
  | .duplicateIdentifier .. => "DuplicateIdentifier"
  | .danglingReference .. => "DanglingReference"
  | .invalidEdgeCardinality .. => "InvalidCardinality"
  | .invalidPropertyCardinality .. => "InvalidCardinality"
  | .invalidTransform .. => "InvalidTransform"

/-- The message of a fault. -/
def ProfileError.message : ProfileError → String
  | .invalidIdentifier value => s!"Identifier is not an absolute IRI: {value}"
  | .duplicateIdentifier value => s!"Duplicate identifier: {value}"
  | .danglingReference owner target =>
    s!"Dangling reference: {owner} references {target.display}"
  | .invalidEdgeCardinality cardinality owner =>
    s!"Invalid cardinality: {cardinality.display} on {owner}"
  | .invalidPropertyCardinality property owner cardinality =>
    s!"Invalid cardinality: {property} on {owner}: {cardinality.display}"
  | .invalidTransform label fault => s!"Invalid transform '{label}': {fault.message}"

end ContentTyping

/-!
# Handles

Elements of a profile are addressed by their position in its declaration order. A handle is
only meaningful beside the profile that handed it out.
-/

namespace ContentTyping

/-- Position of a structural relation in its profile. -/
structure RelationId where
  index : Nat
  deriving DecidableEq, Hashable

/-- Position of a property type in its profile. -/
structure PropertyTypeId where
  index : Nat
  deriving DecidableEq, Hashable

/-- Position of a node type in its profile. -/
structure NodeTypeId where
  index : Nat
  deriving DecidableEq, Hashable

/-- Position of a transform in its profile. -/
structure TransformId where
  index : Nat
  deriving DecidableEq, Hashable

/-- The written form of a relation handle, such as `relation#0`. -/
def RelationId.display (id : RelationId) : String :=
  s!"relation#{id.index}"

/-- The written form of a property handle, such as `property#0`. -/
def PropertyTypeId.display (id : PropertyTypeId) : String :=
  s!"property#{id.index}"

/-- The written form of a node type handle, such as `type#4`. -/
def NodeTypeId.display (id : NodeTypeId) : String :=
  s!"type#{id.index}"

/-- The written form of a transform handle, such as `transform#0`. -/
def TransformId.display (id : TransformId) : String :=
  s!"transform#{id.index}"

end ContentTyping

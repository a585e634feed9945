import ContentTyping.Profile.Cardinality
import ContentTyping.Profile.Handle

/-!
# Constraints on structural edges

An edge joins a node to its parent or to one of its children. Seen from the node it consists of
the type at the other end and the relation recorded for it, both of which may be missing.
-/

namespace ContentTyping

/-- An edge as seen from one of its ends: the type at the other end and the recorded
relation. -/
structure Edge where
  nodeType : Option NodeTypeId
  relation : Option RelationId
  deriving DecidableEq, Hashable

/-- A rule on the edges of one side of a node. A missing type or relation stands for any;
with `matchesNone` the rule asks that no edge falls under the rest of it. The cardinality
only counts for child edges. -/
structure EdgeConstraint where
  nodeType : Option NodeTypeId
  relation : Option RelationId
  matchesNone : Bool
  cardinality : Cardinality := Cardinality.any
  deriving DecidableEq, Hashable

namespace EdgeConstraint

/-- An edge to a node of the type by the relation has to be there. -/
def allow (nodeType : NodeTypeId) (relation : RelationId) : EdgeConstraint :=
  ⟨some nodeType, some relation, false, Cardinality.any⟩

/-- No edge at all; as a parent constraint this says that the node may be a root. -/
def noEdge : EdgeConstraint :=
  ⟨none, none, true, Cardinality.any⟩

/-- No edge to a node of the type by the relation may be there. -/
def disallow (nodeType : NodeTypeId) (relation : RelationId) : EdgeConstraint :=
  ⟨some nodeType, some relation, true, Cardinality.any⟩

/-- The same rule with another cardinality. -/
def withCardinality (constraint : EdgeConstraint) (cardinality : Cardinality) :
    EdgeConstraint :=
  { constraint with cardinality := cardinality }

/-- A negative rule that is tied to no type, as roots need it. -/
def allowsNoParent (constraint : EdgeConstraint) : Bool :=
  constraint.matchesNone && constraint.nodeType.isNone

/-- Does the edge fall under the type and the relation of the rule? -/
def covers (constraint : EdgeConstraint) (edge : Edge) : Bool :=
  (constraint.nodeType.isNone || edge.nodeType = constraint.nodeType) &&
    (constraint.relation.isNone || edge.relation = constraint.relation)

/-- A positive rule needs a covered edge, a negative one needs that there is none. -/
def holdsOn (constraint : EdgeConstraint) (edges : List Edge) : Bool :=
  if constraint.matchesNone then !edges.any constraint.covers else edges.any constraint.covers

/-- The number of covered edges. -/
def count (constraint : EdgeConstraint) (edges : List Edge) : Nat :=
  edges.countP constraint.covers

/-- As a rule on children: the number of covered edges lies within the cardinality, or is zero
when the rule is negative. -/
def holdsOnChildren (constraint : EdgeConstraint) (edges : List Edge) : Bool :=
  if constraint.matchesNone then constraint.count edges = 0
  else constraint.cardinality.contains (constraint.count edges)

end EdgeConstraint

end ContentTyping

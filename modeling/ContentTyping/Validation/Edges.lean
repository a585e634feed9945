import ContentTyping.Profile.Basic
import ContentTyping.Tree.Walk

/-!
# Edges of nodes

The structural edges of a node as its tree records them, and the constraints of profiles read
on them.
-/

namespace ContentTyping

namespace ContentTree

variable (tree : ContentTree)

/-- The edge to the parent, when both ends are there. -/
def parentEdge? (id : NodeId) : Option Edge :=
  match tree.get? id with
  | none => none
  | some node =>
    match node.parent with
    | none => none
    | some parent =>
      (tree.get? parent).map fun above => ⟨above.nodeType, node.relation⟩

/-- The edges to the children that are not ignored. -/
def childEdges (id : NodeId) : List Edge :=
  (((tree.children id).filterMap tree.get?).filter (!·.ignored)).map fun child =>
    ⟨child.nodeType, child.relation⟩

end ContentTree

namespace EdgeConstraint

/-- Does the edge to the parent satisfy the constraint? -/
def matchesParent (constraint : EdgeConstraint) (tree : ContentTree) (id : NodeId) : Bool :=
  constraint.holdsOn (tree.parentEdge? id).toList

/-- Do the edges to the children satisfy the constraint? -/
def matchesChildren (constraint : EdgeConstraint) (tree : ContentTree) (id : NodeId) : Bool :=
  constraint.holdsOn (tree.childEdges id)

/-- The number of children whose edge falls under the constraint. -/
def countChildren (constraint : EdgeConstraint) (tree : ContentTree) (id : NodeId) : Nat :=
  constraint.count (tree.childEdges id)

end EdgeConstraint

namespace DomainProfile

variable (profile : DomainProfile)

/-- The first parent constraint of the node's type that holds. -/
def satisfiedParentConstraint? (tree : ContentTree) (id : NodeId) : Option Nat :=
  (tree.get? id).bind fun node =>
    node.nodeType.bind fun typeId =>
      (profile.nodeType? typeId).bind fun type =>
        type.parentConstraints.findIdx? fun constraint => constraint.matchesParent tree id

/-- One of the parent constraints of the node's type holds; never so for an untyped node. -/
def satisfiesParentConstraint (tree : ContentTree) (id : NodeId) : Bool :=
  (profile.satisfiedParentConstraint? tree id).isSome

end DomainProfile

end ContentTyping

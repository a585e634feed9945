import ContentTyping.Profile.EdgeConstraint
import ContentTyping.Tree.Node

/-!
# Violations

What a check can find wrong with a node, and the lines that report it.
-/

namespace ContentTyping

/-- What is wrong with a node. Known types are named by their label. -/
inductive Defect where
  | untyped
  | unknownType (id : NodeTypeId)
  | fileAssociationMismatch (label : String) (expected : FileAssociation)
      (actual : Option FileKind)
  | noParentConstraintSatisfied (label : String)
  | childConstraint (label : String) (constraint : EdgeConstraint) (actual : Nat)
  deriving DecidableEq

/-- A defect at a node, with the path of names that leads to the node. -/
structure Violation where
  node : NodeId
  path : String
  defect : Defect
  deriving DecidableEq

/-- The line for a violation; the root is written as a slash. -/
def Violation.display (violation : Violation) : String :=
  let place := if violation.path.isEmpty then "/" else violation.path
  match violation.defect with
  | .untyped => s!"{place}: untyped"
  | .unknownType id => s!"{place}: unknown type {id.display}"
  | .fileAssociationMismatch label expected _ =>
    s!"{place}: {label} requires a {expected.display} node"
  | .noParentConstraintSatisfied label => s!"{place}: no parent constraint of {label} holds"
  | .childConstraint label constraint actual =>
    if constraint.matchesNone then
      s!"{place}: {label} forbids {actual} matching child(ren)"
    else
      s!"{place}: {label} has {actual} matching child(ren), " ++
        s!"expected {constraint.cardinality.display}"

end ContentTyping

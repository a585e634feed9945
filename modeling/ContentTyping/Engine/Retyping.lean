import ContentTyping.Engine.Basic

/-!
# Transforms of nodes

A transform gives a node another primary type in its place. It is legal when the node has the
type from which it starts and the edges of the node meet its conditions. The object keeps its
name and its properties; only its classes change.
-/

namespace ContentTyping

/-- Are the conditions of the transform met by the node? Never so inside an ignored
subtree. -/
def Transform.isLegal (transform : Transform) (tree : ContentTree) (id : NodeId) : Bool :=
  match tree.get? id with
  | none => false
  | some node =>
    node.nodeType = some transform.source && !tree.isExcluded id &&
      transform.parentCondition.all (·.matchesParent tree id) &&
      transform.childConditions.all (·.matchesChildren tree id)

/-- The transforms that are legal for a node, in declaration order. -/
def DomainProfile.legalTransforms (profile : DomainProfile) (tree : ContentTree)
    (id : NodeId) : List TransformId :=
  match (tree.get? id).bind Node.nodeType with
  | none => []
  | some source =>
    (profile.transformsFrom source).filter fun candidate =>
      (profile.transform? candidate).any (·.isLegal tree id)

namespace ProfileEngine

variable (engine : ProfileEngine)

/-- The transforms that are legal for a node. -/
def legalTransforms (tree : ContentTree) (id : NodeId) : Except Error (List TransformId) := do
  engine.checkBinding tree
  let _ ← tree.node id
  pure (engine.profile.legalTransforms tree id)

section Operations

variable {S : Type} [ObjectStore S]

/-- Re-type a node by a transform that is legal for it. -/
def applyTransform (id : NodeId) (transform : TransformId) : Operation S Unit :=
  fun workspace =>
    match engine.checkBinding workspace.tree, workspace.tree.node id with
    | .error error, _ => (.error error, workspace)
    | .ok _, .error error => (.error error, workspace)
    | .ok _, .ok node =>
      match engine.profile.transform? transform with
      | none => (.error (.illegalTransform node.identifier transform.display), workspace)
      | some definition =>
        if definition.isLegal workspace.tree id then
          engine.syncObject id
            (workspace.modifyNode id fun node =>
              { node with nodeType := some definition.result })
        else (.error (.illegalTransform node.identifier definition.label), workspace)

/-- The name of a node in messages. -/
def nodeName (tree : ContentTree) (id : NodeId) : String :=
  match tree.get? id with
  | some node => node.identifier
  | none => id.display

/-- Re-type a node by the transform with a label. -/
def applyTransformByLabel (id : NodeId) (label : String) : Operation S Unit :=
  fun workspace =>
    match engine.profile.findTransform label with
    | none => (.error (.illegalTransform (nodeName workspace.tree id) label), workspace)
    | some transform => engine.applyTransform id transform workspace

end Operations

end ProfileEngine

end ContentTyping

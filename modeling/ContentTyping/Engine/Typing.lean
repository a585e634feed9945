import ContentTyping.Engine.Basic

/-!
# Typing of single nodes

The types that a node could be given, and the operations that set them by hand. Only the file
kind is enforced; the neighbours are not looked at again.
-/

namespace ContentTyping.ProfileEngine

variable (engine : ProfileEngine)

/-! ## Eligible types -/

/-- The typed children that are not ignored, with the relation recorded for each. -/
def typedChildren (tree : ContentTree) (id : NodeId) :
    List (NodeTypeId × Option RelationId) :=
  (((tree.children id).filterMap tree.get?).filter (!·.ignored)).filterMap fun child =>
    child.nodeType.map fun type => (type, child.relation)

/-- Would a child of this type and relation still satisfy one of its parent constraints below
the candidate? -/
def suitsChild (candidate : NodeTypeId) (child : NodeTypeId × Option RelationId) : Bool :=
  (engine.profile.nodeType? child.1).any fun type =>
    type.parentConstraints.any (·.holdsOn [⟨some candidate, child.2⟩])

/-- The types that accept the node's file kind, may stand below the type of its parent, and
leave every typed child in its place. Below an untyped parent there are none. -/
def eligibleTypes (tree : ContentTree) (id : NodeId) : Except Error (List NodeTypeId) := do
  engine.checkBinding tree
  let node ← tree.node id
  let fitting (parentType : Option NodeTypeId) : List NodeTypeId :=
    (engine.profile.typesForKind node.fileKind).filter fun candidate =>
      (engine.profile.placement? candidate parentType).isSome &&
        (typedChildren tree id).all (engine.suitsChild candidate)
  match node.parent with
  | none => pure (fitting none)
  | some parent =>
    let above ← tree.node parent
    match above.nodeType with
    | none => pure []
    | some type => pure (fitting (some type))

/-! ## Setting types -/

section Operations

variable {S : Type} [ObjectStore S]

/-- The relation to record for a type below the present parent, when one is to be recorded. -/
def relationFor (tree : ContentTree) (node : Node) (type : NodeTypeId) :
    Option (Option RelationId) :=
  match node.parent with
  | none => some none
  | some parent =>
    match (tree.get? parent).bind Node.nodeType with
    | none => none
    | some parentType =>
      (engine.profile.placement? type (some parentType)).map EdgeConstraint.relation

/-- A node with a new primary type, and with a new relation when there is one. -/
def retype (type : NodeTypeId) (relation : Option (Option RelationId)) (node : Node) : Node :=
  { node with nodeType := some type, relation := relation.getD node.relation }

/-- What is checked before a type is given to a node: the type and the node are known and the
file kind fits. -/
def checkFit (tree : ContentTree) (id : NodeId) (type : NodeTypeId)
    (breach : NodeType → Breach) : Except Error Node := do
  engine.checkBinding tree
  let definition ← engine.definition type
  let node ← tree.node id
  if definition.fileAssociation.accepts node.fileKind then pure node
  else throw (.constraintViolation node.identifier (breach definition))

/-- Give a node a primary type. The relation to the parent is recorded anew when the type has a
placement below the parent's type. -/
def setNodeType (id : NodeId) (type : NodeTypeId) : Operation S Unit := fun workspace =>
  match engine.checkFit workspace.tree id type
      fun definition => .typeRefused definition.label definition.fileAssociation with
  | .error error => (.error error, workspace)
  | .ok node =>
    let relation := engine.relationFor workspace.tree node type
    match engine.syncObject id (workspace.modifyNode id (retype type relation)) with
    | (.error error, last) => (.error error, last)
    | (.ok _, last) => (.ok (), last.bindTo engine.profile.identifier)

/-- Give a node a further type, unless it has it. -/
def addSubType (id : NodeId) (type : NodeTypeId) : Operation S Unit := fun workspace =>
  match engine.checkFit workspace.tree id type
      fun definition => .subTypeRefused definition.label definition.fileAssociation with
  | .error error => (.error error, workspace)
  | .ok node =>
    if node.nodeType = some type ∨ type ∈ node.subTypes then (.ok (), workspace)
    else
      engine.syncObject id
        (workspace.modifyNode id fun node => { node with subTypes := node.subTypes ++ [type] })

/-- Take a further type from a node. -/
def removeSubType (id : NodeId) (type : NodeTypeId) : Operation S Unit := fun workspace =>
  match engine.checkBinding workspace.tree, workspace.tree.node id with
  | .error error, _ => (.error error, workspace)
  | .ok _, .error error => (.error error, workspace)
  | .ok _, .ok node =>
    if type ∈ node.subTypes then
      engine.syncObject id
        (workspace.modifyNode id fun node =>
          { node with subTypes := node.subTypes.filter (· ≠ type) })
    else (.ok (), workspace)

end Operations

/-! ## Properties -/

/-- A property of which the node's object has too few or too many values. -/
structure PropertyViolation where
  node : NodeId
  property : PropertyTypeId
  /-- The identifier of the property. -/
  identifier : String
  cardinality : Cardinality
  actual : Nat
  deriving DecidableEq

/-- The line for a property violation. -/
def PropertyViolation.display (violation : PropertyViolation) : String :=
  s!"{violation.node.display}: {violation.identifier} has {violation.actual} value(s), " ++
    s!"expected {violation.cardinality.display}"

section Properties

variable {S : Type} [ObjectStore S]

/-- The number of values that the node's object has of a property; none without an object. -/
def valueCount (store : S) (node : Node) (identifier : String) : Except Error Nat :=
  match node.object with
  | none => .ok 0
  | some object => ObjectStore.propertyCount store object identifier

/-- One property constraint read on a node. -/
def checkProperty (profile : DomainProfile) (store : S) (id : NodeId) (node : Node)
    (constraint : PropertyConstraint) : Except Error (Option PropertyViolation) := do
  match profile.propertyType? constraint.property with
  | none => throw .outOfRange
  | some property =>
    let actual ← valueCount store node property.identifier
    if constraint.cardinality.contains actual then pure none
    else
      pure (some
        ⟨id, constraint.property, property.identifier, constraint.cardinality, actual⟩)

/-- The property constraints of a type that the node's object does not meet. -/
def propertyViolations (profile : DomainProfile) (store : S) (tree : ContentTree)
    (id : NodeId) (candidate : NodeTypeId) : Except Error (List PropertyViolation) := do
  let node ← tree.node id
  match profile.nodeType? candidate with
  | none => pure []
  | some type =>
    let found ← type.propertyConstraints.mapM (checkProperty profile store id node)
    pure (found.filterMap fun violation => violation)

/-- The property constraints of a known type that the node's object does not meet. -/
def validateProperties (store : S) (tree : ContentTree) (id : NodeId)
    (candidate : NodeTypeId) : Except Error (List PropertyViolation) := do
  engine.checkBinding tree
  let _ ← engine.definition candidate
  propertyViolations engine.profile store tree id candidate

end Properties

end ContentTyping.ProfileEngine

import ContentTyping.Engine.Basic
import ContentTyping.Engine.Plan

/-!
# Assignment

A plan for a subtree is made without touching the tree, and then written: types and relations
first, the domain objects after them.
-/

namespace ContentTyping

/-- What a successful assignment has done. -/
structure AssignmentReport where
  placements : List Placement
  /-- The number of placed nodes that have an object afterwards. -/
  objects : Nat
  deriving DecidableEq

namespace ProfileEngine

variable (engine : ProfileEngine) {S : Type} [ObjectStore S]

/-! ## Writing placements -/

/-- Record the type and the relation of a placement. -/
def writePlacement (tree : ContentTree) (placement : Placement) : ContentTree :=
  tree.modify placement.node fun node =>
    { node with nodeType := some placement.nodeType, relation := placement.relation }

/-- Take the type and the relation from a node. -/
def eraseType (tree : ContentTree) (id : NodeId) : ContentTree :=
  tree.modify id fun node => { node with nodeType := none, relation := none }

/-- Bring the objects of several nodes in line, up to the first failure. -/
def syncObjects : List NodeId → Operation S Unit
  | [], workspace => (.ok (), workspace)
  | id :: rest, workspace =>
    match engine.syncObject id workspace with
    | (.ok _, next) => syncObjects rest next
    | (.error error, next) => (.error error, next)

/-- Write placements, leave other nodes without a type, and bring the objects in line. The tree
is bound to the profile when there was something to place. -/
def writePlacements (placements : List Placement) (untyped : List NodeId) :
    Operation S Unit := fun workspace =>
  let typed := placements.foldl writePlacement workspace.tree
  let written := untyped.foldl eraseType typed
  match engine.syncObjects (placements.map Placement.node)
      { workspace with tree := written } with
  | (.error error, last) => (.error error, last)
  | (.ok _, last) =>
    (.ok (), if placements.isEmpty then last else last.bindTo engine.profile.identifier)

/-! ## Assignment -/

/-- The type of the parent of a node that is to be assigned; a parent has to have a type of the
profile. -/
def parentTypeOf (tree : ContentTree) (node : Node) : Except Error (Option NodeTypeId) := do
  match node.parent with
  | none => pure none
  | some parent =>
    let above ← tree.node parent
    match above.nodeType with
    | none => throw (.noEligibleType node.identifier .parentUntyped)
    | some type =>
      let _ ← engine.definition type
      pure (some type)

/-- Carry out a plan. -/
def carryOut (plan : Plan) : Operation S AssignmentReport := fun workspace =>
  match plan with
  | .complete placements =>
    match engine.writePlacements placements [] workspace with
    | (.error error, last) => (.error error, last)
    | (.ok _, last) =>
      let objects :=
        placements.countP fun placement =>
          (last.tree.get? placement.node).any (·.object.isSome)
      (.ok ⟨placements, objects⟩, last)
  | .blocked placements untyped blocked obstacle =>
    match workspace.tree.node blocked with
    | .error error => (.error error, workspace)
    | .ok node =>
      if engine.rollbackOnFailure then
        (.error (.noEligibleType node.identifier obstacle), workspace)
      else
        match engine.writePlacements placements untyped workspace with
        | (.error error, last) => (.error error, last)
        | (.ok _, last) => (.error (.noEligibleType node.identifier obstacle), last)

/-- Assign types to a node and its active subtree. Types that are there are decided anew; an
ignored node is left alone. -/
def assignNodeTypes (start : NodeId) : Operation S AssignmentReport := fun workspace =>
  match engine.checkBinding workspace.tree, workspace.tree.node start with
  | .error error, _ => (.error error, workspace)
  | .ok _, .error error => (.error error, workspace)
  | .ok _, .ok node =>
    if workspace.tree.isExcluded start then (.ok ⟨[], 0⟩, workspace)
    else
      match engine.parentTypeOf workspace.tree node with
      | .error error => (.error error, workspace)
      | .ok parentType =>
        engine.carryOut (engine.profile.plan workspace.tree start parentType) workspace

/-- Assign types to the whole tree. -/
def assignTree : Operation S AssignmentReport := fun workspace =>
  match workspace.tree.root with
  | none => (.error (.invalidTreeEdit .noRoot), workspace)
  | some root => engine.assignNodeTypes root workspace

end ProfileEngine

end ContentTyping

import ContentTyping.Store.Basic
import ContentTyping.Validation.Report

/-!
# Engines

An engine applies one profile to trees and keeps the domain objects of their nodes in line with
the types. It works on a tree, a store and a supply of names, and gives them back also when it
fails.
-/

namespace ContentTyping

/-- A profile and the policy on failed assignments. -/
structure ProfileEngine where
  profile : DomainProfile
  /-- Leave the tree as it was when no assignment is found. -/
  rollbackOnFailure : Bool := false

/-- What the operations of an engine work on. -/
structure Workspace (S : Type) where
  tree : ContentTree
  store : S
  supply : Supply

/-- An operation: a result or an error, and the workspace afterwards. -/
abbrev Operation (S α : Type) := Workspace S → Except Error α × Workspace S

namespace Workspace

variable {S : Type}

/-- Change one node of the tree. -/
def modifyNode (workspace : Workspace S) (id : NodeId) (change : Node → Node) : Workspace S :=
  { workspace with tree := workspace.tree.modify id change }

/-- Bind the tree to a profile. -/
def bindTo (workspace : Workspace S) (identifier : String) : Workspace S :=
  { workspace with tree := workspace.tree.bind identifier }

end Workspace

namespace ProfileEngine

variable (engine : ProfileEngine)

/-! ## Guards -/

/-- A tree that is typed by another profile is refused. -/
def checkBinding (tree : ContentTree) : Except Error Unit :=
  match tree.profile with
  | none => .ok ()
  | some bound =>
    if bound = engine.profile.identifier then .ok ()
    else .error (.profileMismatch bound engine.profile.identifier)

/-- A node type of the profile. -/
def definition (id : NodeTypeId) : Except Error NodeType :=
  match engine.profile.nodeType? id with
  | some type => .ok type
  | none => .error (.unknownNodeType id engine.profile.identifier)

/-! ## Domain objects -/

section Objects

variable {S : Type} [ObjectStore S]

/-- Give an object its classes, and note it on the node when the store has taken them. -/
def recordTypes (id : NodeId) (object : String) (types : List String) : Operation S Unit :=
  fun workspace =>
    match ObjectStore.setTypes workspace.store object types with
    | (.error error, store) => (.error error, { workspace with store := store })
    | (.ok _, store) =>
      (.ok (),
        { workspace with store := store }.modifyNode id fun node =>
          { node with object := some object })

/-- Bring the object of a node in line with its types. Types that the profile does not know do
not count; a node without a known primary type keeps its object as it is. An object is only
made when there are classes to give it. -/
def syncObject (id : NodeId) : Operation S Unit := fun workspace =>
  match workspace.tree.get? id with
  | none => (.error (.unknownNode id), workspace)
  | some node =>
    match node.nodeType.filter engine.profile.defines with
    | none => (.ok (), workspace)
    | some primary =>
      match engine.profile.domainTypes? primary
          (node.subTypes.filter engine.profile.defines) with
      | none => (.error .outOfRange, workspace)
      | some types =>
        match node.object with
        | some object => recordTypes id object types workspace
        | none =>
          if types.isEmpty then (.ok (), workspace)
          else
            match ObjectStore.createOrReuse workspace.store workspace.supply node with
            | (.error error, store, supply) =>
              (.error error, { workspace with store := store, supply := supply })
            | (.ok object, store, supply) =>
              recordTypes id object types
                { workspace with store := store, supply := supply }

end Objects

/-! ## Reports -/

/-- The report on a node and its active subtree. -/
def validationReport (tree : ContentTree) (start : NodeId) : Except Error ValidationReport := do
  engine.checkBinding tree
  let _ ← tree.node start
  pure (engine.profile.validationReport tree start)

/-- The report on a node and its neighbours. -/
def revalidateAround (tree : ContentTree) (id : NodeId) : Except Error ValidationReport := do
  engine.checkBinding tree
  let _ ← tree.node id
  pure (engine.profile.revalidateAround tree id)

/-- Nothing is wrong in a subtree; a tree that the engine refuses is never valid. -/
def isValid (tree : ContentTree) (start : NodeId) : Bool :=
  match engine.validationReport tree start with
  | .ok report => report.isValid
  | .error _ => false

end ProfileEngine

end ContentTyping

import ContentTyping.Error
import ContentTyping.Tree.Node
import Std.Data.ExtTreeMap

/-!
# Content trees

Nodes live in numbered slots and refer to each other by slot. A slot that has been emptied is
never filled again, so that a node id means the same node for as long as it means any.
-/

namespace ContentTyping

/-- A tree of content nodes. `index` leads from the identifier of every node to its slot; the
identifier of a node in the tree is not supposed to change. -/
structure ContentTree where
  nodes : Array (Option Node)
  root : Option NodeId
  /-- The profile whose types the nodes carry. -/
  profile : Option String
  index : Std.ExtTreeMap String NodeId

namespace ContentTree

/-- The tree without nodes. -/
def empty : ContentTree := ⟨#[], none, none, ∅⟩

variable (tree : ContentTree)

/-- The node in a slot. -/
def get? (id : NodeId) : Option Node :=
  (tree.nodes[id.index]?).join

/-- There is a node in the slot. -/
def contains (id : NodeId) : Bool :=
  (tree.get? id).isSome

/-- The node in a slot, or the error that there is none. -/
def node (id : NodeId) : Except Error Node :=
  match tree.get? id with
  | some node => .ok node
  | none => .error (.unknownNode id)

/-- The parent of a node. -/
def parent? (id : NodeId) : Option NodeId :=
  (tree.get? id).bind Node.parent

/-- The children of a node, none for an empty slot. -/
def children (id : NodeId) : List NodeId :=
  match tree.get? id with
  | some node => node.children
  | none => []

/-- Change the node in a slot; an empty slot stays empty. -/
def modify (id : NodeId) (change : Node → Node) : ContentTree :=
  { tree with nodes := tree.nodes.modify id.index (Option.map change) }

/-- Number of identifiers in the index. -/
def size : Nat :=
  tree.index.size

/-- There is no root. -/
def isEmpty : Bool :=
  tree.root.isNone

/-- The ids of all slots that hold a node, in slot order. -/
def liveIds : List NodeId :=
  ((List.range tree.nodes.size).map NodeId.mk).filter tree.contains

/-- The slot that the index gives for an identifier, if its node bears that identifier. -/
def findByIdentifier? (identifier : String) : Option NodeId :=
  match tree.index[identifier]? with
  | none => none
  | some id =>
    if (tree.get? id).any (·.identifier = identifier) then some id else none

/-- Bind the tree to a profile. -/
def bind (identifier : String) : ContentTree :=
  { tree with profile := some identifier }

/-- Forget every type, relation and object, and the profile. -/
def clearTyping : ContentTree :=
  { tree with
    nodes := tree.nodes.map (Option.map Node.clearTyping)
    profile := none }

/-- The index of a row of slots; of two nodes with one identifier the later one counts. -/
def indexOf (nodes : Array (Option Node)) : Std.ExtTreeMap String NodeId :=
  (nodes.toList.zipIdx).foldl
    (fun index slot =>
      match slot.1 with
      | some node => index.insert node.identifier ⟨slot.2⟩
      | none => index)
    ∅

/-- The tree over a row of slots, with the index that belongs to it. -/
def ofSlots (nodes : Array (Option Node)) (root : Option NodeId) (profile : Option String) :
    ContentTree :=
  ⟨nodes, root, profile, indexOf nodes⟩

end ContentTree

end ContentTyping

import ContentTyping.Tree.Basic

/-!
# Walks through a tree

Walks downwards list nodes depth first, every node before its children and the children in
their order. A walk goes at most as many steps deep as there are slots, which in a tree without
cycles is no limit.
-/

namespace ContentTyping.ContentTree

variable (tree : ContentTree)

/-- A node and what lies below it, to a number of steps. -/
def descend : Nat → NodeId → List NodeId
  | 0, id => [id]
  | steps + 1, id => id :: (tree.children id).flatMap (descend steps)

/-- A node and all below it. Ids that a child list names are listed even where the slot is
empty; an empty slot to start from gives nothing. -/
def descendants (id : NodeId) : List NodeId :=
  if tree.contains id then tree.descend tree.nodes.size id else []

/-- What lies above a node, to a number of steps. -/
def ascend : Nat → NodeId → List NodeId
  | 0, _ => []
  | steps + 1, id =>
    match tree.parent? id with
    | none => []
    | some parent => parent :: ascend steps parent

/-- The ancestors of a node, the nearest first. -/
def ancestors (id : NodeId) : List NodeId :=
  tree.ascend (tree.nodes.size + 1) id

/-- The number of ancestors. -/
def depth (id : NodeId) : Nat :=
  (tree.ancestors id).length

/-- Is the first node the second one or above it? -/
def isAncestorOrSelf (ancestor id : NodeId) : Bool :=
  ancestor = id || (tree.ancestors id).contains ancestor

/-! ## Active nodes -/

/-- There is a node in the slot and it is not ignored. -/
def isActive (id : NodeId) : Bool :=
  (tree.get? id).any (!·.ignored)

/-- The children that are not ignored. -/
def activeChildren (id : NodeId) : List NodeId :=
  (tree.children id).filter tree.isActive

/-- A node and what lies below it, to a number of steps, without ignored subtrees. -/
def descendActive : Nat → NodeId → List NodeId
  | 0, _ => []
  | steps + 1, id =>
    if tree.isActive id then id :: (tree.children id).flatMap (descendActive steps) else []

/-- A node and all below it, without ignored subtrees; nothing when the node is ignored. -/
def activeSubtree (id : NodeId) : List NodeId :=
  tree.descendActive (tree.nodes.size + 1) id

/-- Is the node or one of its ancestors ignored? -/
def isExcluded (id : NodeId) : Bool :=
  (id :: tree.ancestors id).any fun above => (tree.get? above).any Node.ignored

end ContentTyping.ContentTree

import ContentTyping.Identifier
import ContentTyping.Tree.Walk

/-!
# Edits of a tree

Adding, removing, moving and copying of nodes. An edit that is refused leaves the tree as it
was, as long as the links between its nodes are in order; where they are not, removal and copying
can fail on the way.
-/

namespace ContentTyping.ContentTree

/-! ## Adding -/

/-- Put a node into the next slot. It starts without children. -/
def insert (tree : ContentTree) (node : Node) (parent : Option NodeId) :
    NodeId × ContentTree :=
  let id : NodeId := ⟨tree.nodes.size⟩
  (id,
    { tree with
      nodes := tree.nodes.push (some { node with parent := parent, children := [] })
      index := tree.index.insert node.identifier id })

/-- The tree that consists of one root node. -/
def withRoot (node : Node) : NodeId × ContentTree :=
  let inserted := empty.insert node none
  (inserted.1, { inserted.2 with root := some inserted.1 })

/-- Put an id at the end of a node's children. -/
def appendChild (tree : ContentTree) (parent child : NodeId) : ContentTree :=
  tree.modify parent fun node => { node with children := node.children ++ [child] }

/-- Take an id out of a node's children. -/
def dropChild (tree : ContentTree) (parent child : NodeId) : ContentTree :=
  tree.modify parent fun node => { node with children := node.children.filter (· ≠ child) }

/-- Add a node as the last child of another; its identifier must not be in the index. -/
def addChild (tree : ContentTree) (parent : NodeId) (node : Node) :
    Except Error (NodeId × ContentTree) := do
  let _ ← tree.node parent
  if tree.index.contains node.identifier then
    throw (.invalidTreeEdit (.identifierTaken node.identifier))
  else
    let inserted := tree.insert node (some parent)
    pure (inserted.1, inserted.2.appendChild parent inserted.1)

/-! ## Removing -/

/-- Take the slot of a removed node out of the index: its own entry, or every entry that leads
to the slot when the node's identifier leads elsewhere. -/
def unindex (tree : ContentTree) (identifier : String) (id : NodeId) :
    Std.ExtTreeMap String NodeId :=
  if tree.index[identifier]? = some id then tree.index.erase identifier
  else tree.index.filter fun _ slot => slot ≠ id

/-- Empty slots one after the other and collect the nodes that were in them, without their
links. A number beyond the last slot ends this with an error. -/
def takeAll : List NodeId → ContentTree → Except Error (List Node) × ContentTree
  | [], tree => (.ok [], tree)
  | id :: rest, tree =>
    if tree.nodes.size ≤ id.index then (.error .outOfRange, tree)
    else
      match tree.get? id with
      | none => takeAll rest tree
      | some node =>
        let emptied : ContentTree :=
          { tree with
            nodes := tree.nodes.setIfInBounds id.index none
            index := tree.unindex node.identifier id }
        match takeAll rest emptied with
        | (.ok removed, last) =>
          (.ok ({ node with parent := none, children := [] } :: removed), last)
        | (.error error, last) => (.error error, last)

/-- The tree without its root link and profile, as it is while the root is removed. -/
def withoutRoot (tree : ContentTree) : ContentTree :=
  { tree with root := none, profile := none }

/-- Remove a node and all below it, and give out the removed nodes in the order of the walk.
A tree that loses its root loses its profile too. -/
def removeSubtree (tree : ContentTree) (id : NodeId) :
    Except Error (List Node) × ContentTree :=
  match tree.get? id with
  | none => (.error (.unknownNode id), tree)
  | some node =>
    match node.parent with
    | none =>
      let detached := tree.withoutRoot
      takeAll (detached.descendants id) detached
    | some parent =>
      if tree.contains parent then
        let detached := tree.dropChild parent id
        takeAll (detached.descendants id) detached
      else (.error (.unknownNode parent), tree)

/-! ## Moving -/

/-- Make a node the last child of another one that does not lie below it. -/
def moveNode (tree : ContentTree) (id newParent : NodeId) : Except Error ContentTree := do
  let node ← tree.node id
  match node.parent with
  | none => throw (.invalidTreeEdit .rootMoved)
  | some oldParent =>
    let _ ← tree.node newParent
    if tree.isAncestorOrSelf id newParent then
      throw (.invalidTreeEdit (.movedBelowItself id))
    else
      let _ ← tree.node oldParent
      pure (((tree.dropChild oldParent id).appendChild newParent id).modify id
        fun moved => { moved with parent := some newParent })

/-! ## Copying -/

/-- What copying works on: the tree and the names for the copies. -/
structure Copying where
  tree : ContentTree
  supply : Supply

/-- Copies below one target, child after child, with the given way of copying one of them. -/
def copyEach (copyOne : NodeId → Copying → Except Error NodeId × Copying) :
    List NodeId → Copying → Except Error Unit × Copying
  | [], state => (.ok (), state)
  | source :: rest, state =>
    match copyOne source state with
    | (.ok _, next) => copyEach copyOne rest next
    | (.error error, next) => (.error error, next)

/-- Copy a node to the end of the target's children, and below the copy, in order, those of its
children that belong to the originals. -/
def copyBelow (originals : List NodeId) :
    Nat → NodeId → NodeId → Copying → Except Error NodeId × Copying
  | 0, _, source, state => (.error (.unknownNode source), state)
  | steps + 1, target, source, state =>
    match state.tree.get? source with
    | none => (.error (.unknownNode source), state)
    | some node =>
      let name := state.supply.draw
      let inserted :=
        state.tree.insert { node with identifier := name.1, object := none } (some target)
      let copied : Copying := ⟨inserted.2.appendChild target inserted.1, name.2⟩
      let below := node.children.filter (originals.contains ·)
      match copyEach (copyBelow originals steps inserted.1) below copied with
      | (.ok _, last) => (.ok inserted.1, last)
      | (.error error, last) => (.error error, last)

/-- Copy a node and all below it as they are to the end of the new parent's children. Copies
get fresh identifiers and no object; a target inside the subtree is not copied twice. -/
def copySubtree (tree : ContentTree) (supply : Supply) (id newParent : NodeId) :
    Except Error NodeId × Copying :=
  let state : Copying := ⟨tree, supply⟩
  match tree.get? id, tree.get? newParent with
  | none, _ => (.error (.unknownNode id), state)
  | some _, none => (.error (.unknownNode newParent), state)
  | some _, some _ =>
    let originals := tree.descendants id
    copyBelow originals (tree.nodes.size + originals.length + 1) newParent id state

end ContentTyping.ContentTree

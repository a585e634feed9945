import Mathlib.Data.Set.Image
import ContentTyping.Proofs.Engine.TypingOnly

/-!
# Renamed objects

Edits do not look at the objects of nodes. So an edit of a tree in which all objects have been renamed
goes as in the tree itself, and leaves the edited tree with its objects renamed. In particular an edit
makes no object up, as a renaming that changes none before it changes none afterwards.
-/

namespace ContentTyping

/-- The node with another name for its object, if it has one. -/
def Node.renameObject (rename : String → String) (node : Node) : Node :=
  { node with object := node.object.map rename }

theorem Node.renameObject_eq_self {node : Node} (noObject : node.object = none)
    (rename : String → String) : node.renameObject rename = node := by
  rw [renameObject, noObject, Option.map_none, ← noObject]

namespace ContentTree

/-- The tree with other names for all objects. -/
def renameObjects (rename : String → String) (tree : ContentTree) : ContentTree :=
  { tree with nodes := tree.nodes.map (Option.map (Node.renameObject rename)) }

variable {rename : String → String} {tree : ContentTree}

theorem get?_renameObjects (id : NodeId) :
    (tree.renameObjects rename).get? id = (tree.get? id).map (Node.renameObject rename) := by
  rw [get?, renameObjects, Array.getElem?_map, get?]
  cases tree.nodes[id.index]? with
  | none => rfl
  | some slot => cases slot <;> rfl

theorem size_renameObjects : (tree.renameObjects rename).nodes.size = tree.nodes.size :=
  Array.size_map

theorem objectsOnly_renameObjects (rename : String → String) (tree : ContentTree) :
    ObjectsOnly tree (tree.renameObjects rename) where
  nodes :=
    { size := size_renameObjects
      get id := by
        rw [get?_renameObjects, Option.map_map]
        rfl }
  root := rfl
  profile := rfl
  index := rfl

theorem links_renameObjects : AgreeOn Node.links (tree.renameObjects rename) tree :=
  (objectsOnly_renameObjects rename tree).nodes.ignoringObjects fun _ => rfl

theorem node_renameObjects (id : NodeId) :
    (tree.renameObjects rename).node id = (tree.node id).map (Node.renameObject rename) := by
  rw [node, node, get?_renameObjects]
  cases tree.get? id <;> rfl

theorem any_object_renameObjects (id : NodeId) :
    ((tree.renameObjects rename).get? id).any (·.object.isSome) =
      (tree.get? id).any (·.object.isSome) := by
  rw [get?_renameObjects, Option.any_map]
  simp only [Node.renameObject, Option.isSome_map]

theorem renameObjects_modify (id : NodeId) {change other : Node → Node}
    (natural : ∀ node, other (node.renameObject rename) = (change node).renameObject rename) :
    (tree.renameObjects rename).modify id other = (tree.modify id change).renameObjects rename := by
  refine ext_get? ?_ (fun here => ?_) rfl rfl rfl
  · rw [size_modify, size_renameObjects, size_renameObjects, size_modify]
  · rw [get?_modify, get?_renameObjects, get?_renameObjects, get?_modify]
    split
    · rw [Option.map_map, Option.map_map]
      exact congrArg (Option.map · (tree.get? here)) (funext natural)
    · rfl

/-- No node has an object. -/
def WithoutObjects (tree : ContentTree) : Prop :=
  ∀ id node, tree.get? id = some node → node.object = none

theorem WithoutObjects.renameObjects_eq (withoutObjects : tree.WithoutObjects)
    (rename : String → String) : tree.renameObjects rename = tree := by
  refine ext_get? size_renameObjects (fun id => ?_) rfl rfl rfl
  rw [get?_renameObjects]
  cases found : tree.get? id with
  | none =>
      rfl
  | some node =>
      rw [Option.map_some, Node.renameObject_eq_self (withoutObjects id node found)]

/-- The objects of all nodes are among these. -/
def HoldsOnly (tree : ContentTree) (objects : Set String) : Prop :=
  ∀ id node object, tree.get? id = some node → node.object = some object → object ∈ objects

section Objects

variable {objects others : Set String}

theorem WithoutObjects.holdsOnly (withoutObjects : tree.WithoutObjects) : tree.HoldsOnly objects := by
  intro id node object found isObject
  rw [withoutObjects id node found] at isObject
  exact absurd isObject (by simp)

theorem HoldsOnly.mono (holdsOnly : tree.HoldsOnly objects) (subset : objects ⊆ others) :
    tree.HoldsOnly others :=
  fun id node object found isObject => subset (holdsOnly id node object found isObject)

theorem HoldsOnly.of_agreeOn {other : ContentTree} (holdsOnly : tree.HoldsOnly objects)
    (agree : AgreeOn Node.object other tree) : other.HoldsOnly objects := by
  intro id node object found isObject
  obtain ⟨before, wasFound, sameObject⟩ := agree.symm.exists_get? found
  exact holdsOnly id before object wasFound (sameObject.trans isObject)

/-- A tree holds only certain objects when it stays as it is however the others are renamed. -/
theorem holdsOnly_iff :
    tree.HoldsOnly objects ↔
      ∀ rename : String → String, Set.EqOn rename id objects → tree.renameObjects rename = tree := by
  constructor
  · intro holdsOnly rename fixed
    refine ext_get? size_renameObjects (fun id => ?_) rfl rfl rfl
    rw [get?_renameObjects]
    cases found : tree.get? id with
    | none =>
        rfl
    | some node =>
        have sameObject : node.object.map rename = node.object := by
          cases isObject : node.object with
          | none => rfl
          | some object => exact congrArg some (fixed (holdsOnly id node object found isObject))
        rw [Option.map_some, Node.renameObject, sameObject]
  · intro unchanged id node object found isObject
    by_contra outside
    classical
    let rename (name : String) : String := if name ∈ objects then name else name ++ "+"
    have renamed := congrArg (get? · id) (unchanged rename fun name among => if_pos among)
    have sameNode : node.renameObject rename = node := by
      rwa [get?_renameObjects, found, Option.map_some, Option.some.injEq] at renamed
    have sameObject := congrArg Node.object sameNode
    rw [Node.renameObject, isObject, Option.map_some, Option.some.injEq] at sameObject
    have longer := congrArg String.length sameObject
    simp [rename, outside, String.length_append] at longer

end Objects

theorem withoutObjects_clearTyping (tree : ContentTree) : tree.clearTyping.WithoutObjects := by
  intro id node found
  rw [get?_clearTyping, Option.map_eq_some_iff] at found
  obtain ⟨before, _, rfl⟩ := found
  rfl

theorem withoutObjects_withRoot {node : Node} (noObject : node.object = none) :
    (withRoot node).2.WithoutObjects := by
  intro id other found
  rw [get?_withRoot] at found
  split at found
  · obtain rfl := Option.some.inj found
    exact noObject
  · exact absurd found (by simp)

/-! ## Adding -/

theorem renameObjects_insert (node : Node) (parent : Option NodeId) :
    (tree.renameObjects rename).insert (node.renameObject rename) parent =
      ((tree.insert node parent).1, (tree.insert node parent).2.renameObjects rename) := by
  rw [insert, insert, size_renameObjects]
  simp only [renameObjects, Array.map_push]
  rfl

theorem renameObjects_appendChild (parent child : NodeId) :
    (tree.renameObjects rename).appendChild parent child =
      (tree.appendChild parent child).renameObjects rename :=
  renameObjects_modify parent fun _ => rfl

theorem renameObjects_dropChild (parent child : NodeId) :
    (tree.renameObjects rename).dropChild parent child =
      (tree.dropChild parent child).renameObjects rename :=
  renameObjects_modify parent fun _ => rfl

theorem withChild_renameObjects (parent : NodeId) (node : Node) :
    (tree.renameObjects rename).withChild parent (node.renameObject rename) =
      (tree.withChild parent node).renameObjects rename := by
  rw [withChild, withChild, renameObjects_insert, size_renameObjects, renameObjects_appendChild]

theorem addChild_renameObjects (parent : NodeId) {node : Node} (noObject : node.object = none) :
    (tree.renameObjects rename).addChild parent node =
      (tree.addChild parent node).map fun added => (added.1, added.2.renameObjects rename) := by
  rw [addChild, addChild, node_renameObjects]
  cases tree.node parent with
  | error error =>
      rfl
  | ok above =>
      simp only [Except.map, Bind.bind, Except.bind]
      have inserted := @renameObjects_insert rename tree node (some parent)
      rw [Node.renameObject_eq_self noObject] at inserted
      have sameIndex : (tree.renameObjects rename).index = tree.index := rfl
      rw [sameIndex]
      split
      · rfl
      · rw [inserted, renameObjects_appendChild]
        rfl

/-! ## Removing -/

theorem renameObjects_emptied (id : NodeId) (index : Std.ExtTreeMap String NodeId) :
    ({ tree.renameObjects rename with
        nodes := (tree.renameObjects rename).nodes.setIfInBounds id.index none
        index := index } : ContentTree) =
      ({ tree with nodes := tree.nodes.setIfInBounds id.index none, index := index } :
        ContentTree).renameObjects rename := by
  simp only [renameObjects, Array.map_setIfInBounds, Option.map_none]

theorem takeAll_renameObjects (ids : List NodeId) (tree : ContentTree) :
    takeAll ids (tree.renameObjects rename) =
      ((takeAll ids tree).1.map (List.map (Node.renameObject rename)),
        (takeAll ids tree).2.renameObjects rename) := by
  induction ids generalizing tree with
  | nil =>
      rfl
  | cons id ids inductionHypothesis =>
      rw [takeAll, takeAll, size_renameObjects]
      split
      · rfl
      · rw [get?_renameObjects]
        cases tree.get? id with
        | none =>
            exact inductionHypothesis tree
        | some node =>
            have sameName : (node.renameObject rename).identifier = node.identifier := rfl
            have sameIndex : (tree.renameObjects rename).unindex node.identifier id =
                tree.unindex node.identifier id := rfl
            simp only [Option.map_some, sameName, sameIndex]
            rw [renameObjects_emptied, inductionHypothesis]
            rcases takeAll ids { tree with
              nodes := tree.nodes.setIfInBounds id.index none
              index := tree.unindex node.identifier id } with ⟨error | removed, last⟩
            · rfl
            · rfl

theorem descendants_renameObjects (id : NodeId) :
    (tree.renameObjects rename).descendants id = tree.descendants id := by
  have children : (tree.renameObjects rename).children = tree.children :=
    funext links_renameObjects.children
  have descend (steps : Nat) (id : NodeId) :
      (tree.renameObjects rename).descend steps id = tree.descend steps id := by
    induction steps generalizing id with
    | zero => rfl
    | succ steps inductionHypothesis => rw [descend, descend, children, funext inductionHypothesis]
  rw [descendants, descendants, links_renameObjects.contains, size_renameObjects, descend]

theorem removeSubtree_renameObjects (id : NodeId) :
    (tree.renameObjects rename).removeSubtree id =
      ((tree.removeSubtree id).1.map (List.map (Node.renameObject rename)),
        (tree.removeSubtree id).2.renameObjects rename) := by
  rw [removeSubtree, removeSubtree, get?_renameObjects]
  cases tree.get? id with
  | none =>
      rfl
  | some node =>
      have withoutRoot : (tree.renameObjects rename).withoutRoot =
          tree.withoutRoot.renameObjects rename := rfl
      have sameParent : (node.renameObject rename).parent = node.parent := rfl
      simp only [Option.map_some, sameParent]
      cases node.parent with
      | none =>
          simp only [withoutRoot, descendants_renameObjects, takeAll_renameObjects]
      | some parent =>
          simp only [links_renameObjects.contains, renameObjects_dropChild,
            descendants_renameObjects, takeAll_renameObjects]
          split
          · rfl
          · rfl

/-! ## Moving and copying -/

theorem moveNode_renameObjects (id newParent : NodeId) :
    (tree.renameObjects rename).moveNode id newParent =
      (tree.moveNode id newParent).map (renameObjects rename) := by
  have isAncestorOrSelf : (tree.renameObjects rename).isAncestorOrSelf id newParent =
      tree.isAncestorOrSelf id newParent := by
    rw [ContentTree.isAncestorOrSelf, ContentTree.isAncestorOrSelf, ancestors, ancestors,
      size_renameObjects, links_renameObjects.ascend]
  rw [moveNode, moveNode, node_renameObjects, node_renameObjects, isAncestorOrSelf]
  cases tree.node id with
  | error error =>
      rfl
  | ok node =>
      have sameParent : (node.renameObject rename).parent = node.parent := rfl
      simp only [Except.map, Bind.bind, Except.bind, sameParent]
      cases node.parent with
      | none =>
          rfl
      | some oldParent =>
          simp only [node_renameObjects]
          cases tree.node newParent with
          | error error =>
              rfl
          | ok above =>
              simp only [Except.map]
              split
              · rfl
              · cases tree.node oldParent with
                | error error =>
                    rfl
                | ok before =>
                    simp only [renameObjects_dropChild, renameObjects_appendChild]
                    exact congrArg Except.ok (renameObjects_modify id fun _ => rfl)

/-- The same supply with the tree in which all objects have been renamed. -/
def Copying.renameObjects (rename : String → String) (state : Copying) : Copying :=
  ⟨state.tree.renameObjects rename, state.supply⟩

section Copies

variable {copyOne : NodeId → Copying → Except Error NodeId × Copying}

theorem copyEach_renameObjects
    (commutes : ∀ id state, copyOne id (state.renameObjects rename) =
      ((copyOne id state).1, (copyOne id state).2.renameObjects rename))
    (ids : List NodeId) (state : Copying) :
    copyEach copyOne ids (state.renameObjects rename) =
      ((copyEach copyOne ids state).1, (copyEach copyOne ids state).2.renameObjects rename) := by
  induction ids generalizing state with
  | nil =>
      rfl
  | cons id ids inductionHypothesis =>
      rw [copyEach, copyEach, commutes]
      rcases copyOne id state with ⟨error | copy, next⟩
      · rfl
      · exact inductionHypothesis next

theorem copyBelow_outcome {originals : List NodeId} {steps : Nat} {target source : NodeId}
    {state : Copying} {node : Node} (found : state.tree.get? source = some node) :
    (copyBelow originals (steps + 1) target source state).1 =
      (copyEach (copyBelow originals steps ⟨state.tree.nodes.size⟩)
        (node.children.filter (originals.contains ·)) (state.withCopy target node)).1.map
          fun _ => ⟨state.tree.nodes.size⟩ := by
  rw [copyBelow, found]
  simp only [Copying.withCopy, withChild, ContentTree.insert]
  split
  next copied => rw [copied]; rfl
  next failed => rw [failed]; rfl

/-- A copy has no object, so it is the same in both trees. -/
theorem withCopy_renameObjects (target : NodeId) (node : Node) (state : Copying) :
    (state.renameObjects rename).withCopy target (node.renameObject rename) =
      (state.withCopy target node).renameObjects rename :=
  congrArg (fun tree => Copying.mk tree state.supply.draw.2)
    (withChild_renameObjects target
      { node with identifier := state.supply.draw.1, object := none })

theorem copyBelow_renameObjects (originals : List NodeId) (steps : Nat) (target source : NodeId)
    (state : Copying) :
    copyBelow originals steps target source (state.renameObjects rename) =
      ((copyBelow originals steps target source state).1,
        (copyBelow originals steps target source state).2.renameObjects rename) := by
  induction steps generalizing target source state with
  | zero =>
      rfl
  | succ steps inductionHypothesis =>
      have renamed : (state.renameObjects rename).tree.get? source =
          (state.tree.get? source).map (Node.renameObject rename) := get?_renameObjects source
      cases found : state.tree.get? source with
      | none =>
          rw [found] at renamed
          rw [copyBelow, copyBelow, found, renamed]
          rfl
      | some node =>
          rw [found] at renamed
          have size : (state.renameObjects rename).tree.nodes.size = state.tree.nodes.size :=
            size_renameObjects
          have below := copyEach_renameObjects (inductionHypothesis ⟨state.tree.nodes.size⟩)
            (node.children.filter (originals.contains ·)) (state.withCopy target node)
          rw [← withCopy_renameObjects] at below
          refine Prod.ext ?_ ?_
          · rw [copyBelow_outcome renamed, copyBelow_outcome found, size]
            exact congrArg (Except.map _ ·.1) below
          · rw [copyBelow_succ renamed, copyBelow_succ found, size]
            exact congrArg Prod.snd below

end Copies

theorem copySubtree_renameObjects (supply : Supply) (id newParent : NodeId) :
    (tree.renameObjects rename).copySubtree supply id newParent =
      ((tree.copySubtree supply id newParent).1,
        (tree.copySubtree supply id newParent).2.renameObjects rename) := by
  rw [copySubtree, copySubtree, get?_renameObjects, get?_renameObjects]
  cases tree.get? id with
  | none =>
      rfl
  | some node =>
      cases tree.get? newParent with
      | none =>
          rfl
      | some target =>
          simp only [Option.map_some, descendants_renameObjects, size_renameObjects]
          exact copyBelow_renameObjects _ _ newParent id ⟨tree, supply⟩

/-! ## Edits -/

namespace Edit

/-- The edit brings in no object, and a write to a node does not look at the object of the node. -/
def LeavesObjects : Edit → Prop
  | .withRoot node => node.object = none
  | .addChild _ node => node.object = none
  | .write _ change =>
    ∀ rename node, change (Node.renameObject rename node) = (change node).renameObject rename
  | _ => True

theorem perform_renameObjects {edit : Edit} (leavesObjects : edit.LeavesObjects) (state : Copying) :
    edit.perform (state.renameObjects rename) =
      ((edit.perform state).1, (edit.perform state).2.renameObjects rename) := by
  cases edit with
  | withRoot node =>
      have same := (withoutObjects_withRoot leavesObjects).renameObjects_eq rename
      simp only [perform, Copying.renameObjects, same]
  | addChild parent node =>
      simp only [perform, Copying.renameObjects, addChild_renameObjects parent leavesObjects]
      cases state.tree.addChild parent node <;> rfl
  | removeSubtree id =>
      simp only [perform, Copying.renameObjects, removeSubtree_renameObjects]
      cases (state.tree.removeSubtree id).1 <;> rfl
  | moveNode id newParent =>
      simp only [perform, Copying.renameObjects, moveNode_renameObjects]
      cases state.tree.moveNode id newParent <;> rfl
  | copySubtree id newParent =>
      simp only [perform, Copying.renameObjects, copySubtree_renameObjects]
  | clearTyping =>
      have same := (withoutObjects_clearTyping state.tree).renameObjects_eq rename
      have cleared := (objectsOnly_renameObjects rename state.tree).clearTyping_eq
      simp only [perform, Copying.renameObjects, same, cleared]
  | write id change =>
      have written := @renameObjects_modify rename state.tree id change change (leavesObjects rename)
      simp only [perform, Copying.renameObjects, written]

/-- Renaming the objects that were not there before the edit changes neither tree. -/
theorem holdsOnly_perform {edit : Edit} (leavesObjects : edit.LeavesObjects) {state : Copying}
    {objects : Set String} (holdsOnly : state.tree.HoldsOnly objects) :
    (edit.perform state).2.tree.HoldsOnly objects := by
  rw [holdsOnly_iff] at holdsOnly ⊢
  intro rename fixed
  have unchanged : state.renameObjects rename = state := by
    rw [Copying.renameObjects, holdsOnly rename fixed]
  have performed := @perform_renameObjects rename edit leavesObjects state
  rw [unchanged] at performed
  exact congrArg (fun result => result.2.tree) performed.symm

end Edit

end ContentTree

end ContentTyping

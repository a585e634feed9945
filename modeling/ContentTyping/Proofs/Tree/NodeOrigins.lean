import ContentTyping.Proofs.Tree.Edits

/-!
# Where the nodes of an edited tree come from

Edits move nodes around but make nothing up: after an edit a node is the one that was in its slot before,
or it was added with the edit, or it is a copy of a node that was there. What a node shows beside its
links, its name and its object comes with it.
-/

namespace ContentTyping

/-- The view shows neither the links of a node nor its name or its object. -/
def Node.Unlinked {α : Type} (view : Node → α) : Prop :=
  ∀ (node : Node) (identifier : String) (parent : Option NodeId) (children : List NodeId)
    (object : Option String),
    view { node with
      identifier := identifier, parent := parent, children := children, object := object } = view node

namespace ContentTree

variable {α : Type} {view : Node → α} {before between after tree : ContentTree}

/-! ## Nodes that stay -/

/-- Every node of the second tree has been in its slot in the first one, and looks the same. -/
def OnlyKept (view : Node → α) (before after : ContentTree) : Prop :=
  ∀ id node, after.get? id = some node → ∃ old, before.get? id = some old ∧ view node = view old

namespace OnlyKept

theorem refl (tree : ContentTree) : OnlyKept view tree tree :=
  fun _ node found => ⟨node, found, rfl⟩

theorem trans (upper : OnlyKept view before between) (lower : OnlyKept view between after) :
    OnlyKept view before after := by
  intro id node found
  obtain ⟨middle, middleFound, lowerSame⟩ := lower id node found
  obtain ⟨old, oldFound, upperSame⟩ := upper id middle middleFound
  exact ⟨old, oldFound, lowerSame.trans upperSame⟩

theorem modify (id : NodeId) {change : Node → Node}
    (kept : ∀ node, view (change node) = view node) :
    OnlyKept view tree (tree.modify id change) := by
  intro other node found
  rw [get?_modify] at found
  split at found
  · obtain ⟨old, oldFound, rfl⟩ := Option.map_eq_some_iff.1 found
    exact ⟨old, oldFound, kept old⟩
  · exact ⟨node, found, rfl⟩

theorem emptySlot (id : NodeId) (removed : Node) :
    OnlyKept view tree (tree.emptySlot id removed) := by
  intro other node found
  rw [get?_emptySlot] at found
  split at found
  · exact absurd found (by simp)
  · exact ⟨node, found, rfl⟩

theorem takeAll (ids : List NodeId) : OnlyKept view tree (takeAll ids tree).2 :=
  takeAll_induction (motive := OnlyKept view tree)
    (fun _ id node _ kept => kept.trans (.emptySlot id node)) ids (.refl tree)

theorem dropChild (unlinked : Node.Unlinked view) (parent child : NodeId) :
    OnlyKept view tree (tree.dropChild parent child) :=
  .modify parent fun node => unlinked node node.identifier node.parent _ node.object

theorem appendChild (unlinked : Node.Unlinked view) (parent child : NodeId) :
    OnlyKept view tree (tree.appendChild parent child) :=
  .modify parent fun node => unlinked node node.identifier node.parent _ node.object

theorem removeSubtree (unlinked : Node.Unlinked view) (id : NodeId) :
    OnlyKept view tree (tree.removeSubtree id).2 := by
  rw [ContentTree.removeSubtree]
  split
  · exact .refl tree
  · split
    · exact @takeAll _ view tree.withoutRoot _
    · split
      · exact (OnlyKept.dropChild unlinked _ id).trans (.takeAll _)
      · exact .refl tree

theorem reparent (unlinked : Node.Unlinked view) (id oldParent newParent : NodeId) :
    OnlyKept view tree (tree.reparent id oldParent newParent) :=
  ((OnlyKept.dropChild unlinked oldParent id).trans (.appendChild unlinked newParent id)).trans
    (.modify id fun node => unlinked node node.identifier (some newParent) node.children node.object)

end OnlyKept

/-! ## Copies -/

theorem get?_eq_none_of_size_le {id : NodeId} (outside : tree.nodes.size ≤ id.index) :
    tree.get? id = none := by
  rw [get?, Array.getElem?_eq_none outside]
  rfl

theorem size_withChild (parent : NodeId) (node : Node) :
    (tree.withChild parent node).nodes.size = tree.nodes.size + 1 := by
  simp [withChild, appendChild, ContentTree.insert, ContentTree.modify]

/-- What copying adds are copies, in slots that were empty. -/
theorem exists_source_of_copySubtree (unlinked : Node.Unlinked view) (supply : Supply)
    (top target : NodeId) {id : NodeId} {node : Node}
    (found : (tree.copySubtree supply top target).2.tree.get? id = some node) :
    (∃ old, tree.get? id = some old ∧ view node = view old) ∨
      tree.get? id = none ∧ ∃ source old, tree.get? source = some old ∧ view node = view old := by
  suffices holds : tree.nodes.size ≤ (tree.copySubtree supply top target).2.tree.nodes.size ∧
      ∀ id node, (tree.copySubtree supply top target).2.tree.get? id = some node →
        (∃ old, tree.get? id = some old ∧ view node = view old) ∨
          tree.get? id = none ∧ ∃ source old, tree.get? source = some old ∧ view node = view old from
    holds.2 id node found
  apply copySubtree_induction (motive := fun state => tree.nodes.size ≤ state.tree.nodes.size ∧
    ∀ id node, state.tree.get? id = some node →
      (∃ old, tree.get? id = some old ∧ view node = view old) ∨
        tree.get? id = none ∧ ∃ source old, tree.get? source = some old ∧ view node = view old)
  · rintro state target source copied live sourceFound ⟨grown, fromBefore⟩
    constructor
    · rw [Copying.withCopy, size_withChild]
      omega
    · intro id node found
      rw [Copying.withCopy, get?_withChild live] at found
      split at found
      next isNew =>
          -- The node that was copied is in the tree from before, or is a copy itself.
          obtain rfl := Option.some.inj found
          have same := unlinked copied state.supply.draw.1 (some target) [] none
          refine .inr ⟨?_, ?_⟩
          · rw [isNew]
            exact get?_eq_none_of_size_le grown
          · rcases fromBefore source copied sourceFound with
              ⟨old, oldFound, asOld⟩ | ⟨_, first, old, oldFound, asOld⟩
            · exact ⟨source, old, oldFound, same.trans asOld⟩
            · exact ⟨first, old, oldFound, same.trans asOld⟩
      · split at found
        next isTarget =>
            obtain ⟨above, aboveFound, rfl⟩ := Option.map_eq_some_iff.1 found
            have same : view { above with children := above.children ++ [⟨state.tree.nodes.size⟩] } =
                view above := unlinked above above.identifier above.parent _ above.object
            rw [isTarget, same]
            exact fromBefore target above aboveFound
        · exact fromBefore id node found
  · exact ⟨Nat.le_refl _, fun id node found => .inl ⟨node, found, rfl⟩⟩

/-! ## The profile -/

theorem profile_removeSubtree_cases (tree : ContentTree) (id : NodeId) :
    (tree.removeSubtree id).2.profile = tree.profile ∨
      (tree.removeSubtree id).2.profile = none ∧
        ∃ node, tree.get? id = some node ∧ node.parent = none := by
  rw [ContentTree.removeSubtree]
  split
  · exact .inl rfl
  next node found =>
      split
      next noParent =>
          exact .inr ⟨profile_takeAll _, node, found, noParent⟩
      · split
        · exact .inl (profile_takeAll _)
        · exact .inl rfl

theorem profile_removeSubtree {id parent : NodeId} (link : tree.parent? id = some parent) :
    (tree.removeSubtree id).2.profile = tree.profile := by
  rcases profile_removeSubtree_cases tree id with same | ⟨_, node, found, noParent⟩
  · exact same
  · rw [parent?_of_get? found, noParent] at link
    exact absurd link (by simp)

theorem profile_copySubtree (supply : Supply) (top target : NodeId) :
    (tree.copySubtree supply top target).2.tree.profile = tree.profile :=
  copySubtree_induction (motive := fun state => state.tree.profile = tree.profile)
    (fun _ _ _ _ _ _ same => same) rfl top target

/-! ## Edits -/

/-- Where a node in the edited tree comes from, as far as a view shows. -/
inductive NodeOrigin (view : Node → α) (before : ContentTree) (id : NodeId) (node : Node) :
    Edit → Prop
  | kept {edit : Edit} {old : Node} (found : before.get? id = some old)
      (same : view node = view old) : NodeOrigin view before id node edit
  | root {new : Node} (same : view node = view new) : NodeOrigin view before id node (.withRoot new)
  | child {parent : NodeId} {new : Node} (same : view node = view new) :
      NodeOrigin view before id node (.addChild parent new)
  | copy {top target source : NodeId} {old : Node} (isNew : before.get? id = none)
      (found : before.get? source = some old) (same : view node = view old) :
      NodeOrigin view before id node (.copySubtree top target)
  | cleared {old : Node} (found : before.get? id = some old) (isCleared : node = old.clearTyping) :
      NodeOrigin view before id node .clearTyping

namespace Edit

variable {edit : Edit} {state : Copying}

/-- What the edit writes in place is not seen in the view. -/
def Spares (view : Node → α) : Edit → Prop
  | .write _ change => ∀ node, view (change node) = view node
  | _ => True

/-- Added nodes are of a certain kind. -/
def AddsOnly (added : Node → Prop) : Edit → Prop
  | .withRoot node => added node
  | .addChild _ node => added node
  | _ => True

theorem nodeOrigin_of_onlyKept (kept : OnlyKept view state.tree after) {id : NodeId} {node : Node}
    (found : after.get? id = some node) : NodeOrigin view state.tree id node edit := by
  obtain ⟨old, oldFound, same⟩ := kept id node found
  exact .kept oldFound same

theorem nodeOrigin_of_addChild (unlinked : Node.Unlinked view) {parent next : NodeId} {new : Node}
    {grown : ContentTree} (added : tree.addChild parent new = .ok (next, grown)) {id : NodeId}
    {node : Node} (found : grown.get? id = some node) :
    NodeOrigin view tree id node (.addChild parent new) := by
  obtain ⟨live, _, _, rfl⟩ := addChild_eq_ok_iff.1 added
  rw [get?_withChild live] at found
  split at found
  · obtain rfl := Option.some.inj found
    exact .child (unlinked new new.identifier (some parent) [] new.object)
  · split at found
    next isParent =>
        obtain ⟨above, aboveFound, rfl⟩ := Option.map_eq_some_iff.1 found
        rw [← isParent] at aboveFound
        exact .kept aboveFound (unlinked above above.identifier above.parent _ above.object)
    · exact .kept found rfl

/-- After an edit, refused or not, every node has an origin. -/
theorem nodeOrigin (unlinked : Node.Unlinked view) (spares : edit.Spares view) {id : NodeId}
    {node : Node} (found : (edit.perform state).2.tree.get? id = some node) :
    NodeOrigin view state.tree id node edit := by
  cases edit with
  | withRoot new =>
      rw [perform, get?_withRoot] at found
      split at found
      · obtain rfl := Option.some.inj found
        exact .root (unlinked new new.identifier none [] new.object)
      · exact absurd found (by simp)
  | addChild parent new =>
      rw [perform] at found
      split at found
      next added =>
          exact nodeOrigin_of_addChild unlinked added found
      · exact .kept found rfl
  | removeSubtree top =>
      exact nodeOrigin_of_onlyKept (.removeSubtree unlinked top) found
  | moveNode moved target =>
      rw [perform] at found
      split at found
      next done =>
          obtain ⟨oldParent, _, _, _, _, rfl⟩ := moveNode_eq_ok_iff.1 done
          exact nodeOrigin_of_onlyKept (.reparent unlinked moved oldParent target) found
      · exact .kept found rfl
  | copySubtree top target =>
      rcases exists_source_of_copySubtree unlinked state.supply top target found with
        ⟨old, oldFound, same⟩ | ⟨isNew, source, old, oldFound, same⟩
      · exact .kept oldFound same
      · exact .copy isNew oldFound same
  | clearTyping =>
      rw [perform, get?_clearTyping] at found
      obtain ⟨old, oldFound, rfl⟩ := Option.map_eq_some_iff.1 found
      exact .cleared oldFound rfl
  | write place change =>
      exact nodeOrigin_of_onlyKept (.modify place spares) found

theorem AddsOnly.mono {first second : Node → Prop} (added : edit.AddsOnly first)
    (weaker : ∀ node, first node → second node) : edit.AddsOnly second := by
  cases edit with
  | withRoot node => exact weaker node added
  | addChild parent node => exact weaker node added
  | removeSubtree => exact trivial
  | moveNode => exact trivial
  | copySubtree => exact trivial
  | clearTyping => exact trivial
  | write => exact trivial

/-- When all nodes are of a kind that the view shows, they still are after an edit that adds only such
nodes. -/
theorem kind_of_perform {kind : Node → Prop} (unlinked : Node.Unlinked view)
    (seen : ∀ node other, kind node → view other = view node → kind other)
    (cleared : ∀ node : Node, kind node.clearTyping) (added : edit.AddsOnly kind)
    (spares : edit.Spares view) (all : ∀ id node, state.tree.get? id = some node → kind node)
    {id : NodeId} {node : Node} (found : (edit.perform state).2.tree.get? id = some node) :
    kind node := by
  cases nodeOrigin unlinked spares found with
  | kept oldFound same =>
      exact seen _ node (all id _ oldFound) same
  | root same =>
      exact seen _ node added same
  | child same =>
      exact seen _ node added same
  | copy _ oldFound same =>
      exact seen _ node (all _ _ oldFound) same
  | cleared _ isCleared =>
      rw [isCleared]
      exact cleared _

/-- An edit binds a tree to no profile, and sets it free only when the tree is started over or cleared or
nodes are removed. -/
theorem profile_perform (edit : Edit) (state : Copying) :
    (edit.perform state).2.tree.profile = state.tree.profile ∨
      (edit.perform state).2.tree.profile = none ∧
        ((∃ node, edit = .withRoot node) ∨ edit = .clearTyping ∨
          ∃ id, edit = .removeSubtree id) := by
  cases edit with
  | withRoot node =>
      exact .inr ⟨rfl, .inl ⟨node, rfl⟩⟩
  | addChild parent node =>
      rw [perform]
      split
      next added =>
          obtain ⟨_, _, _, rfl⟩ := addChild_eq_ok_iff.1 added
          exact .inl rfl
      · exact .inl rfl
  | removeSubtree id =>
      rcases profile_removeSubtree_cases state.tree id with same | ⟨unbound, _⟩
      · exact .inl same
      · exact .inr ⟨unbound, .inr (.inr ⟨id, rfl⟩)⟩
  | moveNode id newParent =>
      rw [perform]
      split
      next moved =>
          obtain ⟨_, _, _, _, _, rfl⟩ := moveNode_eq_ok_iff.1 moved
          exact .inl rfl
      · exact .inl rfl
  | copySubtree id newParent =>
      exact .inl (profile_copySubtree state.supply id newParent)
  | clearTyping =>
      exact .inr ⟨rfl, .inr (.inl rfl)⟩
  | write id change =>
      exact .inl rfl

end Edit

end ContentTree

end ContentTyping

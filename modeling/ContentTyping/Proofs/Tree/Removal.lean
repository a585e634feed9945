import ContentTyping.Proofs.Tree.Below
import ContentTyping.Proofs.Tree.Links

/-!
# Removing subtrees

A removed subtree leaves empty slots behind, which the index no longer leads to. The other nodes
stay as they are, except that the old parent loses a child, and they stay well-formed. A tree that
loses its root keeps no node.
-/

namespace ContentTyping.ContentTree

variable {tree : ContentTree}

/-! ## Emptying slots -/

/-- The tree after the slot of a node was emptied. -/
def emptySlot (tree : ContentTree) (id : NodeId) (node : Node) : ContentTree :=
  { tree with
    nodes := tree.nodes.setIfInBounds id.index none
    index := tree.unindex node.identifier id }

theorem get?_emptySlot (id : NodeId) (node : Node) (other : NodeId) :
    (tree.emptySlot id node).get? other = if other = id then none else tree.get? other := by
  rw [get?, emptySlot, Array.getElem?_setIfInBounds, get?]
  by_cases same : other = id
  · subst same
    rw [if_pos rfl, if_pos rfl]
    split
    · rfl
    · rfl
  · have otherSlot : id.index ≠ other.index := by
      intro sameIndex
      exact same (congrArg NodeId.mk sameIndex.symm)
    rw [if_neg otherSlot, if_neg same]

theorem size_emptySlot (id : NodeId) (node : Node) :
    (tree.emptySlot id node).nodes.size = tree.nodes.size :=
  Array.size_setIfInBounds

theorem Indexed.emptySlot (indexed : tree.Indexed) {id : NodeId} {node : Node}
    (found : tree.get? id = some node) : (tree.emptySlot id node).Indexed := by
  intro identifier other
  have ownEntry : tree.index[node.identifier]? = some id :=
    (indexed node.identifier id).2 ⟨node, found, rfl⟩
  have erased : (tree.emptySlot id node).index = tree.index.erase node.identifier := by
    rw [ContentTree.emptySlot, unindex, if_pos ownEntry]
  rw [erased, Std.ExtTreeMap.getElem?_erase, get?_emptySlot]
  by_cases sameName : node.identifier = identifier
  · subst sameName
    rw [if_pos Std.ReflCmp.compare_self]
    constructor
    · intro entry
      exact absurd entry (by simp)
    · rintro ⟨member, memberFound, sameIdentifier⟩
      by_cases same : other = id
      · rw [if_pos same] at memberFound
        exact absurd memberFound (by simp)
      · rw [if_neg same] at memberFound
        have otherEntry := (indexed node.identifier other).2 ⟨member, memberFound, sameIdentifier⟩
        rw [ownEntry] at otherEntry
        exact absurd (Option.some.inj otherEntry).symm same
  · rw [if_neg fun equal => sameName (Std.LawfulEqCmp.eq_of_compare equal), indexed identifier other]
    by_cases same : other = id
    · subst same
      rw [if_pos rfl, found]
      simp [sameName]
    · rw [if_neg same]

theorem takeAll_cons {id : NodeId} {node : Node} (found : tree.get? id = some node)
    (rest : List NodeId) :
    (takeAll (id :: rest) tree).2 = (takeAll rest (tree.emptySlot id node)).2 := by
  have inSlot := index_lt_of_contains (contains_iff.2 ⟨node, found⟩)
  rw [takeAll, if_neg (Nat.not_le.2 inSlot), found]
  simp only [emptySlot]
  split
  next emptied => rw [emptied]
  next emptied => rw [emptied]

theorem takeAll_cons_of_empty {id : NodeId} (inSlot : id.index < tree.nodes.size)
    (notFound : tree.get? id = none) (rest : List NodeId) :
    takeAll (id :: rest) tree = takeAll rest tree := by
  rw [takeAll, if_neg (Nat.not_le.2 inSlot), notFound]

/-- However it ends, emptying slots passes on what emptying a single slot passes on. -/
theorem takeAll_induction {motive : ContentTree → Prop}
    (step : ∀ tree id node, tree.get? id = some node → motive tree → motive (tree.emptySlot id node))
    (ids : List NodeId) (initial : motive tree) : motive (takeAll ids tree).2 := by
  induction ids generalizing tree with
  | nil =>
      exact initial
  | cons id rest inductionHypothesis =>
      by_cases inSlot : id.index < tree.nodes.size
      · cases found : tree.get? id with
        | none =>
            rw [takeAll_cons_of_empty inSlot found]
            exact inductionHypothesis initial
        | some node =>
            rw [takeAll_cons found]
            exact inductionHypothesis (step tree id node found initial)
      · rw [takeAll, if_pos (Nat.not_lt.1 inSlot)]
        exact initial

theorem get?_takeAll {ids : List NodeId} (inSlots : ∀ id ∈ ids, id.index < tree.nodes.size)
    (other : NodeId) :
    (takeAll ids tree).2.get? other = if other ∈ ids then none else tree.get? other := by
  induction ids generalizing tree with
  | nil =>
      rfl
  | cons id rest inductionHypothesis =>
      have inSlot := inSlots id List.mem_cons_self
      have restInSlots : ∀ later ∈ rest, later.index < tree.nodes.size :=
        fun later member => inSlots later (List.mem_cons_of_mem id member)
      cases found : tree.get? id with
      | none =>
          rw [takeAll_cons_of_empty inSlot found, inductionHypothesis restInSlots]
          by_cases same : other = id
          · subst same
            simp [found]
          · simp [same]
      | some node =>
          rw [← size_emptySlot id node] at restInSlots
          rw [takeAll_cons found, inductionHypothesis restInSlots, get?_emptySlot]
          by_cases same : other = id
          · subst same
            simp
          · simp [same]

theorem root_takeAll (ids : List NodeId) : (takeAll ids tree).2.root = tree.root :=
  takeAll_induction (motive := fun next => next.root = tree.root)
    (fun _ _ _ _ same => same) ids rfl

theorem profile_takeAll (ids : List NodeId) : (takeAll ids tree).2.profile = tree.profile :=
  takeAll_induction (motive := fun next => next.profile = tree.profile)
    (fun _ _ _ _ same => same) ids rfl

theorem Indexed.takeAll (indexed : tree.Indexed) (ids : List NodeId) :
    (takeAll ids tree).2.Indexed :=
  takeAll_induction (motive := Indexed) (fun _ _ _ found before => before.emptySlot found) ids indexed

/-! ## Removing -/

namespace WellFormed

variable (wellFormed : tree.WellFormed)

include wellFormed

theorem not_below_root {id parent root : NodeId} (link : tree.parent? id = some parent)
    (isRoot : tree.root = some root) : ¬ Below tree id root := by
  have noParent := wellFormed.root_parent root isRoot
  intro below
  cases below with
  | self =>
      rw [noParent] at link
      exact absurd link (by simp)
  | child rootLink _ =>
      rw [noParent] at rootLink
      exact absurd rootLink (by simp)

theorem removeSubtree_root {id : NodeId} {node : Node} (found : tree.get? id = some node)
    (noParent : node.parent = none) :
    tree.removeSubtree id = takeAll (tree.descendants id) tree.withoutRoot := by
  have sameWalk : tree.withoutRoot.descendants id = tree.descendants id := by
    have live : tree.contains id = true := contains_iff.2 ⟨node, found⟩
    have stillLive : tree.withoutRoot.contains id = true := live
    have sameSize : tree.withoutRoot.nodes.size = tree.nodes.size := rfl
    have sameChildren : ∀ other, Below tree id other →
        tree.withoutRoot.children other = tree.children other := fun _ _ => rfl
    rw [descendants, descendants, if_pos live, if_pos stillLive, sameSize,
      wellFormed.descend_congr sameChildren]
  rw [removeSubtree, found]
  simp only [noParent, sameWalk]

theorem removeSubtree_below {id parent : NodeId} (link : tree.parent? id = some parent) :
    tree.removeSubtree id = takeAll (tree.descendants id) (tree.dropChild parent id) := by
  obtain ⟨node, found, isParent⟩ := parent?_eq_some_iff.1 link
  have sameWalk : (tree.dropChild parent id).descendants id = tree.descendants id := by
    have sameSize : (tree.dropChild parent id).nodes.size = tree.nodes.size := size_modify _ _
    rw [descendants, descendants, dropChild, contains_modify, ← dropChild, sameSize,
      wellFormed.descend_congr]
    intro other below
    have notParent : other ≠ parent := by
      rintro rfl
      exact wellFormed.not_below_parent link below
    rw [children_dropChild, if_neg notParent]
  rw [removeSubtree, found]
  simp only [isParent, wellFormed.contains_parent link, if_true, sameWalk]

theorem descendants_inSlots {id : NodeId} (live : tree.contains id = true) :
    ∀ member ∈ tree.descendants id, member.index < tree.nodes.size := by
  intro member listed
  have below := (wellFormed.mem_descendants_iff live).1 listed
  exact index_lt_of_contains (contains_of_below live below)

end WellFormed

theorem wellFormed_of_withoutNodes (noNodes : ∀ id, tree.get? id = none)
    (noRoot : tree.root = none) (indexed : tree.Indexed) : tree.WellFormed where
  root_contained root isRoot := by
    rw [noRoot] at isRoot
    exact absurd isRoot (by simp)
  root_parent root isRoot := by
    rw [noRoot] at isRoot
    exact absurd isRoot (by simp)
  parent_of_child id child member := by
    rw [children, noNodes] at member
    exact absurd member List.not_mem_nil
  child_of_parent id parent link := by
    rw [parent?, noNodes] at link
    exact absurd link (by simp)
  children_nodup id := by
    rw [children, noNodes]
    exact List.nodup_nil
  rooted id live := by
    rw [contains, noNodes] at live
    exact absurd live (by simp)
  indexed := indexed

theorem wellFormed_empty : empty.WellFormed := by
  apply wellFormed_of_withoutNodes
  · intro id
    rfl
  · rfl
  · intro identifier id
    have noEntry : empty.index[identifier]? = none := Std.ExtTreeMap.getElem?_empty
    have noNode : empty.get? id = none := rfl
    rw [noEntry, noNode]
    simp

/-- The second tree is what is left of the first one when a child of the parent is removed with
all below it. -/
structure LeftOver (tree next : ContentTree) (id parent : NodeId) : Prop where
  root : next.root = tree.root
  removed : ∀ other, Below tree id other → next.get? other = none
  kept : ∀ other, ¬ Below tree id other →
    next.get? other = (tree.dropChild parent id).get? other
  indexed : next.Indexed

namespace LeftOver

variable {next : ContentTree} {id parent : NodeId} (leftOver : LeftOver tree next id parent)

include leftOver

theorem contains_iff {other : NodeId} :
    next.contains other = true ↔ tree.contains other = true ∧ ¬ Below tree id other := by
  by_cases below : Below tree id other
  · simp [contains, leftOver.removed other below, below]
  · rw [contains, leftOver.kept other below, dropChild, ← contains, contains_modify]
    simp [below]

theorem parent?_eq {other : NodeId} (outside : ¬ Below tree id other) :
    next.parent? other = tree.parent? other := by
  rw [parent?, leftOver.kept other outside, ← parent?, parent?_dropChild]

theorem children_eq {other : NodeId} (outside : ¬ Below tree id other) :
    next.children other = (tree.dropChild parent id).children other := by
  rw [children, leftOver.kept other outside, ← children]

theorem outside_of_parent? {other above : NodeId} (link : next.parent? other = some above) :
    ¬ Below tree id other := by
  intro below
  rw [parent?, leftOver.removed other below] at link
  exact absurd link (by simp)

theorem children_nodup (wellFormed : tree.WellFormed) (other : NodeId) :
    (next.children other).Nodup := by
  by_cases below : Below tree id other
  · rw [children, leftOver.removed other below]
    exact List.nodup_nil
  · rw [leftOver.children_eq below]
    exact wellFormed.nodup_children_dropChild

theorem rooted (wellFormed : tree.WellFormed) {other : NodeId}
    (live : next.contains other = true) :
    ∃ root, next.root = some root ∧ Below next root other := by
  obtain ⟨oldLive, outside⟩ := leftOver.contains_iff.1 live
  obtain ⟨root, isRoot, below⟩ := wellFormed.rooted other oldLive
  have sameParents : ∀ member, ¬ Below tree id member →
      next.parent? member = tree.parent? member :=
    fun _ memberOutside => leftOver.parent?_eq memberOutside
  exact ⟨root, leftOver.root.trans isRoot, below.of_sameParents sameParents outside⟩

variable (wellFormed : tree.WellFormed) (link : tree.parent? id = some parent)

include wellFormed link

theorem parent_of_child {other child : NodeId} (member : child ∈ next.children other) :
    next.parent? child = some other := by
  have outside := (leftOver.contains_iff.1 (contains_of_mem_children member)).2
  rw [leftOver.children_eq outside] at member
  obtain ⟨old, notRemoved⟩ := (wellFormed.mem_children_dropChild link).1 member
  have oldLink := wellFormed.parent_of_child other child old
  have childOutside : ¬ Below tree id child := by
    intro below
    cases below with
    | self =>
        exact notRemoved rfl
    | child childLink upper =>
        rw [oldLink] at childLink
        obtain rfl := Option.some.inj childLink
        exact outside upper
  rw [leftOver.parent?_eq childOutside]
  exact oldLink

theorem child_of_parent {other above : NodeId} (otherLink : next.parent? other = some above) :
    other ∈ next.children above := by
  have outside := leftOver.outside_of_parent? otherLink
  rw [leftOver.parent?_eq outside] at otherLink
  have aboveOutside : ¬ Below tree id above := fun below => outside (.child otherLink below)
  rw [leftOver.children_eq aboveOutside]
  apply (wellFormed.mem_children_dropChild link).2
  refine ⟨wellFormed.child_of_parent other above otherLink, ?_⟩
  rintro rfl
  exact outside .self

theorem wellFormed_next : next.WellFormed where
  root_contained root isRoot := by
    rw [leftOver.root] at isRoot
    have outside := wellFormed.not_below_root link isRoot
    exact leftOver.contains_iff.2 ⟨wellFormed.root_contained root isRoot, outside⟩
  root_parent root isRoot := by
    rw [leftOver.root] at isRoot
    rw [leftOver.parent?_eq (wellFormed.not_below_root link isRoot)]
    exact wellFormed.root_parent root isRoot
  parent_of_child _ _ member := leftOver.parent_of_child wellFormed link member
  child_of_parent _ _ otherLink := leftOver.child_of_parent wellFormed link otherLink
  children_nodup := leftOver.children_nodup wellFormed
  rooted _ live := leftOver.rooted wellFormed live
  indexed := leftOver.indexed

end LeftOver

namespace WellFormed

variable (wellFormed : tree.WellFormed)

include wellFormed

/-- With the root all nodes go. -/
theorem get?_removeSubtree_of_root {id : NodeId} {node : Node} (found : tree.get? id = some node)
    (noParent : node.parent = none) (other : NodeId) :
    (tree.removeSubtree id).2.get? other = none := by
  have live : tree.contains id = true := contains_iff.2 ⟨node, found⟩
  have isRoot := wellFormed.eq_root_of_parent?_eq_none live
    ((parent?_of_get? found).trans noParent)
  have inSlots : ∀ member ∈ tree.descendants id, member.index < tree.withoutRoot.nodes.size :=
    wellFormed.descendants_inSlots live
  rw [wellFormed.removeSubtree_root found noParent, get?_takeAll inSlots]
  by_cases listed : other ∈ tree.descendants id
  · rw [if_pos listed]
  · rw [if_neg listed]
    cases otherFound : tree.get? other with
    | none =>
        exact otherFound
    | some otherNode =>
        have otherLive : tree.contains other = true := contains_iff.2 ⟨otherNode, otherFound⟩
        obtain ⟨root, otherRoot, below⟩ := wellFormed.rooted other otherLive
        obtain rfl := Option.some.inj (isRoot.symm.trans otherRoot)
        exact absurd ((wellFormed.mem_descendants_iff live).2 below) listed

theorem removeSubtree_of_root {id : NodeId} {node : Node}
    (found : tree.get? id = some node) (noParent : node.parent = none) :
    (tree.removeSubtree id).2.WellFormed := by
  have detachedIndexed : tree.withoutRoot.Indexed := wellFormed.indexed
  apply wellFormed_of_withoutNodes (wellFormed.get?_removeSubtree_of_root found noParent)
  · rw [wellFormed.removeSubtree_root found noParent, root_takeAll]
    rfl
  · rw [wellFormed.removeSubtree_root found noParent]
    exact detachedIndexed.takeAll _

theorem leftOver_removeSubtree {id parent : NodeId} (link : tree.parent? id = some parent) :
    LeftOver tree (tree.removeSubtree id).2 id parent := by
  have live := contains_of_parent? link
  have sameSize : (tree.dropChild parent id).nodes.size = tree.nodes.size := size_modify _ _
  have inSlots := wellFormed.descendants_inSlots live
  rw [← sameSize] at inSlots
  rw [wellFormed.removeSubtree_below link]
  refine ⟨?_, ?_, ?_, ?_⟩
  · exact root_takeAll _
  · intro other below
    rw [get?_takeAll inSlots, if_pos ((wellFormed.mem_descendants_iff live).2 below)]
  · intro other outside
    rw [get?_takeAll inSlots,
      if_neg fun listed => outside ((wellFormed.mem_descendants_iff live).1 listed)]
  · have detachedIndexed : (tree.dropChild parent id).Indexed :=
      Indexed.modify wellFormed.indexed parent fun _ => rfl
    exact detachedIndexed.takeAll _

/-- Whether the removal is refused or not, the links of the tree are in order afterwards. -/
theorem removeSubtree (id : NodeId) : (tree.removeSubtree id).2.WellFormed := by
  cases found : tree.get? id with
  | none =>
      rw [ContentTree.removeSubtree, found]
      exact wellFormed
  | some node =>
      cases isParent : node.parent with
      | none =>
          exact wellFormed.removeSubtree_of_root found isParent
      | some parent =>
          have link : tree.parent? id = some parent := by
            rw [parent?_of_get? found, isParent]
          exact (wellFormed.leftOver_removeSubtree link).wellFormed_next wellFormed link

end WellFormed

end ContentTyping.ContentTree

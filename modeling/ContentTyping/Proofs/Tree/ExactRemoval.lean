import ContentTyping.Proofs.Tree.ExactMoves
import ContentTyping.Proofs.Tree.Handles
import ContentTyping.Proofs.Tree.Preorder

/-!
# Exact removal

Removing a subtree hands out its nodes in the order of the walk and leaves their slots empty. The index
loses their identifiers, the old parent loses a child, and nothing else changes. No later edit brings a
removed handle back.
-/

namespace ContentTyping.ContentTree

variable {tree after : ContentTree} {id parent : NodeId}

/-! ## The nodes handed out -/

theorem takeAll_cons_fst {node : Node} (found : tree.get? id = some node) (rest : List NodeId) :
    (takeAll (id :: rest) tree).1 =
      (takeAll rest (tree.emptySlot id node)).1.map (node.withoutLinks :: ·) := by
  have inSlot := index_lt_of_contains (contains_iff.2 ⟨node, found⟩)
  rw [takeAll, if_neg (Nat.not_le.2 inSlot), found]
  simp only [emptySlot]
  split
  next emptied =>
      rw [emptied]
      rfl
  next emptied =>
      rw [emptied]
      rfl

/-- Distinct slots with nodes in them are emptied without an error, and the nodes come in the order of the
slots. -/
theorem takeAll_fst_eq {ids : List NodeId} (distinct : ids.Nodup)
    (live : ∀ id ∈ ids, tree.contains id = true) :
    (takeAll ids tree).1 = .ok (ids.filterMap fun id => (tree.get? id).map Node.withoutLinks) := by
  induction ids generalizing tree with
  | nil =>
      rfl
  | cons id rest inductionHypothesis =>
      obtain ⟨node, found⟩ := contains_iff.1 (live id List.mem_cons_self)
      rw [List.nodup_cons] at distinct
      have others : ∀ later ∈ rest, (tree.emptySlot id node).get? later = tree.get? later := by
        intro later member
        rw [get?_emptySlot, if_neg]
        intro same
        rw [same] at member
        exact distinct.1 member
      have restLive : ∀ later ∈ rest, (tree.emptySlot id node).contains later = true := by
        intro later member
        rw [contains, others later member]
        exact live later (List.mem_cons_of_mem id member)
      have sameRest : (rest.filterMap fun later =>
          ((tree.emptySlot id node).get? later).map Node.withoutLinks) =
            rest.filterMap fun later => (tree.get? later).map Node.withoutLinks := by
        apply List.filterMap_congr
        intro later member
        rw [others later member]
      rw [takeAll_cons_fst found, inductionHypothesis distinct.2 restLive, sameRest,
        List.filterMap_cons, found]
      rfl

/-! ## What is left -/

/-- The second tree is the first one without the subtree of a node. -/
structure ExactRemoval (before after : ContentTree) (id : NodeId) : Prop where
  contains : ∀ other, after.contains other = true ↔
    before.contains other = true ∧ other ∉ before.descendants id
  index : ∀ (identifier : String) (other : NodeId), after.index[identifier]? = some other ↔
    before.index[identifier]? = some other ∧ other ∉ before.descendants id
  parent : ∀ parent, before.parent? id = some parent →
    after.get? parent = (before.get? parent).map fun node =>
      { node with children := node.children.filter (· ≠ id) }
  others : ∀ other, other ∉ before.descendants id → before.parent? id ≠ some other →
    after.get? other = before.get? other
  root : after.root = if before.root = some id then none else before.root
  profile : after.profile = if before.root = some id then none else before.profile

namespace WellFormed

variable (wellFormed : tree.WellFormed)

include wellFormed

theorem get?_without_child {other : NodeId} (notParent : tree.parent? id ≠ some other) :
    ((tree.get? other).map fun node =>
      { node with children := node.children.filter (· ≠ id) }) = tree.get? other := by
  have sameChildren := wellFormed.filter_children_eq_self notParent
  cases found : tree.get? other with
  | none =>
      rfl
  | some node =>
      rw [children, found] at sameChildren
      rw [Option.map_some, sameChildren]

theorem removeSubtree_fst (live : tree.contains id = true) :
    (tree.removeSubtree id).1 =
      .ok ((tree.descendants id).filterMap fun member =>
        (tree.get? member).map Node.withoutLinks) := by
  have distinct := wellFormed.descendants_nodup id
  cases link : tree.parent? id with
  | none =>
      obtain ⟨node, found⟩ := contains_iff.1 live
      rw [parent?_of_get? found] at link
      have listedLive : ∀ member ∈ tree.descendants id, tree.withoutRoot.contains member = true :=
        fun member listed => wellFormed.contains_of_listed listed
      rw [wellFormed.removeSubtree_root found link, takeAll_fst_eq distinct listedLive]
      rfl
  | some parent =>
      have sameNodes : ∀ member ∈ tree.descendants id,
          (tree.dropChild parent id).get? member = tree.get? member := by
        intro member listed
        rw [dropChild, get?_modify, if_neg]
        intro isParent
        rw [isParent] at listed
        exact wellFormed.parent_not_mem_descendants link listed
      have listedLive : ∀ member ∈ tree.descendants id,
          (tree.dropChild parent id).contains member = true := by
        intro member listed
        rw [contains, sameNodes member listed]
        exact wellFormed.contains_of_listed listed
      rw [wellFormed.removeSubtree_below link, takeAll_fst_eq distinct listedLive]
      apply congrArg Except.ok
      apply List.filterMap_congr
      intro member listed
      rw [sameNodes member listed]

/-- The slots of the subtree are empty, and the other nodes have lost the removed one as a child. -/
theorem get?_removeSubtree (live : tree.contains id = true) (other : NodeId) :
    (tree.removeSubtree id).2.get? other =
      if other ∈ tree.descendants id then none
      else (tree.get? other).map fun node =>
        { node with children := node.children.filter (· ≠ id) } := by
  cases link : tree.parent? id with
  | none =>
      obtain ⟨node, found⟩ := contains_iff.1 live
      have isRoot := wellFormed.eq_root_of_parent?_eq_none live link
      rw [parent?_of_get? found] at link
      rw [wellFormed.get?_removeSubtree_of_root found link]
      by_cases listed : other ∈ tree.descendants id
      · rw [if_pos listed]
      · rw [if_neg listed]
        cases otherFound : tree.get? other with
        | none =>
            rfl
        | some otherNode =>
            obtain ⟨root, otherRoot, below⟩ :=
              wellFormed.rooted other (contains_iff.2 ⟨otherNode, otherFound⟩)
            rw [isRoot, Option.some.injEq] at otherRoot
            rw [← otherRoot] at below
            exact absurd ((wellFormed.mem_descendants_iff live).2 below) listed
  | some parent =>
      have leftOver := wellFormed.leftOver_removeSubtree link
      by_cases listed : other ∈ tree.descendants id
      · rw [if_pos listed, leftOver.removed other (wellFormed.below_of_mem_descendants listed)]
      · have outside : ¬ Below tree id other :=
          fun below => listed ((wellFormed.mem_descendants_iff live).2 below)
        rw [if_neg listed, leftOver.kept other outside, dropChild, get?_modify]
        by_cases isParent : other = parent
        · rw [if_pos isParent]
        · rw [if_neg isParent, wellFormed.get?_without_child]
          rw [link]
          intro same
          exact isParent (Option.some.inj same).symm

/-- A tree that loses its root loses its profile. -/
theorem root_removeSubtree (live : tree.contains id = true) :
    (tree.removeSubtree id).2.root = (if tree.root = some id then none else tree.root) ∧
      (tree.removeSubtree id).2.profile =
        (if tree.root = some id then none else tree.profile) := by
  cases link : tree.parent? id with
  | none =>
      obtain ⟨node, found⟩ := contains_iff.1 live
      have isRoot := wellFormed.eq_root_of_parent?_eq_none live link
      rw [parent?_of_get? found] at link
      rw [wellFormed.removeSubtree_root found link, root_takeAll, profile_takeAll, if_pos isRoot,
        if_pos isRoot]
      exact ⟨rfl, rfl⟩
  | some parent =>
      have notRoot : tree.root ≠ some id := by
        intro isRoot
        rw [wellFormed.root_parent id isRoot] at link
        exact absurd link (by simp)
      rw [wellFormed.removeSubtree_below link, root_takeAll, profile_takeAll, if_neg notRoot,
        if_neg notRoot]
      exact ⟨rfl, rfl⟩

theorem exactRemoval (live : tree.contains id = true) :
    ExactRemoval tree (tree.removeSubtree id).2 id := by
  have sameGet := fun other => wellFormed.get?_removeSubtree live other
  have outsideGet : ∀ other, other ∉ tree.descendants id →
      (tree.removeSubtree id).2.get? other = (tree.get? other).map fun node =>
        { node with children := node.children.filter (· ≠ id) } := by
    intro other unlisted
    rw [sameGet other, if_neg unlisted]
  refine ⟨?_, ?_, ?_, ?_, ?_, ?_⟩
  · intro other
    rw [ContentTree.contains, sameGet other]
    by_cases listed : other ∈ tree.descendants id
    · simp [listed]
    · simp [listed, ContentTree.contains]
  · intro identifier other
    rw [(wellFormed.removeSubtree id).indexed, wellFormed.indexed, sameGet other]
    by_cases listed : other ∈ tree.descendants id
    · simp [listed]
    · cases tree.get? other <;> simp [listed]
  · intro parent link
    apply outsideGet
    exact wellFormed.parent_not_mem_descendants link
  · intro other unlisted notParent
    rw [outsideGet other unlisted, wellFormed.get?_without_child notParent]
  · exact (wellFormed.root_removeSubtree live).1
  · exact (wellFormed.root_removeSubtree live).2

end WellFormed

/-- Removing a subtree hands out exactly its nodes, in the order of the walk and without their links, and
leaves the rest of the tree as it is. Over any edits that go on with the tree, a handle that was removed
names nothing any more, new nodes only go into new slots, and what a handle names keeps the identifier that
it had when it was created. -/
theorem removal_exact_and_handles_kept {state : Copying} (wellFormed : state.tree.WellFormed) :
    (∀ id, state.tree.contains id = true →
        ∃ after, state.tree.removeSubtree id =
            (.ok ((state.tree.descendants id).filterMap fun member =>
              (state.tree.get? member).map Node.withoutLinks), after) ∧
          ExactRemoval state.tree after id ∧ after.WellFormed) ∧
      ∀ earlier later : List Edit, (∀ edit ∈ earlier ++ later, edit.Continues) → ∀ id,
        (state.tree.contains id = true → (Edit.run earlier state).tree.contains id = false →
            (Edit.run (earlier ++ later) state).tree.contains id = false) ∧
          ((Edit.run earlier state).tree.contains id = false →
            (Edit.run (earlier ++ later) state).tree.contains id = true →
            (Edit.run earlier state).tree.nodes.size ≤ id.index) ∧
          ∀ old node, (Edit.run earlier state).tree.get? id = some old →
            (Edit.run (earlier ++ later) state).tree.get? id = some node →
            node.identifier = old.identifier := by
  constructor
  · intro id live
    refine ⟨(state.tree.removeSubtree id).2, ?_, wellFormed.exactRemoval live,
      wellFormed.removeSubtree id⟩
    exact Prod.ext (wellFormed.removeSubtree_fst live) rfl
  · intro earlier later continues id
    have first : KeepsHandles state.tree (Edit.run earlier state).tree :=
      Edit.keepsHandles_run fun edit member => continues edit (List.mem_append_left later member)
    have second : KeepsHandles (Edit.run earlier state).tree (Edit.run (earlier ++ later) state).tree := by
      rw [Edit.run_append]
      exact Edit.keepsHandles_run fun edit member =>
        continues edit (List.mem_append_right earlier member)
    refine ⟨?_, ?_, ?_⟩
    · intro live removed
      have inSlot := Nat.lt_of_lt_of_le (index_lt_of_contains live) first.grown
      exact second.contains_eq_false inSlot removed
    · intro dead live
      apply Nat.le_of_not_lt
      intro inSlot
      rw [second.contains_eq_false inSlot dead] at live
      exact absurd live (by simp)
    · intro old node oldFound found
      exact second.identifier_eq oldFound found

/-- The item of the small archive is removed with its page. Another item under its old identifier and a
copy of the whole archive get other slots. -/
theorem removal_exact_and_handles_kept_smallArchive :
    (∃ removed after, smallArchive.removeSubtree ⟨1⟩ = (.ok removed, after) ∧
        removed.map Node.identifier = ["item", "page"] ∧ after.contains ⟨2⟩ = false ∧
        (after.get? ⟨0⟩).map Node.children = some [⟨3⟩]) ∧
      (Edit.run [.removeSubtree ⟨1⟩, .addChild ⟨0⟩ { identifier := "item", name := "item" },
        .copySubtree ⟨0⟩ ⟨0⟩] ⟨smallArchive, RandomName.ofNat, 0⟩).tree.contains ⟨1⟩ = false := by
  let removal : List Edit := [.removeSubtree ⟨1⟩]
  let later : List Edit := [.addChild ⟨0⟩ { identifier := "item", name := "item" },
    .copySubtree ⟨0⟩ ⟨0⟩]
  obtain ⟨isExact, kept⟩ :=
    @removal_exact_and_handles_kept ⟨smallArchive, RandomName.ofNat, 0⟩ wellFormed_smallArchive
  have continues : ∀ edit ∈ removal ++ later, edit.Continues := by
    simp [removal, later, Edit.Continues]
  constructor
  · obtain ⟨after, removed, exactRemoval, _⟩ := isExact ⟨1⟩ rfl
    refine ⟨_, after, removed, rfl, ?_, ?_⟩
    · rw [Bool.eq_false_iff]
      intro live
      exact ((exactRemoval.contains ⟨2⟩).1 live).2 (by decide)
    · rw [exactRemoval.parent ⟨0⟩ rfl]
      rfl
  · apply (kept removal later continues ⟨1⟩).1
    · rfl
    · rfl

end ContentTyping.ContentTree

import ContentTyping.Tree.Edit
import ContentTyping.Proofs.Tree.WellFormed

/-!
# Growing trees

A tree of one node is well-formed, and it stays so while nodes are added below nodes that are
there.
-/

namespace ContentTyping.ContentTree

variable {tree : ContentTree}

/-! ## Slots -/

theorem get?_insert (node : Node) (parent : Option NodeId) (id : NodeId) :
    (tree.insert node parent).2.get? id =
      if id = ⟨tree.nodes.size⟩ then some { node with parent := parent, children := [] }
      else tree.get? id := by
  rw [get?, ContentTree.insert, Array.getElem?_push, get?]
  by_cases last : id = ⟨tree.nodes.size⟩
  · subst last
    simp
  · have otherSlot : id.index ≠ tree.nodes.size := by
      intro sameIndex
      exact last (congrArg NodeId.mk sameIndex)
    rw [if_neg otherSlot, if_neg last]

theorem get?_size : tree.get? ⟨tree.nodes.size⟩ = none := by
  rw [get?, Array.getElem?_eq_none (Nat.le_refl _)]
  rfl

theorem ne_size_of_contains {id : NodeId} (live : tree.contains id = true) :
    id ≠ ⟨tree.nodes.size⟩ := by
  rintro rfl
  rw [contains, get?_size] at live
  exact absurd live (by simp)

/-! ## Adding a child -/

/-- The tree after a node was put into the next slot as the last child of another. -/
def withChild (tree : ContentTree) (parent : NodeId) (node : Node) : ContentTree :=
  (tree.insert node (some parent)).2.appendChild parent ⟨tree.nodes.size⟩

theorem addChild_eq_ok_iff {parent id : NodeId} {node : Node} {next : ContentTree} :
    tree.addChild parent node = .ok (id, next) ↔
      tree.contains parent = true ∧ tree.index.contains node.identifier = false ∧
        id = ⟨tree.nodes.size⟩ ∧ next = tree.withChild parent node := by
  cases found : tree.get? parent with
  | none =>
      simp [addChild, ContentTree.node, contains, found, Bind.bind, Except.bind]
  | some above =>
      cases taken : tree.index.contains node.identifier with
      | true =>
          simp [addChild, ContentTree.node, found, taken, Bind.bind, Except.bind, throw,
            throwThe, MonadExceptOf.throw]
      | false =>
          simp only [addChild, ContentTree.node, contains, found, taken, Bind.bind, Except.bind, pure,
            Except.pure, Option.isSome_some, true_and]
          constructor
          · intro added
            cases added
            exact ⟨rfl, rfl⟩
          · rintro ⟨rfl, rfl⟩
            rfl

theorem get?_withChild {parent : NodeId} (live : tree.contains parent = true) (node : Node)
    (id : NodeId) :
    (tree.withChild parent node).get? id =
      if id = ⟨tree.nodes.size⟩ then some { node with parent := some parent, children := [] }
      else if id = parent then
        (tree.get? parent).map fun above =>
          { above with children := above.children ++ [⟨tree.nodes.size⟩] }
      else tree.get? id := by
  have parentOld := ne_size_of_contains live
  rw [withChild, appendChild, get?_modify, get?_insert]
  by_cases new : id = ⟨tree.nodes.size⟩
  · subst new
    rw [if_neg fun same => parentOld same.symm, if_pos rfl, if_pos rfl]
  · by_cases isParent : id = parent
    · subst isParent
      rw [if_pos rfl, if_neg new, if_neg new, if_pos rfl]
    · rw [if_neg isParent, if_neg isParent]

theorem parent?_withChild {parent : NodeId} (live : tree.contains parent = true) (node : Node)
    (id : NodeId) :
    (tree.withChild parent node).parent? id =
      if id = ⟨tree.nodes.size⟩ then some parent else tree.parent? id := by
  rw [parent?, get?_withChild live]
  by_cases new : id = ⟨tree.nodes.size⟩
  · simp [new]
  · by_cases isParent : id = parent
    · subst isParent
      simp only [if_neg new, if_true, parent?]
      cases tree.get? id <;> rfl
    · simp only [if_neg new, if_neg isParent, parent?]

theorem children_withChild {parent : NodeId} (live : tree.contains parent = true) (node : Node)
    (id : NodeId) :
    (tree.withChild parent node).children id =
      if id = parent then tree.children parent ++ [⟨tree.nodes.size⟩] else tree.children id := by
  have parentOld := ne_size_of_contains live
  obtain ⟨above, found⟩ := contains_iff.1 live
  rw [children, get?_withChild live]
  by_cases new : id = ⟨tree.nodes.size⟩
  · subst new
    rw [if_pos rfl, if_neg fun same => parentOld same.symm, children, get?_size]
  · by_cases isParent : id = parent
    · subst isParent
      simp only [if_neg new, if_true, found, Option.map_some, children]
    · simp only [if_neg new, if_neg isParent, children]

theorem contains_withChild {parent : NodeId} (live : tree.contains parent = true) (node : Node)
    (id : NodeId) :
    (tree.withChild parent node).contains id = true ↔
      id = ⟨tree.nodes.size⟩ ∨ tree.contains id = true := by
  rw [contains, get?_withChild live]
  by_cases new : id = ⟨tree.nodes.size⟩
  · simp [new]
  · by_cases isParent : id = parent
    · subst isParent
      simp [contains, new]
    · simp [if_neg isParent, contains, new]

theorem identifier_withChild {parent : NodeId} (live : tree.contains parent = true)
    (node : Node) (id : NodeId) :
    ((tree.withChild parent node).get? id).map Node.identifier =
      if id = ⟨tree.nodes.size⟩ then some node.identifier
      else (tree.get? id).map Node.identifier := by
  rw [get?_withChild live]
  by_cases new : id = ⟨tree.nodes.size⟩
  · simp [new]
  · by_cases isParent : id = parent
    · subst isParent
      simp only [if_neg new, if_true, Option.map_map]
      rfl
    · simp only [if_neg new, if_neg isParent]

theorem index_withChild (parent : NodeId) (node : Node) :
    (tree.withChild parent node).index =
      tree.index.insert node.identifier ⟨tree.nodes.size⟩ :=
  rfl

theorem Below.withChild {parent top id : NodeId} (live : tree.contains parent = true)
    (node : Node) (below : Below tree top id) : Below (tree.withChild parent node) top id := by
  induction below with
  | self =>
      exact .self
  | child link _ inductionHypothesis =>
      refine .child ?_ inductionHypothesis
      rw [parent?_withChild live, if_neg (ne_size_of_contains (contains_of_parent? link))]
      exact link

/-- A node whose identifier is new may be added below any node. -/
theorem WellFormed.withChild (wellFormed : tree.WellFormed) {parent : NodeId}
    (live : tree.contains parent = true) {node : Node}
    (fresh : tree.index.contains node.identifier = false) :
    (tree.withChild parent node).WellFormed where
  root_contained root isRoot :=
    (contains_withChild live node root).2 (.inr (wellFormed.root_contained root isRoot))
  root_parent root isRoot := by
    have rootLive := wellFormed.root_contained root isRoot
    rw [parent?_withChild live, if_neg (ne_size_of_contains rootLive)]
    exact wellFormed.root_parent root isRoot
  parent_of_child id child member := by
    rw [children_withChild live] at member
    rw [parent?_withChild live]
    by_cases isParent : id = parent
    · subst isParent
      rw [if_pos rfl, List.mem_append, List.mem_singleton] at member
      rcases member with old | rfl
      · rw [if_neg (ne_size_of_contains (wellFormed.contains_child old))]
        exact wellFormed.parent_of_child id child old
      · rw [if_pos rfl]
    · rw [if_neg isParent] at member
      rw [if_neg (ne_size_of_contains (wellFormed.contains_child member))]
      exact wellFormed.parent_of_child id child member
  child_of_parent id above link := by
    rw [parent?_withChild live] at link
    rw [children_withChild live]
    by_cases new : id = ⟨tree.nodes.size⟩
    · rw [if_pos new, Option.some.injEq] at link
      subst link
      simp [new]
    · rw [if_neg new] at link
      have old := wellFormed.child_of_parent id above link
      by_cases isParent : above = parent
      · subst isParent
        rw [if_pos rfl]
        exact List.mem_append_left _ old
      · rw [if_neg isParent]
        exact old
  children_nodup id := by
    rw [children_withChild live]
    by_cases isParent : id = parent
    · rw [if_pos isParent, List.nodup_append]
      refine ⟨wellFormed.children_nodup parent, by simp, ?_⟩
      intro child member other isNew
      rw [List.mem_singleton] at isNew
      subst isNew
      exact ne_size_of_contains (wellFormed.contains_child member)
    · rw [if_neg isParent]
      exact wellFormed.children_nodup id
  rooted id idLive := by
    rcases (contains_withChild live node id).1 idLive with rfl | old
    · obtain ⟨root, isRoot, below⟩ := wellFormed.rooted parent live
      refine ⟨root, isRoot, .child ?_ (below.withChild live node)⟩
      rw [parent?_withChild live, if_pos rfl]
    · obtain ⟨root, isRoot, below⟩ := wellFormed.rooted id old
      exact ⟨root, isRoot, below.withChild live node⟩
  indexed identifier id := by
    have old := wellFormed.indexed identifier id
    rw [← Option.map_eq_some_iff] at old ⊢
    rw [identifier_withChild live, index_withChild, Std.ExtTreeMap.getElem?_insert]
    by_cases same : node.identifier = identifier
    · subst same
      have notIndexed : tree.index[node.identifier]? = none :=
        Std.ExtTreeMap.getElem?_eq_none_of_contains_eq_false fresh
      rw [notIndexed] at old
      rw [if_pos Std.ReflCmp.compare_self]
      by_cases new : id = ⟨tree.nodes.size⟩
      · simp [new]
      · rw [if_neg new, ← old]
        simp [Ne.symm new]
    · rw [if_neg fun equal => same (Std.LawfulEqCmp.eq_of_compare equal), old]
      by_cases new : id = ⟨tree.nodes.size⟩
      · subst new
        simp [get?_size, same]
      · rw [if_neg new]

theorem WellFormed.addChild (wellFormed : tree.WellFormed) {parent id : NodeId} {node : Node}
    {next : ContentTree} (added : tree.addChild parent node = .ok (id, next)) :
    next.WellFormed := by
  obtain ⟨live, fresh, _, rfl⟩ := addChild_eq_ok_iff.1 added
  exact wellFormed.withChild live fresh

/-! ## Starting a tree -/

theorem get?_withRoot (node : Node) (id : NodeId) :
    (withRoot node).2.get? id =
      if id = ⟨0⟩ then some { node with parent := none, children := [] } else none := by
  have inserted := @get?_insert empty node none id
  rw [show empty.get? id = none from rfl] at inserted
  exact inserted

theorem parent?_withRoot (node : Node) (id : NodeId) : (withRoot node).2.parent? id = none := by
  rw [parent?, get?_withRoot]
  by_cases isRoot : id = ⟨0⟩
  · simp [isRoot]
  · simp [isRoot]

theorem children_withRoot (node : Node) (id : NodeId) : (withRoot node).2.children id = [] := by
  rw [children, get?_withRoot]
  by_cases isRoot : id = ⟨0⟩
  · simp [isRoot]
  · simp [isRoot]

theorem wellFormed_withRoot (node : Node) : (withRoot node).2.WellFormed where
  root_contained root isRoot := by
    obtain rfl : ⟨0⟩ = root := Option.some.inj isRoot
    rw [contains, get?_withRoot, if_pos rfl]
    rfl
  root_parent root _ := parent?_withRoot node root
  parent_of_child id child member := by
    rw [children_withRoot] at member
    exact absurd member List.not_mem_nil
  child_of_parent id parent link := by
    rw [parent?_withRoot] at link
    exact absurd link (by simp)
  children_nodup id := by
    rw [children_withRoot]
    exact List.nodup_nil
  rooted id live := by
    rw [contains, get?_withRoot] at live
    by_cases isRoot : id = ⟨0⟩
    · subst isRoot
      exact ⟨⟨0⟩, rfl, .self⟩
    · simp [isRoot] at live
  indexed identifier id := by
    have onlyRoot : (withRoot node).2.index =
        (∅ : Std.ExtTreeMap String NodeId).insert node.identifier ⟨0⟩ := rfl
    rw [onlyRoot, Std.ExtTreeMap.getElem?_insert, get?_withRoot]
    by_cases isRoot : id = ⟨0⟩
    · by_cases same : node.identifier = identifier
      · subst same
        simp [isRoot]
      · rw [if_neg fun equal => same (Std.LawfulEqCmp.eq_of_compare equal)]
        simp [isRoot, same]
    · by_cases same : node.identifier = identifier
      · subst same
        simp [isRoot, Ne.symm isRoot]
      · rw [if_neg fun equal => same (Std.LawfulEqCmp.eq_of_compare equal)]
        simp [isRoot]

/-! ## A small archive -/

/-- A directory that holds an item directory, a page in the item, and a file that is ignored. -/
def smallArchive : ContentTree :=
  let archive := (withRoot
    { identifier := "archive", name := "archive"
      file := some (.directory (.ofString "archive")) }).2
  let withItem := archive.withChild ⟨0⟩
    { identifier := "item", name := "item"
      file := some (.directory (.ofString "archive/item")) }
  let withPage := withItem.withChild ⟨1⟩
    { identifier := "page", name := "page.tif"
      file := some (.regularFile (.ofString "archive/item/page.tif") 4) }
  withPage.withChild ⟨0⟩
    { identifier := "notes", name := "notes.txt", ignored := true
      file := some (.regularFile (.ofString "archive/notes.txt") 9) }

theorem wellFormed_smallArchive : smallArchive.WellFormed := by
  refine WellFormed.withChild (WellFormed.withChild (WellFormed.withChild
    (wellFormed_withRoot _) ?_ ?_) ?_ ?_) ?_ ?_
  · rfl
  · simp [withRoot, ContentTree.insert, empty, Std.ExtTreeMap.contains_insert]
  · rfl
  · simp [index_withChild, withRoot, ContentTree.insert, empty, Std.ExtTreeMap.contains_insert]
  · rfl
  · simp [index_withChild, withRoot, ContentTree.insert, empty, Std.ExtTreeMap.contains_insert]

end ContentTyping.ContentTree

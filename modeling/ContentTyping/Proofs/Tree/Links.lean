import ContentTyping.Tree.Edit
import ContentTyping.Proofs.Tree.WellFormed

/-!
# Changing single nodes

What an edit of a single node does to parents, children and the index, and what becomes of the
children of a node when one of them is dropped or a new one is put at their end.
-/

namespace ContentTyping.ContentTree

variable {tree : ContentTree}

/-! ## Any change -/

theorem modify_modify (id : NodeId) (first second : Node → Node) :
    (tree.modify id first).modify id second = tree.modify id (second ∘ first) := by
  have sameNodes : (tree.nodes.modify id.index (Option.map first)).modify id.index
      (Option.map second) = tree.nodes.modify id.index (Option.map (second ∘ first)) := by
    apply Array.ext_getElem?
    intro slot
    simp only [Array.getElem?_modify]
    by_cases same : id.index = slot
    · simp only [if_pos same, Option.map_map]
      rw [Option.map_comp_map]
    · simp only [if_neg same]
  rw [modify, modify, modify]
  simp only [sameNodes]

/-- A change that leaves the node in the slot as it is leaves the tree as it is. -/
theorem modify_eq_self {id : NodeId} {change : Node → Node}
    (same : ∀ node, tree.get? id = some node → change node = node) :
    tree.modify id change = tree := by
  have sameNodes : tree.nodes.modify id.index (Option.map change) = tree.nodes := by
    apply Array.ext_getElem?
    intro slot
    rw [Array.getElem?_modify]
    by_cases isSlot : id.index = slot
    · subst isSlot
      rw [if_pos rfl]
      cases inSlot : tree.nodes[id.index]? with
      | none =>
          rfl
      | some entry =>
          cases entry with
          | none =>
              rfl
          | some node =>
              have found : tree.get? id = some node := by
                rw [get?, inSlot]
                rfl
              rw [Option.map_some, Option.map_some, same node found]
    · rw [if_neg isSlot]
  rw [modify, sameNodes]

theorem contains_modify (id : NodeId) (change : Node → Node) (other : NodeId) :
    (tree.modify id change).contains other = tree.contains other := by
  rw [contains, get?_modify, contains]
  by_cases same : other = id
  · rw [if_pos same, Option.isSome_map]
  · rw [if_neg same]

theorem parent?_modify (id : NodeId) (change : Node → Node) (other : NodeId) :
    (tree.modify id change).parent? other =
      if other = id then (tree.get? other).bind fun node => (change node).parent
      else tree.parent? other := by
  rw [parent?, get?_modify]
  by_cases same : other = id
  · rw [if_pos same, if_pos same, Option.bind_map]
    rfl
  · rw [if_neg same, if_neg same, parent?]

theorem parent?_modify_of_kept {id : NodeId} {change : Node → Node}
    (kept : ∀ node, (change node).parent = node.parent) (other : NodeId) :
    (tree.modify id change).parent? other = tree.parent? other := by
  rw [parent?_modify, funext kept]
  by_cases same : other = id
  · rw [if_pos same]
    rfl
  · rw [if_neg same]

theorem children_modify (id : NodeId) (change : Node → Node) (other : NodeId) :
    (tree.modify id change).children other =
      if other = id then ((tree.get? other).map fun node => (change node).children).getD []
      else tree.children other := by
  rw [children, get?_modify]
  by_cases same : other = id
  · rw [if_pos same, if_pos same]
    cases tree.get? other with
    | none => rfl
    | some node => rfl
  · rw [if_neg same, if_neg same, children]

theorem children_modify_of_kept {id : NodeId} {change : Node → Node}
    (kept : ∀ node, (change node).children = node.children) (other : NodeId) :
    (tree.modify id change).children other = tree.children other := by
  rw [children_modify, funext kept]
  by_cases same : other = id
  · rw [if_pos same, children]
    cases tree.get? other with
    | none => rfl
    | some node => rfl
  · rw [if_neg same]

/-- The index leads from the identifier of every node to its slot, and nowhere else. -/
def Indexed (tree : ContentTree) : Prop :=
  ∀ identifier id, tree.index[identifier]? = some id ↔
    ∃ node, tree.get? id = some node ∧ node.identifier = identifier

theorem Indexed.modify (indexed : tree.Indexed) (id : NodeId) {change : Node → Node}
    (kept : ∀ node, (change node).identifier = node.identifier) :
    (tree.modify id change).Indexed := by
  intro identifier other
  have sameNames : ((tree.modify id change).get? other).map Node.identifier =
      (tree.get? other).map Node.identifier := by
    rw [get?_modify]
    by_cases same : other = id
    · rw [if_pos same, Option.map_map]
      exact congrArg (Option.map · (tree.get? other)) (funext kept)
    · rw [if_neg same]
  have before := indexed identifier other
  rw [← Option.map_eq_some_iff] at before ⊢
  rw [sameNames]
  exact before

/-- Well-formedness only looks at the root, at parents and children, and at the index. -/
theorem WellFormed.of_sameLinks {next : ContentTree} (wellFormed : tree.WellFormed)
    (sameRoot : next.root = tree.root) (sameContains : ∀ id, next.contains id = tree.contains id)
    (sameParents : ∀ id, next.parent? id = tree.parent? id)
    (sameChildren : ∀ id, next.children id = tree.children id) (indexed : next.Indexed) :
    next.WellFormed where
  root_contained root isRoot := by
    rw [sameRoot] at isRoot
    rw [sameContains]
    exact wellFormed.root_contained root isRoot
  root_parent root isRoot := by
    rw [sameRoot] at isRoot
    rw [sameParents]
    exact wellFormed.root_parent root isRoot
  parent_of_child id child member := by
    rw [sameChildren] at member
    rw [sameParents]
    exact wellFormed.parent_of_child id child member
  child_of_parent id parent link := by
    rw [sameParents] at link
    rw [sameChildren]
    exact wellFormed.child_of_parent id parent link
  children_nodup id := by
    rw [sameChildren]
    exact wellFormed.children_nodup id
  rooted id live := by
    rw [sameContains] at live
    obtain ⟨root, isRoot, below⟩ := wellFormed.rooted id live
    refine ⟨root, sameRoot.trans isRoot, ?_⟩
    clear live
    induction below with
    | self =>
        exact .self
    | child link _ inductionHypothesis =>
        exact .child ((sameParents _).trans link) inductionHypothesis
  indexed := indexed

/-- The change leaves alone what the tree keeps track of: the identifier, and the links, which no
caller can write. -/
def KeepsLinks (change : Node → Node) : Prop :=
  ∀ node, (change node).identifier = node.identifier ∧ (change node).parent = node.parent ∧
    (change node).children = node.children

theorem WellFormed.modify (wellFormed : tree.WellFormed) (id : NodeId) {change : Node → Node}
    (keepsLinks : KeepsLinks change) : (tree.modify id change).WellFormed := by
  apply wellFormed.of_sameLinks
  · rfl
  · exact contains_modify id change
  · exact parent?_modify_of_kept fun node => (keepsLinks node).2.1
  · exact children_modify_of_kept fun node => (keepsLinks node).2.2
  · exact Indexed.modify wellFormed.indexed id fun node => (keepsLinks node).1

theorem get?_clearTyping (id : NodeId) :
    tree.clearTyping.get? id = (tree.get? id).map Node.clearTyping := by
  rw [get?, clearTyping, Array.getElem?_map, get?]
  cases tree.nodes[id.index]? with
  | none => rfl
  | some slot => cases slot <;> rfl

theorem WellFormed.clearTyping (wellFormed : tree.WellFormed) : tree.clearTyping.WellFormed := by
  apply wellFormed.of_sameLinks
  · rfl
  · intro id
    rw [contains, get?_clearTyping, Option.isSome_map, contains]
  · intro id
    rw [parent?, get?_clearTyping, parent?]
    cases tree.get? id with
    | none => rfl
    | some node => rfl
  · intro id
    rw [children, get?_clearTyping, children]
    cases tree.get? id with
    | none => rfl
    | some node => rfl
  · intro identifier id
    have before := wellFormed.indexed identifier id
    rw [← Option.map_eq_some_iff] at before ⊢
    rw [get?_clearTyping, Option.map_map]
    exact before

/-! ## Children dropped and appended -/

theorem parent?_dropChild (parent child id : NodeId) :
    (tree.dropChild parent child).parent? id = tree.parent? id := by
  rw [dropChild, parent?_modify_of_kept]
  intro node
  rfl

theorem children_dropChild (parent child id : NodeId) :
    (tree.dropChild parent child).children id =
      if id = parent then (tree.children parent).filter (· ≠ child) else tree.children id := by
  rw [dropChild, children_modify]
  by_cases same : id = parent
  · subst same
    rw [if_pos rfl, if_pos rfl, children]
    cases tree.get? id with
    | none => rfl
    | some node => rfl
  · rw [if_neg same, if_neg same]

theorem parent?_appendChild (parent child id : NodeId) :
    (tree.appendChild parent child).parent? id = tree.parent? id := by
  rw [appendChild, parent?_modify_of_kept]
  intro node
  rfl

theorem children_appendChild {parent : NodeId} (live : tree.contains parent = true)
    (child id : NodeId) :
    (tree.appendChild parent child).children id =
      if id = parent then tree.children parent ++ [child] else tree.children id := by
  obtain ⟨node, found⟩ := contains_iff.1 live
  rw [appendChild, children_modify]
  by_cases same : id = parent
  · subst same
    rw [if_pos rfl, if_pos rfl, children, found]
    rfl
  · rw [if_neg same, if_neg same]

namespace WellFormed

variable (wellFormed : tree.WellFormed)

include wellFormed

theorem nodup_children_dropChild {parent child id : NodeId} :
    ((tree.dropChild parent child).children id).Nodup := by
  rw [children_dropChild]
  by_cases same : id = parent
  · rw [if_pos same]
    exact (wellFormed.children_nodup parent).filter _
  · rw [if_neg same]
    exact wellFormed.children_nodup id

/-- A child that its parent has dropped is nobody's child. -/
theorem mem_children_dropChild {id parent : NodeId} (link : tree.parent? id = some parent)
    {other child : NodeId} :
    child ∈ (tree.dropChild parent id).children other ↔
      child ∈ tree.children other ∧ child ≠ id := by
  rw [children_dropChild]
  by_cases isParent : other = parent
  · subst isParent
    rw [if_pos rfl, List.mem_filter, decide_eq_true_eq]
  · rw [if_neg isParent]
    constructor
    · intro member
      refine ⟨member, ?_⟩
      rintro rfl
      rw [wellFormed.parent_of_child other child member] at link
      exact isParent (Option.some.inj link)
    · intro member
      exact member.1

end WellFormed

end ContentTyping.ContentTree

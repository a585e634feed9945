import ContentTyping.Tree.Walk

/-!
# Well-formed trees

The links of a node store are redundant: parents are recorded beside children, and an index beside
the identifiers. A tree is well-formed when these records agree and every node hangs below the
root. In such a tree the ancestors of a node form a finite line without repetitions, so the number
of ancestors bounds every walk, and facts can be shown from the leaves upwards.
-/

namespace ContentTyping.ContentTree

variable {tree : ContentTree}

/-! ## Nodes and their links -/

theorem contains_iff {id : NodeId} :
    tree.contains id = true ↔ ∃ node, tree.get? id = some node := by
  rw [contains, Option.isSome_iff_exists]

theorem node_eq_ok_iff {id : NodeId} {node : Node} :
    tree.node id = .ok node ↔ tree.get? id = some node := by
  rw [ContentTree.node]
  cases tree.get? id with
  | none => simp
  | some other => simp

theorem parent?_eq_some_iff {id parent : NodeId} :
    tree.parent? id = some parent ↔
      ∃ node, tree.get? id = some node ∧ node.parent = some parent := by
  rw [parent?, Option.bind_eq_some_iff]

theorem parent?_of_get? {id : NodeId} {node : Node} (found : tree.get? id = some node) :
    tree.parent? id = node.parent := by
  rw [parent?, found, Option.bind_some]

theorem contains_of_mem_children {id child : NodeId} (member : child ∈ tree.children id) :
    tree.contains id = true := by
  cases found : tree.get? id with
  | none =>
      rw [children, found] at member
      exact absurd member List.not_mem_nil
  | some node =>
      exact contains_iff.2 ⟨node, found⟩

theorem contains_of_parent? {id parent : NodeId} (link : tree.parent? id = some parent) :
    tree.contains id = true := by
  obtain ⟨node, found, _⟩ := parent?_eq_some_iff.1 link
  exact contains_iff.2 ⟨node, found⟩

theorem index_lt_of_contains {id : NodeId} (live : tree.contains id = true) :
    id.index < tree.nodes.size := by
  obtain ⟨node, found⟩ := contains_iff.1 live
  refine Nat.lt_of_not_le fun outside => ?_
  rw [get?, Array.getElem?_eq_none outside] at found
  exact absurd found (by simp)

theorem get?_modify (id : NodeId) (change : Node → Node) (other : NodeId) :
    (tree.modify id change).get? other =
      if other = id then (tree.get? other).map change else tree.get? other := by
  rw [get?, modify, Array.getElem?_modify, get?]
  by_cases same : other = id
  · subst same
    rw [if_pos rfl, if_pos rfl]
    cases tree.nodes[other.index]? with
    | none => rfl
    | some slot => cases slot <;> rfl
  · have otherSlot : id.index ≠ other.index := by
      intro sameIndex
      exact same (congrArg NodeId.mk sameIndex.symm)
    rw [if_neg otherSlot, if_neg same]

theorem size_modify (id : NodeId) (change : Node → Node) :
    (tree.modify id change).nodes.size = tree.nodes.size :=
  Array.size_modify

/-! ## Being below -/

/-- The second node is the first one or lies below it. -/
inductive Below (tree : ContentTree) (top : NodeId) : NodeId → Prop
  | self : Below tree top top
  | child {parent id : NodeId} :
      tree.parent? id = some parent → Below tree top parent → Below tree top id

theorem Below.trans {top middle id : NodeId}
    (upper : Below tree top middle) (lower : Below tree middle id) :
    Below tree top id := by
  induction lower with
  | self =>
      exact upper
  | child link _ inductionHypothesis =>
      exact .child link inductionHypothesis

/-- The links of a tree agree with each other and with the index, and all nodes hang below one
root. -/
structure WellFormed (tree : ContentTree) : Prop where
  root_contained : ∀ root, tree.root = some root → tree.contains root = true
  root_parent : ∀ root, tree.root = some root → tree.parent? root = none
  /-- A child knows its parent, and with that it is there. -/
  parent_of_child : ∀ id child, child ∈ tree.children id → tree.parent? child = some id
  child_of_parent : ∀ id parent, tree.parent? id = some parent → id ∈ tree.children parent
  children_nodup : ∀ id, (tree.children id).Nodup
  rooted : ∀ id, tree.contains id = true →
    ∃ root, tree.root = some root ∧ Below tree root id
  indexed : ∀ identifier id, tree.index[identifier]? = some id ↔
    ∃ node, tree.get? id = some node ∧ node.identifier = identifier

namespace WellFormed

variable (wellFormed : tree.WellFormed)

include wellFormed

theorem contains_child {id child : NodeId} (member : child ∈ tree.children id) :
    tree.contains child = true :=
  contains_of_parent? (wellFormed.parent_of_child id child member)

theorem contains_parent {id parent : NodeId} (link : tree.parent? id = some parent) :
    tree.contains parent = true :=
  contains_of_mem_children (wellFormed.child_of_parent id parent link)

end WellFormed

/-! ## Lines of ancestors -/

/-- The list holds the ancestors of the node, the nearest first and up to a node without a
parent. -/
inductive Lineage (tree : ContentTree) : NodeId → List NodeId → Prop
  | top {id : NodeId} : tree.parent? id = none → Lineage tree id []
  | child {id parent : NodeId} {above : List NodeId} :
      tree.parent? id = some parent → Lineage tree parent above →
        Lineage tree id (parent :: above)

namespace Lineage

theorem unique {id : NodeId} {first second : List NodeId}
    (firstLine : Lineage tree id first) (secondLine : Lineage tree id second) :
    first = second := by
  induction firstLine generalizing second with
  | top noParent =>
      cases secondLine with
      | top _ => rfl
      | child link _ => simp [noParent] at link
  | child link _ inductionHypothesis =>
      cases secondLine with
      | top noParent => simp [noParent] at link
      | child otherLink otherLine =>
          obtain rfl := Option.some.inj (link.symm.trans otherLink)
          rw [inductionHypothesis otherLine]

theorem of_mem {id ancestor : NodeId} {above : List NodeId}
    (line : Lineage tree id above) (member : ancestor ∈ above) :
    ∃ rest, Lineage tree ancestor rest ∧ rest.length < above.length := by
  induction line with
  | top _ =>
      exact absurd member List.not_mem_nil
  | @child _ parent above _ parentLine inductionHypothesis =>
      rcases List.mem_cons.1 member with rfl | further
      · exact ⟨above, parentLine, Nat.lt_succ_self _⟩
      · obtain ⟨rest, restLine, shorter⟩ := inductionHypothesis further
        exact ⟨rest, restLine, Nat.lt_succ_of_lt shorter⟩

theorem nodup {id : NodeId} {above : List NodeId} (line : Lineage tree id above) :
    (id :: above).Nodup := by
  induction line with
  | top _ =>
      simp
  | @child id parent above link parentLine inductionHypothesis =>
      refine List.nodup_cons.2 ⟨?_, inductionHypothesis⟩
      intro member
      obtain ⟨rest, restLine, shorter⟩ := (Lineage.child link parentLine).of_mem member
      have sameLine : rest = parent :: above :=
        restLine.unique (.child link parentLine)
      rw [sameLine] at shorter
      exact absurd shorter (Nat.lt_irrefl _)

theorem contains (wellFormed : tree.WellFormed) {id : NodeId} {above : List NodeId}
    (line : Lineage tree id above) :
    ∀ ancestor ∈ above, tree.contains ancestor = true := by
  induction line with
  | top _ =>
      simp
  | child link _ inductionHypothesis =>
      intro ancestor member
      rcases List.mem_cons.1 member with rfl | further
      · exact wellFormed.contains_parent link
      · exact inductionHypothesis ancestor further

theorem ascend_eq {id : NodeId} {above : List NodeId} (line : Lineage tree id above) :
    ∀ {steps : Nat}, above.length ≤ steps → tree.ascend steps id = above := by
  induction line with
  | top noParent =>
      intro steps _
      cases steps with
      | zero => rfl
      | succ steps => simp [ascend, noParent]
  | child link _ inductionHypothesis =>
      intro steps enough
      cases steps with
      | zero => simp at enough
      | succ steps =>
          simp only [ascend, link]
          rw [inductionHypothesis (Nat.le_of_succ_le_succ enough)]

end Lineage

namespace WellFormed

variable (wellFormed : tree.WellFormed)

include wellFormed

theorem exists_lineage {id : NodeId} (live : tree.contains id = true) :
    ∃ above, Lineage tree id above := by
  obtain ⟨root, isRoot, below⟩ := wellFormed.rooted id live
  clear live
  induction below with
  | self =>
      exact ⟨[], .top (wellFormed.root_parent root isRoot)⟩
  | child link _ inductionHypothesis =>
      obtain ⟨above, line⟩ := inductionHypothesis
      exact ⟨_, .child link line⟩

/-- The nodes of a line are distinct and stand in slots, so there are fewer ancestors than
slots. -/
theorem lineage_length_lt {id : NodeId} (live : tree.contains id = true)
    {above : List NodeId} (line : Lineage tree id above) :
    above.length < tree.nodes.size := by
  have inSlots :
      id :: above ⊆ (List.range tree.nodes.size).map NodeId.mk := by
    intro member isMember
    have memberLive : tree.contains member = true := by
      rcases List.mem_cons.1 isMember with rfl | further
      · exact live
      · exact line.contains wellFormed member further
    exact List.mem_map.2
      ⟨member.index, List.mem_range.2 (index_lt_of_contains memberLive), rfl⟩
  have bound := line.nodup.length_le_of_subset inSlots
  rw [List.length_map, List.length_range, List.length_cons] at bound
  exact bound

theorem lineage_ancestors {id : NodeId} (live : tree.contains id = true) :
    Lineage tree id (tree.ancestors id) := by
  obtain ⟨above, line⟩ := wellFormed.exists_lineage live
  have bound := wellFormed.lineage_length_lt live line
  rw [ancestors, line.ascend_eq (by omega)]
  exact line

theorem ancestors_of_parent? {id parent : NodeId} (link : tree.parent? id = some parent) :
    tree.ancestors id = parent :: tree.ancestors parent := by
  have parentLine := wellFormed.lineage_ancestors (wellFormed.contains_parent link)
  exact (wellFormed.lineage_ancestors (contains_of_parent? link)).unique
    (.child link parentLine)

/-! ## Depth -/

theorem depth_lt {id : NodeId} (live : tree.contains id = true) :
    tree.depth id < tree.nodes.size :=
  wellFormed.lineage_length_lt live (wellFormed.lineage_ancestors live)

theorem depth_of_parent? {id parent : NodeId} (link : tree.parent? id = some parent) :
    tree.depth id = tree.depth parent + 1 := by
  rw [depth, wellFormed.ancestors_of_parent? link, List.length_cons, depth]

theorem depth_child {id child : NodeId} (member : child ∈ tree.children id) :
    tree.depth child = tree.depth id + 1 :=
  wellFormed.depth_of_parent? (wellFormed.parent_of_child id child member)

theorem depth_le_of_below {top id : NodeId} (below : Below tree top id) :
    tree.depth top ≤ tree.depth id := by
  induction below with
  | self =>
      exact Nat.le_refl _
  | child link _ inductionHypothesis =>
      rw [wellFormed.depth_of_parent? link]
      exact Nat.le_succ_of_le inductionHypothesis

/-- Of the nodes above a node there is one of each depth. -/
theorem eq_of_below_of_depth {first second id : NodeId}
    (firstBelow : Below tree first id) (secondBelow : Below tree second id)
    (sameDepth : tree.depth first = tree.depth second) :
    first = second := by
  induction firstBelow with
  | self =>
      cases secondBelow with
      | self => rfl
      | child link upper =>
          have bound := wellFormed.depth_le_of_below upper
          have deeper := wellFormed.depth_of_parent? link
          omega
  | child link upper inductionHypothesis =>
      cases secondBelow with
      | self =>
          have bound := wellFormed.depth_le_of_below upper
          have deeper := wellFormed.depth_of_parent? link
          omega
      | child otherLink otherUpper =>
          obtain rfl := Option.some.inj (link.symm.trans otherLink)
          exact inductionHypothesis otherUpper

/-- What passes from all children of a node to the node holds of every node. -/
theorem induction_from_leaves {motive : NodeId → Prop}
    (step : ∀ id, tree.contains id = true →
      (∀ child ∈ tree.children id, motive child) → motive id)
    {id : NodeId} (live : tree.contains id = true) : motive id := by
  generalize room : tree.nodes.size - tree.depth id = remaining
  induction remaining using Nat.strongRecOn generalizing id with
  | _ remaining inductionHypothesis =>
      refine step id live fun child member => ?_
      have childLive := wellFormed.contains_child member
      have idBound := wellFormed.depth_lt live
      have childDepth := wellFormed.depth_child member
      exact inductionHypothesis (tree.nodes.size - tree.depth child) (by omega)
        childLive rfl

end WellFormed

end ContentTyping.ContentTree

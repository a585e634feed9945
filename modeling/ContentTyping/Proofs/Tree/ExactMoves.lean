import ContentTyping.Proofs.Tree.Agreement
import ContentTyping.Proofs.Tree.Edits
import ContentTyping.Proofs.Tree.Growth

/-!
# Exact moves

A move takes a node off one list of children and puts it at the end of another, and records the new
parent. All else in the tree stays: the subtree of the moved node, the ancestors of the nodes outside of
it, and what the nodes record besides their links.
-/

namespace ContentTyping

/-- What a node records besides its links. -/
def Node.withoutLinks (node : Node) : Node :=
  { node with parent := none, children := [] }

namespace ContentTree

variable {tree after : ContentTree}

/-- Where trees agree on all but the links, a node is the one from before with the links of now. -/
theorem AgreeOn.get?_eq_relinked (agree : AgreeOn Node.withoutLinks after tree) (id : NodeId) :
    after.get? id = (tree.get? id).map fun node =>
      { node with parent := after.parent? id, children := after.children id } := by
  have same := agree.get id
  rw [ContentTree.parent?, ContentTree.children]
  cases found : tree.get? id with
  | none =>
      rw [found, Option.map_none, Option.map_eq_none_iff] at same
      exact same
  | some node =>
      rw [found, Option.map_some, Option.map_eq_some_iff] at same
      obtain ⟨other, otherFound, sameRest⟩ := same
      rw [otherFound, Option.map_some, Option.bind_some]
      cases node
      cases other
      simp_all [Node.withoutLinks]

/-- What is asked of a move: there is such a node and it is not the root, and there is such a parent and
it does not lie in the subtree of the node. -/
structure Movable (tree : ContentTree) (id newParent : NodeId) : Prop where
  live : tree.contains id = true
  notRoot : tree.root ≠ some id
  newLive : tree.contains newParent = true
  outside : newParent ∉ tree.descendants id

/-- The second tree is the first one with a node moved to the end of the new parent's children. -/
structure ExactMove (before after : ContentTree) (id newParent : NodeId) : Prop where
  nodes : ∀ other, after.get? other = (before.get? other).map fun node =>
    { node with parent := after.parent? other, children := after.children other }
  parent : after.parent? id = some newParent
  otherParents : ∀ other, other ≠ id → after.parent? other = before.parent? other
  appended : after.children newParent = (before.children newParent).filter (· ≠ id) ++ [id]
  dropped : ∀ oldParent, before.parent? id = some oldParent → oldParent ≠ newParent →
    after.children oldParent = (before.children oldParent).filter (· ≠ id)
  otherChildren : ∀ other, other ≠ newParent → before.parent? id ≠ some other →
    after.children other = before.children other
  subtree : after.descendants id = before.descendants id
  subtreeChildren : ∀ other ∈ before.descendants id, after.children other = before.children other
  ancestors : ∀ other, before.contains other = true → other ∉ before.descendants id →
    after.ancestors other = before.ancestors other
  liveIds : after.liveIds = before.liveIds
  index : after.index = before.index
  root : after.root = before.root
  profile : after.profile = before.profile

variable {id oldParent newParent : NodeId}

theorem agreeOn_reparent :
    AgreeOn Node.withoutLinks (tree.reparent id oldParent newParent) tree := by
  have dropped : AgreeOn Node.withoutLinks (tree.dropChild oldParent id) tree :=
    .modify oldParent fun _ => rfl
  have appended : AgreeOn Node.withoutLinks ((tree.dropChild oldParent id).appendChild newParent id)
      (tree.dropChild oldParent id) :=
    .modify newParent fun _ => rfl
  have linked : AgreeOn Node.withoutLinks (tree.reparent id oldParent newParent)
      ((tree.dropChild oldParent id).appendChild newParent id) :=
    .modify id fun _ => rfl
  exact linked.trans (appended.trans dropped)

theorem liveIds_congr (sameSize : after.nodes.size = tree.nodes.size)
    (sameContains : ∀ id, after.contains id = tree.contains id) : after.liveIds = tree.liveIds := by
  rw [liveIds, liveIds, sameSize]
  exact List.filter_congr fun id _ => sameContains id

/-- The line upwards is the same where the parents outside of the subtree are. -/
theorem Lineage.of_sameParents {other : NodeId} {above : List NodeId}
    (sameParents : ∀ member, ¬ Below tree id member → after.parent? member = tree.parent? member)
    (line : Lineage tree other above) (outside : ¬ Below tree id other) :
    Lineage after other above := by
  induction line with
  | top noParent =>
      apply Lineage.top
      rw [sameParents _ outside, noParent]
  | child link _ inductionHypothesis =>
      apply Lineage.child
      · rw [sameParents _ outside, link]
      · apply inductionHypothesis
        intro below
        exact outside (.child link below)

namespace WellFormed

variable (wellFormed : tree.WellFormed)

include wellFormed

/-- Only the parent lists a node. -/
theorem filter_children_eq_self {other : NodeId} (notParent : tree.parent? id ≠ some other) :
    (tree.children other).filter (· ≠ id) = tree.children other := by
  rw [List.filter_eq_self]
  intro child member
  apply decide_eq_true
  intro same
  rw [same] at member
  exact notParent (wellFormed.parent_of_child other id member)

theorem children_dropChild_eq_filter (link : tree.parent? id = some oldParent) (other : NodeId) :
    (tree.dropChild oldParent id).children other = (tree.children other).filter (· ≠ id) := by
  rw [children_dropChild]
  by_cases isOld : other = oldParent
  · rw [if_pos isOld, isOld]
  · rw [if_neg isOld, wellFormed.filter_children_eq_self]
    rw [link]
    intro same
    exact isOld (Option.some.inj same).symm

theorem exactMove_reparent (link : tree.parent? id = some oldParent)
    (newLive : tree.contains newParent = true) (outside : ¬ Below tree id newParent) :
    ExactMove tree (tree.reparent id oldParent newParent) id newParent := by
  have live := contains_of_parent? link
  have afterWellFormed := wellFormed.reparent link newLive outside
  have agree : AgreeOn Node.withoutLinks (tree.reparent id oldParent newParent) tree :=
    agreeOn_reparent
  have notNew (other : NodeId) (isOther : other ≠ newParent) :
      (tree.reparent id oldParent newParent).children other =
        (tree.children other).filter (· ≠ id) := by
    rw [children_reparent newLive, if_neg isOther, wellFormed.children_dropChild_eq_filter link]
  have unchanged (other : NodeId) (isOther : other ≠ newParent) (notOld : other ≠ oldParent) :
      (tree.reparent id oldParent newParent).children other = tree.children other := by
    rw [children_reparent newLive, if_neg isOther, children_dropChild, if_neg notOld]
  have belowUnchanged (other : NodeId) (below : Below tree id other) :
      (tree.reparent id oldParent newParent).children other = tree.children other := by
    apply unchanged
    · intro isNew
      rw [isNew] at below
      exact outside below
    · intro isOld
      rw [isOld] at below
      exact wellFormed.not_below_parent link below
  have outsideParents (other : NodeId) (otherOutside : ¬ Below tree id other) :
      (tree.reparent id oldParent newParent).parent? other = tree.parent? other := by
    rw [parent?_reparent live, if_neg]
    intro isMoved
    rw [isMoved] at otherOutside
    exact otherOutside .self
  refine
    { nodes := agree.get?_eq_relinked, parent := ?_, otherParents := ?_, appended := ?_
      dropped := ?_, otherChildren := ?_, subtree := ?_, subtreeChildren := ?_, ancestors := ?_
      liveIds := liveIds_congr agree.size contains_reparent
      index := rfl, root := rfl, profile := rfl }
  · rw [parent?_reparent live, if_pos rfl]
  · intro other notMoved
    rw [parent?_reparent live, if_neg notMoved]
  · rw [children_reparent newLive, if_pos rfl, wellFormed.children_dropChild_eq_filter link]
  · intro other _ notNewParent
    exact notNew other notNewParent
  · intro other notNewParent notParent
    apply unchanged other notNewParent
    intro isOld
    rw [isOld] at notParent
    exact notParent link
  · rw [descendants, descendants, contains_reparent, agree.size,
      wellFormed.descend_congr belowUnchanged]
  · intro other listed
    exact belowUnchanged other ((wellFormed.mem_descendants_iff live).1 listed)
  · intro other otherLive unlisted
    have otherOutside : ¬ Below tree id other :=
      fun below => unlisted ((wellFormed.mem_descendants_iff live).2 below)
    have afterLive : (tree.reparent id oldParent newParent).contains other = true := by
      rw [contains_reparent]
      exact otherLive
    have line := wellFormed.lineage_ancestors otherLive
    exact (afterWellFormed.lineage_ancestors afterLive).unique
      (line.of_sameParents outsideParents otherOutside)

theorem exists_moveNode_iff_movable :
    (∃ after, tree.moveNode id newParent = .ok after) ↔ tree.Movable id newParent := by
  constructor
  · intro succeeds
    obtain ⟨after, moved⟩ := succeeds
    obtain ⟨parent, link, _, newLive, notAbove, _⟩ := moveNode_eq_ok_iff.1 moved
    have live := contains_of_parent? link
    refine ⟨live, ?_, newLive, ?_⟩
    · intro isRoot
      rw [wellFormed.root_parent id isRoot] at link
      exact absurd link (by simp)
    · intro listed
      have below := (wellFormed.mem_descendants_iff live).1 listed
      rw [(wellFormed.isAncestorOrSelf_iff newLive).2 below] at notAbove
      exact absurd notAbove (by simp)
  · intro movable
    cases link : tree.parent? id with
    | none =>
        exact absurd (wellFormed.eq_root_of_parent?_eq_none movable.live link) movable.notRoot
    | some parent =>
        refine ⟨_, moveNode_eq_ok_iff.2 ⟨parent, link, wellFormed.contains_parent link,
          movable.newLive, ?_, rfl⟩⟩
        rw [Bool.eq_false_iff]
        intro isAbove
        have below := (wellFormed.isAncestorOrSelf_iff movable.newLive).1 isAbove
        exact movable.outside ((wellFormed.mem_descendants_iff movable.live).2 below)

theorem exactMove_of_moveNode (moved : tree.moveNode id newParent = .ok after) :
    ExactMove tree after id newParent := by
  have movable := wellFormed.exists_moveNode_iff_movable.1 ⟨after, moved⟩
  obtain ⟨parent, link, _, newLive, _, isAfter⟩ := moveNode_eq_ok_iff.1 moved
  rw [isAfter]
  apply wellFormed.exactMove_reparent link newLive
  intro below
  exact movable.outside ((wellFormed.mem_descendants_iff movable.live).2 below)

end WellFormed

/-- A move is carried out exactly when there is such a node other than the root and such a parent outside
of its subtree. A move that is refused changes nothing, and one that is carried out is exact. -/
theorem moveNode_exact {state : Copying} (wellFormed : state.tree.WellFormed)
    (id newParent : NodeId) :
    ∃ outcome after,
      (Edit.moveNode id newParent).perform state = (outcome, ⟨after, state.supply⟩) ∧
      (outcome = .ok () ↔ state.tree.Movable id newParent) ∧
      (outcome ≠ .ok () → after = state.tree) ∧
      (outcome = .ok () → ExactMove state.tree after id newParent ∧ after.WellFormed) := by
  have movable : (∃ after, state.tree.moveNode id newParent = .ok after) ↔
      state.tree.Movable id newParent :=
    wellFormed.exists_moveNode_iff_movable
  rw [Edit.perform]
  cases moved : state.tree.moveNode id newParent with
  | error error =>
      refine ⟨.error error, state.tree, rfl, ?_, fun _ => rfl, ?_⟩
      · rw [← movable, moved]
        simp
      · intro done
        exact absurd done (by simp)
  | ok after =>
      refine ⟨.ok (), after, rfl, ?_, fun refused => absurd rfl refused, fun _ => ?_⟩
      · rw [← movable, moved]
        simp
      · exact ⟨wellFormed.exactMove_of_moveNode moved, wellFormed.moveNode moved⟩

/-- The page of the small archive moved to the end of the archive, after the ignored file. -/
theorem moveNode_exact_smallArchive :
    ∃ after, (Edit.moveNode ⟨2⟩ ⟨0⟩).perform ⟨smallArchive, RandomName.ofNat, 0⟩ =
        (.ok (), ⟨after, RandomName.ofNat, 0⟩) ∧
      after.children ⟨0⟩ = [⟨1⟩, ⟨3⟩, ⟨2⟩] ∧ after.children ⟨1⟩ = [] ∧
      after.ancestors ⟨1⟩ = [⟨0⟩] := by
  obtain ⟨outcome, after, performed, isMovable, _, isExact⟩ :=
    @moveNode_exact ⟨smallArchive, RandomName.ofNat, 0⟩ wellFormed_smallArchive ⟨2⟩ ⟨0⟩
  have movable : smallArchive.Movable ⟨2⟩ ⟨0⟩ := ⟨rfl, by decide, rfl, by decide⟩
  have done := isMovable.2 movable
  have exactMove := (isExact done).1
  rw [done] at performed
  refine ⟨after, performed, exactMove.appended, ?_, ?_⟩
  · exact exactMove.dropped ⟨1⟩ rfl (by decide)
  · exact exactMove.ancestors ⟨1⟩ rfl (by decide)

end ContentTree

end ContentTyping

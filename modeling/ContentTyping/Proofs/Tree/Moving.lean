import ContentTyping.Proofs.Tree.Below
import ContentTyping.Proofs.Tree.Links

/-!
# Moving nodes

A node is moved with all that lies below it. Since its new parent does not lie below it, every node
still has its way to the root.
-/

namespace ContentTyping.ContentTree

variable {tree : ContentTree}

/-- The tree after a node went from the end of one parent's children to those of another. -/
def reparent (tree : ContentTree) (id oldParent newParent : NodeId) : ContentTree :=
  ((tree.dropChild oldParent id).appendChild newParent id).modify id
    fun moved => { moved with parent := some newParent }

theorem moveNode_eq_ok_iff {id newParent : NodeId} {next : ContentTree} :
    tree.moveNode id newParent = .ok next ↔
      ∃ oldParent, tree.parent? id = some oldParent ∧ tree.contains oldParent = true ∧
        tree.contains newParent = true ∧ tree.isAncestorOrSelf id newParent = false ∧
        next = tree.reparent id oldParent newParent := by
  cases found : tree.get? id with
  | none =>
      simp [moveNode, ContentTree.node, parent?, found, Bind.bind, Except.bind]
  | some node =>
      cases isParent : node.parent with
      | none =>
          simp [moveNode, ContentTree.node, parent?, found, isParent, Bind.bind, Except.bind,
            throw, throwThe, MonadExceptOf.throw]
      | some oldParent =>
          cases newFound : tree.get? newParent with
          | none =>
              simp [moveNode, ContentTree.node, contains, found, isParent, newFound, Bind.bind,
                Except.bind]
          | some above =>
              cases isBelow : tree.isAncestorOrSelf id newParent with
              | true =>
                  simp [moveNode, ContentTree.node, found, isParent, newFound, isBelow, Bind.bind,
                    Except.bind, throw, throwThe, MonadExceptOf.throw]
              | false =>
                  cases oldFound : tree.get? oldParent with
                  | none =>
                      simp [moveNode, ContentTree.node, contains, parent?, found, isParent,
                        newFound, isBelow, oldFound, Bind.bind, Except.bind]
                  | some _ =>
                      simp [moveNode, ContentTree.node, contains, parent?, found, isParent,
                        newFound, isBelow, oldFound, Bind.bind, Except.bind, pure, Except.pure]
                      exact eq_comm

variable {id oldParent newParent : NodeId}

theorem contains_reparent (other : NodeId) :
    (tree.reparent id oldParent newParent).contains other = tree.contains other := by
  rw [reparent, contains_modify, appendChild, contains_modify, dropChild, contains_modify]

theorem parent?_reparent (live : tree.contains id = true) (other : NodeId) :
    (tree.reparent id oldParent newParent).parent? other =
      if other = id then some newParent else tree.parent? other := by
  rw [reparent, parent?_modify]
  by_cases same : other = id
  · subst same
    have stillLive : ((tree.dropChild oldParent other).appendChild newParent other).contains
        other = true := by
      rw [appendChild, contains_modify, dropChild, contains_modify]
      exact live
    obtain ⟨node, found⟩ := contains_iff.1 stillLive
    rw [if_pos rfl, if_pos rfl, found]
    rfl
  · rw [if_neg same, if_neg same, parent?_appendChild, parent?_dropChild]

theorem children_reparent (newLive : tree.contains newParent = true) (other : NodeId) :
    (tree.reparent id oldParent newParent).children other =
      if other = newParent then (tree.dropChild oldParent id).children newParent ++ [id]
      else (tree.dropChild oldParent id).children other := by
  have stillLive : (tree.dropChild oldParent id).contains newParent = true := by
    rw [dropChild, contains_modify]
    exact newLive
  rw [reparent, children_modify_of_kept, children_appendChild stillLive]
  intro node
  rfl

theorem indexed_reparent (indexed : tree.Indexed) :
    (tree.reparent id oldParent newParent).Indexed := by
  have dropped : (tree.dropChild oldParent id).Indexed := indexed.modify oldParent fun _ => rfl
  have appended : ((tree.dropChild oldParent id).appendChild newParent id).Indexed :=
    dropped.modify newParent fun _ => rfl
  exact appended.modify id fun _ => rfl

namespace WellFormed

variable (wellFormed : tree.WellFormed) (link : tree.parent? id = some oldParent)
  (newLive : tree.contains newParent = true)

include wellFormed link newLive

theorem mem_children_reparent {other child : NodeId} :
    child ∈ (tree.reparent id oldParent newParent).children other ↔
      (child ∈ tree.children other ∧ child ≠ id) ∨ (child = id ∧ other = newParent) := by
  rw [children_reparent newLive]
  by_cases isNew : other = newParent
  · subst isNew
    rw [if_pos rfl, List.mem_append, wellFormed.mem_children_dropChild link, List.mem_singleton]
    simp
  · rw [if_neg isNew, wellFormed.mem_children_dropChild link]
    simp [isNew]

theorem nodup_children_reparent (other : NodeId) :
    ((tree.reparent id oldParent newParent).children other).Nodup := by
  rw [children_reparent newLive]
  by_cases isNew : other = newParent
  · rw [if_pos isNew, List.nodup_append]
    refine ⟨wellFormed.nodup_children_dropChild, by simp, ?_⟩
    intro child member other isMoved
    rw [List.mem_singleton] at isMoved
    subst isMoved
    exact ((wellFormed.mem_children_dropChild link).1 member).2
  · rw [if_neg isNew]
    exact wellFormed.nodup_children_dropChild

/-- The way to the root leads through the new parent now, and further as before. -/
theorem rooted_reparent (notBelow : ¬ Below tree id newParent) {other : NodeId}
    (otherLive : tree.contains other = true) :
    ∃ root, tree.root = some root ∧ Below (tree.reparent id oldParent newParent) root other := by
  have live := contains_of_parent? link
  have sameParents : ∀ member, ¬ Below tree id member →
      (tree.reparent id oldParent newParent).parent? member = tree.parent? member := by
    intro member outside
    have notMoved : member ≠ id := by
      rintro rfl
      exact outside .self
    rw [parent?_reparent live, if_neg notMoved]
  obtain ⟨root, isRoot, newBelow⟩ := wellFormed.rooted newParent newLive
  have newStillBelow := newBelow.of_sameParents sameParents notBelow
  obtain ⟨otherRoot, isOtherRoot, below⟩ := wellFormed.rooted other otherLive
  obtain rfl := Option.some.inj (isRoot.symm.trans isOtherRoot)
  refine ⟨root, isRoot, ?_⟩
  clear otherLive
  -- Up from a node one never meets the moved one, or goes on from there as its new parent does.
  induction below with
  | self =>
      exact .self
  | @child parent member memberLink _ inductionHypothesis =>
      by_cases isMoved : member = id
      · subst isMoved
        refine .child ?_ newStillBelow
        rw [parent?_reparent live, if_pos rfl]
      · refine .child ?_ inductionHypothesis
        rw [parent?_reparent live, if_neg isMoved]
        exact memberLink

theorem reparent (notBelow : ¬ Below tree id newParent) :
    (tree.reparent id oldParent newParent).WellFormed := by
  have live := contains_of_parent? link
  refine
    { root_contained := ?_, root_parent := ?_, parent_of_child := ?_, child_of_parent := ?_
      children_nodup := wellFormed.nodup_children_reparent link newLive
      rooted := ?_, indexed := indexed_reparent wellFormed.indexed }
  · intro root isRoot
    rw [contains_reparent]
    exact wellFormed.root_contained root isRoot
  · intro root isRoot
    have noParent := wellFormed.root_parent root isRoot
    have notMoved : root ≠ id := by
      rintro rfl
      rw [noParent] at link
      exact absurd link (by simp)
    rw [parent?_reparent live, if_neg notMoved]
    exact noParent
  · intro other child member
    rw [parent?_reparent live]
    rcases (wellFormed.mem_children_reparent link newLive).1 member with
      ⟨old, notMoved⟩ | ⟨isMoved, isNew⟩
    · rw [if_neg notMoved]
      exact wellFormed.parent_of_child other child old
    · rw [if_pos isMoved, isNew]
  · intro other above otherLink
    rw [parent?_reparent live] at otherLink
    apply (wellFormed.mem_children_reparent link newLive).2
    by_cases isMoved : other = id
    · rw [if_pos isMoved, Option.some.injEq] at otherLink
      exact .inr ⟨isMoved, otherLink.symm⟩
    · rw [if_neg isMoved] at otherLink
      exact .inl ⟨wellFormed.child_of_parent other above otherLink, isMoved⟩
  · intro other otherLive
    rw [contains_reparent] at otherLive
    exact wellFormed.rooted_reparent link newLive notBelow otherLive

omit link newLive

/-- A move that is not refused leaves the links of the tree in order. -/
theorem moveNode {next : ContentTree} (moved : tree.moveNode id newParent = .ok next) :
    next.WellFormed := by
  obtain ⟨oldParent, link, _, newLive, notAbove, rfl⟩ := moveNode_eq_ok_iff.1 moved
  apply wellFormed.reparent link newLive
  intro below
  rw [(wellFormed.isAncestorOrSelf_iff newLive).2 below] at notAbove
  exact absurd notAbove (by simp)

end WellFormed

end ContentTyping.ContentTree

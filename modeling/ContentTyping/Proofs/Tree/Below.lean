import Mathlib.Data.List.Basic
import ContentTyping.Proofs.Tree.WellFormed

/-!
# What lies below a node

In a well-formed tree the walk downwards lists what lies below a node, and the walk upwards lists
what a node lies below. Where two trees record the same parents outside a subtree, the nodes
outside it hang below the root in both.
-/

namespace ContentTyping.ContentTree

variable {tree : ContentTree}

theorem contains_of_below {top id : NodeId} (live : tree.contains top = true)
    (below : Below tree top id) : tree.contains id = true := by
  cases below with
  | self => exact live
  | child link _ => exact contains_of_parent? link

/-- A node that does not lie below the removed or moved one keeps its way to the root. -/
theorem Below.of_sameParents {other : ContentTree} {top id : NodeId}
    (sameParents : ∀ member, ¬ Below tree id member →
      other.parent? member = tree.parent? member)
    {start : NodeId} (below : Below tree start top) (outside : ¬ Below tree id top) :
    Below other start top := by
  induction below with
  | self =>
      exact .self
  | @child parent member link _ inductionHypothesis =>
      have parentOutside : ¬ Below tree id parent := by
        intro parentBelow
        exact outside (.child link parentBelow)
      have sameLink : other.parent? member = some parent := by
        rw [sameParents member outside]
        exact link
      exact .child sameLink (inductionHypothesis parentOutside)

namespace WellFormed

variable (wellFormed : tree.WellFormed)

include wellFormed

theorem below_iff_child {top id : NodeId} :
    Below tree top id ↔ id = top ∨ ∃ child ∈ tree.children top, Below tree child id := by
  constructor
  · intro below
    induction below with
    | self =>
        exact .inl rfl
    | @child parent id link _ inductionHypothesis =>
        rcases inductionHypothesis with rfl | ⟨child, member, lower⟩
        · exact .inr ⟨id, wellFormed.child_of_parent id parent link, .self⟩
        · exact .inr ⟨child, member, .child link lower⟩
  · rintro (rfl | ⟨child, member, lower⟩)
    · exact .self
    · have link := wellFormed.parent_of_child top child member
      exact Below.trans (.child link .self) lower

theorem not_below_parent {id parent : NodeId} (link : tree.parent? id = some parent) :
    ¬ Below tree id parent := by
  intro below
  have upper := wellFormed.depth_le_of_below below
  have deeper := wellFormed.depth_of_parent? link
  omega

theorem parent_ne {id parent : NodeId} (link : tree.parent? id = some parent) : parent ≠ id := by
  intro same
  rw [same] at link
  exact wellFormed.not_below_parent link .self

/-- Nothing lies above the root. -/
theorem eq_root_of_parent?_eq_none {id : NodeId} (live : tree.contains id = true)
    (noParent : tree.parent? id = none) : tree.root = some id := by
  obtain ⟨root, isRoot, below⟩ := wellFormed.rooted id live
  cases below with
  | self =>
      exact isRoot
  | child link _ =>
      rw [noParent] at link
      exact absurd link (by simp)

/-! ## The walk downwards -/

theorem below_of_mem_descend {steps : Nat} {top id : NodeId}
    (listed : id ∈ tree.descend steps top) : Below tree top id := by
  induction steps generalizing top with
  | zero =>
      rw [descend, List.mem_singleton] at listed
      subst listed
      exact .self
  | succ steps inductionHypothesis =>
      rw [descend, List.mem_cons, List.mem_flatMap] at listed
      apply wellFormed.below_iff_child.2
      rcases listed with rfl | ⟨child, member, further⟩
      · exact .inl rfl
      · exact .inr ⟨child, member, inductionHypothesis further⟩

theorem mem_descend_of_below {steps : Nat} {top id : NodeId} (live : tree.contains top = true)
    (enough : tree.nodes.size ≤ steps + tree.depth top) (below : Below tree top id) :
    id ∈ tree.descend steps top := by
  induction steps generalizing top with
  | zero =>
      have bound := wellFormed.depth_lt live
      omega
  | succ steps inductionHypothesis =>
      rw [descend, List.mem_cons, List.mem_flatMap]
      rcases wellFormed.below_iff_child.1 below with rfl | ⟨child, member, lower⟩
      · exact .inl rfl
      · have childDepth := wellFormed.depth_child member
        have childLive := wellFormed.contains_child member
        exact .inr ⟨child, member, inductionHypothesis childLive (by omega) lower⟩

theorem mem_descendants_iff {top id : NodeId} (live : tree.contains top = true) :
    id ∈ tree.descendants top ↔ Below tree top id := by
  rw [descendants, if_pos live]
  constructor
  · exact wellFormed.below_of_mem_descend
  · exact wellFormed.mem_descend_of_below live (Nat.le_add_right _ _)

/-- The walk downwards only looks at the children of what it lists. -/
theorem descend_congr {other : ContentTree} {top : NodeId}
    (sameChildren : ∀ id, Below tree top id → other.children id = tree.children id)
    (steps : Nat) : other.descend steps top = tree.descend steps top := by
  induction steps generalizing top with
  | zero =>
      rfl
  | succ steps inductionHypothesis =>
      rw [descend, descend, sameChildren top .self]
      refine congrArg (List.cons top) (List.flatMap_congr fun child member => ?_)
      apply inductionHypothesis
      intro id lower
      exact sameChildren id (wellFormed.below_iff_child.2 (.inr ⟨child, member, lower⟩))

/-! ## The walk upwards -/

theorem mem_ancestors_or_self_iff {ancestor id : NodeId} (live : tree.contains id = true) :
    ancestor = id ∨ ancestor ∈ tree.ancestors id ↔ Below tree ancestor id := by
  constructor
  · rintro (rfl | member)
    · exact .self
    · have line := wellFormed.lineage_ancestors live
      generalize tree.ancestors id = above at line member
      clear live
      induction line with
      | top _ =>
          exact absurd member List.not_mem_nil
      | child link _ inductionHypothesis =>
          rcases List.mem_cons.1 member with rfl | further
          · exact .child link .self
          · exact .child link (inductionHypothesis further)
  · intro below
    induction below with
    | self =>
        exact .inl rfl
    | @child parent id link _ inductionHypothesis =>
        right
        rw [wellFormed.ancestors_of_parent? link, List.mem_cons]
        exact inductionHypothesis (wellFormed.contains_parent link)

theorem isAncestorOrSelf_iff {ancestor id : NodeId} (live : tree.contains id = true) :
    tree.isAncestorOrSelf ancestor id = true ↔ Below tree ancestor id := by
  rw [← wellFormed.mem_ancestors_or_self_iff live, isAncestorOrSelf]
  simp

end WellFormed

end ContentTyping.ContentTree

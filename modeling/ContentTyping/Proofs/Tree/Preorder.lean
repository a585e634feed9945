import Mathlib.Data.List.Basic
import Mathlib.Data.List.Nodup
import ContentTyping.Proofs.Tree.Below

/-!
# Walks in preorder

In a well-formed tree the walk downwards is never cut short: it lists a node and then, child by child,
what the walks from the children list. No node is listed twice, and the walk from a listed node is part
of the walk that lists it.
-/

namespace ContentTyping.ContentTree

variable {tree : ContentTree}

theorem descendants_of_not_contains {id : NodeId} (dead : tree.contains id = false) :
    tree.descendants id = [] := by
  rw [descendants, dead]
  rfl

theorem contains_of_mem_descendants {top id : NodeId} (listed : id ∈ tree.descendants top) :
    tree.contains top = true := by
  by_cases live : tree.contains top = true
  · exact live
  · rw [descendants_of_not_contains (Bool.eq_false_iff.2 live)] at listed
    exact absurd listed List.not_mem_nil

/-- Where the children correspond, the walks do. -/
theorem descend_map {other : ContentTree} {image : NodeId → NodeId} {top : NodeId} {steps : Nat}
    (sameChildren : ∀ id ∈ tree.descend steps top,
      other.children (image id) = (tree.children id).map image) :
    other.descend steps (image top) = (tree.descend steps top).map image := by
  induction steps generalizing top with
  | zero =>
      rfl
  | succ steps inductionHypothesis =>
      have here : top ∈ tree.descend (steps + 1) top := by
        rw [descend]
        exact List.mem_cons_self
      rw [descend, sameChildren top here, descend, List.map_cons, List.flatMap_map, List.map_flatMap]
      refine congrArg (List.cons (image top)) (List.flatMap_congr fun child member => ?_)
      apply inductionHypothesis
      intro id listed
      apply sameChildren
      rw [descend, List.mem_cons, List.mem_flatMap]
      exact .inr ⟨child, member, listed⟩

namespace WellFormed

variable (wellFormed : tree.WellFormed)

include wellFormed

/-- Two walks that may both go down to the last slot list the same nodes. -/
theorem descend_eq {first second : Nat} {id : NodeId} (live : tree.contains id = true)
    (firstEnough : tree.nodes.size ≤ first + tree.depth id)
    (secondEnough : tree.nodes.size ≤ second + tree.depth id) :
    tree.descend first id = tree.descend second id := by
  induction first generalizing second id with
  | zero =>
      have bound := wellFormed.depth_lt live
      omega
  | succ first inductionHypothesis =>
      cases second with
      | zero =>
          have bound := wellFormed.depth_lt live
          omega
      | succ second =>
          rw [descend, descend]
          refine congrArg (List.cons id) (List.flatMap_congr fun child member => ?_)
          have childDepth := wellFormed.depth_child member
          apply inductionHypothesis (wellFormed.contains_child member)
          · omega
          · omega

theorem descendants_eq_descend {id : NodeId} (live : tree.contains id = true) {steps : Nat}
    (enough : tree.nodes.size ≤ steps + tree.depth id) :
    tree.descendants id = tree.descend steps id := by
  rw [descendants, if_pos live]
  exact wellFormed.descend_eq live (Nat.le_add_right _ _) enough

/-- A node comes first, and then come the walks from its children. -/
theorem descendants_eq {id : NodeId} (live : tree.contains id = true) :
    tree.descendants id = id :: (tree.children id).flatMap tree.descendants := by
  have enough : tree.nodes.size ≤ tree.nodes.size + 1 + tree.depth id := by omega
  rw [wellFormed.descendants_eq_descend live enough, descend]
  refine congrArg (List.cons id) (List.flatMap_congr fun child member => ?_)
  symm
  apply wellFormed.descendants_eq_descend (wellFormed.contains_child member)
  omega

theorem mem_descendants_self {id : NodeId} (live : tree.contains id = true) :
    id ∈ tree.descendants id := by
  rw [wellFormed.descendants_eq live]
  exact List.mem_cons_self

theorem below_of_mem_descendants {top id : NodeId} (listed : id ∈ tree.descendants top) :
    Below tree top id :=
  (wellFormed.mem_descendants_iff (contains_of_mem_descendants listed)).1 listed

theorem parent_not_mem_descendants {id parent : NodeId} (link : tree.parent? id = some parent) :
    parent ∉ tree.descendants id := by
  intro listed
  exact wellFormed.not_below_parent link (wellFormed.below_of_mem_descendants listed)

theorem contains_of_listed {top id : NodeId} (listed : id ∈ tree.descendants top) :
    tree.contains id = true :=
  contains_of_below (contains_of_mem_descendants listed) (wellFormed.below_of_mem_descendants listed)

theorem mem_descendants_of_mem_children {top id child : NodeId}
    (listed : id ∈ tree.descendants top) (member : child ∈ tree.children id) :
    child ∈ tree.descendants top := by
  have link := wellFormed.parent_of_child id child member
  apply (wellFormed.mem_descendants_iff (contains_of_mem_descendants listed)).2
  exact .child link (wellFormed.below_of_mem_descendants listed)

/-- A listed node other than the start hangs below a listed node. -/
theorem exists_parent_of_mem_descendants {top id : NodeId} (listed : id ∈ tree.descendants top)
    (notTop : id ≠ top) : ∃ parent ∈ tree.descendants top, tree.parent? id = some parent := by
  cases wellFormed.below_of_mem_descendants listed with
  | self =>
      exact absurd rfl notTop
  | @child parent _ link upper =>
      have live := contains_of_mem_descendants listed
      exact ⟨parent, (wellFormed.mem_descendants_iff live).2 upper, link⟩

theorem descendants_disjoint {id first second : NodeId} (firstMember : first ∈ tree.children id)
    (secondMember : second ∈ tree.children id) (different : first ≠ second) :
    List.Disjoint (tree.descendants first) (tree.descendants second) := by
  intro common inFirst inSecond
  have sameDepth : tree.depth first = tree.depth second := by
    rw [wellFormed.depth_child firstMember, wellFormed.depth_child secondMember]
  exact different (wellFormed.eq_of_below_of_depth (wellFormed.below_of_mem_descendants inFirst)
    (wellFormed.below_of_mem_descendants inSecond) sameDepth)

/-- No node is listed twice. -/
theorem descendants_nodup (id : NodeId) : (tree.descendants id).Nodup := by
  by_cases live : tree.contains id = true
  · apply wellFormed.induction_from_leaves (motive := fun id => (tree.descendants id).Nodup) _ live
    intro id idLive inductionHypothesis
    rw [wellFormed.descendants_eq idLive, List.nodup_cons, List.nodup_flatMap]
    refine ⟨?_, inductionHypothesis, ?_⟩
    · intro again
      obtain ⟨child, member, listed⟩ := List.mem_flatMap.1 again
      have link := wellFormed.parent_of_child id child member
      exact wellFormed.parent_not_mem_descendants link listed
    · apply (wellFormed.children_nodup id).imp_of_mem
      intro first second firstMember secondMember different
      exact wellFormed.descendants_disjoint firstMember secondMember different
  · rw [descendants_of_not_contains (Bool.eq_false_iff.2 live)]
    exact List.nodup_nil

/-- The walk from a listed node is part of the walk that lists it. -/
theorem descendants_sublist {top id : NodeId} (listed : id ∈ tree.descendants top) :
    List.Sublist (tree.descendants id) (tree.descendants top) := by
  have live := contains_of_mem_descendants listed
  revert listed
  apply wellFormed.induction_from_leaves
    (motive := fun top => id ∈ tree.descendants top →
      List.Sublist (tree.descendants id) (tree.descendants top)) _ live
  intro top topLive inductionHypothesis listed
  rcases wellFormed.below_iff_child.1 (wellFormed.below_of_mem_descendants listed) with
    same | ⟨child, member, below⟩
  · rw [same]
  · have childLive := wellFormed.contains_child member
    have part := inductionHypothesis child member ((wellFormed.mem_descendants_iff childLive).2 below)
    rw [wellFormed.descendants_eq topLive]
    apply List.Sublist.cons
    exact part.trans (List.sublist_flatten_of_mem (List.mem_map_of_mem member))

/-- A listed node and its children stand in the walk in this order. -/
theorem cons_children_sublist {top id : NodeId} (listed : id ∈ tree.descendants top) :
    List.Sublist (id :: tree.children id) (tree.descendants top) := by
  apply List.Sublist.trans _ (wellFormed.descendants_sublist listed)
  rw [wellFormed.descendants_eq (wellFormed.contains_of_listed listed)]
  apply List.Sublist.cons_cons
  have firsts : ∀ child ∈ tree.children id, child ∈ tree.descendants child :=
    fun child member => wellFormed.mem_descendants_self (wellFormed.contains_child member)
  generalize tree.children id = children at firsts
  induction children with
  | nil =>
      exact List.nil_sublist _
  | cons child children inductionHypothesis =>
      have further : ∀ later ∈ children, later ∈ tree.descendants later :=
        fun later member => firsts later (List.mem_cons_of_mem child member)
      rw [List.flatMap_cons, ← List.singleton_append]
      apply List.Sublist.append
      · exact List.singleton_sublist.2 (firsts child List.mem_cons_self)
      · exact inductionHypothesis further

end WellFormed

end ContentTyping.ContentTree

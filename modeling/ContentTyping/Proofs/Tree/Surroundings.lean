import Mathlib.Data.List.Basic
import Mathlib.Data.List.Flatten
import Mathlib.Data.List.Perm.Subperm
import ContentTyping.Proofs.Tree.ActiveSubtree

/-!
# Surroundings of a node

A node, its parent and its children stand in the walk from the root in this order, as far as they
are not excluded. So a check of all nodes that only finds something with them finds the same, and
in the same order, as a check of them alone.
-/

namespace ContentTyping

/-- Items that give no results can be left out of a list without repetitions. -/
theorem flatMap_eq_of_sublist {α β : Type} {part whole : List α} {results : α → List β}
    (sublist : part.Sublist whole) (nodup : whole.Nodup)
    (nothingElse : ∀ item ∈ whole, item ∉ part → results item = []) :
    part.flatMap results = whole.flatMap results := by
  induction sublist with
  | slnil =>
      rfl
  | @cons part whole item inWhole inductionHypothesis =>
      obtain ⟨notInWhole, restNodup⟩ := List.nodup_cons.1 nodup
      have notInPart : item ∉ part := fun member => notInWhole (inWhole.subset member)
      rw [List.flatMap_cons, nothingElse item List.mem_cons_self notInPart, List.nil_append]
      exact inductionHypothesis restNodup fun other member =>
        nothingElse other (List.mem_cons_of_mem item member)
  | @cons_cons part whole item _ inductionHypothesis =>
      obtain ⟨notInWhole, restNodup⟩ := List.nodup_cons.1 nodup
      rw [List.flatMap_cons, List.flatMap_cons, inductionHypothesis restNodup]
      intro other member notInPart
      refine nothingElse other (List.mem_cons_of_mem item member) ?_
      rintro (_ | ⟨_, inPart⟩)
      · exact notInWhole member
      · exact notInPart inPart

/-- What is listed in a part of a list without repetitions is that part. -/
theorem filter_mem_of_sublist {α : Type} [DecidableEq α] {part whole : List α}
    (sublist : part.Sublist whole) (nodup : whole.Nodup) :
    whole.filter (· ∈ part) = part := by
  have kept : part.filter (· ∈ part) = part := List.filter_eq_self.2 (by simp)
  have shorter := sublist.filter (· ∈ part)
  rw [kept] at shorter
  have onlyPart : whole.filter (· ∈ part) ⊆ part := by
    intro item member
    simpa using (List.mem_filter.1 member).2
  have atMost := (List.Nodup.subperm (nodup.filter _) onlyPart).length_le
  exact (shorter.eq_of_length_le atMost).symm

namespace ContentTree

variable {tree : ContentTree}

/-- A node with its parent before it and its children after it. -/
def surroundings (tree : ContentTree) (id : NodeId) : List NodeId :=
  (tree.parent? id).toList ++ id :: tree.children id

theorem mem_surroundings_iff {id other : NodeId} :
    other ∈ tree.surroundings id ↔
      tree.parent? id = some other ∨ other = id ∨ other ∈ tree.children id := by
  rw [surroundings, List.mem_append, Option.mem_toList, List.mem_cons]

namespace WellFormed

variable (wellFormed : tree.WellFormed)

include wellFormed

/-- What is listed below a node stands together in every walk that lists the node. -/
theorem activeSubtree_infix {start id : NodeId} (listed : id ∈ tree.activeSubtree start) :
    tree.activeSubtree id <:+: tree.activeSubtree start := by
  refine wellFormed.activeSubtree_induction
    (motive := fun id => tree.activeSubtree id <:+: tree.activeSubtree start)
    (isActive_start_of_mem_activeSubtree listed) List.infix_rfl ?_ id listed
  intro id idListed above child member
  refine List.IsInfix.trans ?_ above
  rw [wellFormed.activeSubtree_eq (isActive_of_mem_activeSubtree idListed)]
  exact (List.infix_flatMap_of_mem member _).trans (List.suffix_cons id _).isInfix

theorem activeChildren_sublist (id : NodeId) :
    (tree.activeChildren id).Sublist ((tree.activeChildren id).flatMap tree.activeSubtree) := by
  have each : ∀ child ∈ tree.activeChildren id, [child].Sublist (tree.activeSubtree child) := by
    intro child member
    have active := isActive_of_mem_activeChildren member
    exact List.singleton_sublist.2 (wellFormed.mem_activeSubtree_self active)
  have listed := List.Sublist.flatMap_right (tree.activeChildren id) each
  rw [List.flatMap_singleton'] at listed
  exact listed

theorem filter_children_not_isExcluded {id : NodeId} (included : tree.isExcluded id = false) :
    (tree.children id).filter (!tree.isExcluded ·) = tree.activeChildren id := by
  refine List.filter_congr fun child member => ?_
  have link := wellFormed.parent_of_child id child member
  obtain ⟨node, found⟩ := contains_iff.1 (wellFormed.contains_child member)
  rw [wellFormed.isExcluded_of_parent? link, included, isActive, found]
  simp

theorem filter_children_of_isExcluded {id : NodeId} (excluded : tree.isExcluded id = true) :
    (tree.children id).filter (!tree.isExcluded ·) = [] := by
  refine List.filter_eq_nil_iff.2 fun child member => ?_
  rw [wellFormed.isExcluded_of_parent? (wellFormed.parent_of_child id child member), excluded]
  simp

theorem filter_surroundings_sublist {root id : NodeId} (isRoot : tree.root = some root)
    (live : tree.contains id = true) :
    ((tree.surroundings id).filter (!tree.isExcluded ·)).Sublist (tree.activeSubtree root) := by
  rw [surroundings, List.filter_append]
  cases excluded : tree.isExcluded id with
  | true =>
      -- All that can be left is the parent.
      rw [List.filter_cons_of_neg (by simp [excluded]),
        wellFormed.filter_children_of_isExcluded excluded, List.append_nil]
      cases link : tree.parent? id with
      | none =>
          exact List.nil_sublist _
      | some parent =>
          have parentLive := wellFormed.contains_parent link
          cases parentExcluded : tree.isExcluded parent with
          | true =>
              simp [parentExcluded]
          | false =>
              have listed := wellFormed.mem_activeSubtree_root isRoot parentLive parentExcluded
              simpa [parentExcluded] using listed
  | false =>
      have listed := wellFormed.mem_activeSubtree_root isRoot live excluded
      have active := isActive_of_not_isExcluded live excluded
      have below : (id :: tree.activeChildren id).Sublist (tree.activeSubtree id) := by
        rw [wellFormed.activeSubtree_eq active]
        exact (wellFormed.activeChildren_sublist id).cons_cons id
      rw [List.filter_cons_of_pos (by simp [excluded]),
        wellFormed.filter_children_not_isExcluded excluded]
      cases link : tree.parent? id with
      | none =>
          exact below.trans (wellFormed.activeSubtree_infix listed).sublist
      | some parent =>
          have parentLive := wellFormed.contains_parent link
          have parentIncluded : tree.isExcluded parent = false := by
            rw [wellFormed.isExcluded_of_parent? link, Bool.or_eq_false_iff] at excluded
            exact excluded.2
          have parentListed := wellFormed.mem_activeSubtree_root isRoot parentLive parentIncluded
          have member : id ∈ tree.activeChildren parent :=
            mem_activeChildren_iff.2 ⟨wellFormed.child_of_parent id parent link, active⟩
          have upper : (parent :: id :: tree.activeChildren id).Sublist
              (tree.activeSubtree parent) := by
            rw [wellFormed.activeSubtree_eq (isActive_of_not_isExcluded parentLive parentIncluded)]
            have inBlock := (List.infix_flatMap_of_mem member tree.activeSubtree).sublist
            exact (below.trans inBlock).cons_cons parent
          simpa [parentIncluded] using
            upper.trans (wellFormed.activeSubtree_infix parentListed).sublist

end WellFormed

end ContentTree

end ContentTyping

import ContentTyping.Proofs.Tree.NodeOrigins

/-!
# Handles

A node is named by its slot, and callers keep such handles while they edit the tree. New nodes only go
into slots that no node has had, and an emptied slot stays empty. So over any run of edits of one tree a
handle names the node that it was given out for, or nothing.
-/

namespace ContentTyping.ContentTree

variable {before between after tree : ContentTree}

/-- What a handle of the first tree names in the second one, it has named in the first. -/
structure KeepsHandles (before after : ContentTree) : Prop where
  grown : before.nodes.size ≤ after.nodes.size
  named : ∀ id node, id.index < before.nodes.size → after.get? id = some node →
    ∃ old, before.get? id = some old ∧ node.identifier = old.identifier

namespace KeepsHandles

theorem trans (upper : KeepsHandles before between) (lower : KeepsHandles between after) :
    KeepsHandles before after where
  grown := upper.grown.trans lower.grown
  named id node inSlot found := by
    have middleSlot : id.index < between.nodes.size := Nat.lt_of_lt_of_le inSlot upper.grown
    obtain ⟨middle, middleFound, lowerSame⟩ := lower.named id node middleSlot found
    obtain ⟨old, oldFound, upperSame⟩ := upper.named id middle inSlot middleFound
    exact ⟨old, oldFound, lowerSame.trans upperSame⟩

theorem contains_eq_false (kept : KeepsHandles before after) {id : NodeId}
    (inSlot : id.index < before.nodes.size) (dead : before.contains id = false) :
    after.contains id = false := by
  rw [Bool.eq_false_iff]
  intro live
  obtain ⟨node, found⟩ := contains_iff.1 live
  obtain ⟨old, oldFound, _⟩ := kept.named id node inSlot found
  rw [contains, oldFound] at dead
  exact absurd dead (by simp)

theorem identifier_eq (kept : KeepsHandles before after) {id : NodeId} {old node : Node}
    (oldFound : before.get? id = some old) (found : after.get? id = some node) :
    node.identifier = old.identifier := by
  have inSlot := index_lt_of_contains (contains_iff.2 ⟨old, oldFound⟩)
  obtain ⟨other, otherFound, same⟩ := kept.named id node inSlot found
  rw [oldFound] at otherFound
  rw [same, Option.some.inj otherFound]

theorem of_onlyKept (grown : before.nodes.size ≤ after.nodes.size)
    (kept : OnlyKept Node.identifier before after) : KeepsHandles before after where
  grown := grown
  named id node _ found := kept id node found

theorem refl (tree : ContentTree) : KeepsHandles tree tree :=
  of_onlyKept (Nat.le_refl _) (.refl tree)

theorem modify (id : NodeId) {change : Node → Node}
    (kept : ∀ node, (change node).identifier = node.identifier) :
    KeepsHandles tree (tree.modify id change) :=
  of_onlyKept (Nat.le_of_eq (size_modify id change).symm) (.modify id kept)

theorem dropChild (parent child : NodeId) : KeepsHandles tree (tree.dropChild parent child) :=
  modify parent fun _ => rfl

theorem appendChild (parent child : NodeId) : KeepsHandles tree (tree.appendChild parent child) :=
  modify parent fun _ => rfl

theorem reparent (id oldParent newParent : NodeId) :
    KeepsHandles tree (tree.reparent id oldParent newParent) := by
  have dropped : KeepsHandles tree (tree.dropChild oldParent id) := dropChild oldParent id
  have moved := dropped.trans (appendChild newParent id)
  exact moved.trans (modify id fun _ => rfl)

theorem takeAll (ids : List NodeId) : KeepsHandles tree (takeAll ids tree).2 := by
  apply takeAll_induction (motive := fun next => KeepsHandles tree next)
  · intro next id node _ kept
    apply kept.trans
    exact of_onlyKept (Nat.le_of_eq (size_emptySlot id node).symm) (.emptySlot id node)
  · exact refl tree

theorem withChild {parent : NodeId} (live : tree.contains parent = true) (node : Node) :
    KeepsHandles tree (tree.withChild parent node) where
  grown := by
    rw [size_withChild]
    exact Nat.le_succ _
  named id added inSlot found := by
    have old : id ≠ ⟨tree.nodes.size⟩ := by
      intro same
      rw [same] at inSlot
      exact Nat.lt_irrefl _ inSlot
    have name := identifier_withChild live node id
    rw [if_neg old, found, Option.map_some, eq_comm, Option.map_eq_some_iff] at name
    obtain ⟨other, otherFound, sameName⟩ := name
    exact ⟨other, otherFound, sameName.symm⟩

theorem removeSubtree (id : NodeId) : KeepsHandles tree (tree.removeSubtree id).2 := by
  rw [ContentTree.removeSubtree]
  split
  · exact refl tree
  · split
    · have sameNodes : KeepsHandles tree tree.withoutRoot :=
        of_onlyKept (Nat.le_refl _) fun _ node found => ⟨node, found, rfl⟩
      exact sameNodes.trans (takeAll _)
    · split
      · exact (dropChild _ id).trans (takeAll _)
      · exact refl tree

theorem moveNode {id newParent : NodeId} (moved : tree.moveNode id newParent = .ok after) :
    KeepsHandles tree after := by
  obtain ⟨oldParent, _, _, _, _, isAfter⟩ := moveNode_eq_ok_iff.1 moved
  rw [isAfter]
  exact reparent id oldParent newParent

theorem copySubtree (supply : Supply) (id newParent : NodeId) :
    KeepsHandles tree (tree.copySubtree supply id newParent).2.tree := by
  apply copySubtree_induction (motive := fun state => KeepsHandles tree state.tree)
  · intro state target source node live _ kept
    exact kept.trans (withChild live _)
  · exact refl tree

theorem clearTyping (tree : ContentTree) : KeepsHandles tree tree.clearTyping := by
  apply of_onlyKept
  · rw [ContentTree.clearTyping, Array.size_map]
  · intro id node found
    rw [get?_clearTyping, Option.map_eq_some_iff] at found
    obtain ⟨old, oldFound, isCleared⟩ := found
    refine ⟨old, oldFound, ?_⟩
    rw [← isCleared]
    rfl

end KeepsHandles

namespace Edit

variable {edit : Edit} {state : Copying}

/-- The edit goes on with the tree, where starting over makes another one, and writes no identifiers. -/
def Continues : Edit → Prop
  | .withRoot _ => False
  | .write _ change => ∀ node, (change node).identifier = node.identifier
  | _ => True

/-- An edit keeps the handles, whether it is refused or not. -/
theorem keepsHandles_perform (continues : edit.Continues) :
    KeepsHandles state.tree (edit.perform state).2.tree := by
  cases edit with
  | withRoot node =>
      exact absurd continues id
  | addChild parent node =>
      rw [perform]
      split
      next id next added =>
          obtain ⟨live, _, _, isNext⟩ := addChild_eq_ok_iff.1 added
          rw [isNext]
          exact .withChild live node
      · exact .refl _
  | removeSubtree id =>
      exact .removeSubtree id
  | moveNode id newParent =>
      rw [perform]
      split
      next next moved =>
          exact .moveNode moved
      · exact .refl _
  | copySubtree id newParent =>
      exact .copySubtree state.supply id newParent
  | clearTyping =>
      exact .clearTyping state.tree
  | write id change =>
      exact .modify id continues

theorem keepsHandles_run {edits : List Edit} (continues : ∀ edit ∈ edits, edit.Continues) :
    KeepsHandles state.tree (run edits state).tree := by
  induction edits generalizing state with
  | nil =>
      exact .refl _
  | cons edit rest inductionHypothesis =>
      have first : KeepsHandles state.tree (edit.perform state).2.tree :=
        keepsHandles_perform (continues edit List.mem_cons_self)
      have others : ∀ later ∈ rest, later.Continues :=
        fun later member => continues later (List.mem_cons_of_mem edit member)
      exact first.trans (inductionHypothesis others)

theorem run_append (earlier later : List Edit) (state : Copying) :
    run (earlier ++ later) state = run later (run earlier state) := by
  induction earlier generalizing state with
  | nil =>
      rfl
  | cons edit earlier inductionHypothesis =>
      exact inductionHypothesis (edit.perform state).2

end Edit

end ContentTyping.ContentTree

import ContentTyping.Proofs.Engine.Rewriting
import ContentTyping.Proofs.Tree.Edits

/-!
# Edits and objects

An edit never gives a node another identifier, and never an object. Added nodes come without types and
objects, copies keep the types but not the object. So edits leave the objects of all nodes in line.
-/

namespace ContentTyping

open ContentTree

namespace Node

/-- Nothing is recorded about the typing of the node. -/
structure Untyped (node : Node) : Prop where
  nodeType : node.nodeType = none
  subTypes : node.subTypes = []
  object : node.object = none

/-- What is kept of a node that is edited in place. -/
def typing (node : Node) :
    String × Option String × Option NodeTypeId × List NodeTypeId :=
  (node.identifier, node.object, node.nodeType, node.subTypes)

variable {profile : DomainProfile} {node : Node}

theorem typesDeclared_of_untyped (noType : node.nodeType = none) (noSubTypes : node.subTypes = []) :
    node.TypesDeclared profile where
  primary type isType := by
    rw [noType] at isType
    exact absurd isType (by simp)
  further type member := by
    rw [noSubTypes] at member
    exact absurd member List.not_mem_nil

theorem rewrittenFrom_of_typing {other : Node} {listed : Prop} (same : other.typing = node.typing) :
    node.RewrittenFrom profile listed other := by
  simp only [typing, Prod.mk.injEq] at same
  obtain ⟨sameIdentifier, sameObject, sameType, sameSubTypes⟩ := same
  refine ⟨sameIdentifier, sameObject, fun declared => ⟨?_, ?_⟩, .inr (.inr ⟨sameType, sameSubTypes⟩)⟩
  · rw [sameType]
    exact declared.primary
  · rw [sameSubTypes]
    exact declared.further

end Node

namespace Rewriting

variable {profile : DomainProfile} {ids : List NodeId} {tree : ContentTree}

theorem modify_of_typing (id : NodeId) {change : Node → Node}
    (kept : ∀ node, (change node).typing = node.typing) :
    Rewriting profile ids tree (tree.modify id change) :=
  .modify fun node _ => Node.rewrittenFrom_of_typing (kept node)

theorem withRoot {node : Node} (untyped : node.Untyped) (before : ContentTree) :
    Rewriting profile ids before (ContentTree.withRoot node).2 := by
  intro id other found
  rw [get?_withRoot] at found
  split at found
  · obtain rfl := Option.some.inj found
    exact .inl ⟨untyped.object, Node.typesDeclared_of_untyped untyped.nodeType untyped.subTypes⟩
  · exact absurd found (by simp)

theorem withChild {parent : NodeId} (live : tree.contains parent = true) {node : Node}
    (noObject : node.object = none) (declared : node.TypesDeclared profile) :
    Rewriting profile ids tree (tree.withChild parent node) := by
  intro id other found
  rw [get?_withChild live] at found
  by_cases isNew : id = ⟨tree.nodes.size⟩
  · rw [if_pos isNew] at found
    obtain rfl := Option.some.inj found
    exact .inl ⟨noObject, declared.primary, declared.further⟩
  · rw [if_neg isNew] at found
    right
    by_cases isParent : id = parent
    · rw [if_pos isParent, Option.map_eq_some_iff] at found
      obtain ⟨above, aboveFound, rfl⟩ := found
      rw [isParent]
      exact ⟨above, aboveFound, Node.rewrittenFrom_of_typing rfl⟩
    · rw [if_neg isParent] at found
      exact ⟨other, found, .refl other⟩

theorem emptySlot (id : NodeId) (node : Node) :
    Rewriting profile ids tree (tree.emptySlot id node) := by
  intro other left found
  rw [get?_emptySlot] at found
  split at found
  · exact absurd found (by simp)
  · exact .inr ⟨left, found, .refl left⟩

theorem clearTyping : Rewriting profile ids tree tree.clearTyping := by
  intro id node found
  rw [get?_clearTyping, Option.map_eq_some_iff] at found
  obtain ⟨old, _, rfl⟩ := found
  exact .inl ⟨rfl, Node.typesDeclared_of_untyped rfl rfl⟩

theorem removeSubtree (id : NodeId) : Rewriting profile ids tree (tree.removeSubtree id).2 := by
  have emptied (start : ContentTree) (slots : List NodeId) :
      Rewriting profile ids start (takeAll slots start).2 :=
    takeAll_induction (motive := Rewriting profile ids start)
      (fun _ id node _ before => before.trans (.emptySlot id node)) slots (.refl start)
  rw [ContentTree.removeSubtree]
  split
  · exact .refl tree
  · split
    · exact emptied tree.withoutRoot _
    · split
      next parent _ _ =>
          have detached : Rewriting profile ids tree (tree.dropChild parent id) :=
            .modify_of_typing parent fun _ => rfl
          exact detached.trans (emptied _ _)
      · exact .refl tree

theorem moveNode {id newParent : NodeId} {next : ContentTree}
    (moved : tree.moveNode id newParent = .ok next) : Rewriting profile ids tree next := by
  obtain ⟨oldParent, _, _, _, _, rfl⟩ := moveNode_eq_ok_iff.1 moved
  have dropped : Rewriting profile ids tree (tree.dropChild oldParent id) :=
    .modify_of_typing oldParent fun _ => rfl
  have appended : Rewriting profile ids (tree.dropChild oldParent id)
      ((tree.dropChild oldParent id).appendChild newParent id) :=
    .modify_of_typing newParent fun _ => rfl
  exact (dropped.trans appended).trans (.modify_of_typing id fun _ => rfl)

theorem copySubtree (declared : tree.TypesDeclared profile) (supply : Supply)
    (id newParent : NodeId) :
    Rewriting profile ids tree (tree.copySubtree supply id newParent).2.tree := by
  apply copySubtree_induction (motive := fun state => Rewriting profile ids tree state.tree)
  · intro state target source node live found before
    have copied := before.typesDeclared declared source node found
    exact before.trans (.withChild live rfl ⟨copied.primary, copied.further⟩)
  · exact .refl tree

end Rewriting

namespace ContentTree

/-! ## Refusals -/

theorem noStoreFault_unknownNode {α : Type} (id : NodeId) :
    NoStoreFault (.error (.unknownNode id) : Except Error α) :=
  .error (by simp)

theorem noStoreFault_invalidTreeEdit {α : Type} (fault : EditFault) :
    NoStoreFault (throw (.invalidTreeEdit fault) : Except Error α) :=
  .error (by simp)

theorem noStoreFault_addChild (tree : ContentTree) (parent : NodeId) (node : Node) :
    NoStoreFault (tree.addChild parent node) := by
  refine .bind (ProfileEngine.noStoreFault_node tree parent) fun _ => ?_
  split
  · exact noStoreFault_invalidTreeEdit _
  · exact .ok _

theorem noStoreFault_takeAll (ids : List NodeId) (tree : ContentTree) :
    NoStoreFault (takeAll ids tree).1 := by
  induction ids generalizing tree with
  | nil =>
      exact .ok []
  | cons id rest inductionHypothesis =>
      rw [takeAll]
      split
      · exact .error (by simp)
      · split
        · exact inductionHypothesis tree
        · dsimp only
          split
          · exact .ok _
          next error last failed =>
              exact (inductionHypothesis _).of_error (congrArg Prod.fst failed)

theorem noStoreFault_removeSubtree (tree : ContentTree) (id : NodeId) :
    NoStoreFault (tree.removeSubtree id).1 := by
  rw [removeSubtree]
  split
  · exact noStoreFault_unknownNode id
  · split
    · exact noStoreFault_takeAll _ _
    · split
      · exact noStoreFault_takeAll _ _
      · exact noStoreFault_unknownNode _

theorem noStoreFault_moveNode (tree : ContentTree) (id newParent : NodeId) :
    NoStoreFault (tree.moveNode id newParent) := by
  refine .bind (ProfileEngine.noStoreFault_node tree id) fun node => ?_
  split
  · exact noStoreFault_invalidTreeEdit _
  · refine .bind (ProfileEngine.noStoreFault_node tree newParent) fun _ => ?_
    split
    · exact noStoreFault_invalidTreeEdit _
    · exact .bind (ProfileEngine.noStoreFault_node tree _) fun _ => .ok _

theorem noStoreFault_copyEach {copyOne : NodeId → Copying → Except Error NodeId × Copying}
    (each : ∀ source state, NoStoreFault (copyOne source state).1) (sources : List NodeId)
    (state : Copying) : NoStoreFault (copyEach copyOne sources state).1 := by
  induction sources generalizing state with
  | nil =>
      exact .ok ()
  | cons source rest inductionHypothesis =>
      rw [copyEach]
      split
      next copied =>
          exact inductionHypothesis _
      next error next failed =>
          exact (each source state).of_error (congrArg Prod.fst failed)

theorem noStoreFault_copyBelow (originals : List NodeId) (steps : Nat) (target source : NodeId)
    (state : Copying) : NoStoreFault (copyBelow originals steps target source state).1 := by
  induction steps generalizing target source state with
  | zero =>
      exact noStoreFault_unknownNode source
  | succ steps inductionHypothesis =>
      rw [copyBelow]
      split
      · exact noStoreFault_unknownNode source
      next node _ =>
          dsimp only
          split
          · exact .ok _
          next error last failed =>
              have below := noStoreFault_copyEach
                (inductionHypothesis ⟨state.tree.nodes.size⟩)
              exact (below _ _).of_error (congrArg Prod.fst failed)

theorem noStoreFault_copySubtree (tree : ContentTree) (supply : Supply) (id newParent : NodeId) :
    NoStoreFault (tree.copySubtree supply id newParent).1 := by
  rw [copySubtree]
  split
  · exact noStoreFault_unknownNode id
  · exact noStoreFault_unknownNode newParent
  · exact noStoreFault_copyBelow _ _ _ _ _

namespace Edit

/-! ## Edits -/

/-- Added nodes come without types and objects, and what is written in place is neither an
identifier nor a part of the typing. -/
def LeavesTyping : Edit → Prop
  | .withRoot node => node.Untyped
  | .addChild _ node => node.Untyped
  | .write _ change => ∀ node, (change node).typing = node.typing
  | _ => True

variable {edit : Edit} {state : Copying}

theorem noStoreFault_perform : NoStoreFault (edit.perform state).1 := by
  cases edit with
  | withRoot node =>
      exact .ok ()
  | addChild parent node =>
      rw [perform]
      split
      · exact .ok ()
      next refused =>
          exact (noStoreFault_addChild state.tree parent node).of_error refused
  | removeSubtree id =>
      exact (noStoreFault_removeSubtree state.tree id).map _
  | moveNode id newParent =>
      rw [perform]
      split
      · exact .ok ()
      next refused =>
          exact (noStoreFault_moveNode state.tree id newParent).of_error refused
  | copySubtree id newParent =>
      exact (noStoreFault_copySubtree state.tree state.supply id newParent).map _
  | clearTyping =>
      exact .ok ()
  | write id change =>
      exact .ok ()

theorem perform_grows : state.supply.Grows (edit.perform state).2.supply := by
  cases edit with
  | withRoot node =>
      exact .refl _
  | addChild parent node =>
      rw [perform]
      split
      · exact .refl _
      · exact .refl _
  | removeSubtree id =>
      exact .refl _
  | moveNode id newParent =>
      rw [perform]
      split
      · exact .refl _
      · exact .refl _
  | copySubtree id newParent =>
      exact ⟨name_copySubtree state.supply id newParent,
        used_copySubtree state.supply id newParent⟩
  | clearTyping =>
      exact .refl _
  | write id change =>
      exact .refl _

theorem rewriting_perform {profile : DomainProfile} (leavesTyping : edit.LeavesTyping)
    (declared : state.tree.TypesDeclared profile) :
    Rewriting profile [] state.tree (edit.perform state).2.tree := by
  cases edit with
  | withRoot node =>
      exact .withRoot leavesTyping state.tree
  | addChild parent node =>
      rw [perform]
      split
      next added =>
          obtain ⟨live, _, _, rfl⟩ := addChild_eq_ok_iff.1 added
          exact .withChild live leavesTyping.object
            (Node.typesDeclared_of_untyped leavesTyping.nodeType leavesTyping.subTypes)
      · exact .refl _
  | removeSubtree id =>
      exact .removeSubtree id
  | moveNode id newParent =>
      rw [perform]
      split
      next moved =>
          exact .moveNode moved
      · exact .refl _
  | copySubtree id newParent =>
      exact .copySubtree declared state.supply id newParent
  | clearTyping =>
      exact .clearTyping
  | write id change =>
      exact .modify_of_typing id leavesTyping

end Edit

end ContentTree

end ContentTyping

import ContentTyping.Engine.Retyping
import ContentTyping.Proofs.Engine.Rewriting

/-!
# Operations of an engine

All operations of an engine go the same way: types of some nodes are written, and then the objects of
these nodes are brought in line. So in a memory store whose records are in order the store refuses
none of them, and they leave every object in line, whether they succeed or fail on the way.
-/

namespace ContentTyping

open ContentTree

namespace ProfileEngine

variable {engine : ProfileEngine} {α : Type} {workspace : Workspace MemoryStore}

/-! ## The way of an operation -/

/-- Types are written and the objects of some nodes brought in line, and the outcome is a store fault
only if the store refuses to do that. The tree may be bound to the profile at the end. -/
inductive Retypes (engine : ProfileEngine) (workspace : Workspace MemoryStore) :
    Except Error α × Workspace MemoryStore → Prop where
  | intro {outcome : Except Error α} {last : Workspace MemoryStore} {tree : ContentTree}
      {ids : List NodeId} (rewriting : Rewriting engine.profile ids workspace.tree tree)
      (live : ∀ id ∈ ids, tree.contains id = true)
      (synced : last = (engine.syncObjects ids { workspace with tree := tree }).2 ∨
        last = (engine.syncObjects ids { workspace with tree := tree }).2.bindTo
          engine.profile.identifier)
      (noFault : (engine.syncObjects ids { workspace with tree := tree }).1 = .ok () →
        NoStoreFault outcome) :
      Retypes engine workspace (outcome, last)

namespace Retypes

variable {result : Except Error α × Workspace MemoryStore}

theorem of_unchanged {outcome : Except Error α} (noFault : NoStoreFault outcome) :
    Retypes engine workspace (outcome, workspace) :=
  .intro (.refl workspace.tree) (List.forall_mem_nil _) (.inl rfl) fun _ => noFault

theorem of_syncObjects {tree : ContentTree} {ids : List NodeId}
    (rewriting : Rewriting engine.profile ids workspace.tree tree)
    (live : ∀ id ∈ ids, tree.contains id = true) :
    Retypes engine workspace (engine.syncObjects ids { workspace with tree := tree }) := by
  refine .intro rewriting live (.inl rfl) fun done => ?_
  rw [done]
  exact .ok ()

theorem withOutcome {β : Type} {outcome : Except Error β}
    (retypes : Retypes engine workspace result)
    (noFault : NoStoreFault result.1 → NoStoreFault outcome) :
    Retypes engine workspace (outcome, result.2) := by
  obtain ⟨rewriting, live, synced, firstNoFault⟩ := retypes
  exact .intro rewriting live synced fun done => noFault (firstNoFault done)

theorem bound {outcome : Except Error α} {last : Workspace MemoryStore}
    (retypes : Retypes engine workspace (outcome, last)) :
    Retypes engine workspace (outcome, last.bindTo engine.profile.identifier) := by
  obtain ⟨rewriting, live, synced, noFault⟩ := retypes
  refine .intro rewriting live (.inr ?_) noFault
  rcases synced with rfl | rfl
  · rfl
  · rfl

theorem grows (retypes : Retypes engine workspace result) :
    workspace.supply.Grows result.2.supply := by
  obtain @⟨outcome, last, tree, ids, rewriting, live, synced, noFault⟩ := retypes
  have grows := engine.syncObjects_grows ids { workspace with tree := tree }
  rcases synced with rfl | rfl
  · exact grows
  · exact grows

/-- Objects that are in line stay so, and the store refuses nothing. -/
theorem inLineBut (retypes : Retypes engine workspace result)
    (inLine : workspace.InLineBut engine.profile []) {limit : Nat}
    (distinct : Set.InjOn workspace.supply.name (Set.Iio limit))
    (within : result.2.supply.used ≤ limit) :
    NoStoreFault result.1 ∧ result.2.InLineBut engine.profile [] ∧ workspace.Frame result.2 := by
  obtain @⟨outcome, last, tree, ids, rewriting, live, synced, noFault⟩ := retypes
  have syncedWithin :
      (engine.syncObjects ids { workspace with tree := tree }).2.supply.used ≤ limit := by
    rcases synced with rfl | rfl
    · exact within
    · exact within
  obtain ⟨next, done, nextInLine, frame⟩ :=
    syncObjects_inLineBut (rewriting.inLineBut (.refl _) inLine) live distinct syncedWithin
  have wholeFrame : workspace.Frame next := rewriting.frame.trans frame
  rw [done] at synced noFault
  refine ⟨noFault rfl, ?_⟩
  rcases synced with rfl | rfl
  · exact ⟨nextInLine, wholeFrame⟩
  · exact ⟨nextInLine.bindTo engine.profile.identifier,
      wholeFrame.bindTo engine.profile.identifier⟩

/-- Writing to one node and bringing its object in line. -/
theorem of_syncObject {id : NodeId} {node : Node} {change : Node → Node}
    (found : workspace.tree.get? id = some node)
    (rewritten : node.RewrittenFrom engine.profile True (change node)) :
    Retypes engine workspace (engine.syncObject id (workspace.modifyNode id change)) := by
  have rewriting : Rewriting engine.profile [id] workspace.tree
      (workspace.tree.modify id change) := by
    refine .modify fun other otherFound => ?_
    obtain rfl : node = other := Option.some.inj (found.symm.trans otherFound)
    exact { rewritten with types := .inl List.mem_cons_self }
  have live : ∀ other ∈ [id], (workspace.tree.modify id change).contains other = true := by
    intro other member
    rw [List.mem_singleton.1 member, contains_modify]
    exact contains_iff.2 ⟨node, found⟩
  have single : engine.syncObjects [id] (workspace.modifyNode id change) =
      engine.syncObject id (workspace.modifyNode id change) := by
    rw [syncObjects]
    split
    next synced =>
        rw [synced]
        rfl
    next synced =>
        rw [synced]
  rw [← single]
  exact of_syncObjects rewriting live

end Retypes

/-! ## Typing by hand -/

theorem retypes_setNodeType (id : NodeId) (type : NodeTypeId) :
    Retypes engine workspace (engine.setNodeType id type workspace) := by
  rw [setNodeType]
  split
  next error unfit =>
      exact .of_unchanged (noStoreFault_checkFit.of_error unfit)
  next node fits =>
      obtain ⟨declared, found⟩ := checkFit_ok fits
      have retypes := @Retypes.of_syncObject engine workspace id node
        (retype type (engine.relationFor workspace.tree node type)) found
        { identifier := rfl
          object := rfl
          declared := fun before => before.retyped declared rfl rfl
          types := .inl trivial }
      dsimp only
      split
      next synced =>
          rw [synced] at retypes
          exact retypes
      next synced =>
          rw [synced] at retypes
          exact retypes.bound

theorem retypes_addSubType (id : NodeId) (type : NodeTypeId) :
    Retypes engine workspace (engine.addSubType id type workspace) := by
  rw [addSubType]
  split
  next error unfit =>
      exact .of_unchanged (noStoreFault_checkFit.of_error unfit)
  next node fits =>
      obtain ⟨declared, found⟩ := checkFit_ok fits
      split
      · exact .of_unchanged (.ok ())
      · refine .of_syncObject found ⟨rfl, rfl, fun before => ⟨before.primary, ?_⟩, .inl trivial⟩
        intro other member
        rcases List.mem_append.1 member with old | new
        · exact before.further other old
        · rw [List.mem_singleton.1 new]
          exact declared

theorem retypes_removeSubType (id : NodeId) (type : NodeTypeId) :
    Retypes engine workspace (engine.removeSubType id type workspace) := by
  rw [removeSubType]
  split
  next error mismatch =>
      exact .of_unchanged ((engine.noStoreFault_checkBinding _).of_error mismatch)
  next error _ unknown =>
      exact .of_unchanged ((noStoreFault_node _ _).of_error unknown)
  next node _ isNode =>
      split
      · refine .of_syncObject (node_eq_ok_iff.1 isNode)
          ⟨rfl, rfl, fun before => ⟨before.primary, ?_⟩, .inl trivial⟩
        intro other member
        exact before.further other (List.mem_filter.1 member).1
      · exact .of_unchanged (.ok ())

/-! ## Transforms -/

theorem retypes_applyTransform (declared : engine.profile.TransformsDeclared) (id : NodeId)
    (transform : TransformId) :
    Retypes engine workspace (engine.applyTransform id transform workspace) := by
  rw [applyTransform]
  split
  next error mismatch =>
      exact .of_unchanged ((engine.noStoreFault_checkBinding _).of_error mismatch)
  next error _ unknown =>
      exact .of_unchanged ((noStoreFault_node _ _).of_error unknown)
  next node _ isNode =>
      split
      · exact .of_unchanged (.error (by simp))
      next definition isDefined =>
          split
          · have resultDeclared := declared transform definition isDefined
            exact .of_syncObject (node_eq_ok_iff.1 isNode)
              ⟨rfl, rfl, fun before => before.retyped resultDeclared rfl rfl, .inl trivial⟩
          · exact .of_unchanged (.error (by simp))

/-! ## Assignments -/

theorem rewriting_written {tree : ContentTree} {placements : List Placement}
    {untyped : List NodeId}
    (declared : ∀ placement ∈ placements, engine.profile.defines placement.nodeType = true) :
    Rewriting engine.profile (placements.map Placement.node) tree
      (untyped.foldl eraseType (placements.foldl writePlacement tree)) := by
  have typed : Rewriting engine.profile (placements.map Placement.node) tree
      (placements.foldl writePlacement tree) := by
    refine .foldl (fun placement member between => ?_) tree
    exact .modify fun node _ => ⟨rfl, rfl, fun before => before.retyped (declared placement member)
      rfl rfl, .inl (List.mem_map_of_mem member)⟩
  have erased : Rewriting engine.profile (placements.map Placement.node)
      (placements.foldl writePlacement tree)
      (untyped.foldl eraseType (placements.foldl writePlacement tree)) := by
    refine .foldl (fun id _ between => ?_) _
    refine .modify fun node _ => ⟨rfl, rfl, fun before => ⟨?_, before.further⟩, .inr (.inl rfl)⟩
    intro type isType
    exact absurd isType (by simp)
  exact typed.trans erased

theorem retypes_writePlacements {placements : List Placement} (untyped : List NodeId)
    (declared : ∀ placement ∈ placements, engine.profile.defines placement.nodeType = true)
    (live : ∀ placement ∈ placements, workspace.tree.contains placement.node = true) :
    Retypes engine workspace (engine.writePlacements placements untyped workspace) := by
  have writtenLive : ∀ id ∈ placements.map Placement.node,
      (untyped.foldl eraseType (placements.foldl writePlacement workspace.tree)).contains id =
        true := by
    intro id member
    obtain ⟨placement, placed, rfl⟩ := List.mem_map.1 member
    have sameLinks := agreeOn_written (fun _ _ => rfl : ∀ edge node,
      Node.links (Node.typedAs edge node) = Node.links node) placements untyped workspace.tree
    rw [sameLinks.contains]
    exact live placement placed
  have retypes := Retypes.of_syncObjects (rewriting_written declared) writtenLive
  rw [writePlacements]
  split
  next synced =>
      rw [synced] at retypes
      exact retypes
  next synced =>
      rw [synced] at retypes
      split
      · exact retypes
      · exact retypes.bound

theorem retypes_carryOut {plan : Plan}
    (declared : ∀ placement ∈ plan.placements, engine.profile.defines placement.nodeType = true)
    (live : ∀ placement ∈ plan.placements, workspace.tree.contains placement.node = true) :
    Retypes engine workspace (engine.carryOut plan workspace) := by
  cases plan with
  | complete placements =>
      have retypes : Retypes engine workspace (engine.writePlacements placements [] workspace) :=
        retypes_writePlacements [] declared live
      rw [carryOut]
      split
      next written =>
          rw [written] at retypes
          exact retypes.withOutcome fun noFault => noFault.of_error rfl
      next written =>
          rw [written] at retypes
          exact retypes.withOutcome fun _ => .ok _
  | blocked placements untyped blocked obstacle =>
      have retypes :
          Retypes engine workspace (engine.writePlacements placements untyped workspace) :=
        retypes_writePlacements untyped declared live
      have blockedFault (identifier : String) :
          NoStoreFault (.error (.noEligibleType identifier obstacle) :
            Except Error AssignmentReport) :=
        .error (by simp)
      rw [carryOut]
      split
      next unknown =>
          exact .of_unchanged ((noStoreFault_node _ _).of_error unknown)
      next node _ =>
          split
          · exact .of_unchanged (blockedFault node.identifier)
          · split
            next written =>
                rw [written] at retypes
                exact retypes.withOutcome fun noFault => noFault.of_error rfl
            next written =>
                rw [written] at retypes
                exact retypes.withOutcome fun _ => blockedFault node.identifier

theorem retypes_assignNodeTypes (start : NodeId) :
    Retypes engine workspace (engine.assignNodeTypes start workspace) := by
  rw [assignNodeTypes]
  split
  next mismatch =>
      exact .of_unchanged ((engine.noStoreFault_checkBinding _).of_error mismatch)
  next unknown =>
      exact .of_unchanged ((noStoreFault_node _ _).of_error unknown)
  next node _ isNode =>
      have live : workspace.tree.contains start = true :=
        contains_iff.2 ⟨node, node_eq_ok_iff.1 isNode⟩
      split
      · exact .of_unchanged (.ok _)
      · split
        next unfit =>
            exact .of_unchanged ((engine.noStoreFault_parentTypeOf _ _).of_error unfit)
        next parentType _ =>
            exact retypes_carryOut (fun _ => DomainProfile.defines_of_mem_plan)
              (DomainProfile.contains_of_mem_plan live parentType)

theorem retypes_assignTree : Retypes engine workspace (engine.assignTree workspace) := by
  rw [assignTree]
  split
  · exact .of_unchanged (.error (by simp))
  next root _ =>
      exact retypes_assignNodeTypes root

end ProfileEngine

end ContentTyping

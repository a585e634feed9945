import ContentTyping.Proofs.Engine.Assignment
import ContentTyping.Proofs.Engine.Lockstep

/-!
# Operations in step

An engine makes the same operation on two workspaces that correspond. Whether it succeeds or fails, it
has the same outcome in both, and they correspond as before. The names that are told apart have to reach
as far as the operation draws.
-/

namespace ContentTyping

open ContentTree

namespace ProfileEngine

variable {rename : String → String} {first second : Nat → String} {bound : Nat}
  {records : Workspace MemoryStore} {triples : Workspace TripleStore} {engine : ProfileEngine}

/-! ## Assignment -/

theorem writePlacements_supply {S : Type} [ObjectStore S] (placements : List Placement)
    (untyped : List NodeId) (workspace : Workspace S) :
    (engine.writePlacements placements untyped workspace).2.supply =
      (engine.syncObjects (placements.map Placement.node)
        { workspace with
          tree := untyped.foldl eraseType (placements.foldl writePlacement workspace.tree)
        }).2.supply := by
  rw [writePlacements]
  split
  next synced =>
      rw [synced]
  next synced =>
      rw [synced]
      split
      · rfl
      · rfl

theorem carryOut_complete_supply {S : Type} [ObjectStore S] (placements : List Placement)
    (workspace : Workspace S) :
    (engine.carryOut (.complete placements) workspace).2.supply =
      (engine.writePlacements placements [] workspace).2.supply := by
  rw [carryOut]
  split
  next written => rw [written]
  next written => rw [written]

theorem written_renameObjects (placements : List Placement) (untyped : List NodeId)
    (tree : ContentTree) :
    untyped.foldl eraseType (placements.foldl writePlacement (tree.renameObjects rename)) =
      (untyped.foldl eraseType (placements.foldl writePlacement tree)).renameObjects rename := by
  have writes (tree : ContentTree) (placement : Placement) :
      writePlacement (tree.renameObjects rename) placement =
        (writePlacement tree placement).renameObjects rename :=
    renameObjects_modify placement.node fun _ => rfl
  have erases (tree : ContentTree) (id : NodeId) :
      eraseType (tree.renameObjects rename) id = (eraseType tree id).renameObjects rename :=
    renameObjects_modify id fun _ => rfl
  rw [List.foldl_hom (renameObjects rename) writes, List.foldl_hom (renameObjects rename) erases]

section Assigning

variable (renames : Renames rename first second bound) (absolute : engine.profile.HasAbsoluteTypes)
  (twins : Twins rename first second records triples)

include renames absolute twins

theorem inStep_writePlacements (placements : List Placement) (untyped : List NodeId)
    (within : (engine.writePlacements placements untyped records).2.supply.used ≤ bound) :
    InStep rename first second (engine.writePlacements placements untyped records)
      (engine.writePlacements placements untyped triples) := by
  have agree : AgreeOn Node.object
      (untyped.foldl eraseType (placements.foldl writePlacement records.tree)) records.tree :=
    agreeOn_written (fun _ _ => rfl) placements untyped records.tree
  have started := twins.withTree (twins.drawn.of_agreeOn agree)
  rw [← written_renameObjects, ← twins.tree] at started
  rw [writePlacements_supply] at within
  have synced := inStep_syncObjects renames absolute started (placements.map Placement.node) within
  rw [writePlacements, writePlacements]
  obtain ⟨error, next, otherNext, isRecords, isTriples, nextTwins⟩ |
    ⟨done, next, otherNext, isRecords, isTriples, nextTwins⟩ := synced.cases
  · rw [isRecords, isTriples]
    exact ⟨rfl, nextTwins⟩
  · rw [isRecords, isTriples]
    refine ⟨rfl, ?_⟩
    cases placements with
    | nil => exact nextTwins
    | cons => exact nextTwins.bindTo engine.profile.identifier

theorem inStep_complete (placements : List Placement)
    (within : (engine.carryOut (.complete placements) records).2.supply.used ≤ bound) :
    InStep rename first second (engine.carryOut (.complete placements) records)
      (engine.carryOut (.complete placements) triples) := by
  rw [carryOut_complete_supply] at within
  have written := inStep_writePlacements renames absolute twins placements [] within
  rw [carryOut, carryOut]
  obtain ⟨error, next, otherNext, isRecords, isTriples, nextTwins⟩ |
    ⟨done, next, otherNext, isRecords, isTriples, nextTwins⟩ := written.cases
  · rw [isRecords, isTriples]
    exact ⟨rfl, nextTwins⟩
  · rw [isRecords, isTriples]
    refine ⟨?_, nextTwins⟩
    simp only [nextTwins.tree, any_object_renameObjects]

theorem inStep_blocked (placements : List Placement) (untyped : List NodeId) (id : NodeId)
    (obstacle : Obstacle)
    (within : (engine.carryOut (.blocked placements untyped id obstacle) records).2.supply.used
      ≤ bound) :
    InStep rename first second (engine.carryOut (.blocked placements untyped id obstacle) records)
      (engine.carryOut (.blocked placements untyped id obstacle) triples) := by
  rw [carryOut] at within ⊢
  rw [carryOut, twins.node]
  cases isNode : records.tree.node id with
  | error error =>
      exact ⟨rfl, twins⟩
  | ok node =>
      simp only [isNode, Except.map] at within ⊢
      split
      · exact ⟨rfl, twins⟩
      next keepsPartial =>
          rw [if_neg keepsPartial] at within
          have written := inStep_writePlacements renames absolute twins placements untyped
          cases isWritten : engine.writePlacements placements untyped records with
          | mk outcome last =>
              rw [isWritten] at within written
              have lastWithin : last.supply.used ≤ bound := by
                cases outcome with
                | error error => exact within
                | ok _ => exact within
              obtain ⟨error, next, otherNext, isRecords, isTriples, nextTwins⟩ |
                ⟨done, next, otherNext, isRecords, isTriples, nextTwins⟩ := (written lastWithin).cases
              · rw [isRecords, isTriples]
                exact ⟨rfl, nextTwins⟩
              · rw [isRecords, isTriples]
                exact ⟨rfl, nextTwins⟩

theorem inStep_carryOut (plan : Plan)
    (within : (engine.carryOut plan records).2.supply.used ≤ bound) :
    InStep rename first second (engine.carryOut plan records) (engine.carryOut plan triples) := by
  cases plan with
  | complete placements =>
      exact inStep_complete renames absolute twins placements within
  | blocked placements untyped id obstacle =>
      exact inStep_blocked renames absolute twins placements untyped id obstacle within

theorem inStep_assignNodeTypes (start : NodeId)
    (within : (engine.assignNodeTypes start records).2.supply.used ≤ bound) :
    InStep rename first second (engine.assignNodeTypes start records)
      (engine.assignNodeTypes start triples) := by
  have nodes := twins.only.nodes
  rw [assignNodeTypes] at within ⊢
  rw [assignNodeTypes, engine.checkBinding_eq_of_objectsOnly twins.only, twins.node,
    nodes.links.isExcluded]
  cases isBound : engine.checkBinding records.tree with
  | error error =>
      exact ⟨rfl, twins⟩
  | ok _ =>
      cases isNode : records.tree.node start with
      | error error =>
          exact ⟨rfl, twins⟩
      | ok node =>
          simp only [isBound, isNode, Except.map, twins.parentTypeOf] at within ⊢
          split
          · exact ⟨rfl, twins⟩
          next searched =>
              rw [if_neg searched] at within
              cases isParentType : engine.parentTypeOf records.tree node with
              | error error =>
                  exact ⟨rfl, twins⟩
              | ok parentType =>
                  simp only [isParentType] at within ⊢
                  rw [DomainProfile.plan_eq_of_agreeOn nodes]
                  exact inStep_carryOut renames absolute twins _ within

theorem inStep_assignTree (within : (engine.assignTree records).2.supply.used ≤ bound) :
    InStep rename first second (engine.assignTree records) (engine.assignTree triples) := by
  rw [assignTree] at within ⊢
  rw [assignTree, twins.only.root]
  cases isRoot : records.tree.root with
  | none =>
      exact ⟨rfl, twins⟩
  | some root =>
      rw [isRoot] at within
      exact inStep_assignNodeTypes renames absolute twins root within

/-! ## Calls on one node -/

theorem inStep_written (id : NodeId) {change : Node → Node}
    (natural : ∀ node, change (node.renameObject rename) = (change node).renameObject rename)
    (sameObject : ∀ node, (change node).object = node.object)
    (within : (engine.syncObject id (records.modifyNode id change)).2.supply.used ≤ bound) :
    InStep rename first second (engine.syncObject id (records.modifyNode id change))
      (engine.syncObject id (triples.modifyNode id change)) := by
  have written := twins.modifyNode id natural fun node object isObject =>
    .inl ((sameObject node).symm.trans isObject)
  exact inStep_syncObject renames absolute written id within

theorem inStep_setNodeType (id : NodeId) (type : NodeTypeId)
    (within : (engine.setNodeType id type records).2.supply.used ≤ bound) :
    InStep rename first second (engine.setNodeType id type records)
      (engine.setNodeType id type triples) := by
  rw [setNodeType] at within ⊢
  rw [setNodeType, twins.checkFit]
  cases fits : engine.checkFit records.tree id type
      fun definition => .typeRefused definition.label definition.fileAssociation with
  | error error =>
      exact ⟨rfl, twins⟩
  | ok node =>
      simp only [fits, Except.map, twins.relationFor] at within ⊢
      let relation := engine.relationFor records.tree node type
      have lastWithin : (engine.syncObject id
          (records.modifyNode id (retype type relation))).2.supply.used ≤ bound := by
        split at within
        next synced =>
            rw [synced]
            exact within
        next synced =>
            rw [synced]
            exact within
      have natural (node : Node) : retype type relation (node.renameObject rename) =
          (retype type relation node).renameObject rename := rfl
      have synced := inStep_written renames absolute twins id natural (fun _ => rfl) lastWithin
      obtain ⟨error, next, otherNext, isRecords, isTriples, nextTwins⟩ |
        ⟨done, next, otherNext, isRecords, isTriples, nextTwins⟩ := synced.cases
      · rw [isRecords, isTriples]
        exact ⟨rfl, nextTwins⟩
      · rw [isRecords, isTriples]
        exact ⟨rfl, nextTwins.bindTo engine.profile.identifier⟩

theorem inStep_addSubType (id : NodeId) (type : NodeTypeId)
    (within : (engine.addSubType id type records).2.supply.used ≤ bound) :
    InStep rename first second (engine.addSubType id type records)
      (engine.addSubType id type triples) := by
  rw [addSubType] at within ⊢
  rw [addSubType, twins.checkFit]
  cases fits : engine.checkFit records.tree id type
      fun definition => .subTypeRefused definition.label definition.fileAssociation with
  | error error =>
      exact ⟨rfl, twins⟩
  | ok node =>
      have sameType : (node.renameObject rename).nodeType = node.nodeType := rfl
      have sameSubTypes : (node.renameObject rename).subTypes = node.subTypes := rfl
      simp only [fits, Except.map, sameType, sameSubTypes] at within ⊢
      split
      · exact ⟨rfl, twins⟩
      next isNew =>
          rw [if_neg isNew] at within
          exact inStep_written renames absolute twins id (fun _ => rfl) (fun _ => rfl) within

theorem inStep_removeSubType (id : NodeId) (type : NodeTypeId)
    (within : (engine.removeSubType id type records).2.supply.used ≤ bound) :
    InStep rename first second (engine.removeSubType id type records)
      (engine.removeSubType id type triples) := by
  rw [removeSubType] at within ⊢
  rw [removeSubType, engine.checkBinding_eq_of_objectsOnly twins.only, twins.node]
  cases isBound : engine.checkBinding records.tree with
  | error error =>
      exact ⟨rfl, twins⟩
  | ok _ =>
      cases isNode : records.tree.node id with
      | error error =>
          exact ⟨rfl, twins⟩
      | ok node =>
          have sameSubTypes : (node.renameObject rename).subTypes = node.subTypes := rfl
          simp only [isBound, isNode, Except.map, sameSubTypes] at within ⊢
          split
          next carried =>
              rw [if_pos carried] at within
              exact inStep_written renames absolute twins id (fun _ => rfl) (fun _ => rfl) within
          · exact ⟨rfl, twins⟩

theorem inStep_applyTransform (id : NodeId) (transform : TransformId)
    (within : (engine.applyTransform id transform records).2.supply.used ≤ bound) :
    InStep rename first second (engine.applyTransform id transform records)
      (engine.applyTransform id transform triples) := by
  rw [applyTransform] at within ⊢
  rw [applyTransform, engine.checkBinding_eq_of_objectsOnly twins.only, twins.node]
  cases isBound : engine.checkBinding records.tree with
  | error error =>
      exact ⟨rfl, twins⟩
  | ok _ =>
      cases isNode : records.tree.node id with
      | error error =>
          exact ⟨rfl, twins⟩
      | ok node =>
          simp only [isBound, isNode, Except.map] at within ⊢
          cases isDefined : engine.profile.transform? transform with
          | none =>
              exact ⟨rfl, twins⟩
          | some definition =>
              simp only [isDefined] at within ⊢
              rw [DomainProfile.isLegal_eq_of_agreeOn twins.only.nodes]
              split
              next legal =>
                  rw [if_pos legal] at within
                  exact inStep_written renames absolute twins id (fun _ => rfl) (fun _ => rfl) within
              · exact ⟨rfl, twins⟩

theorem inStep_applyTransformByLabel (id : NodeId) (label : String)
    (within : (engine.applyTransformByLabel id label records).2.supply.used ≤ bound) :
    InStep rename first second (engine.applyTransformByLabel id label records)
      (engine.applyTransformByLabel id label triples) := by
  rw [applyTransformByLabel] at within ⊢
  rw [applyTransformByLabel, twins.nodeName]
  cases isFound : engine.profile.findTransform label with
  | none =>
      exact ⟨rfl, twins⟩
  | some transform =>
      rw [isFound] at within
      exact inStep_applyTransform renames absolute twins id transform within

end Assigning

end ProfileEngine

end ContentTyping

import ContentTyping.Proofs.Engine.ObjectsInLine

/-!
# Bringing objects in line

What the syncing of one node does, case by case, and that with enough new names it never fails in a
memory store whose records are in order. A run over several nodes leaves all of them in line.
-/

namespace ContentTyping.ProfileEngine

open ContentTree

variable {engine : ProfileEngine} {id : NodeId} {node : Node} {primary : NodeTypeId}
  {types : List String} {object : String}

theorem recordTypes_eq {workspace : Workspace MemoryStore} {record : ObjectRecord}
    (found : workspace.store.record? object = some record) :
    recordTypes id object types workspace =
      (.ok (),
        { tree := workspace.tree.modify id fun node => { node with object := some object }
          store := workspace.store.put object { record with types := types }
          supply := workspace.supply }) := by
  rw [recordTypes, MemoryStore.setTypes_eq_put found]
  rfl

theorem syncObject_of_object {S : Type} [ObjectStore S] {workspace : Workspace S}
    (found : workspace.tree.get? id = some node)
    (declared : node.TypesDeclared engine.profile) (isType : node.nodeType = some primary)
    (haveTypes : engine.profile.domainTypes? primary node.subTypes = some types)
    (isObject : node.object = some object) :
    engine.syncObject id workspace = recordTypes id object types workspace := by
  have isPrimary := declared.filter_nodeType.trans isType
  simp [syncObject, found, isPrimary, declared.filter_subTypes, haveTypes, isObject]

theorem syncObject_of_new {workspace : Workspace MemoryStore}
    (found : workspace.tree.get? id = some node)
    (declared : node.TypesDeclared engine.profile) (isType : node.nodeType = some primary)
    (haveTypes : engine.profile.domainTypes? primary node.subTypes = some types)
    (noObject : node.object = none) (nonempty : types.isEmpty = false) :
    engine.syncObject id workspace =
      recordTypes id workspace.supply.draw.1 types
        { workspace with
          store := workspace.store.register workspace.supply.draw.1 node.identifier
          supply := workspace.supply.draw.2 } := by
  have isPrimary := declared.filter_nodeType.trans isType
  simp [syncObject, found, isPrimary, declared.filter_subTypes, haveTypes, noObject, nonempty,
    ObjectStore.createOrReuse, objectName]

theorem syncObject_of_no_classes {S : Type} [ObjectStore S] {workspace : Workspace S}
    (found : workspace.tree.get? id = some node)
    (declared : node.TypesDeclared engine.profile) (isType : node.nodeType = some primary)
    (haveTypes : engine.profile.domainTypes? primary node.subTypes = some types)
    (noObject : node.object = none) (empty : types.isEmpty = true) :
    engine.syncObject id workspace = (.ok (), workspace) := by
  have isPrimary := declared.filter_nodeType.trans isType
  simp [syncObject, found, isPrimary, declared.filter_subTypes, haveTypes, noObject, empty]

theorem syncObject_of_untyped {S : Type} [ObjectStore S] {workspace : Workspace S}
    (found : workspace.tree.get? id = some node) (untyped : node.nodeType = none) :
    engine.syncObject id workspace = (.ok (), workspace) := by
  simp [syncObject, found, untyped]

theorem recordTypes_supply {S : Type} [ObjectStore S] (id : NodeId) (object : String)
    (types : List String) (workspace : Workspace S) :
    (recordTypes id object types workspace).2.supply = workspace.supply := by
  rw [recordTypes]
  split
  · rfl
  · rfl

theorem syncObject_grows (id : NodeId) (workspace : Workspace MemoryStore) :
    workspace.supply.Grows (engine.syncObject id workspace).2.supply := by
  rw [syncObject]
  split
  · exact .refl _
  · split
    · exact .refl _
    · split
      · exact .refl _
      · split
        · rw [recordTypes_supply]
          exact .refl _
        next noObject =>
            split
            · exact .refl _
            · simp only [ObjectStore.createOrReuse, objectName, noObject]
              rw [recordTypes_supply]
              exact .draw _

theorem syncObjects_grows (ids : List NodeId) (workspace : Workspace MemoryStore) :
    workspace.supply.Grows (engine.syncObjects ids workspace).2.supply := by
  induction ids generalizing workspace with
  | nil =>
      exact .refl _
  | cons id ids inductionHypothesis =>
      have step := engine.syncObject_grows id workspace
      rw [syncObjects]
      split
      next next synced =>
          rw [synced] at step
          exact step.trans (inductionHypothesis next)
      next next synced =>
          rw [synced] at step
          exact step

variable {workspace : Workspace MemoryStore} {pending : List NodeId} {bound : Nat}

/-- Either nothing is done, for a node without a type or without an object, or the object is given
its classes. -/
theorem exists_synced (inLine : workspace.InLineBut engine.profile pending)
    (found : workspace.tree.get? id = some node)
    (distinct : Set.InjOn workspace.supply.name (Set.Iio bound))
    (within : (engine.syncObject id workspace).2.supply.used ≤ bound) :
    (engine.syncObject id workspace = (.ok (), workspace) ∧
      (node.nodeType = none ∨ node.object = none)) ∨
    ∃ after object, engine.syncObject id workspace = (.ok (), after) ∧
      workspace.Synced engine.profile id node object after := by
  have declared := inLine.declared id node found
  cases isType : node.nodeType with
  | none =>
      exact .inl ⟨syncObject_of_untyped found isType, .inl rfl⟩
  | some primary =>
      obtain ⟨types, haveTypes⟩ := declared.exists_domainTypes? isType
      have ofPrimary : ∀ other, some primary = some other →
          engine.profile.domainTypes? other node.subTypes = some types := by
        intro other same
        rw [← Option.some.inj same, haveTypes]
      cases isObject : node.object with
      | some object =>
          right
          obtain ⟨record, isRecord, sameNode⟩ := inLine.recorded id node found object isObject
          have synced := syncObject_of_object found declared isType haveTypes isObject
          refine ⟨_, object, synced.trans (recordTypes_eq isRecord), rfl,
            ⟨{ record with types := types }, ?_, sameNode, ?_⟩, ?_, ?_⟩
          · rw [MemoryStore.record?_put, if_pos rfl]
          · rw [isType]
            exact ofPrimary
          · intro other different
            rw [MemoryStore.record?_put, if_neg different]
          · exact .inl ⟨isObject, rfl⟩
      | none =>
          cases empty : types.isEmpty with
          | true =>
              exact .inl ⟨syncObject_of_no_classes found declared isType haveTypes isObject empty,
                .inr rfl⟩
          | false =>
              right
              have synced := syncObject_of_new found declared isType haveTypes isObject empty
              rw [synced, recordTypes_supply] at within
              have fresh := inLine.not_contains_draw distinct within
              have registered : (workspace.store.register workspace.supply.draw.1
                  node.identifier).record? workspace.supply.draw.1 =
                  some ⟨node.identifier, [], ∅⟩ := by
                rw [MemoryStore.register_eq_put fresh, MemoryStore.record?_put, if_pos rfl]
              refine ⟨_, workspace.supply.draw.1, synced.trans (recordTypes_eq registered), rfl,
                ⟨⟨node.identifier, types, ∅⟩, ?_, rfl, ?_⟩, ?_, ?_⟩
              · rw [MemoryStore.record?_put, if_pos rfl]
              · rw [isType]
                exact ofPrimary
              · intro other different
                rw [MemoryStore.record?_put, if_neg different,
                  MemoryStore.register_eq_put fresh, MemoryStore.record?_put, if_neg different]
              · exact .inr ⟨isObject, fresh, rfl, rfl⟩

/-- Nothing pending is left of a node when its object has been brought in line. -/
theorem syncObject_inLineBut (inLine : workspace.InLineBut engine.profile (id :: pending))
    (live : workspace.tree.contains id = true)
    (distinct : Set.InjOn workspace.supply.name (Set.Iio bound))
    (within : (engine.syncObject id workspace).2.supply.used ≤ bound) :
    ∃ next, engine.syncObject id workspace = (.ok (), next) ∧
      next.InLineBut engine.profile pending ∧ workspace.Frame next := by
  obtain ⟨node, found⟩ := contains_iff.1 live
  rcases exists_synced inLine found distinct within with ⟨same, nothing⟩ | ⟨next, object, done, synced⟩
  · refine ⟨workspace, same, { inLine with follow := ?_ }, .refl _⟩
    intro other otherNode otherFound notPending
    by_cases isNode : other = id
    · subst isNode
      obtain rfl : node = otherNode := Option.some.inj (found.symm.trans otherFound)
      intro primary object isType isObject
      rcases nothing with untyped | noObject
      · rw [untyped] at isType
        exact absurd isType (by simp)
      · rw [noObject] at isObject
        exact absurd isObject (by simp)
    · exact inLine.follow other otherNode otherFound
        (List.not_mem_cons_of_ne_of_not_mem isNode notPending)
  · exact ⟨next, done, synced.inLineBut inLine found, synced.frame found⟩

theorem syncObjects_inLineBut {ids : List NodeId}
    (inLine : workspace.InLineBut engine.profile ids)
    (live : ∀ id ∈ ids, workspace.tree.contains id = true)
    (distinct : Set.InjOn workspace.supply.name (Set.Iio bound))
    (within : (engine.syncObjects ids workspace).2.supply.used ≤ bound) :
    ∃ last, engine.syncObjects ids workspace = (.ok (), last) ∧
      last.InLineBut engine.profile [] ∧ workspace.Frame last := by
  induction ids generalizing workspace with
  | nil =>
      exact ⟨workspace, rfl, inLine, .refl _⟩
  | cons id ids inductionHypothesis =>
      have grows := engine.syncObject_grows id workspace
      have only := engine.syncObject_objectsOnly id workspace
      have isLive := live id List.mem_cons_self
      have stepWithin : (engine.syncObject id workspace).2.supply.used ≤ bound := by
        refine Nat.le_trans ?_ within
        rw [syncObjects]
        split
        next next synced =>
            rw [synced]
            exact (engine.syncObjects_grows ids next).used
        next next synced =>
            rw [synced]
      obtain ⟨next, synced, nextInLine, stepFrame⟩ :=
        syncObject_inLineBut inLine isLive distinct stepWithin
      rw [syncObjects, synced] at within
      rw [synced] at grows only
      rw [syncObjects, synced]
      have nextLive : ∀ later ∈ ids, next.tree.contains later = true := by
        intro later member
        rw [only.contains]
        exact live later (List.mem_cons_of_mem id member)
      have nextDistinct : Set.InjOn next.supply.name (Set.Iio bound) := by
        rw [grows.name]
        exact distinct
      obtain ⟨last, done, lastInLine, restFrame⟩ :=
        inductionHypothesis nextInLine nextLive nextDistinct within
      exact ⟨last, done, lastInLine, stepFrame.trans restFrame⟩

end ContentTyping.ProfileEngine

import ContentTyping.Proofs.Engine.PartialTyping
import ContentTyping.Proofs.Engine.Settled

/-!
# Failures under rollback

An engine that rolls back writes no blocked plan, and a call that is refused before the search changes
nothing. But types are written before objects: when a complete plan meets an object that the store
does not know, the call fails with the types of all nodes written already.
-/

namespace ContentTyping

open ContentTree

namespace ProfileEngine

variable {engine : ProfileEngine} {workspace last : Workspace MemoryStore} {start id : NodeId}
  {error : Error}

/-! ## Objects that the store does not know -/

/-- Nothing is forgotten by the store, and objects that it does not know have been on their nodes
before. -/
structure KeepsUnknown (before after : Workspace MemoryStore) : Prop where
  stays : ∀ object, before.store.contains object = true → after.store.contains object = true
  unknown : ∀ id object, after.tree.object? id = some object →
    after.store.contains object = false → before.tree.object? id = some object

theorem KeepsUnknown.refl (workspace : Workspace MemoryStore) : KeepsUnknown workspace workspace :=
  ⟨fun _ stored => stored, fun _ _ held _ => held⟩

theorem KeepsUnknown.not_stored {before after : Workspace MemoryStore}
    (keeps : KeepsUnknown before after) {object : String}
    (notStored : after.store.contains object = false) :
    before.store.contains object = false := by
  cases stored : before.store.contains object with
  | false =>
      rfl
  | true =>
      rw [keeps.stays object stored] at notStored
      exact absurd notStored (by simp)

theorem KeepsUnknown.of_given {profile : DomainProfile} {object : String}
    (live : workspace.tree.contains id = true) (given : workspace.Given profile id object last) :
    KeepsUnknown workspace last where
  stays other stored := by
    by_cases same : other = object
    · rw [same]
      exact given.stored
    · rw [MemoryStore.contains, given.others other same]
      exact stored
  unknown other held isHeld notStored := by
    rcases given.object?_cases live isHeld with ⟨_, isObject⟩ | ⟨_, heldBefore⟩
    · rw [isObject, given.stored] at notStored
      exact absurd notStored (by simp)
    · exact heldBefore

theorem keepsUnknown_of_syncObject (live : workspace.tree.contains id = true)
    (done : engine.syncObject id workspace = (.ok (), last)) : KeepsUnknown workspace last := by
  rcases settled_or_given live done with ⟨rfl, _⟩ | ⟨object, given⟩
  · exact .refl last
  · exact .of_given live given

theorem recordTypes_memory_error {object : String} {types : List String}
    (failed : recordTypes id object types workspace = (.error error, last)) :
    error = .store (.unknownObject object) ∧ workspace.store.contains object = false := by
  cases isRecord : workspace.store.record? object with
  | none =>
      rw [recordTypes, ObjectStore.setTypes, MemoryStore.instObjectStore] at failed
      simp only [MemoryStore.setTypes, isRecord] at failed
      refine ⟨(Except.error.inj (congrArg Prod.fst failed)).symm, ?_⟩
      rw [MemoryStore.contains, isRecord, Option.isSome_none]
  | some record =>
      rw [recordTypes_eq isRecord] at failed
      exact absurd (congrArg Prod.fst failed) (by simp)

/-- Only an object that the store does not know keeps the object of a node from being brought in
line. -/
theorem syncObject_memory_error (live : workspace.tree.contains id = true)
    (failed : engine.syncObject id workspace = (.error error, last)) :
    ∃ object, error = .store (.unknownObject object) ∧
      workspace.tree.object? id = some object ∧ workspace.store.contains object = false := by
  obtain ⟨node, found⟩ := contains_iff.1 live
  rw [syncObject_eq found] at failed
  cases haveTypes : node.classes? engine.profile with
  | none =>
      rw [haveTypes] at failed
      exact absurd (congrArg Prod.fst failed) (by simp)
  | some types =>
      rw [haveTypes] at failed
      cases isObject : node.object with
      | some object =>
          simp only [isObject] at failed
          obtain ⟨isUnknown, notStored⟩ := recordTypes_memory_error failed
          exact ⟨object, isUnknown, object?_eq_some_iff.2 ⟨node, found, isObject⟩, notStored⟩
      | none =>
          simp only [isObject] at failed
          split at failed
          · exact absurd (congrArg Prod.fst failed) (by simp)
          · -- A new object is registered before its classes are recorded.
            have notStored := (recordTypes_memory_error failed).2
            have registered := (workspace.store.contains_register workspace.supply.draw.1
              node.identifier workspace.supply.draw.1).2 (.inl rfl)
            rw [registered] at notStored
            exact absurd notStored (by simp)

theorem syncObjects_memory_error {ids : List NodeId}
    (live : ∀ id ∈ ids, workspace.tree.contains id = true)
    (failed : engine.syncObjects ids workspace = (.error error, last)) :
    ∃ id ∈ ids, ∃ object, error = .store (.unknownObject object) ∧
      workspace.tree.object? id = some object ∧ workspace.store.contains object = false := by
  induction ids generalizing workspace with
  | nil =>
      exact absurd (congrArg Prod.fst failed) (by simp [syncObjects])
  | cons head ids inductionHypothesis =>
      have headLive := live head List.mem_cons_self
      have only := engine.syncObject_objectsOnly head workspace
      rw [syncObjects] at failed
      split at failed
      next next synced =>
          rw [synced] at only
          have keeps := keepsUnknown_of_syncObject headLive synced
          have nextLive : ∀ later ∈ ids, next.tree.contains later = true := by
            intro later member
            rw [only.contains]
            exact live later (List.mem_cons_of_mem head member)
          obtain ⟨id, member, object, isUnknown, held, notStored⟩ :=
            inductionHypothesis nextLive failed
          exact ⟨id, List.mem_cons_of_mem head member, object, isUnknown,
            keeps.unknown id object held notStored, keeps.not_stored notStored⟩
      next headError next refused =>
          obtain rfl : headError = error := Except.error.inj (congrArg Prod.fst failed)
          obtain ⟨object, isUnknown, held, notStored⟩ := syncObject_memory_error headLive refused
          exact ⟨head, List.mem_cons_self, object, isUnknown, held, notStored⟩

/-- Placements are only refused for an object of a placed node that the store does not know. -/
theorem writePlacements_memory_error {placements : List Placement} {untyped : List NodeId}
    (live : ∀ placement ∈ placements, workspace.tree.contains placement.node = true)
    (failed : engine.writePlacements placements untyped workspace = (.error error, last)) :
    ∃ placement ∈ placements, ∃ object, error = .store (.unknownObject object) ∧
      workspace.tree.object? placement.node = some object ∧
      workspace.store.contains object = false := by
  let written := untyped.foldl eraseType (placements.foldl writePlacement workspace.tree)
  have sameObjects : AgreeOn Node.object written workspace.tree :=
    agreeOn_written (fun _ _ => rfl) placements untyped workspace.tree
  obtain ⟨next, refused, _⟩ := writePlacements_cases failed
  have writtenLive : ∀ id ∈ placements.map Placement.node, written.contains id = true := by
    intro id member
    obtain ⟨placement, placed, rfl⟩ := List.mem_map.1 member
    rw [sameObjects.contains]
    exact live placement placed
  obtain ⟨id, member, object, isUnknown, held, notStored⟩ :=
    syncObjects_memory_error writtenLive refused
  obtain ⟨placement, placed, rfl⟩ := List.mem_map.1 member
  exact ⟨placement, placed, object, isUnknown, (sameObjects.object? placement.node).symm.trans held,
    notStored⟩

/-! ## Failed assignments -/

/-- A failed assignment of an engine that rolls back leaves the tree and the store as they were, unless
the plan was complete and the store did not know the object of a placed node. -/
theorem unchanged_or_unknown_object (rollsBack : engine.rollbackOnFailure = true)
    (failed : engine.assignNodeTypes start workspace = (.error error, last)) :
    last = workspace ∨
      ∃ parentType placements,
        engine.profile.plan workspace.tree start parentType = .complete placements ∧
        ∃ placement ∈ placements, ∃ object, error = .store (.unknownObject object) ∧
          workspace.tree.object? placement.node = some object ∧
          workspace.store.contains object = false := by
  rcases assignNodeTypes_cases failed with ⟨unchanged, _⟩ | ⟨parentType, searches⟩
  · exact .inl unchanged
  have placedLive : ∀ placement ∈ (engine.profile.plan workspace.tree start parentType).placements,
      workspace.tree.contains placement.node = true :=
    DomainProfile.contains_of_mem_plan searches.live parentType
  rw [searches.assignNodeTypes_eq] at failed
  cases isPlan : engine.profile.plan workspace.tree start parentType with
  | complete placements =>
      rw [isPlan] at failed placedLive
      rcases carryOut_complete_cases failed with ⟨writeError, isError, refused⟩ | ⟨_, isReport, _⟩
      · obtain rfl := Except.error.inj isError
        exact .inr ⟨parentType, placements, isPlan, writePlacements_memory_error placedLive refused⟩
      · exact absurd isReport (by simp)
  | blocked placements untyped ending obstacle =>
      rw [isPlan, carryOut, rollsBack] at failed
      split at failed
      · exact .inl (congrArg Prod.snd failed).symm
      · exact .inl (congrArg Prod.snd failed).symm

/-- The built-in engine, set to roll back. -/
def cautiousEngine : ProfileEngine :=
  { pcdmEngine with rollbackOnFailure := true }

theorem unchanged_crowdedWorkspace :
    ∃ error, cautiousEngine.assignNodeTypes ⟨0⟩ crowdedWorkspace =
      (.error error, crowdedWorkspace) := by
  have objectsKnown : crowdedWorkspace.ObjectsKnown := by
    refine Workspace.objectsKnown_of_no_objects ?_
    decide
  have notViable : cautiousEngine.profile.firstViable? crowdedWorkspace.tree none ⟨0⟩ = none := by
    decide
  have searches : cautiousEngine.Searches crowdedWorkspace.tree ⟨0⟩ none :=
    ⟨rfl, rfl, rfl, rfl, by simp⟩
  obtain ⟨name, obstacle, failed⟩ := exists_noEligibleType_of_not_viable
    wellFormed_crowdedWorkspace searches notViable
    (cautiousEngine.noStoreFault_assignNodeTypes objectsKnown ⟨0⟩)
  have stopped : cautiousEngine.assignNodeTypes ⟨0⟩ crowdedWorkspace =
      (.error (.noEligibleType name obstacle),
        (cautiousEngine.assignNodeTypes ⟨0⟩ crowdedWorkspace).2) := by
    rw [← failed]
  refine ⟨.noEligibleType name obstacle, stopped.trans ?_⟩
  rcases unchanged_or_unknown_object rfl stopped with same | ⟨_, _, _, _, _, _, isUnknown, _⟩
  · rw [same]
  · exact absurd isUnknown (by simp)

/-- A directory with a file whose object is not in the store. -/
def lostWorkspace : Workspace MemoryStore :=
  { smallWorkspace with
    tree := (withRoot
      { identifier := "item", name := "item"
        file := some (.directory (.ofString "item")) }).2.withChild ⟨0⟩
      { identifier := "page", name := "page.tif", object := some "urn:lost"
        file := some (.regularFile (.ofString "item/page.tif") 4) } }

/-- The assignment fails at the object of the file; by then both nodes have got types, and the
directory an object. -/
theorem changed_lostWorkspace :
    ∃ last, cautiousEngine.assignNodeTypes ⟨0⟩ lostWorkspace =
        (.error (.store (.unknownObject "urn:lost")), last) ∧
      lostWorkspace.tree.edgeOf ⟨0⟩ = ⟨none, none⟩ ∧
      last.tree.edgeOf ⟨0⟩ = ⟨some Pcdm.object, none⟩ ∧
      last.tree.edgeOf ⟨1⟩ = ⟨some Pcdm.file, some Pcdm.fileOf⟩ ∧
      lostWorkspace.store.size = 0 ∧ last.store.size = 1 := by
  have wellFormed : lostWorkspace.tree.WellFormed := by
    refine (wellFormed_withRoot _).withChild rfl ?_
    simp [withRoot, ContentTree.insert, empty, Std.ExtTreeMap.contains_insert]
  let choice (id : NodeId) : Candidate :=
    if id = ⟨0⟩ then ⟨Pcdm.object, none⟩ else ⟨Pcdm.file, some Pcdm.fileOf⟩
  have isFirst : cautiousEngine.profile.FirstChoice lostWorkspace.tree ⟨0⟩ none choice :=
    ⟨by decide, by decide⟩
  have isPlan : cautiousEngine.profile.plan lostWorkspace.tree ⟨0⟩ none = .complete
      [⟨⟨0⟩, Pcdm.object, none⟩, ⟨⟨1⟩, Pcdm.file, some Pcdm.fileOf⟩] :=
    (DomainProfile.plan_eq_complete_iff_firstChoice wellFormed rfl).2 ⟨choice, isFirst, rfl⟩
  have searches : cautiousEngine.Searches lostWorkspace.tree ⟨0⟩ none :=
    ⟨rfl, rfl, rfl, rfl, by simp⟩
  rw [searches.assignNodeTypes_eq, isPlan]
  refine ⟨_, Prod.ext ?_ rfl, ?_⟩
  · decide +kernel
  · decide +kernel

end ProfileEngine

end ContentTyping

import ContentTyping.Profile.Pcdm
import ContentTyping.Proofs.Engine.Assignment
import ContentTyping.Proofs.Store.Records
import ContentTyping.Proofs.Tree.Growth

/-!
# Objects that the store knows

A memory store only refuses calls for objects that it does not know. When it knows the objects of
all nodes it still does so after objects are brought in line, so assignments never fail in it.
-/

namespace ContentTyping

namespace MemoryStore

variable {store : MemoryStore}

theorem exists_setTypes {object : String} (known : store.contains object = true)
    (types : List String) :
    ∃ next, ObjectStore.setTypes store object types = (.ok (), next) ∧
      ∀ other, store.contains other = true → next.contains other = true := by
  obtain ⟨record, found⟩ := Option.isSome_iff_exists.1 known
  refine ⟨store.put object { record with types := types }, ?_, ?_⟩
  · simp [ObjectStore.setTypes, setTypes, found]
  · intro other contained
    exact (store.contains_put object other _).2 (.inr contained)

end MemoryStore

/-- The store knows the objects of all nodes. -/
def Workspace.ObjectsKnown (workspace : Workspace MemoryStore) : Prop :=
  ∀ id node object, workspace.tree.get? id = some node → node.object = some object →
    workspace.store.contains object = true

/-- Nothing is asked of the store where no node has an object. -/
theorem Workspace.objectsKnown_of_no_objects {workspace : Workspace MemoryStore}
    (noObjects : ∀ slot ∈ workspace.tree.nodes, slot.bind Node.object = none) :
    workspace.ObjectsKnown := by
  intro id node object found recorded
  rw [ContentTree.get?, Option.join_eq_some_iff] at found
  have unrecorded : node.object = none := noObjects (some node) (Array.mem_of_getElem? found)
  rw [recorded] at unrecorded
  exact absurd unrecorded (by simp)

/-- The placements that a plan keeps. -/
def Plan.placements : Plan → List Placement
  | .complete placements => placements
  | .blocked placements _ _ _ => placements

/-- The nodes that a plan leaves without a type. -/
def Plan.untyped : Plan → List NodeId
  | .complete _ => []
  | .blocked _ untyped _ _ => untyped

/-- A plan that is carried out is written, or nothing is done. -/
theorem ProfileEngine.carryOut_cases {engine : ProfileEngine} {S : Type} [ObjectStore S]
    {workspace last : Workspace S} {plan : Plan} {outcome : Except Error AssignmentReport}
    (called : engine.carryOut plan workspace = (outcome, last)) :
    last = workspace ∨ ∃ written,
      engine.writePlacements plan.placements plan.untyped workspace = (written, last) ∧
        ∀ error, written = .error error → outcome = .error error := by
  cases plan with
  | complete placements =>
      rcases carryOut_complete_cases called with ⟨error, rfl, refused⟩ | ⟨_, rfl, done⟩
      · exact .inr ⟨_, refused, fun other same => by rw [Except.error.inj same]⟩
      · exact .inr ⟨_, done, fun error isError => absurd isError (by simp)⟩
  | blocked placements untyped ending obstacle =>
      rw [carryOut] at called
      split at called
      · exact .inl (congrArg Prod.snd called).symm
      · split at called
        · exact .inl (congrArg Prod.snd called).symm
        · split at called
          next refused =>
              obtain ⟨rfl, rfl⟩ := Prod.mk.inj called
              exact .inr ⟨_, refused, fun other same => by rw [Except.error.inj same]⟩
          next done =>
              obtain ⟨rfl, rfl⟩ := Prod.mk.inj called
              exact .inr ⟨_, done, fun error isError => absurd isError (by simp)⟩

namespace DomainProfile

open ContentTree

variable {profile : DomainProfile} {tree : ContentTree} {table : Viability}

theorem contains_of_mem_collect {steps : Nat} {candidate : Candidate} {id : NodeId}
    (live : tree.contains id = true) {placement : Placement}
    (member : placement ∈ profile.collect tree table steps candidate id) :
    tree.contains placement.node = true := by
  induction steps generalizing candidate id with
  | zero =>
      exact absurd member List.not_mem_nil
  | succ steps inductionHypothesis =>
      rw [collect, List.mem_cons, List.mem_flatMap] at member
      rcases member with rfl | ⟨child, childMember, below⟩
      · exact live
      · split at below
        · exact absurd below List.not_mem_nil
        next chosen _ =>
            exact inductionHypothesis (contains_of_mem_activeChildren childMember) below

theorem contains_of_mem_bestEffort {steps : Nat} {parentType : Option NodeTypeId} {id : NodeId}
    (live : tree.contains id = true) {placement : Placement}
    (member : placement ∈ (profile.bestEffort tree table steps parentType id).1) :
    tree.contains placement.node = true := by
  induction steps generalizing parentType id with
  | zero =>
      exact absurd member List.not_mem_nil
  | succ steps inductionHypothesis =>
      rw [bestEffort] at member
      split at member
      · exact contains_of_mem_collect live member
      · split at member
        · exact absurd member List.not_mem_nil
        next first _ _ =>
            rw [List.mem_cons, List.mem_flatMap] at member
            rcases member with rfl | ⟨effort, effortMember, below⟩
            · exact live
            · obtain ⟨child, childMember, rfl⟩ := List.mem_map.1 effortMember
              exact inductionHypothesis (contains_of_mem_activeChildren childMember) below

theorem contains_of_mem_plan {start : NodeId} (live : tree.contains start = true)
    (parentType : Option NodeTypeId) :
    ∀ placement ∈ (profile.plan tree start parentType).placements,
      tree.contains placement.node = true := by
  intro placement member
  rw [plan] at member
  split at member
  · exact contains_of_mem_collect live member
  · exact contains_of_mem_bestEffort live member

end DomainProfile

namespace ProfileEngine

open ContentTree

variable (engine : ProfileEngine) {workspace : Workspace MemoryStore}

theorem exists_recordTypes (objectsKnown : workspace.ObjectsKnown) {object : String}
    (known : workspace.store.contains object = true) (id : NodeId) (types : List String) :
    ∃ next, recordTypes id object types workspace = (.ok (), next) ∧ next.ObjectsKnown := by
  obtain ⟨store, isSet, kept⟩ := MemoryStore.exists_setTypes known types
  refine ⟨_, by rw [recordTypes, isSet], ?_⟩
  intro other node recorded found isRecorded
  rw [Workspace.modifyNode, get?_modify] at found
  by_cases same : other = id
  · rw [if_pos same, Option.map_eq_some_iff] at found
    obtain ⟨_, _, rfl⟩ := found
    obtain rfl : object = recorded := Option.some.inj isRecorded
    exact kept object known
  · rw [if_neg same] at found
    exact kept recorded (objectsKnown other node recorded found isRecorded)

theorem exists_syncObject (objectsKnown : workspace.ObjectsKnown) {id : NodeId}
    (live : workspace.tree.contains id = true) :
    ∃ next, engine.syncObject id workspace = (.ok (), next) ∧ next.ObjectsKnown := by
  obtain ⟨node, found⟩ := contains_iff.1 live
  cases isPrimary : node.nodeType.filter engine.profile.defines with
  | none =>
      exact ⟨workspace, by simp [syncObject, found, isPrimary], objectsKnown⟩
  | some primary =>
      obtain ⟨types, haveTypes⟩ := exists_domainTypes?_of_filter isPrimary node.subTypes
      cases isObject : node.object with
      | some object =>
          have known := objectsKnown id node object found isObject
          obtain ⟨next, recorded, nextKnown⟩ := exists_recordTypes objectsKnown known id types
          exact ⟨next, by simp [syncObject, found, isPrimary, haveTypes, isObject, recorded],
            nextKnown⟩
      | none =>
          cases isEmpty : types.isEmpty with
          | true =>
              exact ⟨workspace, by simp [syncObject, found, isPrimary, haveTypes, isObject, isEmpty],
                objectsKnown⟩
          | false =>
              let drawn := workspace.supply.draw
              let registered : Workspace MemoryStore :=
                { workspace with
                  store := workspace.store.register drawn.1 node.identifier
                  supply := drawn.2 }
              have registeredKnown : registered.ObjectsKnown := by
                intro other otherNode object otherFound recorded
                exact (workspace.store.contains_register drawn.1 node.identifier object).2
                  (.inr (objectsKnown other otherNode object otherFound recorded))
              have known : registered.store.contains drawn.1 = true :=
                (workspace.store.contains_register drawn.1 node.identifier drawn.1).2 (.inl rfl)
              obtain ⟨next, recorded, nextKnown⟩ :=
                exists_recordTypes registeredKnown known id types
              refine ⟨next, ?_, nextKnown⟩
              rw [← recorded]
              simp [syncObject, found, isPrimary, haveTypes, isObject, isEmpty,
                ObjectStore.createOrReuse, objectName, registered, drawn]

theorem exists_syncObjects (objectsKnown : workspace.ObjectsKnown) {ids : List NodeId}
    (live : ∀ id ∈ ids, workspace.tree.contains id = true) :
    ∃ next, engine.syncObjects ids workspace = (.ok (), next) ∧ next.ObjectsKnown := by
  induction ids generalizing workspace with
  | nil =>
      exact ⟨workspace, rfl, objectsKnown⟩
  | cons id ids inductionHypothesis =>
      obtain ⟨next, synced, nextKnown⟩ :=
        engine.exists_syncObject objectsKnown (live id List.mem_cons_self)
      have only := engine.syncObject_objectsOnly id workspace
      rw [synced] at only
      rw [syncObjects, synced]
      refine inductionHypothesis nextKnown fun later member => ?_
      rw [only.contains]
      exact live later (List.mem_cons_of_mem id member)

theorem exists_writePlacements (objectsKnown : workspace.ObjectsKnown)
    {placements : List Placement} (untyped : List NodeId)
    (live : ∀ placement ∈ placements, workspace.tree.contains placement.node = true) :
    ∃ next, engine.writePlacements placements untyped workspace = (.ok (), next) ∧
      next.ObjectsKnown := by
  let typed := placements.foldl writePlacement workspace.tree
  let written : Workspace MemoryStore :=
    { workspace with tree := List.foldl eraseType typed untyped }
  have writtenKnown : written.ObjectsKnown := by
    intro id node object found recorded
    have sameObject : AgreeOn Node.object workspace.tree written.tree :=
      (agreeOn_written (fun _ _ => rfl) placements untyped workspace.tree).symm
    obtain ⟨before, beforeFound, same⟩ := sameObject.exists_get? found
    exact objectsKnown id before object beforeFound (same.trans recorded)
  have writtenLive : ∀ id ∈ placements.map Placement.node, written.tree.contains id = true := by
    intro id member
    obtain ⟨placement, placed, rfl⟩ := List.mem_map.1 member
    have sameLinks : AgreeOn Node.links written.tree workspace.tree :=
      agreeOn_written (fun _ _ => rfl) placements untyped workspace.tree
    rw [sameLinks.contains]
    exact live placement placed
  obtain ⟨last, synced, lastKnown⟩ :=
    engine.exists_syncObjects writtenKnown writtenLive
  refine ⟨if placements.isEmpty then last else last.bindTo engine.profile.identifier, ?_, ?_⟩
  · simp only [writePlacements]
    simp only [written, typed] at synced
    rw [synced]
  · split
    · exact lastKnown
    · exact lastKnown

/-! ## Assignments -/

theorem noStoreFault_checkBinding (tree : ContentTree) :
    NoStoreFault (engine.checkBinding tree) := by
  rw [checkBinding]
  split
  · exact .ok ()
  · split
    · exact .ok ()
    · exact .error (by simp)

theorem noStoreFault_node (tree : ContentTree) (id : NodeId) : NoStoreFault (tree.node id) := by
  rw [ContentTree.node]
  split
  · exact .ok _
  · exact .error (by simp)

theorem noStoreFault_definition (type : NodeTypeId) : NoStoreFault (engine.definition type) := by
  rw [definition]
  split
  · exact .ok _
  · exact .error (by simp)

theorem noStoreFault_parentTypeOf (tree : ContentTree) (node : Node) :
    NoStoreFault (engine.parentTypeOf tree node) := by
  rw [parentTypeOf]
  cases node.parent with
  | none =>
      exact .ok none
  | some parent =>
      refine .bind (noStoreFault_node tree parent) fun above => ?_
      cases above.nodeType with
      | none =>
          exact .error (by simp)
      | some type =>
          exact .bind (engine.noStoreFault_definition type) fun _ => .ok (some type)

theorem noStoreFault_carryOut (objectsKnown : workspace.ObjectsKnown) {plan : Plan}
    (live : ∀ placement ∈ plan.placements, workspace.tree.contains placement.node = true) :
    NoStoreFault (engine.carryOut plan workspace).1 := by
  cases plan with
  | complete placements =>
      have placedLive : ∀ placement ∈ placements,
          workspace.tree.contains placement.node = true := live
      obtain ⟨next, written, _⟩ := engine.exists_writePlacements objectsKnown [] placedLive
      rw [carryOut, written]
      exact .ok _
  | blocked placements untyped blocked obstacle =>
      have placedLive : ∀ placement ∈ placements,
          workspace.tree.contains placement.node = true := live
      obtain ⟨next, written, _⟩ := engine.exists_writePlacements objectsKnown untyped placedLive
      rw [carryOut, written]
      split
      next error unknown =>
          exact (noStoreFault_node workspace.tree blocked).of_error unknown
      next node _ =>
          split
          · exact .error (by simp)
          · exact .error (by simp)

/-- Assigning types never fails in a memory store that knows the objects. -/
theorem noStoreFault_assignNodeTypes (objectsKnown : workspace.ObjectsKnown) (start : NodeId) :
    NoStoreFault (engine.assignNodeTypes start workspace).1 := by
  rw [assignNodeTypes]
  split
  next error isMismatch =>
      exact (engine.noStoreFault_checkBinding workspace.tree).of_error isMismatch
  next error _ isUnknown =>
      exact (noStoreFault_node workspace.tree start).of_error isUnknown
  next node _ isNode =>
      have live : workspace.tree.contains start = true :=
        contains_iff.2 ⟨node, node_eq_ok_iff.1 isNode⟩
      split
      · exact .ok _
      · split
        next error untyped =>
            exact (engine.noStoreFault_parentTypeOf workspace.tree node).of_error untyped
        next parentType _ =>
            exact engine.noStoreFault_carryOut objectsKnown
              (DomainProfile.contains_of_mem_plan live parentType)

theorem noStoreFault_assignTree (objectsKnown : workspace.ObjectsKnown) :
    NoStoreFault (engine.assignTree workspace).1 := by
  rw [assignTree]
  split
  · exact .error (by simp)
  next root _ =>
      exact engine.noStoreFault_assignNodeTypes objectsKnown root

/-! ## A small workspace -/

def pcdmEngine : ProfileEngine :=
  { profile := Pcdm.profile }

/-- The small archive before any typing, with an empty store. -/
def smallWorkspace : Workspace MemoryStore :=
  { tree := smallArchive, store := .empty, supply := ⟨RandomName.ofNat, 0⟩ }

theorem objectsKnown_smallWorkspace : smallWorkspace.ObjectsKnown := by
  refine Workspace.objectsKnown_of_no_objects ?_
  decide

theorem assignNodeTypes_smallWorkspace_ok :
    ∃ report, (pcdmEngine.assignNodeTypes ⟨0⟩ smallWorkspace).1 = .ok report := by
  have isFirst : Pcdm.profile.firstViable? smallArchive none ⟨0⟩ =
      some ⟨Pcdm.administrativeSet, none⟩ := by decide
  exact exists_ok_of_firstViable? wellFormed_smallArchive rfl rfl rfl rfl isFirst
    (pcdmEngine.noStoreFault_assignNodeTypes objectsKnown_smallWorkspace ⟨0⟩)

end ProfileEngine

end ContentTyping

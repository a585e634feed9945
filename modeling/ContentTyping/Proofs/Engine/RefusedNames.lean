import ContentTyping.Proofs.Engine.InRange
import ContentTyping.Proofs.Engine.TwoStores
import ContentTyping.Proofs.Store.Calls

/-!
# What a store of statements refuses to an engine

A store of statements takes absolute IRIs and nothing else. When the objects of all nodes are IRIs, and so
are the names that can be drawn for others, this stays so whatever the engine does. Then the store refuses
classes and properties of the profile only, and names the one that it refuses.
-/

namespace ContentTyping

open ContentTree ProfileEngine

/-! ## Faults about identifiers -/

/-- Faults of the store are about values of one kind only. -/
def BlamesOnly {α : Type} (blamed : String → Prop) (result : Except Error α) : Prop :=
  ∀ fault, result = .error (.store fault) → ∃ value, fault = .invalidIri value ∧ blamed value

theorem NoStoreFault.blamesOnly {α : Type} {blamed : String → Prop} {result : Except Error α}
    (noFault : NoStoreFault result) : BlamesOnly blamed result :=
  fun fault failed => absurd failed (noFault fault)

namespace BlamesOnly

variable {α β : Type} {blamed : String → Prop}

theorem of_error {step : Except Error α} {error : Error} (blames : BlamesOnly blamed step)
    (failed : step = .error error) : BlamesOnly blamed (.error error : Except Error β) := by
  intro fault same
  obtain rfl : error = .store fault := Except.error.inj same
  exact blames fault failed

theorem map {step : Except Error α} (blames : BlamesOnly blamed step) (view : α → β) :
    BlamesOnly blamed (step.map view) := by
  cases step with
  | error error => exact blames.of_error rfl
  | ok value => exact (NoStoreFault.ok (view value)).blamesOnly

theorem bind {step : Except Error α} {next : α → Except Error β} (first : BlamesOnly blamed step)
    (rest : ∀ value, step = .ok value → BlamesOnly blamed (next value)) :
    BlamesOnly blamed (step >>= next) := by
  cases step with
  | error error => exact first.of_error rfl
  | ok value => exact rest value rfl

theorem mapM {step : α → Except Error β} {items : List α}
    (each : ∀ item ∈ items, BlamesOnly blamed (step item)) :
    BlamesOnly blamed (items.mapM step) := by
  induction items with
  | nil =>
      exact (NoStoreFault.ok []).blamesOnly
  | cons item items inductionHypothesis =>
      obtain ⟨here, later⟩ := List.forall_mem_cons.1 each
      rw [List.mapM_cons]
      apply here.bind
      intro value _
      apply (inductionHypothesis later).bind
      intro values _
      exact (NoStoreFault.ok _).blamesOnly

end BlamesOnly

namespace TripleStore

variable {store : TripleStore} {object : String}

theorem blamesOnly_setTypes (isIri : Iri.isAbsolute object = true) (types : List String) :
    BlamesOnly (fun value => value ∈ types ∧ Iri.isAbsolute value = false)
      (ObjectStore.setTypes store object types).1 := by
  intro fault failed
  rcases absolute_or_cutOff types with absolute | ⟨known, invalid, rest, rfl, absolute, notIri⟩
  · obtain ⟨next, done, _⟩ := @setTypes_ok store object types isIri absolute
    rw [done] at failed
    exact absurd failed (by simp)
  · simp only [ObjectStore.setTypes, setTypes, checkIri_eq_ok isIri,
      addTypes_of_cutOff absolute notIri] at failed
    refine ⟨invalid, ?_, by simp, notIri⟩
    exact (Error.store.inj (Except.error.inj failed)).symm

theorem register_eq_insert (isIri : Iri.isAbsolute object = true) (node : String) :
    store.register object node = (.ok (), store.insert ⟨object, nodePredicate, .literal node⟩) := by
  rw [register, checkIri_eq_ok isIri]

theorem blamesOnly_propertyCount (isIri : Iri.isAbsolute object = true) (property : String) :
    BlamesOnly (fun value => value = property ∧ Iri.isAbsolute value = false)
      (ObjectStore.propertyCount store object property) := by
  intro fault failed
  by_cases isProperty : Iri.isAbsolute property = true
  · simp only [ObjectStore.propertyCount, propertyCount, checkIris, checkIri_eq_ok isIri,
      checkIri_eq_ok isProperty] at failed
    exact absurd failed (by simp)
  · have notIri := Bool.eq_false_iff.2 isProperty
    simp only [ObjectStore.propertyCount, propertyCount, checkIris, checkIri_eq_ok isIri,
      checkIri_of_not_absolute notIri] at failed
    exact ⟨property, (Error.store.inj (Except.error.inj failed)).symm, rfl, notIri⟩

end TripleStore

/-! ## Identifiers of a profile -/

namespace DomainProfile

variable {profile : DomainProfile}

/-- A domain type of a node type that is no IRI. -/
def HasUnfitClass (profile : DomainProfile) (value : String) : Prop :=
  (∃ type ∈ profile.nodeTypes, value ∈ type.domainTypes) ∧ Iri.isAbsolute value = false

/-- The identifier of a property that is no IRI. -/
def HasUnfitProperty (profile : DomainProfile) (value : String) : Prop :=
  (∃ property ∈ profile.propertyTypes, property.identifier = value) ∧ Iri.isAbsolute value = false

theorem exists_nodeType_of_mem_domainTypes? {primary : NodeTypeId} {secondary : List NodeTypeId}
    {types : List String} (isTypes : profile.domainTypes? primary secondary = some types)
    {value : String} (member : value ∈ types) :
    ∃ type ∈ profile.nodeTypes, value ∈ type.domainTypes := by
  rw [domainTypes?, mapM_option_eq_ite] at isTypes
  obtain ⟨found, isFound, rfl⟩ := Option.map_eq_some_iff.1 isTypes
  split at isFound
  · obtain rfl := Option.some.inj isFound
    obtain ⟨type, listed, isDomainType⟩ := List.mem_flatMap.1 (mem_of_mem_firstOccurrences member)
    obtain ⟨id, _, isType⟩ := List.mem_filterMap.1 listed
    exact ⟨type, List.mem_of_getElem? isType, isDomainType⟩
  · exact absurd isFound (by simp)

end DomainProfile

/-! ## Workspaces with IRIs -/

/-- The objects of all nodes are IRIs, and so are the names that can be drawn. -/
structure Workspace.Addressed (workspace : Workspace TripleStore) : Prop where
  held : workspace.tree.HoldsOnly {object | Iri.isAbsolute object = true}
  names : ∀ turn, Iri.isAbsolute (workspace.supply.name turn) = true

theorem Workspace.Addressed.withTree {workspace : Workspace TripleStore}
    (addressed : workspace.Addressed) {tree : ContentTree}
    (agree : AgreeOn Node.object tree workspace.tree) : { workspace with tree := tree }.Addressed :=
  ⟨addressed.held.of_agreeOn agree, addressed.names⟩

theorem Workspace.Addressed.withStore {workspace : Workspace TripleStore}
    (addressed : workspace.Addressed) (store : TripleStore) {supply : Supply}
    (sameNames : supply.name = workspace.supply.name) :
    Workspace.Addressed ⟨workspace.tree, store, supply⟩ := by
  refine ⟨addressed.held, fun turn => ?_⟩
  rw [sameNames]
  exact addressed.names turn

/-- The store refuses nothing but classes of the profile that are no IRIs, and all other names stay
IRIs. -/
structure Addresses {α : Type} (profile : DomainProfile)
    (result : Except Error α × Workspace TripleStore) : Prop where
  outcome : BlamesOnly profile.HasUnfitClass result.1
  last : result.2.Addressed

namespace Addresses

variable {α β : Type} {profile : DomainProfile} {workspace : Workspace TripleStore}
  {result : Except Error α × Workspace TripleStore}

theorem of_unchanged (addressed : workspace.Addressed) {outcome : Except Error α}
    (noFault : NoStoreFault outcome) : Addresses profile (outcome, workspace) :=
  ⟨noFault.blamesOnly, addressed⟩

theorem withOutcome (addresses : Addresses profile result) {outcome : Except Error β}
    (blames : BlamesOnly profile.HasUnfitClass result.1 → BlamesOnly profile.HasUnfitClass outcome) :
    Addresses profile (outcome, result.2) :=
  ⟨blames addresses.outcome, addresses.last⟩

theorem bound {last : Workspace TripleStore} {outcome other : Except Error α}
    (addresses : Addresses profile (outcome, last)) (identifier : String)
    (noFault : NoStoreFault other) : Addresses profile (other, last.bindTo identifier) :=
  ⟨noFault.blamesOnly, addresses.last.held, addresses.last.names⟩

end Addresses

namespace ProfileEngine

variable {engine : ProfileEngine} {workspace : Workspace TripleStore}

/-! ## Bringing objects in line -/

theorem addresses_recordTypes (addressed : workspace.Addressed) (id : NodeId) {object : String}
    (isIri : Iri.isAbsolute object = true) {types : List String}
    (declared : ∀ value ∈ types, ∃ type ∈ engine.profile.nodeTypes, value ∈ type.domainTypes) :
    Addresses engine.profile (recordTypes id object types workspace) := by
  have blames := @TripleStore.blamesOnly_setTypes workspace.store object isIri types
  rw [recordTypes]
  split
  next error store refused =>
      refine ⟨fun fault failed => ?_, addressed.held, addressed.names⟩
      rw [refused] at blames
      obtain ⟨value, isValue, member, notIri⟩ := blames.of_error rfl fault failed
      exact ⟨value, isValue, declared value member, notIri⟩
  next store _ =>
      refine ⟨(NoStoreFault.ok ()).blamesOnly, ?_, addressed.names⟩
      intro other node held found isObject
      rw [Workspace.modifyNode, get?_modify] at found
      by_cases same : other = id
      · rw [if_pos same, Option.map_eq_some_iff] at found
        obtain ⟨_, _, rfl⟩ := found
        obtain rfl : object = held := Option.some.inj isObject
        exact isIri
      · rw [if_neg same] at found
        exact addressed.held other node held found isObject

theorem addresses_syncObject (addressed : workspace.Addressed) (id : NodeId) :
    Addresses engine.profile (engine.syncObject id workspace) := by
  rw [syncObject]
  split
  · exact .of_unchanged addressed (.error (by simp))
  next node found =>
      split
      · exact .of_unchanged addressed (.ok ())
      next primary _ =>
          split
          · exact .of_unchanged addressed (.error (by simp))
          next types isTypes =>
              have declared : ∀ value ∈ types,
                  ∃ type ∈ engine.profile.nodeTypes, value ∈ type.domainTypes :=
                fun value => DomainProfile.exists_nodeType_of_mem_domainTypes? isTypes
              split
              next object isObject =>
                  exact addresses_recordTypes addressed id
                    (addressed.held id node object found isObject) declared
              next noObject =>
                  split
                  · exact .of_unchanged addressed (.ok ())
                  · have isIri : Iri.isAbsolute workspace.supply.draw.1 = true :=
                      addressed.names workspace.supply.used
                    have sameNames : workspace.supply.draw.2.name = workspace.supply.name := rfl
                    simp only [ObjectStore.createOrReuse, objectName, noObject,
                      TripleStore.register_eq_insert isIri]
                    exact addresses_recordTypes (addressed.withStore _ sameNames) id isIri declared

theorem addresses_syncObjects (addressed : workspace.Addressed) (ids : List NodeId) :
    Addresses engine.profile (engine.syncObjects ids workspace) := by
  induction ids generalizing workspace with
  | nil =>
      exact .of_unchanged addressed (.ok ())
  | cons id ids inductionHypothesis =>
      have first := @addresses_syncObject engine workspace addressed id
      rw [syncObjects]
      split
      next synced =>
          rw [synced] at first
          exact inductionHypothesis first.last
      next synced =>
          rw [synced] at first
          exact first

/-! ## Operations -/

/-- What is written to a node leaves its object alone. -/
theorem addresses_syncObject_modifyNode (addressed : workspace.Addressed) (id : NodeId)
    {change : Node → Node} (sameObject : ∀ node, (change node).object = node.object) :
    Addresses engine.profile (engine.syncObject id (workspace.modifyNode id change)) :=
  addresses_syncObject (addressed.withTree (.modify id sameObject)) id

theorem addresses_writePlacements (addressed : workspace.Addressed) (placements : List Placement)
    (untyped : List NodeId) :
    Addresses engine.profile (engine.writePlacements placements untyped workspace) := by
  have written := addressed.withTree
    (agreeOn_written (fun _ _ => rfl) placements untyped workspace.tree)
  have synced := @addresses_syncObjects engine _ written (placements.map Placement.node)
  rw [writePlacements]
  split
  next isSynced =>
      rw [isSynced] at synced
      exact synced
  next isSynced =>
      rw [isSynced] at synced
      split
      · exact synced
      · exact synced.bound _ (.ok ())

theorem addresses_carryOut (addressed : workspace.Addressed) (plan : Plan) :
    Addresses engine.profile (engine.carryOut plan workspace) := by
  cases plan with
  | complete placements =>
      have written := @addresses_writePlacements engine workspace addressed placements []
      rw [carryOut]
      split
      next isWritten =>
          rw [isWritten] at written
          exact written.withOutcome fun blames => blames.of_error rfl
      next isWritten =>
          rw [isWritten] at written
          exact written.withOutcome fun _ => (NoStoreFault.ok _).blamesOnly
  | blocked placements untyped ending obstacle =>
      have written := @addresses_writePlacements engine workspace addressed placements untyped
      have blockedFault (identifier : String) :
          NoStoreFault (.error (.noEligibleType identifier obstacle) :
            Except Error AssignmentReport) :=
        .error (by simp)
      rw [carryOut]
      split
      next unknown =>
          exact .of_unchanged addressed ((noStoreFault_node _ _).of_error unknown)
      next node _ =>
          split
          · exact .of_unchanged addressed (blockedFault node.identifier)
          · split
            next isWritten =>
                rw [isWritten] at written
                exact written.withOutcome fun blames => blames.of_error rfl
            next isWritten =>
                rw [isWritten] at written
                exact written.withOutcome fun _ => (blockedFault node.identifier).blamesOnly

theorem addresses_assignNodeTypes (addressed : workspace.Addressed) (start : NodeId) :
    Addresses engine.profile (engine.assignNodeTypes start workspace) := by
  rw [assignNodeTypes]
  split
  next mismatch =>
      exact .of_unchanged addressed ((engine.noStoreFault_checkBinding _).of_error mismatch)
  next unknown =>
      exact .of_unchanged addressed ((noStoreFault_node _ _).of_error unknown)
  · split
    · exact .of_unchanged addressed (.ok _)
    · split
      next unfit =>
          exact .of_unchanged addressed ((engine.noStoreFault_parentTypeOf _ _).of_error unfit)
      · exact addresses_carryOut addressed _

theorem addresses_assignTree (addressed : workspace.Addressed) :
    Addresses engine.profile (engine.assignTree workspace) := by
  rw [assignTree]
  split
  · exact .of_unchanged addressed (.error (by simp))
  · exact addresses_assignNodeTypes addressed _

theorem addresses_applyTransform (addressed : workspace.Addressed) (id : NodeId)
    (transform : TransformId) :
    Addresses engine.profile (engine.applyTransform id transform workspace) := by
  rw [applyTransform]
  split
  next mismatch =>
      exact .of_unchanged addressed ((engine.noStoreFault_checkBinding _).of_error mismatch)
  next unknown =>
      exact .of_unchanged addressed ((noStoreFault_node _ _).of_error unknown)
  · split
    · exact .of_unchanged addressed (.error (by simp))
    · split
      · exact addresses_syncObject_modifyNode addressed id fun _ => rfl
      · exact .of_unchanged addressed (.error (by simp))

theorem addresses_nodeCall (addressed : workspace.Addressed) (call : NodeCall) :
    Addresses engine.profile (call.perform engine workspace) := by
  cases call with
  | setNodeType id type =>
      rw [NodeCall.perform, setNodeType]
      split
      next unfit =>
          exact .of_unchanged addressed (noStoreFault_checkFit.of_error unfit)
      next node _ =>
          have synced := @addresses_syncObject_modifyNode engine workspace addressed id
            (retype type (engine.relationFor workspace.tree node type)) fun _ => rfl
          dsimp only
          split
          next isSynced =>
              rw [isSynced] at synced
              exact synced
          next isSynced =>
              rw [isSynced] at synced
              exact synced.bound _ (.ok ())
  | addSubType id type =>
      rw [NodeCall.perform, addSubType]
      split
      next unfit =>
          exact .of_unchanged addressed (noStoreFault_checkFit.of_error unfit)
      · split
        · exact .of_unchanged addressed (.ok ())
        · exact addresses_syncObject_modifyNode addressed id fun _ => rfl
  | removeSubType id type =>
      rw [NodeCall.perform, removeSubType]
      split
      next mismatch =>
          exact .of_unchanged addressed ((engine.noStoreFault_checkBinding _).of_error mismatch)
      next unknown =>
          exact .of_unchanged addressed ((noStoreFault_node _ _).of_error unknown)
      · split
        · exact addresses_syncObject_modifyNode addressed id fun _ => rfl
        · exact .of_unchanged addressed (.ok ())
  | applyTransform id transform =>
      exact addresses_applyTransform addressed id transform
  | applyTransformByLabel id label =>
      rw [NodeCall.perform, applyTransformByLabel]
      split
      · exact .of_unchanged addressed (.error (by simp))
      · exact addresses_applyTransform addressed id _

theorem addresses_perform (addressed : workspace.Addressed) (call : EngineCall) :
    Addresses engine.profile (call.perform engine workspace) := by
  cases call with
  | assignTree =>
      exact (addresses_assignTree addressed).withOutcome fun blames => blames.map _
  | assignNodeTypes start =>
      exact (addresses_assignNodeTypes addressed start).withOutcome fun blames => blames.map _
  | atNode call =>
      exact addresses_nodeCall addressed call

end ProfileEngine

/-- The workspace after calls on an engine, whatever their outcomes. -/
def EngineCall.run {S : Type} [ObjectStore S] (engine : ProfileEngine) (calls : List EngineCall)
    (workspace : Workspace S) : Workspace S :=
  calls.foldl (fun workspace call => (call.perform engine workspace).2) workspace

theorem EngineCall.addressed_run {engine : ProfileEngine} {workspace : Workspace TripleStore}
    (addressed : workspace.Addressed) (calls : List EngineCall) :
    (run engine calls workspace).Addressed := by
  induction calls generalizing workspace with
  | nil =>
      exact addressed
  | cons call calls inductionHypothesis =>
      exact inductionHypothesis (@addresses_perform engine workspace addressed call).last

namespace ProfileEngine

variable {engine : ProfileEngine} {workspace : Workspace TripleStore}

/-! ## Questions -/

theorem noStoreFault_validationReport (tree : ContentTree) (start : NodeId) :
    NoStoreFault (engine.validationReport tree start) :=
  (engine.noStoreFault_checkBinding tree).bind fun _ =>
    (noStoreFault_node tree start).bind fun _ => .ok _

theorem noStoreFault_revalidateAround (tree : ContentTree) (id : NodeId) :
    NoStoreFault (engine.revalidateAround tree id) :=
  (engine.noStoreFault_checkBinding tree).bind fun _ =>
    (noStoreFault_node tree id).bind fun _ => .ok _

theorem noStoreFault_legalTransforms (tree : ContentTree) (id : NodeId) :
    NoStoreFault (engine.legalTransforms tree id) :=
  (engine.noStoreFault_checkBinding tree).bind fun _ =>
    (noStoreFault_node tree id).bind fun _ => .ok _

theorem noStoreFault_eligibleTypes (tree : ContentTree) (id : NodeId) :
    NoStoreFault (engine.eligibleTypes tree id) := by
  apply (engine.noStoreFault_checkBinding tree).bind
  intro _
  apply (noStoreFault_node tree id).bind
  intro node
  dsimp only
  cases node.parent with
  | none =>
      exact .ok _
  | some parent =>
      apply (noStoreFault_node tree parent).bind
      intro above
      cases above.nodeType with
      | none => exact .ok _
      | some type => exact .ok _

theorem blamesOnly_validateProperties (addressed : workspace.Addressed) (id : NodeId)
    (candidate : NodeTypeId) :
    BlamesOnly engine.profile.HasUnfitProperty
      (engine.validateProperties workspace.store workspace.tree id candidate) := by
  apply (engine.noStoreFault_checkBinding _).blamesOnly.bind
  intro _ _
  apply (engine.noStoreFault_definition candidate).blamesOnly.bind
  intro _ _
  apply (noStoreFault_node workspace.tree id).blamesOnly.bind
  intro node isNode
  cases engine.profile.nodeType? candidate with
  | none =>
      exact (NoStoreFault.ok _).blamesOnly
  | some type =>
      refine BlamesOnly.bind (BlamesOnly.mapM fun constraint _ => ?_) fun _ _ =>
        (NoStoreFault.ok _).blamesOnly
      rw [checkProperty]
      split
      · exact (NoStoreFault.error (by simp)).blamesOnly
      next property isProperty =>
          refine BlamesOnly.bind ?_ fun actual _ => ?_
          · rw [valueCount]
            split
            · exact (NoStoreFault.ok 0).blamesOnly
            next object isObject =>
                have isIri := addressed.held id node object (node_eq_ok_iff.1 isNode) isObject
                intro fault failed
                obtain ⟨value, isValue, rfl, notIri⟩ :=
                  TripleStore.blamesOnly_propertyCount isIri property.identifier fault failed
                exact ⟨_, isValue, ⟨property, List.mem_of_getElem? isProperty, rfl⟩, notIri⟩
          · split
            · exact (NoStoreFault.ok none).blamesOnly
            · exact (NoStoreFault.ok _).blamesOnly

end ProfileEngine

end ContentTyping

import ContentTyping.Proofs.Engine.Rollback
import ContentTyping.Proofs.Engine.Transforms

/-!
# Calls on one node

The operations on one node go the same way: they are refused or have nothing to do, or they write to the
node and then bring its object in line. The store is asked last. When it refuses, what was written
stays.
-/

namespace ContentTyping

open ContentTree ProfileEngine

/-- An operation that is made for one node. -/
inductive NodeCall where
  | setNodeType (id : NodeId) (type : NodeTypeId)
  | addSubType (id : NodeId) (type : NodeTypeId)
  | removeSubType (id : NodeId) (type : NodeTypeId)
  | applyTransform (id : NodeId) (transform : TransformId)
  | applyTransformByLabel (id : NodeId) (label : String)

namespace NodeCall

def node : NodeCall → NodeId
  | .setNodeType id _ => id
  | .addSubType id _ => id
  | .removeSubType id _ => id
  | .applyTransform id _ => id
  | .applyTransformByLabel id _ => id

def perform {S : Type} [ObjectStore S] (engine : ProfileEngine) : NodeCall → Operation S Unit
  | .setNodeType id type => engine.setNodeType id type
  | .addSubType id type => engine.addSubType id type
  | .removeSubType id type => engine.removeSubType id type
  | .applyTransform id transform => engine.applyTransform id transform
  | .applyTransformByLabel id label => engine.applyTransformByLabel id label

/-- The transform that the call asks for. -/
def transform? (profile : DomainProfile) : NodeCall → Option Transform
  | .applyTransform _ transform => profile.transform? transform
  | .applyTransformByLabel _ label => (profile.findTransform label).bind profile.transform?
  | _ => none

/-- What a call writes to its node when nothing speaks against it. -/
inductive Writes (engine : ProfileEngine) (tree : ContentTree) (node : Node) :
    NodeCall → (Node → Node) → Prop
  | setNodeType {id : NodeId} {type : NodeTypeId}
      (fits : type ∈ engine.profile.typesForKind node.fileKind) :
      Writes engine tree node (.setNodeType id type)
        (retype type (engine.relationFor tree node type))
  | addSubType {id : NodeId} {type : NodeTypeId}
      (fits : type ∈ engine.profile.typesForKind node.fileKind) (isNew : type ∉ node.subTypes) :
      Writes engine tree node (.addSubType id type)
        fun before => { before with subTypes := before.subTypes ++ [type] }
  | removeSubType {id : NodeId} {type : NodeTypeId} (carried : type ∈ node.subTypes) :
      Writes engine tree node (.removeSubType id type)
        fun before => { before with subTypes := before.subTypes.filter (· ≠ type) }
  | transform {call : NodeCall} {definition : Transform}
      (isTransform : call.transform? engine.profile = some definition)
      (legal : definition.isLegal tree call.node = true) :
      Writes engine tree node call
        fun before => { before with nodeType := some definition.result }

variable {engine : ProfileEngine} {S : Type} [ObjectStore S] {workspace last : Workspace S}
  {outcome : Except Error Unit}

/-- How a call goes. Only one that sets a type binds the tree, and only after all else went well. -/
inductive Performed (engine : ProfileEngine) (workspace : Workspace S) (call : NodeCall) :
    Except Error Unit → Workspace S → Prop
  | unchanged {outcome : Except Error Unit} : Performed engine workspace call outcome workspace
  | written {node : Node} {change : Node → Node} {outcome : Except Error Unit} {next : Workspace S}
      (free : engine.checkBinding workspace.tree = .ok ())
      (found : workspace.tree.get? call.node = some node)
      (writes : Writes engine workspace.tree node call change)
      (synced : engine.syncObject call.node (workspace.modifyNode call.node change) =
        (outcome, next))
      (notBound : outcome = .ok () → ∀ id type, call ≠ .setNodeType id type) :
      Performed engine workspace call outcome next
  | bound {node : Node} {change : Node → Node} {next : Workspace S}
      (free : engine.checkBinding workspace.tree = .ok ())
      (found : workspace.tree.get? call.node = some node)
      (writes : Writes engine workspace.tree node call change)
      (synced : engine.syncObject call.node (workspace.modifyNode call.node change) =
        (.ok (), next)) :
      Performed engine workspace call (.ok ()) (next.bindTo engine.profile.identifier)

theorem performed_setNodeType {id : NodeId} {type : NodeTypeId}
    (called : engine.setNodeType id type workspace = (outcome, last)) :
    Performed engine workspace (.setNodeType id type) outcome last := by
  rw [ProfileEngine.setNodeType] at called
  split at called
  · obtain ⟨rfl, rfl⟩ := Prod.mk.inj called
    exact .unchanged
  next node fits =>
      obtain ⟨free, found, accepted⟩ := checkFit_eq_ok_iff.1 fits
      dsimp only at called
      split at called
      next synced =>
          obtain ⟨rfl, rfl⟩ := Prod.mk.inj called
          exact .written free found (.setNodeType accepted) synced fun done => absurd done (by simp)
      next synced =>
          obtain ⟨rfl, rfl⟩ := Prod.mk.inj called
          exact .bound free found (.setNodeType accepted) synced

theorem performed_addSubType {id : NodeId} {type : NodeTypeId}
    (called : engine.addSubType id type workspace = (outcome, last)) :
    Performed engine workspace (.addSubType id type) outcome last := by
  rw [ProfileEngine.addSubType] at called
  split at called
  · obtain ⟨rfl, rfl⟩ := Prod.mk.inj called
    exact .unchanged
  next node fits =>
      obtain ⟨free, found, accepted⟩ := checkFit_eq_ok_iff.1 fits
      split at called
      · obtain ⟨rfl, rfl⟩ := Prod.mk.inj called
        exact .unchanged
      next isNew =>
          rw [not_or] at isNew
          exact .written free found (.addSubType accepted isNew.2) called fun _ _ _ => by simp

theorem performed_removeSubType {id : NodeId} {type : NodeTypeId}
    (called : engine.removeSubType id type workspace = (outcome, last)) :
    Performed engine workspace (.removeSubType id type) outcome last := by
  rw [ProfileEngine.removeSubType] at called
  split at called
  · obtain ⟨rfl, rfl⟩ := Prod.mk.inj called
    exact .unchanged
  · obtain ⟨rfl, rfl⟩ := Prod.mk.inj called
    exact .unchanged
  next node free isNode =>
      split at called
      next carried =>
          exact .written free (node_eq_ok_iff.1 isNode) (.removeSubType carried) called
            fun _ _ _ => by simp
      · obtain ⟨rfl, rfl⟩ := Prod.mk.inj called
        exact .unchanged

/-- A transform is carried out in the same way whether the call names it by handle or by label. -/
theorem performed_transform {call : NodeCall} {transform : TransformId}
    (isTransform : call.transform? engine.profile = engine.profile.transform? transform)
    (notSetting : ∀ id type, call ≠ .setNodeType id type)
    (called : engine.applyTransform call.node transform workspace = (outcome, last)) :
    Performed engine workspace call outcome last := by
  rw [ProfileEngine.applyTransform] at called
  split at called
  · obtain ⟨rfl, rfl⟩ := Prod.mk.inj called
    exact .unchanged
  · obtain ⟨rfl, rfl⟩ := Prod.mk.inj called
    exact .unchanged
  next node free isNode =>
      split at called
      · obtain ⟨rfl, rfl⟩ := Prod.mk.inj called
        exact .unchanged
      next definition isDefined =>
          split at called
          next legal =>
              exact .written free (node_eq_ok_iff.1 isNode)
                (.transform (isTransform.trans isDefined) legal) called fun _ => notSetting
          · obtain ⟨rfl, rfl⟩ := Prod.mk.inj called
            exact .unchanged

theorem performed {call : NodeCall} (called : call.perform engine workspace = (outcome, last)) :
    Performed engine workspace call outcome last := by
  cases call with
  | setNodeType id type =>
      exact performed_setNodeType called
  | addSubType id type =>
      exact performed_addSubType called
  | removeSubType id type =>
      exact performed_removeSubType called
  | applyTransform id transform =>
      exact performed_transform rfl (by simp) called
  | applyTransformByLabel id label =>
      rw [perform, ProfileEngine.applyTransformByLabel] at called
      split at called
      · obtain ⟨rfl, rfl⟩ := Prod.mk.inj called
        exact .unchanged
      next transform isFound =>
          refine performed_transform ?_ (by simp) called
          rw [transform?, isFound, Option.bind_some]

/-! ## What is written -/

namespace Writes

variable {tree : ContentTree} {call : NodeCall} {change : Node → Node} {before : Node}

theorem object (writes : Writes engine tree before call change) (node : Node) :
    (change node).object = node.object := by
  cases writes with
  | setNodeType => rfl
  | addSubType => rfl
  | removeSubType => rfl
  | transform => rfl

end Writes

theorem contains_modifyNode {S : Type} {workspace : Workspace S} {id : NodeId} {node : Node}
    (found : workspace.tree.get? id = some node) (change : Node → Node) :
    (workspace.modifyNode id change).tree.contains id = true := by
  rw [Workspace.modifyNode, contains_modify]
  exact contains_iff.2 ⟨node, found⟩

/-- Besides what is written to the node, only objects and the profile can change. -/
theorem exists_objectsOnly_of_performed {call : NodeCall}
    (performed : Performed engine workspace call outcome last) :
    last = workspace ∨ ∃ node change, workspace.tree.get? call.node = some node ∧
      Writes engine workspace.tree node call change ∧ ∃ next : Workspace S,
        ObjectsOnly (workspace.tree.modify call.node change) next.tree ∧
        (last = next ∨ last = next.bindTo engine.profile.identifier) := by
  have onlySynced {change : Node → Node} {outcome : Except Error Unit} {next : Workspace S}
      (synced : engine.syncObject call.node (workspace.modifyNode call.node change) =
        (outcome, next)) : ObjectsOnly (workspace.tree.modify call.node change) next.tree := by
    have only := engine.syncObject_objectsOnly call.node (workspace.modifyNode call.node change)
    rw [synced] at only
    exact only
  cases performed with
  | unchanged =>
      exact .inl rfl
  | written _ found writes synced _ =>
      exact .inr ⟨_, _, found, writes, last, onlySynced synced, .inl rfl⟩
  | bound _ found writes synced =>
      exact .inr ⟨_, _, found, writes, _, onlySynced synced, .inr rfl⟩

/-! ## Failures -/

section Failures

variable {workspace last : Workspace MemoryStore} {id : NodeId} {error : Error}

/-- A store of records that refuses an object has done nothing before. -/
theorem syncObject_memory_unchanged (live : workspace.tree.contains id = true)
    (failed : engine.syncObject id workspace = (.error error, last)) : last = workspace := by
  obtain ⟨object, _, held, notStored⟩ := syncObject_memory_error live failed
  obtain ⟨node, found, isObject⟩ := object?_eq_some_iff.1 held
  rw [MemoryStore.contains, Option.isSome_eq_false_iff, Option.isNone_iff_eq_none] at notStored
  rw [syncObject_eq found] at failed
  cases haveTypes : node.classes? engine.profile with
  | none =>
      rw [haveTypes] at failed
      exact absurd (congrArg Prod.fst failed) (by simp)
  | some types =>
      rw [haveTypes, isObject] at failed
      simp only [recordTypes, ObjectStore.setTypes, MemoryStore.setTypes, notStored] at failed
      exact (congrArg Prod.snd failed).symm

/-- A call on one node that fails leaves all else as it was: the store, the other nodes and the profile to
which the tree is bound. The node itself is left as it was too, unless the store does not know its
object. -/
theorem unchanged_or_store_refused {call : NodeCall}
    (failed : call.perform engine workspace = (.error error, last)) :
    last.store = workspace.store ∧ last.supply = workspace.supply ∧
      last.tree.profile = workspace.tree.profile ∧ last.tree.root = workspace.tree.root ∧
      (∀ other, other ≠ call.node → last.tree.get? other = workspace.tree.get? other) ∧
      (last = workspace ∨ ∃ object, error = .store (.unknownObject object) ∧
        workspace.tree.object? call.node = some object ∧
        workspace.store.contains object = false) := by
  cases performed failed with
  | unchanged =>
      exact ⟨rfl, rfl, rfl, rfl, fun _ _ => rfl, .inl rfl⟩
  | @written node change _ _ _ found writes synced =>
      have live := contains_modifyNode found change
      obtain ⟨object, isUnknown, held, notStored⟩ := syncObject_memory_error live synced
      obtain rfl := syncObject_memory_unchanged live synced
      have sameObjects : AgreeOn Node.object (workspace.tree.modify call.node change)
          workspace.tree := .modify call.node writes.object
      refine ⟨rfl, rfl, rfl, rfl, fun other different => ?_, .inr ⟨object, isUnknown, ?_, notStored⟩⟩
      · rw [Workspace.modifyNode, get?_modify, if_neg different]
      · exact (sameObjects.object? call.node).symm.trans held

/-- A page is not made an administrative set, and nothing is written. -/
theorem unchanged_smallWorkspace_refused :
    ∃ error, (NodeCall.setNodeType ⟨2⟩ Pcdm.administrativeSet).perform pcdmEngine smallWorkspace =
      (.error error, smallWorkspace) := by
  let refusal : Error := .constraintViolation "page" (.typeRefused "AdministrativeSet" .directory)
  have failed : (NodeCall.setNodeType ⟨2⟩ Pcdm.administrativeSet).perform pcdmEngine smallWorkspace =
      (.error refusal,
        ((NodeCall.setNodeType ⟨2⟩ Pcdm.administrativeSet).perform pcdmEngine smallWorkspace).2) :=
    Prod.ext rfl rfl
  obtain ⟨_, _, _, _, _, unchanged | ⟨_, isUnknown, _⟩⟩ := unchanged_or_store_refused failed
  · exact ⟨refusal, failed.trans (by rw [unchanged])⟩
  · exact absurd isUnknown (by simp [refusal])

/-- The store does not know the object of the page. The page has its type all the same, in a tree that is
not bound to the profile. -/
theorem typed_lostWorkspace :
    ∃ last, (NodeCall.setNodeType ⟨1⟩ Pcdm.file).perform pcdmEngine lostWorkspace =
        (.error (.store (.unknownObject "urn:lost")), last) ∧
      lostWorkspace.tree.edgeOf ⟨1⟩ = ⟨none, none⟩ ∧
      last.tree.edgeOf ⟨1⟩ = ⟨some Pcdm.file, none⟩ ∧ last.tree.profile = none :=
  ⟨_, Prod.ext rfl rfl, rfl, rfl, rfl⟩

end Failures

end NodeCall

end ContentTyping

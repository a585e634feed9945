import ContentTyping.Proofs.Engine.PcdmTransforms
import ContentTyping.Proofs.Engine.Settled

/-!
# The effect of transforms

A transform is carried out on a node exactly when it is among those listed as legal for the node. When
it is refused nothing changes. When it is carried out the node has another type and its object other
classes, a node without an object gets one if there are classes to give it, and everything else in
the tree and in the store stays as it was.
-/

namespace ContentTyping

open ContentTree

/-- The domain types of a type and then of further types, each once. Types that the profile does not
know have none. -/
def DomainProfile.classesOf (profile : DomainProfile) (primary : NodeTypeId)
    (further : List NodeTypeId) : List String :=
  firstOccurrences (((primary :: further).filterMap profile.nodeType?).flatMap NodeType.domainTypes)

theorem DomainProfile.nodup_firstOccurrences (texts : List String) :
    (firstOccurrences texts).Nodup := by
  induction texts with
  | nil =>
      exact List.nodup_nil
  | cons first texts inductionHypothesis =>
      refine List.nodup_cons.2 ⟨fun member => ?_, inductionHypothesis.filter _⟩
      exact absurd (List.mem_filter.1 member).2 (by simp)

/-- The label of a transform, or its handle where the profile does not know it. -/
def DomainProfile.transformLabel (profile : DomainProfile) (id : TransformId) : String :=
  match profile.transform? id with
  | some transform => transform.label
  | none => id.display

theorem DomainProfile.filterMap_nodeType?_filter (profile : DomainProfile) (types : List NodeTypeId) :
    (types.filter profile.defines).filterMap profile.nodeType? = types.filterMap profile.nodeType? := by
  rw [List.filterMap_filter]
  apply List.filterMap_congr
  intro type _
  cases isDefined : profile.nodeType? type with
  | none => simp
  | some definition => simp [DomainProfile.defines, isDefined]

theorem Node.classes?_eq_some {profile : DomainProfile} {node : Node} {primary : NodeTypeId}
    (isType : node.nodeType = some primary) (isDefined : profile.defines primary = true) :
    node.classes? profile = some (profile.classesOf primary node.subTypes) := by
  have isPrimary : node.nodeType.filter profile.defines = some primary :=
    Option.filter_eq_some_iff.2 ⟨isType, isDefined⟩
  have allDefined : ((primary :: node.subTypes.filter profile.defines).all fun type =>
      (profile.nodeType? type).isSome) = true := by
    rw [List.all_cons, Bool.and_eq_true, List.all_eq_true]
    exact ⟨isDefined, fun type member => (List.mem_filter.1 member).2⟩
  rw [Node.classes?, isPrimary, Option.bind_some, DomainProfile.domainTypes?, mapM_option_eq_ite,
    if_pos allDefined, Option.map_some, DomainProfile.classesOf, List.filterMap_cons,
    profile.filterMap_nodeType?_filter, List.filterMap_cons]

namespace Workspace

/-- The object of a node that is to have these classes: the one that the node has, or else one under
the next name if there are any classes. -/
def objectFor {S : Type} (workspace : Workspace S) (node : Node) (classes : List String) :
    Option String :=
  match node.object with
  | some object => some object
  | none => if classes.isEmpty then none else some workspace.supply.draw.1

/-- Another record is in the place of the one for the object of the node; it differs from that one, or
from a blank record where there was none, in the classes. All other records are the same. -/
structure Reclassed (node : Node) (classes : List String) (before after : Workspace MemoryStore) :
    Prop where
  object : ∀ object, before.objectFor node classes = some object →
    after.store.record? object =
      some { (before.store.record? object).getD ⟨node.identifier, [], ∅⟩ with types := classes }
  others : ∀ other, before.objectFor node classes ≠ some other →
    after.store.record? other = before.store.record? other

theorem Reclassed.of_put {node : Node} {classes : List String} {before : Workspace MemoryStore}
    {store : MemoryStore} {object : String} {record : ObjectRecord} {tree : ContentTree}
    {supply : Supply} (isFor : before.objectFor node classes = some object)
    (isRecord : (before.store.record? object).getD ⟨node.identifier, [], ∅⟩ = record)
    (others : ∀ other, other ≠ object → store.record? other = before.store.record? other) :
    before.Reclassed node classes
      ⟨tree, store.put object { record with types := classes }, supply⟩ where
  object other isOther := by
    obtain rfl : object = other := Option.some.inj (isFor.symm.trans isOther)
    rw [MemoryStore.record?_put, if_pos rfl, isRecord]
  others other notFor := by
    have different : other ≠ object := by
      rintro rfl
      exact notFor isFor
    rw [MemoryStore.record?_put, if_neg different, others other different]

end Workspace

namespace ProfileEngine

variable {engine : ProfileEngine} {workspace : Workspace MemoryStore} {id : NodeId} {node : Node}

/-- Bringing an object in line makes its classes those of the node's types, and changes nothing else but
the object noted on the node. -/
theorem exists_reclassed {classes : List String} (found : workspace.tree.get? id = some node)
    (haveClasses : node.classes? engine.profile = some classes)
    (known : ∀ object, node.object = some object → workspace.store.contains object = true) :
    ∃ last, engine.syncObject id workspace = (.ok (), last) ∧
      last.tree = workspace.tree.modify id
        (fun inSlot => { inSlot with object := workspace.objectFor node classes }) ∧
      workspace.Reclassed node classes last := by
  have synced : engine.syncObject id workspace = _ := syncObject_eq found
  rw [haveClasses] at synced
  cases isObject : node.object with
  | some object =>
      have isFor : workspace.objectFor node classes = some object := by
        simp only [Workspace.objectFor, isObject]
      obtain ⟨record, isRecord⟩ := MemoryStore.contains_iff.1 (known object isObject)
      simp only [isObject, recordTypes_eq isRecord] at synced
      rw [isFor]
      exact ⟨_, synced, rfl, .of_put isFor (by rw [isRecord, Option.getD_some]) fun _ _ => rfl⟩
  | none =>
      simp only [isObject] at synced
      cases nothing : classes.isEmpty with
      | true =>
          have isFor : workspace.objectFor node classes = none := by
            simp only [Workspace.objectFor, isObject, nothing, if_true]
          rw [nothing, if_pos rfl] at synced
          refine ⟨workspace, synced, (modify_eq_self ?_).symm, ?_, fun _ _ => rfl⟩
          · intro inSlot isInSlot
            obtain rfl : node = inSlot := Option.some.inj (found.symm.trans isInSlot)
            rw [isFor, ← isObject]
          · intro object isObjectFor
            exact absurd (isFor.symm.trans isObjectFor) (by simp)
      | false =>
          have isFor : workspace.objectFor node classes = some workspace.supply.draw.1 := by
            simp only [Workspace.objectFor, isObject, nothing, Bool.false_eq_true, if_false]
          have registered := workspace.store.record?_register workspace.supply.draw.1 node.identifier
          simp only [nothing, Bool.false_eq_true, if_false] at synced
          rw [recordTypes_eq registered] at synced
          rw [isFor]
          exact ⟨_, synced, rfl, .of_put isFor rfl fun _ different =>
            MemoryStore.record?_register_of_ne different node.identifier⟩

/-! ## Transforms -/

variable {transform : TransformId}

theorem applyTransform_of_not_mem (free : engine.checkBinding workspace.tree = .ok ())
    (found : workspace.tree.get? id = some node)
    (notLegal : transform ∉ engine.profile.legalTransforms workspace.tree id) :
    engine.applyTransform id transform workspace =
      (.error (.illegalTransform node.identifier (engine.profile.transformLabel transform)),
        workspace) := by
  rw [DomainProfile.mem_legalTransforms_iff] at notLegal
  rw [applyTransform, free, ContentTree.node, found, DomainProfile.transformLabel]
  cases isDefined : engine.profile.transform? transform with
  | none =>
      rfl
  | some definition =>
      have refused : ¬ definition.isLegal workspace.tree id = true :=
        fun legal => notLegal ⟨definition, isDefined, legal⟩
      simp only [if_neg refused]

theorem exists_applyTransform_of_mem (declared : engine.profile.TransformsDeclared)
    (free : engine.checkBinding workspace.tree = .ok ())
    (found : workspace.tree.get? id = some node)
    (known : ∀ object, node.object = some object → workspace.store.contains object = true)
    (legal : transform ∈ engine.profile.legalTransforms workspace.tree id) :
    ∃ definition classes last, engine.profile.transform? transform = some definition ∧
      classes = engine.profile.classesOf definition.result node.subTypes ∧ classes.Nodup ∧
      engine.applyTransform id transform workspace = (.ok (), last) ∧
      last.tree = workspace.tree.modify id (fun inSlot => { inSlot with
        nodeType := some definition.result
        object := workspace.objectFor node classes }) ∧
      workspace.Reclassed node classes last := by
  obtain ⟨definition, isDefined, isLegal⟩ := DomainProfile.mem_legalTransforms_iff.1 legal
  let retyped : Node := { node with nodeType := some definition.result }
  let typed := workspace.modifyNode id fun inSlot =>
    { inSlot with nodeType := some definition.result }
  have typedFound : typed.tree.get? id = some retyped := by
    simp only [typed, retyped, Workspace.modifyNode, get?_modify, if_true, found, Option.map_some]
  have haveClasses : retyped.classes? engine.profile =
      some (engine.profile.classesOf definition.result node.subTypes) :=
    Node.classes?_eq_some rfl (declared transform definition isDefined)
  obtain ⟨last, synced, sameTree, reclassed⟩ := exists_reclassed typedFound haveClasses known
  refine ⟨definition, _, last, isDefined, rfl, DomainProfile.nodup_firstOccurrences _, ?_, ?_, ?_⟩
  · rw [applyTransform_eq_syncObject free found isDefined isLegal, synced]
  · rw [sameTree]
    exact modify_modify id _ _
  · -- The type is no part of the workspace that a change of classes looks at.
    exact ⟨reclassed.object, reclassed.others⟩

/-- A transform is carried out on a node exactly when it is legal for the node. Otherwise it is refused
and nothing changes. When it is carried out, the node has the type to which the transform leads and
its object has the classes of that type and of the node's further types; a node without an object
gets one if there are classes to give it. Nothing else changes. -/
theorem applyTransform_exact {draft : ProfileDraft} (built : draft.build = .ok engine.profile)
    (bound : ∀ identifier, workspace.tree.profile = some identifier →
      identifier = engine.profile.identifier)
    (found : workspace.tree.get? id = some node)
    (known : ∀ object, node.object = some object → workspace.store.contains object = true)
    (transform : TransformId) :
    ∃ legal, engine.legalTransforms workspace.tree id = .ok legal ∧
      ((∃ name label, (engine.applyTransform id transform workspace).1 =
          .error (.illegalTransform name label)) ↔ transform ∉ legal) ∧
      (transform ∉ legal →
        engine.applyTransform id transform workspace =
          (.error (.illegalTransform node.identifier (engine.profile.transformLabel transform)),
            workspace)) ∧
      (transform ∈ legal → ∃ definition classes last,
        engine.profile.transform? transform = some definition ∧
        classes = engine.profile.classesOf definition.result node.subTypes ∧ classes.Nodup ∧
        engine.applyTransform id transform workspace = (.ok (), last) ∧
        last.tree = workspace.tree.modify id (fun inSlot => { inSlot with
          nodeType := some definition.result
          object := workspace.objectFor node classes }) ∧
        workspace.Reclassed node classes last) := by
  have free := checkBinding_eq_ok bound
  have declared := DomainProfile.transformsDeclared_of_build built
  have carriedOut (legal : transform ∈ engine.profile.legalTransforms workspace.tree id) :=
    exists_applyTransform_of_mem declared free found known legal
  refine ⟨_, legalTransforms_eq_ok_iff.2 ⟨free, contains_iff.2 ⟨node, found⟩, rfl⟩, ⟨?_, ?_⟩,
    applyTransform_of_not_mem free found, carriedOut⟩
  · rintro ⟨name, label, refused⟩ legal
    obtain ⟨_, _, last, _, _, _, done, _⟩ := carriedOut legal
    rw [done] at refused
    exact absurd refused (by simp)
  · intro notLegal
    exact ⟨_, _, congrArg Prod.fst (applyTransform_of_not_mem free found notLegal)⟩

/-- The collection of the small archive before it has an object, with a type of its own and one that the
profile does not know as further types. -/
def newcomer : Workspace MemoryStore :=
  { tree := collectionWorkspace.tree.modify ⟨0⟩ fun node =>
      { node with object := none, subTypes := [⟨9⟩, Pcdm.collection, Pcdm.object] }
    store := MemoryStore.empty
    supply := collectionWorkspace.supply }

theorem applyTransform_exact_newcomer :
    (∃ last, pcdmEngine.applyTransform ⟨0⟩ ⟨2⟩ newcomer = (.ok (), last) ∧
      (last.tree.get? ⟨0⟩).bind Node.object = some newcomer.supply.draw.1 ∧
      last.store.record? newcomer.supply.draw.1 =
        some ⟨"archive", [Pcdm.modelTerm "Object", Pcdm.modelTerm "Collection"], ∅⟩) ∧
      pcdmEngine.applyTransform ⟨0⟩ ⟨3⟩ newcomer =
        (.error (.illegalTransform "archive" "object_to_collection"), newcomer) := by
  have built : (ProfileDraft.mk pcdmEngine.profile).build = .ok pcdmEngine.profile := rfl
  have unbound (identifier : String) (isBound : newcomer.tree.profile = some identifier) :
      identifier = pcdmEngine.profile.identifier :=
    nomatch (show none = some identifier from isBound)
  obtain ⟨node, found, noObject, isArchive, subTypes⟩ : ∃ node,
      newcomer.tree.get? ⟨0⟩ = some node ∧ node.object = none ∧ node.identifier = "archive" ∧
        node.subTypes = [⟨9⟩, Pcdm.collection, Pcdm.object] :=
    ⟨_, rfl, rfl, rfl, rfl⟩
  have known (object : String) (isObject : node.object = some object) :
      newcomer.store.contains object = true :=
    absurd (noObject.symm.trans isObject) (by simp)
  have areLegal : pcdmEngine.legalTransforms newcomer.tree ⟨0⟩ = .ok [⟨1⟩, ⟨2⟩] := rfl
  constructor
  · obtain ⟨legal, isLegal, _, _, carriedOut⟩ :=
      applyTransform_exact built unbound found known ⟨2⟩
    obtain rfl := Except.ok.inj (areLegal.symm.trans isLegal)
    obtain ⟨definition, classes, last, isDefined, isClasses, _, done, tree, reclassed⟩ :=
      carriedOut (by decide)
    obtain rfl : Pcdm.collectionToObject = definition := Option.some.inj isDefined
    rw [subTypes] at isClasses
    obtain rfl : [Pcdm.modelTerm "Object", Pcdm.modelTerm "Collection"] = classes :=
      isClasses.symm
    have isFor : newcomer.objectFor node [Pcdm.modelTerm "Object", Pcdm.modelTerm "Collection"] =
        some newcomer.supply.draw.1 := by
      simp [Workspace.objectFor, noObject]
    refine ⟨last, done, ?_, ?_⟩
    · rw [tree, get?_modify, if_pos rfl, found, Option.map_some, Option.bind_some, isFor]
    · rw [reclassed.object _ isFor, isArchive]
      rfl
  · obtain ⟨legal, isLegal, _, refused, _⟩ :=
      applyTransform_exact built unbound found known ⟨3⟩
    obtain rfl := Except.ok.inj (areLegal.symm.trans isLegal)
    rw [isArchive] at refused
    exact refused (by decide)

end ProfileEngine

end ContentTyping

import ContentTyping.Engine.Retyping
import ContentTyping.Proofs.Engine.SyncingInLine
import ContentTyping.Proofs.Validation.Neighbours

/-!
# Legal transforms

A transform is legal for a node of its source type that is not excluded and whose edges meet the
conditions. Carrying it out changes the type of the node and nothing else but its object. So the edges
of the node stay as they are, and where they meet the conditions of a transform back, that one leads
back to the very workspace from which the first one started.
-/

namespace ContentTyping

open ContentTree

/-- The conditions of the transform hold on the edges of a node. -/
structure Transform.ConditionsMet (transform : Transform) (edge : Option Edge)
    (children : List Edge) : Prop where
  parent : transform.parentCondition.all (fun condition => condition.holdsOn edge.toList) = true
  children : transform.childConditions.all (fun condition => condition.holdsOn children) = true

theorem Transform.isLegal_iff {transform : Transform} {tree : ContentTree} {id : NodeId} :
    transform.isLegal tree id = true ↔
      ∃ node, tree.get? id = some node ∧ node.nodeType = some transform.source ∧
        tree.isExcluded id = false ∧
        transform.ConditionsMet (tree.parentEdge? id) (tree.childEdges id) := by
  rw [Transform.isLegal]
  cases found : tree.get? id with
  | none =>
      simp
  | some node =>
      simp only [Bool.and_eq_true, decide_eq_true_eq, Bool.not_eq_true']
      constructor
      · rintro ⟨⟨⟨isSource, included⟩, parent⟩, children⟩
        exact ⟨node, rfl, isSource, included, parent, children⟩
      · rintro ⟨other, isNode, isSource, included, met⟩
        obtain rfl : node = other := Option.some.inj isNode
        exact ⟨⟨⟨isSource, included⟩, met.parent⟩, met.children⟩

theorem DomainProfile.mem_legalTransforms_iff {profile : DomainProfile} {tree : ContentTree}
    {id : NodeId} {transform : TransformId} :
    transform ∈ profile.legalTransforms tree id ↔
      ∃ definition, profile.transform? transform = some definition ∧
        definition.isLegal tree id = true := by
  rw [legalTransforms]
  cases isSource : (tree.get? id).bind Node.nodeType with
  | none =>
      constructor
      · intro listed
        exact absurd listed List.not_mem_nil
      · rintro ⟨definition, _, legal⟩
        obtain ⟨node, found, typed, _⟩ := Transform.isLegal_iff.1 legal
        rw [found, Option.bind_some, typed] at isSource
        exact absurd isSource (by simp)
  | some source =>
      simp only
      rw [List.mem_filter, transformsFrom, List.mem_filter, Option.any_eq_true,
        Option.any_eq_true]
      constructor
      · rintro ⟨_, definition, isDefined, legal⟩
        exact ⟨definition, isDefined, legal⟩
      · rintro ⟨definition, isDefined, legal⟩
        obtain ⟨node, found, typed, _⟩ := Transform.isLegal_iff.1 legal
        rw [found, Option.bind_some, typed] at isSource
        have inRange : transform.index < profile.transforms.length :=
          (List.getElem?_eq_some_iff.1 isDefined).1
        refine ⟨⟨?_, definition, isDefined, ?_⟩, definition, isDefined, legal⟩
        · exact List.mem_map.2 ⟨transform.index, List.mem_range.2 inRange, rfl⟩
        · exact decide_eq_true (Option.some.inj isSource)

theorem DomainProfile.typesDeclared_of_listed {profile : DomainProfile} {tree : ContentTree}
    {start id : NodeId} (valid : (profile.validationReport tree start).violations = [])
    (listed : id ∈ tree.activeSubtree start) {node : Node} (found : tree.get? id = some node) :
    node.TypesDeclared profile := by
  obtain ⟨other, primary, otherFound, _, inOrder⟩ := exists_inOrder_of_listed valid listed
  obtain rfl : node = other := Option.some.inj (found.symm.trans otherFound)
  have declared : ∀ type ∈ primary :: node.subTypes, profile.defines type = true := by
    intro type member
    obtain ⟨definition, isDefined, _⟩ := mem_typesForKind_iff.1 (inOrder.types_fit type member)
    exact defines_iff.2 ⟨definition, isDefined⟩
  refine ⟨fun type isType => ?_, fun type member => declared type (List.mem_cons_of_mem _ member)⟩
  obtain rfl : primary = type := Option.some.inj (inOrder.typed.symm.trans isType)
  exact declared primary List.mem_cons_self

/-- In a tree in order the source of a legal transform fits between the edges of the node. -/
theorem DomainProfile.fitsBetween_source {profile : DomainProfile} {tree : ContentTree}
    {start id : NodeId} {definition : Transform} (wellFormed : tree.WellFormed)
    (valid : (profile.validationReport tree start).violations = [])
    (listed : id ∈ tree.activeSubtree start) (legal : definition.isLegal tree id = true) :
    profile.FitsBetween definition.source (tree.parentEdge? id) (tree.childEdges id) := by
  obtain ⟨node, found, isSource, _, _⟩ := Transform.isLegal_iff.1 legal
  exact fitsBetween_of_listed wellFormed valid listed found isSource

/-- A transform is legal for a node that got its source type when its conditions were met before. -/
theorem Transform.isLegal_of_retyped {before after : ContentTree} {id : NodeId}
    {definition : Transform} (wellFormed : before.WellFormed)
    (retyped : Retyped before after id definition.source) (live : before.contains id = true)
    (included : before.isExcluded id = false)
    (met : definition.ConditionsMet (before.parentEdge? id) (before.childEdges id)) :
    definition.isLegal after id = true := by
  obtain ⟨node, found⟩ := contains_iff.1 live
  obtain ⟨last, lastFound, same⟩ := retyped.exists_get? found
  have sameType : last.nodeType = some definition.source := (congrArg Node.nodeType same :)
  refine Transform.isLegal_iff.2
    ⟨last, lastFound, sameType, (retyped.links.isExcluded id).trans included, ?_⟩
  rw [retyped.parentEdge? wellFormed, retyped.childEdges wellFormed]
  exact met

theorem Transform.listed_of_isLegal {tree : ContentTree} {root id : NodeId}
    {definition : Transform} (wellFormed : tree.WellFormed) (isRoot : tree.root = some root)
    (legal : definition.isLegal tree id = true) : id ∈ tree.activeSubtree root := by
  obtain ⟨node, found, _, included, _⟩ := Transform.isLegal_iff.1 legal
  exact wellFormed.mem_activeSubtree_root isRoot (contains_iff.2 ⟨node, found⟩) included

namespace ProfileEngine

variable {engine : ProfileEngine} {id : NodeId} {transform : TransformId} {definition : Transform}

theorem legalTransforms_eq_ok_iff {tree : ContentTree} {legal : List TransformId} :
    engine.legalTransforms tree id = .ok legal ↔ engine.checkBinding tree = .ok () ∧
      tree.contains id = true ∧ engine.profile.legalTransforms tree id = legal :=
  reading_eq_ok_iff

/-! ## What a transform does -/

section AnyStore

variable {S : Type} [ObjectStore S] {workspace last : Workspace S}

theorem applyTransform_eq_syncObject {node : Node}
    (free : engine.checkBinding workspace.tree = .ok ())
    (found : workspace.tree.get? id = some node)
    (isDefined : engine.profile.transform? transform = some definition)
    (legal : definition.isLegal workspace.tree id = true) :
    engine.applyTransform id transform workspace =
      engine.syncObject id (workspace.modifyNode id fun node =>
        { node with nodeType := some definition.result }) := by
  simp [applyTransform, ContentTree.node, free, found, isDefined, legal]

/-- Only a legal transform is carried out. -/
theorem exists_legal_of_applyTransform
    (done : (engine.applyTransform id transform workspace).1 = .ok ()) :
    engine.checkBinding workspace.tree = .ok () ∧
      ∃ definition, engine.profile.transform? transform = some definition ∧
        definition.isLegal workspace.tree id = true := by
  rw [applyTransform] at done
  split at done
  · exact absurd done (by simp)
  · exact absurd done (by simp)
  next free _ =>
      split at done
      · exact absurd done (by simp)
      next definition isDefined =>
          split at done
          next legal =>
              exact ⟨free, definition, isDefined, legal⟩
          · exact absurd done (by simp)

theorem retyped_of_applyTransform (free : engine.checkBinding workspace.tree = .ok ())
    (isDefined : engine.profile.transform? transform = some definition)
    (legal : definition.isLegal workspace.tree id = true) :
    Retyped workspace.tree (engine.applyTransform id transform workspace).2.tree id
      definition.result := by
  obtain ⟨node, found, _⟩ := Transform.isLegal_iff.1 legal
  rw [applyTransform_eq_syncObject free found isDefined legal]
  exact engine.syncObject_objectsOnly id (workspace.modifyNode id fun node =>
    { node with nodeType := some definition.result })

end AnyStore

/-! ## There and back -/

end ProfileEngine

/-- The node with this type and this object. -/
def Node.recast (type : NodeTypeId) (object : String) (node : Node) : Node :=
  { node with nodeType := some type, object := some object }

/-- The workspace with a type and an object for one node, and a record of the object. -/
def Workspace.recast (workspace : Workspace MemoryStore) (id : NodeId) (type : NodeTypeId)
    (object : String) (record : ObjectRecord) : Workspace MemoryStore :=
  { tree := workspace.tree.modify id (Node.recast type object)
    store := workspace.store.put object record
    supply := workspace.supply }

/-- Only the last of two such changes counts, and none that changes nothing. -/
theorem Workspace.recast_recast {workspace : Workspace MemoryStore} {id : NodeId} {node : Node}
    {primary type : NodeTypeId} {object : String} {record other : ObjectRecord}
    (found : workspace.tree.get? id = some node) (isPrimary : node.nodeType = some primary)
    (isObject : node.object = some object)
    (isRecord : workspace.store.record? object = some record) :
    (workspace.recast id type object other).recast id primary object record = workspace := by
  have sameTree : workspace.tree.modify id (Node.recast primary object ∘ Node.recast type object) =
      workspace.tree := by
    apply modify_eq_self
    intro inSlot inSlotFound
    obtain rfl : node = inSlot := Option.some.inj (found.symm.trans inSlotFound)
    simp only [Function.comp, Node.recast, ← isPrimary, ← isObject]
  simp only [Workspace.recast, modify_modify, sameTree, MemoryStore.put_put,
    MemoryStore.put_eq_self isRecord]

namespace ProfileEngine

variable {engine : ProfileEngine} {id : NodeId} {transform : TransformId} {definition : Transform}
  {workspace : Workspace MemoryStore} {node : Node} {object : String} {record : ObjectRecord}

/-- What becomes of a node with an object, and of the object. -/
theorem applyTransform_of_object {types : List String}
    (free : engine.checkBinding workspace.tree = .ok ())
    (found : workspace.tree.get? id = some node)
    (isDefined : engine.profile.transform? transform = some definition)
    (legal : definition.isLegal workspace.tree id = true)
    (declared : { node with nodeType := some definition.result }.TypesDeclared engine.profile)
    (haveTypes : engine.profile.domainTypes? definition.result node.subTypes = some types)
    (isObject : node.object = some object)
    (isRecord : workspace.store.record? object = some record) :
    engine.applyTransform id transform workspace =
      (.ok (), workspace.recast id definition.result object { record with types := types }) := by
  let retyped := workspace.modifyNode id fun node =>
    { node with nodeType := some definition.result }
  have retypedFound : retyped.tree.get? id =
      some { node with nodeType := some definition.result } := by
    simp only [retyped, Workspace.modifyNode, get?_modify, if_true, found, Option.map_some]
  have retypedRecord : retyped.store.record? object = some record := isRecord
  rw [applyTransform_eq_syncObject free found isDefined legal,
    syncObject_of_object retypedFound declared rfl haveTypes isObject,
    recordTypes_eq retypedRecord]
  simp only [retyped, Workspace.modifyNode, modify_modify]
  rfl

/-- A transform is undone by one in the other direction whose conditions are met on the same
edges. -/
theorem applyTransform_back (wellFormed : workspace.tree.WellFormed)
    (free : engine.checkBinding workspace.tree = .ok ())
    (found : workspace.tree.get? id = some node) (declared : node.TypesDeclared engine.profile)
    (isObject : node.object = some object)
    (follow : node.ClassesFollow engine.profile workspace.store)
    (resultDeclared : engine.profile.defines definition.result = true)
    (isDefined : engine.profile.transform? transform = some definition)
    (legal : definition.isLegal workspace.tree id = true)
    {back : TransformId} {reverse : Transform}
    (isReverse : engine.profile.transform? back = some reverse)
    (sourceIsResult : reverse.source = definition.result)
    (resultIsSource : reverse.result = definition.source)
    (met : reverse.ConditionsMet (workspace.tree.parentEdge? id) (workspace.tree.childEdges id)) :
    ∃ middle, engine.applyTransform id transform workspace = (.ok (), middle) ∧
      engine.checkBinding middle.tree = .ok () ∧ reverse.isLegal middle.tree id = true ∧
      engine.applyTransform id back middle = (.ok (), workspace) := by
  obtain ⟨typedNode, typedFound, isSource, included, _⟩ := Transform.isLegal_iff.1 legal
  obtain rfl : node = typedNode := Option.some.inj (found.symm.trans typedFound)
  obtain ⟨record, isRecord, haveTypes⟩ := follow definition.source object isSource isObject
  have middleDeclared : ({ node with nodeType := some definition.result } : Node).TypesDeclared
      engine.profile :=
    declared.retyped resultDeclared rfl rfl
  obtain ⟨types, haveMiddleTypes⟩ := middleDeclared.exists_domainTypes? rfl
  let middle := workspace.recast id definition.result object { record with types := types }
  have there : engine.applyTransform id transform workspace = (.ok (), middle) :=
    applyTransform_of_object free found isDefined legal middleDeclared haveMiddleTypes isObject
      isRecord
  have retyped := retyped_of_applyTransform free isDefined legal
  rw [there] at retyped
  have middleFound : middle.tree.get? id = some (node.recast definition.result object) := by
    simp only [middle, Workspace.recast, get?_modify, if_true, found, Option.map_some]
  have legalBack : reverse.isLegal middle.tree id = true := by
    rw [← sourceIsResult] at retyped
    exact Transform.isLegal_of_retyped wellFormed retyped (contains_iff.2 ⟨node, found⟩) included met
  have backDeclared : ({ node.recast definition.result object with
      nodeType := some reverse.result } : Node).TypesDeclared engine.profile := by
    rw [resultIsSource]
    exact declared.retyped (declared.primary _ isSource) rfl rfl
  have middleRecord : middle.store.record? object = some { record with types := types } := by
    simp only [middle, Workspace.recast, MemoryStore.record?_put, if_true]
  have middleFree : engine.checkBinding middle.tree = .ok () := free
  -- The further types were not touched, so the types from before give the classes from before.
  have haveTypesBack : engine.profile.domainTypes? reverse.result node.subTypes =
      some record.types := by
    rw [resultIsSource]
    exact haveTypes
  have returned := applyTransform_of_object middleFree middleFound isReverse legalBack backDeclared
    haveTypesBack rfl middleRecord
  refine ⟨middle, there, middleFree, legalBack, ?_⟩
  rw [returned, resultIsSource]
  exact congrArg (Prod.mk (Except.ok ()))
    (Workspace.recast_recast found isSource isObject isRecord)

end ProfileEngine

end ContentTyping

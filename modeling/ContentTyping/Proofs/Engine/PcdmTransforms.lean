import ContentTyping.Proofs.Engine.Closure
import ContentTyping.Proofs.Validation.PcdmEdges

/-!
# Transforms by the Portland Common Data Model

The conditions of the transforms are enough to keep a tree in order, and in a tree in order each
transform can be undone by another one.
-/

namespace ContentTyping

namespace Pcdm

open ContentTree DomainProfile

variable {transform : Transform} {kind : Option FileKind}

/-- No transform starts from files or leads to them. -/
theorem notFile_of_mem_transforms (declared : transform ∈ profile.transforms) :
    (transform.source = administrativeSet ∨ transform.source = collection ∨
        transform.source = object) ∧
      (transform.result = administrativeSet ∨ transform.result = collection ∨
        transform.result = object) := by
  rcases mem_transforms_iff.1 declared with rfl | rfl | rfl | rfl
  · exact ⟨.inl rfl, .inr (.inl rfl)⟩
  · exact ⟨.inr (.inl rfl), .inl rfl⟩
  · exact ⟨.inr (.inl rfl), .inr (.inr rfl)⟩
  · exact ⟨.inr (.inr rfl), .inr (.inl rfl)⟩

theorem result_mem_typesForKind (declared : transform ∈ profile.transforms)
    (accepted : transform.source ∈ profile.typesForKind kind) :
    transform.result ∈ profile.typesForKind kind := by
  obtain ⟨sourceNotFile, resultNotFile⟩ := notFile_of_mem_transforms declared
  have notRegular : kind ≠ some .regularFile :=
    (mem_typesForKind_grouping_iff sourceNotFile).1 accepted
  exact (mem_typesForKind_grouping_iff resultNotFile).2 notRegular

theorem defines_result (declared : transform ∈ profile.transforms) :
    profile.defines transform.result = true := by
  obtain ⟨_, isResult | isResult | isResult⟩ := notFile_of_mem_transforms declared
  · rw [isResult]
    rfl
  · rw [isResult]
    rfl
  · rw [isResult]
    rfl

end Pcdm

namespace ProfileEngine

open ContentTree DomainProfile

variable {engine : ProfileEngine} {root id : NodeId} {transform : TransformId}

/-- A transform leaves a valid tree valid. It is carried out on no node but one for which it is
legal. -/
theorem pcdm_isValid_of_applyTransform {S : Type} [ObjectStore S] {workspace last : Workspace S}
    (isPcdm : engine.profile = Pcdm.profile) (wellFormed : workspace.tree.WellFormed)
    (isRoot : workspace.tree.root = some root)
    (valid : engine.isValid workspace.tree root = true)
    (done : engine.applyTransform id transform workspace = (.ok (), last)) :
    engine.isValid last.tree root = true := by
  obtain ⟨free, live, inOrder⟩ := isValid_iff.1 valid
  have succeeds : (engine.applyTransform id transform workspace).1 = .ok () := by
    rw [done]
  obtain ⟨_, definition, isDefined, legal⟩ := exists_legal_of_applyTransform succeeds
  have retyped := retyped_of_applyTransform free isDefined legal
  rw [done] at retyped
  have listed := Transform.listed_of_isLegal wellFormed isRoot legal
  have fits := fitsBetween_source wellFormed inOrder listed legal
  obtain ⟨node, found, isSource, _, met⟩ := Transform.isLegal_iff.1 legal
  have accepted : definition.source ∈ engine.profile.typesForKind (workspace.tree.fileKind id) := by
    rw [fileKind, found]
    exact (inOrder_of_listed inOrder listed found isSource).types_fit _ List.mem_cons_self
  have sameBinding : last.tree.profile = workspace.tree.profile := retyped.profile
  refine isValid_iff.2 ⟨?_, ?_, ?_⟩
  · rw [checkBinding, sameBinding]
    exact free
  · exact (retyped.links.contains root).trans live
  · rw [isPcdm] at isDefined inOrder fits accepted ⊢
    have declared : definition ∈ Pcdm.profile.transforms := List.mem_of_getElem? isDefined
    exact validationReport_of_retyped Pcdm.siblingsIndependent wellFormed retyped inOrder listed
      (Pcdm.result_mem_typesForKind declared accepted)
      (Pcdm.fitsBetween_result declared fits met)

/-- The small archive as a collection, the item in it as an object, and a record of the
collection. -/
def collectionWorkspace : Workspace MemoryStore :=
  let typing (id : NodeId) : Edge :=
    if id = ⟨0⟩ then ⟨some Pcdm.collection, none⟩
    else if id = ⟨1⟩ then ⟨some Pcdm.object, some Pcdm.memberOf⟩
    else ⟨some Pcdm.file, some Pcdm.fileOf⟩
  { tree := (smallArchive.retype (smallArchive.activeSubtree ⟨0⟩) typing).modify ⟨0⟩ fun node =>
      { node with object := some "urn:archive" }
    store := MemoryStore.empty.put "urn:archive" ⟨"archive", [Pcdm.modelTerm "Collection"], ∅⟩
    supply := ⟨RandomName.ofNat, 0⟩ }

theorem wellFormed_collectionWorkspace : collectionWorkspace.tree.WellFormed :=
  (wellFormed_smallArchive.retype _ _).modify ⟨0⟩ fun _ => ⟨rfl, rfl, rfl⟩

theorem pcdm_isValid_of_applyTransform_collection :
    (pcdmEngine.applyTransform ⟨0⟩ ⟨2⟩ collectionWorkspace).1 = .ok () ∧
      pcdmEngine.isValid (pcdmEngine.applyTransform ⟨0⟩ ⟨2⟩ collectionWorkspace).2.tree ⟨0⟩ =
        true := by
  have succeeds : (pcdmEngine.applyTransform ⟨0⟩ ⟨2⟩ collectionWorkspace).1 = .ok () := by
    decide +kernel
  have valid : pcdmEngine.isValid collectionWorkspace.tree ⟨0⟩ = true := by decide
  refine ⟨succeeds, ?_⟩
  exact pcdm_isValid_of_applyTransform rfl wellFormed_collectionWorkspace rfl valid
    (Prod.ext succeeds rfl)

/-- In a valid tree a legal transform of a node whose object is in line succeeds. Then a transform
in the other direction is legal, and it leads back to the tree and the store from which the first
one started. -/
theorem pcdm_applyTransform_undone {workspace : Workspace MemoryStore}
    (isPcdm : engine.profile = Pcdm.profile) (wellFormed : workspace.tree.WellFormed)
    (isRoot : workspace.tree.root = some root)
    (valid : engine.isValid workspace.tree root = true)
    {node : Node} (found : workspace.tree.get? id = some node)
    {object : String} (isObject : node.object = some object)
    (follow : node.ClassesFollow engine.profile workspace.store)
    {legal : List TransformId} (areLegal : engine.legalTransforms workspace.tree id = .ok legal)
    (member : transform ∈ legal)
    {definition : Transform} (isDefined : engine.profile.transform? transform = some definition) :
    ∃ middle, engine.applyTransform id transform workspace = (.ok (), middle) ∧
      ∃ back reverse legalBack,
        engine.profile.transform? back = some reverse ∧
        reverse.source = definition.result ∧ reverse.result = definition.source ∧
        engine.legalTransforms middle.tree id = .ok legalBack ∧ back ∈ legalBack ∧
        engine.applyTransform id back middle = (.ok (), workspace) := by
  obtain ⟨free, _, inOrder⟩ := isValid_iff.1 valid
  obtain ⟨_, _, rfl⟩ := legalTransforms_eq_ok_iff.1 areLegal
  have isLegal : definition.isLegal workspace.tree id = true := by
    obtain ⟨other, otherDefined, otherLegal⟩ := mem_legalTransforms_iff.1 member
    obtain rfl : definition = other := Option.some.inj (isDefined.symm.trans otherDefined)
    exact otherLegal
  have listed := Transform.listed_of_isLegal wellFormed isRoot isLegal
  have fits := fitsBetween_source wellFormed inOrder listed isLegal
  have typesDeclared : node.TypesDeclared engine.profile :=
    typesDeclared_of_listed inOrder listed found
  have declared : definition ∈ Pcdm.profile.transforms := by
    rw [isPcdm] at isDefined
    exact List.mem_of_getElem? isDefined
  have resultDeclared : engine.profile.defines definition.result = true := by
    rw [isPcdm]
    exact Pcdm.defines_result declared
  rw [isPcdm] at fits
  obtain ⟨back, reverse, isReverse, sourceIsResult, resultIsSource, met⟩ :=
    Pcdm.exists_reverse declared fits
  rw [← isPcdm] at isReverse
  obtain ⟨middle, there, middleFree, legalBack, returned⟩ :=
    applyTransform_back wellFormed free found typesDeclared isObject follow resultDeclared isDefined
      isLegal isReverse sourceIsResult resultIsSource met
  have middleLive : middle.tree.contains id = true := by
    obtain ⟨middleNode, middleFound, _⟩ := Transform.isLegal_iff.1 legalBack
    exact contains_iff.2 ⟨middleNode, middleFound⟩
  exact ⟨middle, there, back, reverse, engine.profile.legalTransforms middle.tree id, isReverse,
    sourceIsResult, resultIsSource, legalTransforms_eq_ok_iff.2 ⟨middleFree, middleLive, rfl⟩,
    mem_legalTransforms_iff.2 ⟨reverse, isReverse, legalBack⟩, returned⟩

theorem pcdm_applyTransform_undone_collection :
    ∃ middle, pcdmEngine.applyTransform ⟨0⟩ ⟨2⟩ collectionWorkspace = (.ok (), middle) ∧
      ∃ back, pcdmEngine.applyTransform ⟨0⟩ back middle = (.ok (), collectionWorkspace) := by
  have valid : pcdmEngine.isValid collectionWorkspace.tree ⟨0⟩ = true := by decide
  have areLegal : pcdmEngine.legalTransforms collectionWorkspace.tree ⟨0⟩ = .ok [⟨1⟩, ⟨2⟩] := rfl
  obtain ⟨node, found, isCollection, noSubTypes, isObject⟩ :
      ∃ node, collectionWorkspace.tree.get? ⟨0⟩ = some node ∧
        node.nodeType = some Pcdm.collection ∧ node.subTypes = [] ∧
        node.object = some "urn:archive" := ⟨_, rfl, rfl, rfl, rfl⟩
  have follow : node.ClassesFollow pcdmEngine.profile collectionWorkspace.store := by
    intro primary object isType hasObject
    obtain rfl : Pcdm.collection = primary := Option.some.inj (isCollection.symm.trans isType)
    obtain rfl : "urn:archive" = object := Option.some.inj (isObject.symm.trans hasObject)
    rw [noSubTypes]
    exact ⟨⟨"archive", [Pcdm.modelTerm "Collection"], ∅⟩, MemoryStore.record?_put _ _ _, rfl⟩
  obtain ⟨middle, there, back, _, _, _, _, _, _, _, returned⟩ :=
    @pcdm_applyTransform_undone pcdmEngine ⟨0⟩ ⟨0⟩ ⟨2⟩ collectionWorkspace rfl
      wellFormed_collectionWorkspace rfl valid node found "urn:archive" isObject follow _ areLegal
      (by decide) Pcdm.collectionToObject rfl
  exact ⟨middle, there, back, returned⟩

end ProfileEngine

end ContentTyping

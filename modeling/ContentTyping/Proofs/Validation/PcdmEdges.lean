import ContentTyping.Proofs.Plan.Pcdm
import ContentTyping.Proofs.Engine.Transforms

/-!
# Edges by the Portland Common Data Model

Which types may stand below which, and by which relation. From this one reads off that each transform
leads to a type that fits between the same edges, and that there is a transform back whose conditions
these edges meet.
-/

namespace ContentTyping

namespace EdgeConstraint

variable {type : NodeTypeId} {relation : RelationId} {edges : List Edge}

theorem holdsOn_noEdge : noEdge.holdsOn edges = true ↔ edges = [] := by
  rw [holdsOn_of_matchesNone rfl, List.eq_nil_iff_forall_not_mem]
  refine forall_congr' fun edge => ?_
  simp [covers, noEdge]

theorem covers_allow {edge : Edge} :
    (allow type relation).covers edge = true ↔ edge = ⟨some type, some relation⟩ := by
  obtain ⟨otherType, otherRelation⟩ := edge
  rw [covers_iff]
  simp [allow]

theorem holdsOn_allow :
    (allow type relation).holdsOn edges = true ↔ ⟨some type, some relation⟩ ∈ edges := by
  rw [holdsOn_of_not_matchesNone rfl]
  simp only [covers_allow, exists_eq_right]

theorem holdsOn_disallow :
    (disallow type relation).holdsOn edges = true ↔ ⟨some type, some relation⟩ ∉ edges := by
  rw [holdsOn_of_matchesNone rfl]
  constructor
  · intro uncovered member
    have covered : (allow type relation).covers ⟨some type, some relation⟩ = true :=
      covers_allow.2 rfl
    exact absurd (covered.symm.trans (uncovered _ member)) (by simp)
  · intro missing edge member
    refine Bool.eq_false_iff.2 fun covered => missing ?_
    obtain rfl := covers_allow.1 covered
    exact member

end EdgeConstraint

namespace Pcdm

open DomainProfile EdgeConstraint

variable {type parentType : NodeTypeId} {edge : Option Edge} {children : List Edge}
  {relation : Option RelationId}

/-! ## Types below types -/

theorem fitsBelow_iff_of_parents {parents : List EdgeConstraint}
    (isParents : (profile.nodeType? type).map NodeType.parentConstraints = some parents) :
    profile.FitsBelow type edge ↔
      ∃ constraint ∈ parents, constraint.holdsOn edge.toList = true := by
  obtain ⟨definition, isDefined, rfl⟩ := Option.map_eq_some_iff.1 isParents
  rw [FitsBelow, isDefined]
  simp

theorem fitsBelow_administrativeSet_iff :
    profile.FitsBelow administrativeSet edge ↔ edge = none := by
  rw [@fitsBelow_iff_of_parents administrativeSet edge administrativeSetParents rfl]
  simp [administrativeSetParents, holdsOn_noEdge]

theorem fitsBelow_collection_iff :
    profile.FitsBelow collection edge ↔
      edge = none ∨ edge = some ⟨some administrativeSet, some memberOf⟩ ∨
        edge = some ⟨some collection, some memberOf⟩ := by
  rw [@fitsBelow_iff_of_parents collection edge collectionParents rfl]
  simp [collectionParents, holdsOn_noEdge, holdsOn_allow]

theorem fitsBelow_object_iff :
    profile.FitsBelow object edge ↔
      edge = none ∨ edge = some ⟨some administrativeSet, some memberOf⟩ ∨
        edge = some ⟨some collection, some memberOf⟩ ∨
        edge = some ⟨some object, some memberOf⟩ := by
  rw [@fitsBelow_iff_of_parents object edge objectParents rfl]
  simp [objectParents, holdsOn_noEdge, holdsOn_allow]

theorem fitsBelow_file_iff :
    profile.FitsBelow file edge ↔ edge = some ⟨some object, some fileOf⟩ := by
  rw [@fitsBelow_iff_of_parents file edge fileParents rfl]
  simp [fileParents, holdsOn_allow]

theorem fitsBelow_cases (fits : profile.FitsBelow type edge) :
    type = administrativeSet ∨ type = collection ∨ type = object ∨ type = file := by
  obtain ⟨definition, isDefined, _⟩ := fits
  have inRange : type.index < profile.nodeTypes.length :=
    (List.getElem?_eq_some_iff.1 isDefined).1
  have declared : type ∈ profile.typeIds :=
    List.mem_map.2 ⟨type.index, List.mem_range.2 inRange, rfl⟩
  have all : profile.typeIds = [administrativeSet, collection, object, file] := rfl
  rw [all] at declared
  simpa using declared

theorem some_edge_inj {otherType : NodeTypeId} {otherRelation : RelationId} :
    some (⟨some parentType, relation⟩ : Edge) = some ⟨some otherType, some otherRelation⟩ ↔
      parentType = otherType ∧ relation = some otherRelation := by
  simp

/-- Below a grouping stand collections and objects. -/
theorem fitsBelow_grouping_iff (grouping : IsGrouping parentType) :
    profile.FitsBelow type (some ⟨some parentType, relation⟩) ↔
      (type = collection ∨ type = object) ∧ relation = some memberOf := by
  have notObject : parentType ≠ object := by
    rcases grouping with rfl | rfl <;> decide
  constructor
  · intro fits
    rcases fitsBelow_cases fits with rfl | rfl | rfl | rfl
    · exact absurd (fitsBelow_administrativeSet_iff.1 fits) (by simp)
    · refine ⟨.inl rfl, ?_⟩
      simp only [fitsBelow_collection_iff, some_edge_inj, reduceCtorEq, false_or] at fits
      exact fits.elim And.right And.right
    · refine ⟨.inr rfl, ?_⟩
      simp only [fitsBelow_object_iff, some_edge_inj, reduceCtorEq, false_or] at fits
      rcases fits with fits | fits | fits
      · exact fits.2
      · exact fits.2
      · exact fits.2
    · rw [fitsBelow_file_iff, some_edge_inj] at fits
      exact absurd fits.1 notObject
  · rintro ⟨rfl | rfl, rfl⟩
    · rw [fitsBelow_collection_iff]
      rcases grouping with rfl | rfl
      · exact .inr (.inl rfl)
      · exact .inr (.inr rfl)
    · rw [fitsBelow_object_iff]
      rcases grouping with rfl | rfl
      · exact .inr (.inl rfl)
      · exact .inr (.inr (.inl rfl))

/-- Below an object stand objects and files. -/
theorem fitsBelow_object_parent_iff :
    profile.FitsBelow type (some ⟨some object, relation⟩) ↔
      (type = object ∧ relation = some memberOf) ∨ (type = file ∧ relation = some fileOf) := by
  constructor
  · intro fits
    rcases fitsBelow_cases fits with rfl | rfl | rfl | rfl
    · exact absurd (fitsBelow_administrativeSet_iff.1 fits) (by simp)
    · simp only [fitsBelow_collection_iff, some_edge_inj, reduceCtorEq, false_or] at fits
      rcases fits with fits | fits
      · exact absurd fits.1 (by decide)
      · exact absurd fits.1 (by decide)
    · simp only [fitsBelow_object_iff, some_edge_inj, reduceCtorEq, false_or] at fits
      rcases fits with fits | fits | fits
      · exact absurd fits.1 (by decide)
      · exact absurd fits.1 (by decide)
      · exact .inl ⟨rfl, fits.2⟩
    · rw [fitsBelow_file_iff, some_edge_inj] at fits
      exact .inr ⟨rfl, fits.2⟩
  · rintro (⟨rfl, rfl⟩ | ⟨rfl, rfl⟩)
    · exact fitsBelow_object_iff.2 (.inr (.inr (.inr rfl)))
    · exact fitsBelow_file_iff.2 rfl

/-! ## Transforms -/

theorem mem_transforms_iff {transform : Transform} :
    transform ∈ profile.transforms ↔
      transform = administrativeSetToCollection ∨ transform = collectionToAdministrativeSet ∨
        transform = collectionToObject ∨ transform = objectToCollection := by
  simp [profile]

/-- A change between groupings changes nothing for the children. -/
theorem above_of_groupings {source result : NodeTypeId} (isSource : IsGrouping source)
    (isResult : IsGrouping result) (fits : profile.FitsBetween source edge children) :
    ∀ child ∈ children, ∃ childType, child.nodeType = some childType ∧
      profile.FitsBelow childType (some ⟨some result, child.relation⟩) := by
  intro child member
  obtain ⟨childType, isType, below⟩ := fits.above child member
  exact ⟨childType, isType,
    (fitsBelow_grouping_iff isResult).2 ((fitsBelow_grouping_iff isSource).1 below)⟩

theorem fitsBetween_administrativeSetToCollection
    (fits : profile.FitsBetween administrativeSet edge children) :
    profile.FitsBetween collection edge children where
  below := fitsBelow_collection_iff.2 (.inl (fitsBelow_administrativeSet_iff.1 fits.below))
  above := above_of_groupings (.inl rfl) (.inr rfl) fits

theorem fitsBetween_collectionToAdministrativeSet
    (fits : profile.FitsBetween collection edge children)
    (met : collectionToAdministrativeSet.ConditionsMet edge children) :
    profile.FitsBetween administrativeSet edge children where
  below := by
    have noEdges : edge.toList = [] := holdsOn_noEdge.1 met.parent
    exact fitsBelow_administrativeSet_iff.2 (Option.toList_eq_nil_iff.1 noEdges)
  above := above_of_groupings (.inr rfl) (.inl rfl) fits

theorem fitsBetween_collectionToObject (fits : profile.FitsBetween collection edge children)
    (met : collectionToObject.ConditionsMet edge children) :
    profile.FitsBetween object edge children where
  below := by
    rw [fitsBelow_object_iff]
    rcases fitsBelow_collection_iff.1 fits.below with isRoot | below | below
    · exact .inl isRoot
    · exact .inr (.inl below)
    · exact .inr (.inr (.inl below))
  above child member := by
    have noCollection : ⟨some collection, some memberOf⟩ ∉ children := by
      simpa [collectionToObject, holdsOn_disallow] using met.children
    obtain ⟨childType, isType, below⟩ := fits.above child member
    obtain ⟨rfl | rfl, isMember⟩ := (fitsBelow_grouping_iff (.inr rfl)).1 below
    · have isCollection : child = ⟨some collection, some memberOf⟩ := by
        rw [← isType, ← isMember]
      rw [isCollection] at member
      exact absurd member noCollection
    · exact ⟨object, isType, fitsBelow_object_parent_iff.2 (.inl ⟨rfl, isMember⟩)⟩

theorem fitsBetween_objectToCollection (fits : profile.FitsBetween object edge children)
    (met : objectToCollection.ConditionsMet edge children) :
    profile.FitsBetween collection edge children where
  below := by
    have notBelowObject : ⟨some object, some memberOf⟩ ∉ edge.toList := by
      simpa [objectToCollection, holdsOn_disallow] using met.parent
    rw [Option.mem_toList] at notBelowObject
    rw [fitsBelow_collection_iff]
    rcases fitsBelow_object_iff.1 fits.below with isRoot | below | below | below
    · exact .inl isRoot
    · exact .inr (.inl below)
    · exact .inr (.inr below)
    · exact absurd below notBelowObject
  above child member := by
    have noFile : ⟨some file, some fileOf⟩ ∉ children := by
      simpa [objectToCollection, holdsOn_disallow] using met.children
    obtain ⟨childType, isType, below⟩ := fits.above child member
    rcases fitsBelow_object_parent_iff.1 below with ⟨rfl, isMember⟩ | ⟨rfl, isFile⟩
    · exact ⟨object, isType, (fitsBelow_grouping_iff (.inr rfl)).2 ⟨.inr rfl, isMember⟩⟩
    · have isFileChild : child = ⟨some file, some fileOf⟩ := by
        rw [← isType, ← isFile]
      rw [isFileChild] at member
      exact absurd member noFile

/-- A transform whose conditions are met leads to a type that fits between the same edges. -/
theorem fitsBetween_result {transform : Transform} (declared : transform ∈ profile.transforms)
    (fits : profile.FitsBetween transform.source edge children)
    (met : transform.ConditionsMet edge children) :
    profile.FitsBetween transform.result edge children := by
  rcases mem_transforms_iff.1 declared with rfl | rfl | rfl | rfl
  · exact fitsBetween_administrativeSetToCollection fits
  · exact fitsBetween_collectionToAdministrativeSet fits met
  · exact fitsBetween_collectionToObject fits met
  · exact fitsBetween_objectToCollection fits met

/-- Where the source of a transform fits, the conditions of a transform back are met. -/
theorem exists_reverse {transform : Transform} (declared : transform ∈ profile.transforms)
    (fits : profile.FitsBetween transform.source edge children) :
    ∃ back reverse, profile.transform? back = some reverse ∧
      reverse.source = transform.result ∧ reverse.result = transform.source ∧
      reverse.ConditionsMet edge children := by
  -- What the way back excludes may not stand next to the source anyway.
  rcases mem_transforms_iff.1 declared with rfl | rfl | rfl | rfl
  · refine ⟨⟨1⟩, collectionToAdministrativeSet, rfl, rfl, rfl, ?_, rfl⟩
    have noParent : edge = none := fitsBelow_administrativeSet_iff.1 fits.below
    rw [noParent]
    rfl
  · exact ⟨⟨0⟩, administrativeSetToCollection, rfl, rfl, rfl, rfl, rfl⟩
  · refine ⟨⟨3⟩, objectToCollection, rfl, rfl, rfl, ?_, ?_⟩
    · rcases fitsBelow_collection_iff.1 fits.below with rfl | rfl | rfl <;> rfl
    · have noFile : ⟨some file, some fileOf⟩ ∉ children := by
        intro member
        obtain ⟨childType, isType, below⟩ := fits.above _ member
        obtain ⟨isMember, _⟩ := (fitsBelow_grouping_iff (.inr rfl)).1 below
        obtain rfl : file = childType := Option.some.inj isType
        exact absurd isMember (by decide)
      simpa [objectToCollection, holdsOn_disallow] using noFile
  · refine ⟨⟨2⟩, collectionToObject, rfl, rfl, rfl, rfl, ?_⟩
    have noCollection : ⟨some collection, some memberOf⟩ ∉ children := by
      intro member
      obtain ⟨childType, isType, below⟩ := fits.above _ member
      obtain rfl : collection = childType := Option.some.inj isType
      rcases fitsBelow_object_parent_iff.1 below with isObject | isFile
      · exact absurd isObject.1 (by decide)
      · exact absurd isFile.1 (by decide)
    simpa [collectionToObject, holdsOn_disallow] using noCollection

end Pcdm

end ContentTyping

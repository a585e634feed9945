import ContentTyping.Proofs.Store.Counts
import ContentTyping.Store.Query

/-!
# Classes in a store of statements

The classes of an object and the objects of a class are two views of the same statements, whatever calls
were made before. Giving an object classes changes nothing but the classes of that object.
-/

namespace ContentTyping

namespace TripleStore

variable {store : TripleStore} {object : String}

/-! ## Texts in order -/

theorem mem_sorted_iff {texts : List String} {text : String} : text ∈ sorted texts ↔ text ∈ texts :=
  List.mem_mergeSort

theorem sorted_pairwise {texts : List String} (distinct : texts.Nodup) :
    (sorted texts).Pairwise (· < ·) := by
  have transitive (first second third : String) :
      decide (first ≤ second) = true → decide (second ≤ third) = true →
        decide (first ≤ third) = true := by
    simpa only [decide_eq_true_eq] using String.le_trans
  have total (first second : String) :
      (decide (first ≤ second) || decide (second ≤ first)) = true := by
    simpa only [Bool.or_eq_true, decide_eq_true_eq] using String.le_total first second
  have ordered : (sorted texts).Pairwise (· ≤ ·) :=
    (List.pairwise_mergeSort transitive total texts).imp of_decide_eq_true
  have different : (sorted texts).Pairwise (· ≠ ·) :=
    (List.mergeSort_perm texts _).nodup_iff.2 distinct
  apply (ordered.and different).imp
  intro first second both
  exact Std.lt_of_le_of_ne both.1 both.2

/-! ## Statements about one predicate of an object -/

theorem mem_about_iff {predicate : String} {triple : Triple} :
    triple ∈ store.about object predicate ↔
      triple ∈ store.triples ∧ triple.subject = object ∧ triple.predicate = predicate := by
  rw [about, List.mem_filter, decide_eq_true_eq]

section Elsewhere

variable {other predicate : String}

theorem about_insert {triple : Triple}
    (elsewhere : ¬(triple.subject = other ∧ triple.predicate = predicate)) :
    (store.insert triple).about other predicate = store.about other predicate := by
  rw [insert]
  by_cases known : triple ∈ store.triples
  · rw [if_pos known]
  · rw [if_neg known, about, List.filter_cons_of_neg (by simpa using elsewhere), about]

variable (elsewhere : ¬(object = other ∧ typePredicate = predicate))

include elsewhere

theorem about_addTypes (types : List String) :
    (store.addTypes object types).2.about other predicate = store.about other predicate := by
  induction types generalizing store with
  | nil =>
      rfl
  | cons type types inductionHypothesis =>
      rw [addTypes]
      cases checkIri type with
      | error error => rfl
      | ok _ => exact inductionHypothesis.trans (about_insert elsewhere)

theorem about_removeAbout :
    (store.removeAbout object typePredicate).about other predicate = store.about other predicate := by
  rw [about, removeAbout, List.filter_filter, about]
  apply List.filter_congr
  intro triple _
  by_cases here : triple.subject = other ∧ triple.predicate = predicate
  · obtain ⟨rfl, rfl⟩ := here
    have kept : ¬(triple.subject = object ∧ triple.predicate = typePredicate) :=
      fun same => elsewhere ⟨same.1.symm, same.2.symm⟩
    simp [kept]
  · simp [here]

theorem about_setTypes (types : List String) :
    (ObjectStore.setTypes store object types).2.about other predicate =
      store.about other predicate := by
  simp only [ObjectStore.setTypes, setTypes]
  cases checkIri object with
  | error error => rfl
  | ok _ => exact (about_addTypes elsewhere types).trans (about_removeAbout elsewhere)

end Elsewhere

/-! ## Stores in order -/

/-- Each statement is there once, and its subject is an IRI. -/
structure InOrder (store : TripleStore) : Prop where
  distinct : store.triples.Nodup
  subjects : ∀ triple ∈ store.triples, Iri.isAbsolute triple.subject = true

namespace InOrder

theorem empty : InOrder .empty where
  distinct := List.nodup_nil
  subjects := List.forall_mem_nil _

theorem insert (inOrder : store.InOrder) {triple : Triple}
    (isIri : Iri.isAbsolute triple.subject = true) : (store.insert triple).InOrder where
  distinct := nodup_insert inOrder.distinct triple
  subjects other member := by
    rcases mem_insert_iff.1 member with rfl | earlier
    · exact isIri
    · exact inOrder.subjects other earlier

theorem addTypes (inOrder : store.InOrder) (isIri : Iri.isAbsolute object = true)
    (types : List String) : (store.addTypes object types).2.InOrder := by
  induction types generalizing store with
  | nil =>
      exact inOrder
  | cons type types inductionHypothesis =>
      rw [TripleStore.addTypes]
      cases checkIri type with
      | error error => exact inOrder
      | ok _ => exact inductionHypothesis (inOrder.insert isIri)

theorem removeAbout (inOrder : store.InOrder) (object predicate : String) :
    (store.removeAbout object predicate).InOrder where
  distinct := inOrder.distinct.filter _
  subjects triple member := inOrder.subjects triple (mem_removeAbout_iff.1 member).1

theorem setTypes (inOrder : store.InOrder) (object : String) (types : List String) :
    (ObjectStore.setTypes store object types).2.InOrder := by
  simp only [ObjectStore.setTypes, TripleStore.setTypes, checkIri]
  by_cases isIri : Iri.isAbsolute object = true
  · rw [if_pos isIri]
    exact (inOrder.removeAbout object typePredicate).addTypes isIri types
  · rw [if_neg isIri]
    exact inOrder

theorem perform (inOrder : store.InOrder) (supply : Supply) (call : StoreCall) :
    (call.perform store supply).2.1.InOrder := by
  cases call with
  | createOrReuse node =>
      simp only [StoreCall.perform, ObjectStore.createOrReuse, register, checkIri]
      by_cases isIri : Iri.isAbsolute (objectName supply node).1 = true
      · rw [if_pos isIri]
        exact inOrder.insert isIri
      · rw [if_neg isIri]
        exact inOrder
  | addValue object property value =>
      simp only [StoreCall.perform, ValueStore.addValue, addValue, checkIris, checkIri]
      by_cases isIri : Iri.isAbsolute object = true
      · by_cases isProperty : Iri.isAbsolute property = true
        · rw [if_pos isIri, if_pos isProperty]
          exact inOrder.insert isIri
        · rw [if_pos isIri, if_neg isProperty]
          exact inOrder
      · rw [if_neg isIri]
        exact inOrder
  | setTypes object types =>
      exact inOrder.setTypes object types

theorem run (inOrder : store.InOrder) (supply : Supply) (calls : List StoreCall) :
    (StoreCall.run calls (store, supply)).1.InOrder := by
  induction calls generalizing store supply with
  | nil =>
      exact inOrder
  | cons call calls inductionHypothesis =>
      exact inductionHypothesis (inOrder.perform supply call) (call.perform store supply).2.2

/-! ## The two views -/

/-- The classes of an object are listed once each, in the order of their code points. -/
theorem exists_types (inOrder : store.InOrder) (isIri : Iri.isAbsolute object = true) :
    ∃ types, ObjectStore.types store object = .ok types ∧ types.Pairwise (· < ·) ∧
      ∀ type, type ∈ types ↔ ⟨object, typePredicate, .iri type⟩ ∈ store.triples := by
  have known : ObjectStore.types store object =
      .ok (sorted ((store.about object typePredicate).filterMap fun triple => iri? triple.object)) := by
    simp only [ObjectStore.types, TripleStore.types, checkIri_eq_ok isIri]
  obtain ⟨types, areTypes, members⟩ := @types_ok store object isIri
  obtain rfl := Except.ok.inj (known.symm.trans areTypes)
  refine ⟨_, areTypes, sorted_pairwise ?_, members⟩
  -- Two statements of this kind with the same class are the same statement.
  apply List.pairwise_filterMap.2
  apply (inOrder.distinct.filter _).imp_of_mem
  rintro ⟨subject, predicate, first⟩ ⟨other, otherPredicate, second⟩ isFirst isSecond different
    type isType otherType isOtherType same
  subst same
  obtain ⟨_, rfl, rfl⟩ := mem_about_iff.1 isFirst
  obtain ⟨_, rfl, rfl⟩ := mem_about_iff.1 isSecond
  cases first with
  | iri value =>
      cases second with
      | iri other => exact different (by rw [Option.some.inj isType, Option.some.inj isOtherType])
      | literal other => exact absurd isOtherType (by simp [iri?])
  | literal value => exact absurd isType (by simp [iri?])

end InOrder

/-! ## The objects of a class -/

/-- The subject of a statement that gives it the class. -/
def subjectOfClass? (type : String) (triple : Triple) : Option String :=
  if triple.predicate = typePredicate ∧ triple.object = .iri type then some triple.subject else none

theorem subjectOfClass?_eq_some_iff {type : String} {triple : Triple} :
    subjectOfClass? type triple = some object ↔ triple = ⟨object, typePredicate, .iri type⟩ := by
  obtain ⟨subject, predicate, value⟩ := triple
  simp only [subjectOfClass?, Option.ite_none_right_eq_some, Option.some_inj, Triple.mk.injEq]
  tauto

/-- The pattern of the class is matched by the statements that give it, each in one way. -/
theorem objectsOfType_eq {type : String} (isIri : Iri.isAbsolute type = true) :
    store.objectsOfType type = .ok (sorted (store.triples.filterMap (subjectOfClass? type))) := by
  simp only [objectsOfType, checkIri_eq_ok isIri, solutions, List.foldl_cons, List.foldl_nil,
    List.flatMap_cons, List.flatMap_nil, List.append_nil, List.filterMap_filterMap]
  congr 3
  funext triple
  obtain ⟨subject, predicate, value⟩ := triple
  by_cases isTyping : typePredicate = predicate
  · by_cases isValue : Term.iri type = value
    · simp [TriplePattern.unify, QueryTerm.unify, subjectOfClass?, isTyping, isValue, Term.text]
    · simp [TriplePattern.unify, QueryTerm.unify, subjectOfClass?, isTyping, isValue, Ne.symm isValue]
  · simp [TriplePattern.unify, QueryTerm.unify, subjectOfClass?, isTyping, Ne.symm isTyping]

theorem InOrder.exists_objectsOfType (inOrder : store.InOrder) {type : String}
    (isIri : Iri.isAbsolute type = true) :
    ∃ objects, store.objectsOfType type = .ok objects ∧ objects.Pairwise (· < ·) ∧
      ∀ object, object ∈ objects ↔ ⟨object, typePredicate, .iri type⟩ ∈ store.triples := by
  refine ⟨_, objectsOfType_eq isIri, sorted_pairwise ?_, fun object => ?_⟩
  · -- The subject leaves no choice of the statement.
    apply List.pairwise_filterMap.2
    apply inOrder.distinct.imp
    intro first second different object isFirst other isSecond same
    subst same
    apply different
    exact (subjectOfClass?_eq_some_iff.1 isFirst).trans (subjectOfClass?_eq_some_iff.1 isSecond).symm
  · simp only [mem_sorted_iff, List.mem_filterMap, subjectOfClass?_eq_some_iff]
    simp

/-! ## Giving classes -/

theorem absolute_of_types {types : List String} (areTypes : ObjectStore.types store object = .ok types) :
    Iri.isAbsolute object = true := by
  by_contra notIri
  simp only [ObjectStore.types, TripleStore.types,
    checkIri_of_not_absolute (Bool.eq_false_iff.2 notIri)] at areTypes
  exact absurd areTypes (by simp)

theorem absolute_of_setTypes {types : List String}
    (done : (ObjectStore.setTypes store object types).1 = .ok ()) :
    Iri.isAbsolute object = true ∧ ∀ type ∈ types, Iri.isAbsolute type = true := by
  simp only [ObjectStore.setTypes, setTypes] at done
  by_cases isIri : Iri.isAbsolute object = true
  · refine ⟨isIri, ?_⟩
    rw [checkIri_eq_ok isIri] at done
    rcases absolute_or_cutOff types with absolute | ⟨known, invalid, rest, rfl, absolute, notIri⟩
    · exact absolute
    · rw [addTypes_of_cutOff absolute notIri] at done
      exact absurd done (by simp)
  · rw [checkIri_of_not_absolute (Bool.eq_false_iff.2 isIri)] at done
    exact absurd done (by simp)

theorem types_setTypes_of_ne {other : String} (different : other ≠ object) (types : List String) :
    ObjectStore.types (ObjectStore.setTypes store object types).2 other =
      ObjectStore.types store other := by
  have same := @about_setTypes store object other typePredicate
    (fun here => different here.1.symm) types
  simp only [ObjectStore.types, TripleStore.types, same]

theorem propertyCount_setTypes {property : String} (different : property ≠ typePredicate)
    (types : List String) (other : String) :
    ObjectStore.propertyCount (ObjectStore.setTypes store object types).2 other property =
      ObjectStore.propertyCount store other property := by
  have same := @about_setTypes store object other property
    (fun here => different here.2.symm) types
  simp only [ObjectStore.propertyCount, propertyCount, same]

theorem InOrder.exists_types_setTypes (inOrder : store.InOrder) {types : List String}
    (done : (ObjectStore.setTypes store object types).1 = .ok ()) :
    ∃ listed, ObjectStore.types (ObjectStore.setTypes store object types).2 object = .ok listed ∧
      listed.Pairwise (· < ·) ∧ ∀ type, type ∈ listed ↔ type ∈ types := by
  obtain ⟨isIri, absolute⟩ := absolute_of_setTypes done
  obtain ⟨next, made, given⟩ := @setTypes_ok store object types isIri absolute
  obtain ⟨listed, isListed, ordered, members⟩ := (inOrder.setTypes object types).exists_types isIri
  rw [made] at members
  refine ⟨listed, isListed, ordered, fun type => ?_⟩
  rw [members, given, if_pos rfl]

end TripleStore

/-- The store that calls made of the empty one. -/
def TripleStore.after (calls : List StoreCall) (supply : Supply) : TripleStore :=
  (StoreCall.run calls (empty, supply)).1

/-- After any calls, the objects of a class are those that have it among their classes, each once and in
order. When an object is given classes, it has just these from then on, each once and in order; the classes
of the other objects are as before, and so is the number of values of every other property. -/
theorem classes_after_calls (calls : List StoreCall) (supply : Supply) :
    (∀ type, Iri.isAbsolute type = true →
      ∃ objects, (TripleStore.after calls supply).objectsOfType type = .ok objects ∧
        objects.Pairwise (· < ·) ∧
        ∀ object, object ∈ objects ↔
          ∃ types, ObjectStore.types (TripleStore.after calls supply) object = .ok types ∧
            type ∈ types) ∧
    ∀ object types next,
      ObjectStore.setTypes (TripleStore.after calls supply) object types = (.ok (), next) →
        (∃ listed, ObjectStore.types next object = .ok listed ∧ listed.Pairwise (· < ·) ∧
          ∀ type, type ∈ listed ↔ type ∈ types) ∧
        (∀ other, other ≠ object →
          ObjectStore.types next other =
            ObjectStore.types (TripleStore.after calls supply) other) ∧
        ∀ other property, property ≠ TripleStore.typePredicate →
          ObjectStore.propertyCount next other property =
            ObjectStore.propertyCount (TripleStore.after calls supply) other property := by
  have inOrder : (TripleStore.after calls supply).InOrder :=
    TripleStore.InOrder.empty.run supply calls
  constructor
  · intro type isIri
    obtain ⟨objects, areObjects, ordered, members⟩ := inOrder.exists_objectsOfType isIri
    refine ⟨objects, areObjects, ordered, fun object => ?_⟩
    rw [members]
    constructor
    · intro stated
      obtain ⟨types, areTypes, _, classes⟩ := inOrder.exists_types (inOrder.subjects _ stated)
      exact ⟨types, areTypes, (classes type).2 stated⟩
    · intro ⟨types, areTypes, member⟩
      have isObject : Iri.isAbsolute object = true := TripleStore.absolute_of_types areTypes
      obtain ⟨others, areOthers, _, classes⟩ := inOrder.exists_types isObject
      obtain rfl := Except.ok.inj (areTypes.symm.trans areOthers)
      exact (classes type).1 member
  · intro object types next made
    obtain rfl : (ObjectStore.setTypes (TripleStore.after calls supply) object types).2 = next :=
      congrArg Prod.snd made
    have done := congrArg Prod.fst made
    refine ⟨inOrder.exists_types_setTypes done, ?_, ?_⟩
    · intro other different
      exact TripleStore.types_setTypes_of_ne different types
    · intro other property different
      exact TripleStore.propertyCount_setTypes different types other

/-- An atlas is given a literal value of its class and then a class. -/
def atlasCalls : List StoreCall :=
  [.createOrReuse { identifier := "urn:node", name := "atlas", object := some "urn:atlas" },
    .addValue "urn:atlas" TripleStore.typePredicate "urn:Map",
    .setTypes "urn:atlas" ["urn:Book"]]

theorem classes_after_calls_atlas :
    (∃ objects,
      (TripleStore.after atlasCalls ⟨RandomName.ofNat, 0⟩).objectsOfType "urn:Book" = .ok objects ∧
        objects.Pairwise (· < ·) ∧ "urn:atlas" ∈ objects) ∧
    ∃ listed next,
      ObjectStore.setTypes (TripleStore.after atlasCalls ⟨RandomName.ofNat, 0⟩) "urn:atlas"
          ["urn:Map", "urn:Book", "urn:Map"] = (.ok (), next) ∧
        ObjectStore.types next "urn:atlas" = .ok listed ∧ listed.Pairwise (· < ·) ∧
        (∀ type, type ∈ listed ↔ type ∈ ["urn:Map", "urn:Book", "urn:Map"]) ∧
        ObjectStore.propertyCount next "urn:atlas" TripleStore.nodePredicate = .ok 1 := by
  have isAtlas : Iri.isAbsolute "urn:atlas" = true := by decide +kernel
  have isBook : Iri.isAbsolute "urn:Book" = true := by decide +kernel
  have areClasses : ∀ type ∈ ["urn:Map", "urn:Book", "urn:Map"], Iri.isAbsolute type = true := by
    decide +kernel
  obtain ⟨views, gives⟩ := classes_after_calls atlasCalls ⟨RandomName.ofNat, 0⟩
  constructor
  · obtain ⟨objects, areObjects, ordered, members⟩ := views "urn:Book" isBook
    refine ⟨objects, areObjects, ordered, (members "urn:atlas").2 ?_⟩
    obtain ⟨types, areTypes, classes⟩ :=
      @TripleStore.types_ok (TripleStore.after atlasCalls ⟨RandomName.ofNat, 0⟩) "urn:atlas" isAtlas
    exact ⟨types, areTypes, (classes "urn:Book").2 (by decide +kernel)⟩
  · obtain ⟨next, made, _⟩ :=
      @TripleStore.setTypes_ok (TripleStore.after atlasCalls ⟨RandomName.ofNat, 0⟩) "urn:atlas"
        ["urn:Map", "urn:Book", "urn:Map"] isAtlas areClasses
    obtain ⟨⟨listed, areListed, ordered, members⟩, _, counts⟩ := gives _ _ next made
    refine ⟨listed, next, made, areListed, ordered, members, ?_⟩
    rw [counts "urn:atlas" TripleStore.nodePredicate (by decide)]
    decide +kernel

end ContentTyping

import Mathlib.Data.List.Dedup
import Mathlib.Data.List.Perm.Basic
import ContentTyping.Proofs.Store.Calls

/-!
# Counts of values

A store of records keeps the values of a property in a list, a store of statements keeps them in a set. When
both take the same calls, the first one counts the values that were given and the second one counts the
different ones among them. What they say of classes is the same.
-/

namespace ContentTyping

namespace StoreCall

/-! ## Histories -/

/-- The object that a call creates. -/
def created? : StoreCall → Option String
  | .createOrReuse node => node.object
  | .addValue _ _ _ => none
  | .setTypes _ _ => none

/-- The value that a call gives to a property of an object. -/
def valueFor? (object property : String) : StoreCall → Option String
  | .createOrReuse _ => none
  | .addValue other name value => if other = object ∧ name = property then some value else none
  | .setTypes _ _ => none

/-- The classes of an object after a call. -/
def classesAfter (object : String) (classes : List String) : StoreCall → List String
  | .createOrReuse _ => classes
  | .addValue _ _ _ => classes
  | .setTypes other types => if other = object then types else classes

/-- The objects that were created. -/
def created (calls : List StoreCall) : List String :=
  calls.filterMap created?

/-- The values that a property of an object was given. -/
def valuesGiven (object property : String) (calls : List StoreCall) : List String :=
  calls.filterMap (valueFor? object property)

/-- The classes that an object was given last. -/
def classesGiven (object : String) (calls : List StoreCall) : List String :=
  calls.foldl (classesAfter object) []

/-- The call creates an object under a name that the node brings along, or speaks of one that was created.
All names are IRIs, and the predicates that a store of statements uses for itself are no properties. -/
def Admissible (past : List StoreCall) : StoreCall → Prop
  | .createOrReuse node => ∃ object, node.object = some object ∧ Iri.isAbsolute object = true
  | .addValue object property _ =>
    object ∈ created past ∧ Iri.isAbsolute property = true ∧
      property ≠ TripleStore.typePredicate ∧ property ≠ TripleStore.nodePredicate
  | .setTypes object types =>
    object ∈ created past ∧ ∀ type ∈ types, Iri.isAbsolute type = true

/-- Each call is admissible after those before it. -/
def AdmissibleAfter (past : List StoreCall) : List StoreCall → Prop
  | [] => True
  | call :: rest => call.Admissible past ∧ AdmissibleAfter (past ++ [call]) rest

theorem admissibleAfter_append {past calls rest : List StoreCall} :
    AdmissibleAfter past (calls ++ rest) ↔
      AdmissibleAfter past calls ∧ AdmissibleAfter (past ++ calls) rest := by
  induction calls generalizing past with
  | nil =>
      simp [AdmissibleAfter]
  | cons call calls inductionHypothesis =>
      rw [List.cons_append, AdmissibleAfter, AdmissibleAfter, inductionHypothesis, and_assoc,
        List.append_assoc, List.singleton_append]

variable {past : List StoreCall} {call : StoreCall}

theorem mem_created_concat {object : String} :
    object ∈ created (past ++ [call]) ↔ object ∈ created past ∨ call.created? = some object := by
  simp [created]

theorem valuesGiven_concat (object property : String) (past : List StoreCall) (call : StoreCall) :
    valuesGiven object property (past ++ [call]) =
      valuesGiven object property past ++ (call.valueFor? object property).toList := by
  rw [valuesGiven, List.filterMap_append, valuesGiven]
  cases given : call.valueFor? object property <;> simp [given]

theorem classesGiven_concat (object : String) (past : List StoreCall) (call : StoreCall) :
    classesGiven object (past ++ [call]) = call.classesAfter object (classesGiven object past) := by
  rw [classesGiven, List.foldl_append, classesGiven]
  rfl

/-- What every admissible call keeps up holds after a list of them. -/
theorem run_keeps {S : Type} [ValueStore S] {keeps : List StoreCall → S → Prop} {supply : Supply}
    (keepsNext : ∀ {past call store}, keeps past store → Admissible past call →
      ∃ next, call.perform store supply = (.ok call.created?, next, supply) ∧
        keeps (past ++ [call]) next)
    {calls : List StoreCall} {store : S} (kept : keeps past store)
    (admissible : AdmissibleAfter past calls) :
    ∃ next, run calls (store, supply) = (next, supply) ∧ keeps (past ++ calls) next := by
  -- The calls that were made move over to the past one by one.
  induction calls generalizing past store with
  | nil =>
      rw [List.append_nil]
      exact ⟨store, rfl, kept⟩
  | cons call calls inductionHypothesis =>
      obtain ⟨next, performed, nextKept⟩ := keepsNext kept admissible.1
      obtain ⟨last, rest, lastKept⟩ := inductionHypothesis nextKept admissible.2
      rw [List.append_assoc] at lastKept
      refine ⟨last, ?_, lastKept⟩
      rw [run, List.foldl_cons, performed]
      exact rest

end StoreCall

open StoreCall

variable {past : List StoreCall} {call : StoreCall} {supply : Supply}

/-! ## Records -/

/-- The records tell what was given. -/
structure MemoryStore.Tells (past : List StoreCall) (records : MemoryStore) : Prop where
  contains : ∀ object, records.contains object = true ↔ object ∈ created past
  values : ∀ object property, records.values object property = valuesGiven object property past
  types : ∀ object, records.types object = classesGiven object past

namespace MemoryStore.Tells

variable {records : MemoryStore}

theorem empty : MemoryStore.Tells [] .empty where
  contains object := by simp [MemoryStore.contains, MemoryStore.record?, MemoryStore.empty, created]
  values object property := by
    simp [MemoryStore.values, MemoryStore.record?, MemoryStore.empty, valuesGiven]
  types object := by simp [MemoryStore.types, MemoryStore.record?, MemoryStore.empty, classesGiven]

theorem register (recorded : MemoryStore.Tells past records) {node : Node} {object : String}
    (isObject : node.object = some object) :
    MemoryStore.Tells (past ++ [.createOrReuse node]) (records.register object node.identifier) where
  contains other := by
    rw [MemoryStore.contains_register, recorded.contains, mem_created_concat, created?, isObject,
      Option.some_inj, or_comm]
  values other property := by
    rw [MemoryStore.values_register, recorded.values, valuesGiven_concat, valueFor?]
    exact (List.append_nil _).symm
  types other := by
    rw [MemoryStore.types_register, recorded.types, classesGiven_concat, classesAfter]

theorem addValue (recorded : MemoryStore.Tells past records) {object : String}
    (known : records.contains object = true) (property value : String) :
    MemoryStore.Tells (past ++ [.addValue object property value])
      (records.addValue object property value).2 where
  contains other := by
    rw [MemoryStore.contains_addValue known, recorded.contains, mem_created_concat, created?]
    simp
  values other name := by
    rw [MemoryStore.values_addValue known, recorded.values, valuesGiven_concat, valueFor?]
    by_cases same : object = other ∧ property = name
    · rw [if_pos same, if_pos same, Option.toList_some]
    · rw [if_neg same, if_neg same, Option.toList_none, List.append_nil]
  types other := by
    rw [MemoryStore.types_addValue known, recorded.types, classesGiven_concat, classesAfter]

theorem setTypes (recorded : MemoryStore.Tells past records) {object : String}
    (known : records.contains object = true) (types : List String) :
    MemoryStore.Tells (past ++ [.setTypes object types])
      (ObjectStore.setTypes records object types).2 where
  contains other := by
    rw [MemoryStore.contains_setTypes known, recorded.contains, mem_created_concat, created?]
    simp
  values other name := by
    rw [MemoryStore.values_setTypes known, recorded.values, valuesGiven_concat, valueFor?]
    exact (List.append_nil _).symm
  types other := by
    rw [MemoryStore.types_setTypes known, recorded.types, classesGiven_concat, classesAfter]

theorem perform (recorded : MemoryStore.Tells past records) (admissible : call.Admissible past) :
    ∃ next, call.perform records supply = (.ok call.created?, next, supply) ∧
      MemoryStore.Tells (past ++ [call]) next := by
  cases call with
  | createOrReuse node =>
      obtain ⟨object, isObject, _⟩ := admissible
      refine ⟨_, ?_, recorded.register isObject⟩
      simp only [StoreCall.perform, ObjectStore.createOrReuse, objectName, isObject, created?]
      rfl
  | addValue object property value =>
      have known := (recorded.contains object).2 admissible.1
      obtain ⟨record, isRecord⟩ := MemoryStore.contains_iff.1 known
      refine ⟨_, ?_, recorded.addValue known property value⟩
      simp only [StoreCall.perform, ValueStore.addValue, MemoryStore.addValue, isRecord, created?]
      rfl
  | setTypes object types =>
      have known := (recorded.contains object).2 admissible.1
      obtain ⟨record, isRecord⟩ := MemoryStore.contains_iff.1 known
      refine ⟨_, ?_, recorded.setTypes known types⟩
      simp only [StoreCall.perform, MemoryStore.setTypes_eq_put isRecord, created?]
      rfl

end MemoryStore.Tells

/-! ## Statements -/

namespace TripleStore

variable {store : TripleStore} {object : String}

theorem nodup_insert (distinct : store.triples.Nodup) (triple : Triple) :
    (store.insert triple).triples.Nodup := by
  rw [insert]
  by_cases known : triple ∈ store.triples
  · rw [if_pos known]
    exact distinct
  · rw [if_neg known]
    exact List.nodup_cons.2 ⟨known, distinct⟩

theorem nodup_addTypes (distinct : store.triples.Nodup) (types : List String) :
    (store.addTypes object types).2.triples.Nodup := by
  induction types generalizing store with
  | nil =>
      exact distinct
  | cons type types inductionHypothesis =>
      rw [addTypes]
      cases checkIri type with
      | error error => exact distinct
      | ok _ => exact inductionHypothesis (nodup_insert distinct _)

theorem nodup_setTypes (distinct : store.triples.Nodup) (types : List String) :
    (ObjectStore.setTypes store object types).2.triples.Nodup := by
  simp only [ObjectStore.setTypes, setTypes]
  cases checkIri object with
  | error error => exact distinct
  | ok _ => exact nodup_addTypes (distinct.filter _) types

theorem mem_setTypes_iff {types : List String} (isIri : Iri.isAbsolute object = true)
    (absolute : ∀ type ∈ types, Iri.isAbsolute type = true) {triple : Triple} :
    triple ∈ (ObjectStore.setTypes store object types).2.triples ↔
      (triple ∈ store.triples ∧ ¬(triple.subject = object ∧ triple.predicate = typePredicate)) ∨
        ∃ type ∈ types, triple = ⟨object, typePredicate, .iri type⟩ := by
  simp only [ObjectStore.setTypes, setTypes, checkIri_eq_ok isIri, (addTypes_ok absolute).2,
    mem_removeAbout_iff]

end TripleStore

/-- The statements tell what was given. -/
structure TripleStore.Tells (past : List StoreCall) (triples : TripleStore) : Prop where
  distinct : triples.triples.Nodup
  absolute : ∀ object ∈ created past, Iri.isAbsolute object = true
  values : ∀ object property term, property ≠ TripleStore.typePredicate →
    property ≠ TripleStore.nodePredicate →
      (⟨object, property, term⟩ ∈ triples.triples ↔
        ∃ value ∈ valuesGiven object property past, term = .literal value)
  classes : ∀ object type, ⟨object, TripleStore.typePredicate, .iri type⟩ ∈ triples.triples ↔
    type ∈ classesGiven object past

namespace TripleStore.Tells

variable {triples : TripleStore}

theorem empty : TripleStore.Tells [] .empty where
  distinct := List.nodup_nil
  absolute object member := absurd member List.not_mem_nil
  values object property term _ _ := by simp [TripleStore.empty, valuesGiven]
  classes object type := by simp [TripleStore.empty, classesGiven]

theorem register (stated : TripleStore.Tells past triples) {node : Node} {object : String}
    (isObject : node.object = some object) (isIri : Iri.isAbsolute object = true) :
    TripleStore.Tells (past ++ [.createOrReuse node])
      (triples.insert ⟨object, TripleStore.nodePredicate, .literal node.identifier⟩) where
  distinct := TripleStore.nodup_insert stated.distinct _
  absolute other isCreated := by
    rw [mem_created_concat, created?, isObject, Option.some_inj] at isCreated
    rcases isCreated with earlier | rfl
    · exact stated.absolute other earlier
    · exact isIri
  values other property term notType notNode := by
    rw [TripleStore.mem_insert_iff, stated.values other property term notType notNode,
      valuesGiven_concat, valueFor?]
    simp [notNode]
  classes other type := by
    rw [TripleStore.mem_insert_iff, stated.classes, classesGiven_concat, classesAfter]
    simp

theorem addValue (stated : TripleStore.Tells past triples) (object property value : String) :
    TripleStore.Tells (past ++ [.addValue object property value])
      (triples.insert ⟨object, property, .literal value⟩) where
  distinct := TripleStore.nodup_insert stated.distinct _
  absolute other isCreated := by
    rw [mem_created_concat, created?] at isCreated
    exact stated.absolute other (isCreated.resolve_right (by simp))
  values other name term notType notNode := by
    rw [TripleStore.mem_insert_iff, stated.values other name term notType notNode,
      valuesGiven_concat, valueFor?]
    by_cases same : object = other ∧ property = name
    · obtain ⟨rfl, rfl⟩ := same
      simp [or_comm]
    · have different : (⟨other, name, term⟩ : Triple) ≠ ⟨object, property, .literal value⟩ := by
        intro equal
        injection equal with sameObject sameProperty
        exact same ⟨sameObject.symm, sameProperty.symm⟩
      rw [if_neg same, Option.toList_none, List.append_nil]
      exact or_iff_right different
  classes other type := by
    rw [TripleStore.mem_insert_iff, stated.classes, classesGiven_concat, classesAfter]
    simp

theorem setTypes (stated : TripleStore.Tells past triples) {object : String} {types : List String}
    (isIri : Iri.isAbsolute object = true) (absolute : ∀ type ∈ types, Iri.isAbsolute type = true) :
    TripleStore.Tells (past ++ [.setTypes object types])
      (ObjectStore.setTypes triples object types).2 where
  distinct := TripleStore.nodup_setTypes stated.distinct types
  absolute other isCreated := by
    rw [mem_created_concat, created?] at isCreated
    exact stated.absolute other (isCreated.resolve_right (by simp))
  values other name term notType notNode := by
    rw [TripleStore.mem_setTypes_iff isIri absolute, valuesGiven_concat, valueFor?,
      stated.values other name term notType notNode]
    simp [notType]
  classes other type := by
    rw [TripleStore.mem_setTypes_iff isIri absolute, classesGiven_concat, classesAfter, stated.classes]
    by_cases same : object = other
    · subst same
      simp
    · simp [same, Ne.symm same]

theorem perform (stated : TripleStore.Tells past triples) (admissible : call.Admissible past) :
    ∃ next, call.perform triples supply = (.ok call.created?, next, supply) ∧
      TripleStore.Tells (past ++ [call]) next := by
  cases call with
  | createOrReuse node =>
      obtain ⟨object, isObject, isIri⟩ := admissible
      refine ⟨_, ?_, stated.register isObject isIri⟩
      simp only [StoreCall.perform, ObjectStore.createOrReuse, objectName, isObject,
        TripleStore.register, TripleStore.checkIri_eq_ok isIri, created?]
      rfl
  | addValue object property value =>
      obtain ⟨isCreated, isProperty, _⟩ := admissible
      have isIri := stated.absolute object isCreated
      refine ⟨_, ?_, stated.addValue object property value⟩
      simp only [StoreCall.perform, ValueStore.addValue, TripleStore.addValue, TripleStore.checkIris,
        TripleStore.checkIri_eq_ok isIri, TripleStore.checkIri_eq_ok isProperty, created?]
      rfl
  | setTypes object types =>
      obtain ⟨isCreated, absolute⟩ := admissible
      have isIri := stated.absolute object isCreated
      obtain ⟨next, taken, _⟩ := @TripleStore.setTypes_ok triples object types isIri absolute
      refine ⟨_, ?_, stated.setTypes isIri absolute⟩
      simp only [StoreCall.perform, taken, created?]
      rfl

/-- There is one statement for each of the different values. -/
theorem length_about (stated : TripleStore.Tells past triples) (object : String) {property : String}
    (notType : property ≠ TripleStore.typePredicate) (notNode : property ≠ TripleStore.nodePredicate) :
    (triples.about object property).length = (valuesGiven object property past).dedup.length := by
  have sameTerms : ((triples.about object property).map Triple.object).Perm
      ((valuesGiven object property past).dedup.map Term.literal) := by
    refine (List.perm_ext_iff_of_nodup ?_ ?_).2 fun term => ?_
    · -- Two statements about one property of an object can only differ in their values.
      refine List.Nodup.map_on ?_ (stated.distinct.filter _)
      rintro ⟨_, _, first⟩ isFirst ⟨_, _, second⟩ isSecond same
      rw [TripleStore.about, List.mem_filter, decide_eq_true_eq] at isFirst isSecond
      obtain ⟨_, rfl, rfl⟩ := isFirst
      obtain ⟨_, rfl, rfl⟩ := isSecond
      exact congrArg (Triple.mk _ _) same
    · exact (List.nodup_dedup _).map fun first second => Term.literal.inj
    · rw [List.mem_map, List.mem_map]
      constructor
      · rintro ⟨⟨subject, predicate, _⟩, listed, rfl⟩
        rw [TripleStore.about, List.mem_filter, decide_eq_true_eq] at listed
        obtain ⟨isStated, rfl, rfl⟩ := listed
        obtain ⟨value, given, isLiteral⟩ := (stated.values _ _ _ notType notNode).1 isStated
        exact ⟨value, List.mem_dedup.2 given, isLiteral.symm⟩
      · rintro ⟨value, given, rfl⟩
        refine ⟨⟨object, property, .literal value⟩, ?_, rfl⟩
        rw [TripleStore.about, List.mem_filter, decide_eq_true_eq]
        exact ⟨(stated.values _ _ _ notType notNode).2 ⟨value, List.mem_dedup.1 given, rfl⟩, rfl, rfl⟩
  have sameLength := sameTerms.length_eq
  rw [List.length_map, List.length_map] at sameLength
  exact sameLength

end TripleStore.Tells

/-! ## Both kinds of stores -/

theorem length_eq_length_dedup_iff {values : List String} :
    values.length = values.dedup.length ↔ values.Nodup := by
  constructor
  · intro sameLength
    rw [← (List.dedup_sublist values).eq_of_length sameLength.symm]
    exact List.nodup_dedup values
  · intro distinct
    rw [distinct.dedup]

/-- Neither store refuses a call. After each of them a store of records counts the values that a property
was given and a store of statements the different ones, so that the counts are the same as long as no value
was given twice. The classes of an object are the same sets. -/
theorem counts_after_calls {calls past : List StoreCall} (supply : Supply)
    (admissible : AdmissibleAfter [] calls) (reached : past <+: calls) {object : String}
    (isIri : Iri.isAbsolute object = true) :
    ∃ records triples,
      run past (MemoryStore.empty, supply) = (records, supply) ∧
      run past (TripleStore.empty, supply) = (triples, supply) ∧
      (∀ call, past ++ [call] <+: calls →
        (call.perform records supply).1 = .ok call.created? ∧
          (call.perform triples supply).1 = .ok call.created?) ∧
      (∀ property, Iri.isAbsolute property = true → property ≠ TripleStore.typePredicate →
        property ≠ TripleStore.nodePredicate →
          ObjectStore.propertyCount records object property =
              .ok (valuesGiven object property past).length ∧
            ObjectStore.propertyCount triples object property =
              .ok (valuesGiven object property past).dedup.length ∧
            (ObjectStore.propertyCount records object property =
                ObjectStore.propertyCount triples object property ↔
              (valuesGiven object property past).Nodup)) ∧
      ∃ classes others,
        ObjectStore.types records object = .ok classes ∧
          ObjectStore.types triples object = .ok others ∧
          ∀ type, type ∈ others ↔ type ∈ classes := by
  have admissiblePast : AdmissibleAfter [] past := by
    obtain ⟨rest, rfl⟩ := reached
    exact (admissibleAfter_append.1 admissible).1
  obtain ⟨records, recordsRun, recorded⟩ :=
    @run_keeps [] MemoryStore _ MemoryStore.Tells supply (fun kept => kept.perform) past _ .empty
      admissiblePast
  obtain ⟨triples, triplesRun, stated⟩ :=
    @run_keeps [] TripleStore _ TripleStore.Tells supply (fun kept => kept.perform) past _ .empty
      admissiblePast
  rw [List.nil_append] at recorded stated
  refine ⟨records, triples, recordsRun, triplesRun, ?_, ?_, ?_⟩
  · rintro call ⟨rest, rfl⟩
    have admissibleCall := (admissibleAfter_append.1 (admissibleAfter_append.1 admissible).1).2.1
    obtain ⟨_, performed, _⟩ := @recorded.perform _ call supply _ admissibleCall
    obtain ⟨_, others, _⟩ := @stated.perform _ call supply _ admissibleCall
    exact ⟨congrArg Prod.fst performed, congrArg Prod.fst others⟩
  · intro property isProperty notType notNode
    have firstCount : ObjectStore.propertyCount records object property =
        .ok (valuesGiven object property past).length := by
      simp only [ObjectStore.propertyCount, recorded.values]
    have secondCount : ObjectStore.propertyCount triples object property =
        .ok (valuesGiven object property past).dedup.length := by
      simp only [ObjectStore.propertyCount, TripleStore.propertyCount, TripleStore.checkIris,
        TripleStore.checkIri_eq_ok isIri, TripleStore.checkIri_eq_ok isProperty,
        stated.length_about object notType notNode]
    refine ⟨firstCount, secondCount, ?_⟩
    rw [firstCount, secondCount, Except.ok.injEq, length_eq_length_dedup_iff]
  · obtain ⟨others, areTypes, isStated⟩ := @TripleStore.types_ok triples object isIri
    refine ⟨classesGiven object past, others, ?_, areTypes, fun type => ?_⟩
    · simp only [ObjectStore.types, recorded.types]
    · rw [isStated, stated.classes]

/-- A scroll is given a class and the same title twice. -/
def scrollCalls : List StoreCall :=
  [.createOrReuse { identifier := "urn:node", name := "scroll", object := some "urn:scroll" },
    .addValue "urn:scroll" "urn:title" "Letters",
    .setTypes "urn:scroll" ["urn:Scroll"],
    .addValue "urn:scroll" "urn:title" "Letters"]

theorem admissibleAfter_scrollCalls : AdmissibleAfter [] scrollCalls := by
  have isScroll : Iri.isAbsolute "urn:scroll" = true := by decide +kernel
  have isTitle : Iri.isAbsolute "urn:title" = true := by decide +kernel
  have isClass : ∀ type ∈ ["urn:Scroll"], Iri.isAbsolute type = true := by decide +kernel
  have isProperty : Iri.isAbsolute "urn:title" = true ∧ "urn:title" ≠ TripleStore.typePredicate ∧
      "urn:title" ≠ TripleStore.nodePredicate :=
    ⟨isTitle, by decide, by decide⟩
  exact ⟨⟨"urn:scroll", rfl, isScroll⟩, ⟨by decide, isProperty⟩, ⟨by decide, isClass⟩,
    ⟨by decide, isProperty⟩, trivial⟩

theorem counts_after_calls_scroll :
    ∃ records triples,
      run scrollCalls (MemoryStore.empty, ⟨RandomName.ofNat, 0⟩) = (records, ⟨RandomName.ofNat, 0⟩) ∧
      run scrollCalls (TripleStore.empty, ⟨RandomName.ofNat, 0⟩) = (triples, ⟨RandomName.ofNat, 0⟩) ∧
      ObjectStore.propertyCount records "urn:scroll" "urn:title" = .ok 2 ∧
      ObjectStore.propertyCount triples "urn:scroll" "urn:title" = .ok 1 ∧
      ∃ classes others,
        ObjectStore.types records "urn:scroll" = .ok classes ∧
          ObjectStore.types triples "urn:scroll" = .ok others ∧
          ∀ type, type ∈ others ↔ type ∈ classes := by
  have isScroll : Iri.isAbsolute "urn:scroll" = true := by decide +kernel
  have isTitle : Iri.isAbsolute "urn:title" = true := by decide +kernel
  obtain ⟨records, triples, recordsRun, triplesRun, -, counts, sameClasses⟩ :=
    counts_after_calls ⟨RandomName.ofNat, 0⟩ admissibleAfter_scrollCalls List.prefix_rfl isScroll
  obtain ⟨first, second, -⟩ := counts "urn:title" isTitle (by decide) (by decide)
  exact ⟨records, triples, recordsRun, triplesRun, first, second, sameClasses⟩

/-- The counts of the title differ after the last call. -/
theorem counts_differ_scroll :
    AdmissibleAfter [] scrollCalls ∧
      ObjectStore.propertyCount (run scrollCalls (MemoryStore.empty, ⟨RandomName.ofNat, 0⟩)).1
          "urn:scroll" "urn:title" = .ok 2 ∧
      ObjectStore.propertyCount (run scrollCalls (TripleStore.empty, ⟨RandomName.ofNat, 0⟩)).1
          "urn:scroll" "urn:title" = .ok 1 :=
  ⟨admissibleAfter_scrollCalls, by decide +kernel, by decide +kernel⟩

end ContentTyping

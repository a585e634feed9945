import Mathlib.Order.Interval.Set.Defs
import Mathlib.Data.Set.Function
import ContentTyping.Proofs.Store.Records
import ContentTyping.Store.Triples

/-!
# Records and statements

A store of records and a store of statements take the same calls, each under names of its own. The
first one refuses classes for an object that it does not know and keeps a list of them, the second one
takes anything and keeps a set. As long as the names on either side are told apart and all classes are
IRIs, neither refuses a call, and the classes of corresponding objects are the same sets.
-/

namespace ContentTyping

/-! ## Statements -/

namespace TripleStore

variable {store : TripleStore} {object : String}

theorem mem_insert_iff {triple other : Triple} :
    other ∈ (store.insert triple).triples ↔ other = triple ∨ other ∈ store.triples := by
  rw [insert]
  split
  next known =>
      constructor
      · exact .inr
      · rintro (rfl | member)
        · exact known
        · exact member
  · exact List.mem_cons

theorem mem_removeAbout_iff {predicate : String} {triple : Triple} :
    triple ∈ (store.removeAbout object predicate).triples ↔
      triple ∈ store.triples ∧ ¬(triple.subject = object ∧ triple.predicate = predicate) := by
  rw [removeAbout, List.mem_filter, decide_eq_true_eq]

theorem checkIri_eq_ok (absolute : Iri.isAbsolute object = true) : checkIri object = .ok () :=
  if_pos absolute

theorem addTypes_ok {types : List String} (absolute : ∀ type ∈ types, Iri.isAbsolute type = true) :
    (store.addTypes object types).1 = .ok () ∧
      ∀ triple, triple ∈ (store.addTypes object types).2.triples ↔
        triple ∈ store.triples ∨ ∃ type ∈ types, triple = ⟨object, typePredicate, .iri type⟩ := by
  induction types generalizing store with
  | nil =>
      exact ⟨rfl, fun triple => by simp [addTypes]⟩
  | cons type types inductionHypothesis =>
      obtain ⟨first, rest⟩ := List.forall_mem_cons.1 absolute
      rw [addTypes, checkIri_eq_ok first]
      obtain ⟨done, members⟩ :=
        @inductionHypothesis (store.insert ⟨object, typePredicate, .iri type⟩) rest
      refine ⟨done, fun triple => ?_⟩
      simp only [members triple, mem_insert_iff, List.mem_cons, exists_eq_or_imp]
      tauto

theorem setTypes_ok {types : List String} (isIri : Iri.isAbsolute object = true)
    (absolute : ∀ type ∈ types, Iri.isAbsolute type = true) :
    ∃ next, ObjectStore.setTypes store object types = (.ok (), next) ∧
      ∀ subject type, ⟨subject, typePredicate, .iri type⟩ ∈ next.triples ↔
        if subject = object then type ∈ types
        else ⟨subject, typePredicate, .iri type⟩ ∈ store.triples := by
  obtain ⟨done, members⟩ :=
    @addTypes_ok (store.removeAbout object typePredicate) object types absolute
  refine ⟨_, Prod.ext ?_ rfl, fun subject type => ?_⟩
  · simp only [ObjectStore.setTypes, setTypes, checkIri_eq_ok isIri, done]
  · simp only [ObjectStore.setTypes, setTypes, checkIri_eq_ok isIri, members, mem_removeAbout_iff]
    split
    next same => simp [same]
    next different => simp [different]

theorem types_ok (isIri : Iri.isAbsolute object = true) :
    ∃ types, ObjectStore.types store object = .ok types ∧
      ∀ type, type ∈ types ↔ ⟨object, typePredicate, .iri type⟩ ∈ store.triples := by
  have known : ObjectStore.types store object =
      .ok (sorted ((store.about object typePredicate).filterMap fun triple => iri? triple.object)) := by
    simp only [ObjectStore.types, TripleStore.types, checkIri_eq_ok isIri]
  refine ⟨_, known, fun type => ?_⟩
  rw [sorted, List.mem_mergeSort, List.mem_filterMap]
  constructor
  · rintro ⟨⟨subject, predicate, value⟩, listed, isType⟩
    rw [about, List.mem_filter, decide_eq_true_eq] at listed
    obtain ⟨stated, rfl, rfl⟩ := listed
    cases value with
    | iri value =>
        obtain rfl := Option.some.inj isType
        exact stated
    | literal => exact absurd isType (by simp [iri?])
  · intro stated
    refine ⟨⟨object, typePredicate, .iri type⟩, ?_, rfl⟩
    rw [about, List.mem_filter, decide_eq_true_eq]
    exact ⟨stated, rfl, rfl⟩

end TripleStore

/-! ## Corresponding objects -/

/-- The names of two supplies are told apart up to a bound, and those of the second one are IRIs. -/
structure NamesApart (first second : Nat → String) (bound : Nat) : Prop where
  first_injOn : Set.InjOn first (Set.Iio bound)
  second_injOn : Set.InjOn second (Set.Iio bound)
  absolute : ∀ turn < bound, Iri.isAbsolute (second turn) = true

/-- Each store knows the objects whose names have been drawn for it, and the classes of objects drawn in
the same turn are the same sets. -/
structure SameClasses (first second : Nat → String) (used : Nat) (records : MemoryStore)
    (triples : TripleStore) : Prop where
  drawn : ∀ object, records.contains object = true ↔ ∃ turn < used, first turn = object
  classes : ∀ turn < used, ∀ type,
    ⟨second turn, TripleStore.typePredicate, .iri type⟩ ∈ triples.triples ↔
      type ∈ records.types (first turn)
  typed : ∀ subject type, ⟨subject, TripleStore.typePredicate, .iri type⟩ ∈ triples.triples →
    ∃ turn < used, second turn = subject

namespace SameClasses

variable {first second : Nat → String} {used bound : Nat} {records : MemoryStore}
  {triples : TripleStore}

theorem empty : SameClasses first second 0 .empty .empty where
  drawn object := by simp [MemoryStore.contains, MemoryStore.record?, MemoryStore.empty]
  classes turn before := absurd before (Nat.not_lt_zero turn)
  typed subject type stated := absurd stated (by simp [TripleStore.empty])

theorem setTypes (same : SameClasses first second used records triples)
    (apart : NamesApart first second bound) (within : used ≤ bound) {turn : Nat}
    (before : turn < used) {types : List String}
    (absolute : ∀ type ∈ types, Iri.isAbsolute type = true) :
    ∃ nextRecords nextTriples,
      ObjectStore.setTypes records (first turn) types = (.ok (), nextRecords) ∧
        ObjectStore.setTypes triples (second turn) types = (.ok (), nextTriples) ∧
        SameClasses first second used nextRecords nextTriples := by
  obtain ⟨record, isRecord⟩ := MemoryStore.contains_iff.1 ((same.drawn _).2 ⟨turn, before, rfl⟩)
  obtain ⟨nextTriples, taken, stated⟩ := @TripleStore.setTypes_ok triples (second turn) types
    (apart.absolute turn (Nat.lt_of_lt_of_le before within)) absolute
  refine ⟨_, nextTriples, MemoryStore.setTypes_eq_put isRecord types, taken, ?_⟩
  constructor
  · intro object
    rw [MemoryStore.contains_put, same.drawn]
    constructor
    · rintro (rfl | isDrawn)
      · exact ⟨turn, before, rfl⟩
      · exact isDrawn
    · exact .inr
  · intro other otherBefore type
    have otherWithin : other ∈ Set.Iio bound := Nat.lt_of_lt_of_le otherBefore within
    have turnWithin : turn ∈ Set.Iio bound := Nat.lt_of_lt_of_le before within
    rw [stated, MemoryStore.types_put]
    by_cases sameTurn : other = turn
    · rw [sameTurn, if_pos rfl, if_pos rfl]
    · rw [if_neg (apart.second_injOn.ne otherWithin turnWithin sameTurn),
        if_neg (apart.first_injOn.ne otherWithin turnWithin sameTurn)]
      exact same.classes other otherBefore type
  · intro subject type isStated
    rw [stated] at isStated
    split at isStated
    next isObject => exact ⟨turn, before, isObject.symm⟩
    · exact same.typed subject type isStated

theorem createOrReuse (same : SameClasses first second used records triples)
    (apart : NamesApart first second bound) (within : used < bound) {node : Node}
    (noObject : node.object = none) :
    ∃ nextRecords nextTriples,
      ObjectStore.createOrReuse records ⟨first, used⟩ node =
          (.ok (first used), nextRecords, ⟨first, used + 1⟩) ∧
        ObjectStore.createOrReuse triples ⟨second, used⟩ node =
          (.ok (second used), nextTriples, ⟨second, used + 1⟩) ∧
        SameClasses first second (used + 1) nextRecords nextTriples := by
  have unknown : records.contains (first used) = false := by
    refine Bool.eq_false_iff.2 fun known => ?_
    obtain ⟨turn, before, sameName⟩ := (same.drawn _).1 known
    have sameTurn := apart.first_injOn (Nat.lt_trans before within) within sameName
    exact absurd sameTurn (Nat.ne_of_lt before)
  have otherPredicate : TripleStore.typePredicate ≠ TripleStore.nodePredicate := by decide
  have isIri := TripleStore.checkIri_eq_ok (apart.absolute used within)
  let marker : Triple := ⟨second used, TripleStore.nodePredicate, .literal node.identifier⟩
  have stated (subject type : String) :
      ⟨subject, TripleStore.typePredicate, .iri type⟩ ∈ (triples.insert marker).triples ↔
        ⟨subject, TripleStore.typePredicate, .iri type⟩ ∈ triples.triples := by
    rw [TripleStore.mem_insert_iff]
    simp [marker, otherPredicate]
  refine ⟨records.register (first used) node.identifier, triples.insert marker, ?_, ?_, ?_⟩
  · simp only [ObjectStore.createOrReuse, objectName, noObject, Supply.draw]
  · simp only [ObjectStore.createOrReuse, objectName, noObject, Supply.draw, TripleStore.register,
      isIri, marker]
  · rw [MemoryStore.register_eq_put unknown]
    constructor
    · intro object
      rw [MemoryStore.contains_put, same.drawn]
      constructor
      · rintro (rfl | ⟨turn, before, isName⟩)
        · exact ⟨used, Nat.lt_succ_self used, rfl⟩
        · exact ⟨turn, Nat.lt_succ_of_lt before, isName⟩
      · rintro ⟨turn, before, isName⟩
        rcases Nat.lt_succ_iff_lt_or_eq.1 before with earlier | rfl
        · exact .inr ⟨turn, earlier, isName⟩
        · exact .inl isName
    · intro turn before type
      rw [stated, MemoryStore.types_put]
      rcases Nat.lt_succ_iff_lt_or_eq.1 before with earlier | rfl
      · have turnWithin : turn ∈ Set.Iio bound := Nat.lt_trans earlier within
        rw [if_neg (apart.first_injOn.ne turnWithin within (Nat.ne_of_lt earlier))]
        exact same.classes turn earlier type
      · -- No statement gives a class to a name before it is drawn.
        rw [if_pos rfl]
        refine iff_of_false (fun isStated => ?_) List.not_mem_nil
        obtain ⟨other, earlier, sameName⟩ := same.typed _ _ isStated
        have sameTurn := apart.second_injOn (Nat.lt_trans earlier within) within sameName
        exact absurd sameTurn (Nat.ne_of_lt earlier)
    · intro subject type isStated
      obtain ⟨turn, before, isName⟩ := same.typed subject type ((stated subject type).1 isStated)
      exact ⟨turn, Nat.lt_succ_of_lt before, isName⟩

end SameClasses

end ContentTyping

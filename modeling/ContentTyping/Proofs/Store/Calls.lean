import ContentTyping.Proofs.Decisions
import ContentTyping.Proofs.Store.SameClasses

/-!
# Calls of stores

Three calls change what a store holds. One that fails leaves a store of records as it was. A store of
statements drops the classes of an object before it looks at the new ones, so there a list of classes with
one that is no IRI takes effect up to that one; every other failure leaves that store as it was, too.
-/

namespace ContentTyping

/-- An object store that takes values of properties, too. -/
class ValueStore (S : Type) extends ObjectStore S where
  /-- Add a value of a property of an object. -/
  addValue : S → String → String → String → Except Error Unit × S

instance : ValueStore MemoryStore where
  addValue := MemoryStore.addValue

instance : ValueStore TripleStore where
  addValue := TripleStore.addValue

/-- A call that may change a store. -/
inductive StoreCall where
  | createOrReuse (node : Node)
  | addValue (object property value : String)
  | setTypes (object : String) (types : List String)

namespace StoreCall

section Performing

variable {S : Type} [ValueStore S]

/-- Make a call. Only the first one gives out the name of an object. -/
def perform (store : S) (supply : Supply) :
    StoreCall → Except Error (Option String) × S × Supply
  | .createOrReuse node =>
    let made := ObjectStore.createOrReuse store supply node
    (made.1.map some, made.2)
  | .addValue object property value =>
    let made := ValueStore.addValue store object property value
    (made.1.map fun _ => none, made.2, supply)
  | .setTypes object types =>
    let made := ObjectStore.setTypes store object types
    (made.1.map fun _ => none, made.2, supply)

/-- Make calls one after the other, whatever they answer. -/
def run (calls : List StoreCall) (state : S × Supply) : S × Supply :=
  calls.foldl (fun state call => (call.perform state.1 state.2).2) state

end Performing

end StoreCall

/-! ## Failures -/

theorem MemoryStore.perform_eq_self_of_error {store : MemoryStore} {supply : Supply}
    {call : StoreCall} {error : Error} (failed : (call.perform store supply).1 = .error error) :
    (call.perform store supply).2.1 = store := by
  cases call with
  | createOrReuse node =>
      rw [StoreCall.perform, map_eq_error_iff] at failed
      exact absurd failed (by simp [ObjectStore.createOrReuse])
  | addValue object property value =>
      rw [StoreCall.perform, map_eq_error_iff] at failed
      simp only [StoreCall.perform, ValueStore.addValue, addValue] at failed ⊢
      cases known : store.record? object with
      | none => rfl
      | some record => exact absurd failed (by simp [known])
  | setTypes object types =>
      rw [StoreCall.perform, map_eq_error_iff] at failed
      simp only [StoreCall.perform, ObjectStore.setTypes, setTypes] at failed ⊢
      cases known : store.record? object with
      | none => rfl
      | some record => exact absurd failed (by simp [known])

namespace TripleStore

variable {store : TripleStore} {object : String}

theorem checkIri_of_not_absolute (notIri : Iri.isAbsolute object = false) :
    checkIri object = .error (.store (.invalidIri object)) := by
  rw [checkIri, notIri]
  rfl

/-- Classes take effect one after the other up to the first that is no IRI. -/
theorem addTypes_of_cutOff {known rest : List String} {invalid : String}
    (absolute : ∀ type ∈ known, Iri.isAbsolute type = true)
    (notIri : Iri.isAbsolute invalid = false) :
    store.addTypes object (known ++ invalid :: rest) =
      (.error (.store (.invalidIri invalid)), (store.addTypes object known).2) := by
  induction known generalizing store with
  | nil =>
      simp only [List.nil_append, addTypes, checkIri_of_not_absolute notIri]
  | cons type known inductionHypothesis =>
      obtain ⟨first, others⟩ := List.forall_mem_cons.1 absolute
      rw [List.cons_append, addTypes, addTypes, checkIri_eq_ok first]
      exact inductionHypothesis others

theorem absolute_or_cutOff (types : List String) :
    (∀ type ∈ types, Iri.isAbsolute type = true) ∨
      ∃ known invalid rest, types = known ++ invalid :: rest ∧
        (∀ type ∈ known, Iri.isAbsolute type = true) ∧ Iri.isAbsolute invalid = false := by
  cases found : types.find? fun type => !Iri.isAbsolute type with
  | none =>
      exact .inl (by simpa using found)
  | some invalid =>
      obtain ⟨notIri, known, rest, split, absolute⟩ := List.find?_eq_some_iff_append.1 found
      exact .inr ⟨known, invalid, rest, split, by simpa using absolute, by simpa using notIri⟩

end TripleStore

/-- The call gives an object classes of which some are IRIs and the next one is none. -/
structure StoreCall.CutOff (call : StoreCall) (object : String) (known : List String)
    (invalid : String) : Prop where
  isCall : ∃ rest, call = .setTypes object (known ++ invalid :: rest)
  isIri : Iri.isAbsolute object = true
  absolute : ∀ type ∈ known, Iri.isAbsolute type = true
  notIri : Iri.isAbsolute invalid = false

theorem TripleStore.perform_of_error {store : TripleStore} {supply : Supply} {call : StoreCall}
    {error : Error} (failed : (call.perform store supply).1 = .error error) :
    (call.perform store supply).2.1 = store ∨
      ∃ object known invalid, call.CutOff object known invalid ∧
        error = .store (.invalidIri invalid) ∧
        ObjectStore.setTypes store object known = (.ok (), (call.perform store supply).2.1) := by
  cases call with
  | createOrReuse node =>
      refine .inl ?_
      rw [StoreCall.perform, map_eq_error_iff] at failed
      simp only [StoreCall.perform, ObjectStore.createOrReuse, register] at failed ⊢
      cases checked : checkIri (objectName supply node).1 with
      | error _ => simp only
      | ok _ => exact absurd failed (by simp [checked])
  | addValue object property value =>
      refine .inl ?_
      rw [StoreCall.perform, map_eq_error_iff] at failed
      simp only [StoreCall.perform, ValueStore.addValue, addValue] at failed ⊢
      cases checked : checkIris [object, property] with
      | error _ => simp only
      | ok _ => exact absurd failed (by simp [checked])
  | setTypes object types =>
      rw [StoreCall.perform, map_eq_error_iff] at failed
      simp only [StoreCall.perform, ObjectStore.setTypes, setTypes] at failed ⊢
      by_cases isIri : Iri.isAbsolute object = true
      · rw [checkIri_eq_ok isIri] at failed ⊢
        rcases absolute_or_cutOff types with absolute | ⟨known, invalid, rest, rfl, absolute, notIri⟩
        · have done := (@addTypes_ok (store.removeAbout object typePredicate) object types absolute).1
          exact absurd (failed.symm.trans done) (by simp)
        · rw [addTypes_of_cutOff absolute notIri] at failed ⊢
          refine .inr ⟨object, known, invalid, ⟨⟨rest, rfl⟩, isIri, absolute, notIri⟩, ?_, ?_⟩
          · exact (Except.error.inj failed).symm
          · rw [checkIri_eq_ok isIri]
            exact Prod.ext (addTypes_ok absolute).1 rfl
      · rw [checkIri_of_not_absolute (Bool.eq_false_iff.2 isIri)]
        exact .inl rfl

/-- A failed call leaves either store as it was, with one exception: when a store of statements is given
classes for an object and one of them is no IRI, the object loses the classes that it had and gets those
before that one, as if only these had been asked for. -/
theorem unchanged_or_cut_off (call : StoreCall) (supply : Supply) (error : Error) :
    (∀ store : MemoryStore, (call.perform store supply).1 = .error error →
        (call.perform store supply).2.1 = store) ∧
      ∀ store : TripleStore, (call.perform store supply).1 = .error error →
        (call.perform store supply).2.1 = store ∨
          ∃ object known invalid, call.CutOff object known invalid ∧
            error = .store (.invalidIri invalid) ∧
            ObjectStore.setTypes store object known = (.ok (), (call.perform store supply).2.1) :=
  ⟨fun _ => MemoryStore.perform_eq_self_of_error, fun _ => TripleStore.perform_of_error⟩

/-- A store of statements that knows a box with one class. -/
def boxStore : TripleStore :=
  ⟨[⟨"urn:box", TripleStore.typePredicate, .iri "http://example.org/Folder"⟩,
    ⟨"urn:box", TripleStore.nodePredicate, .literal "urn:node"⟩]⟩

/-- The box is to have other classes, the second of which is no IRI. -/
def reclassBox : StoreCall :=
  .setTypes "urn:box" ["http://example.org/Shelf", "a shelf"]

theorem unchanged_or_cut_off_box :
    ((reclassBox.perform MemoryStore.empty ⟨RandomName.ofNat, 0⟩).1 =
        .error (.store (.unknownObject "urn:box")) ∧
      (reclassBox.perform MemoryStore.empty ⟨RandomName.ofNat, 0⟩).2.1 = MemoryStore.empty) ∧
    ((reclassBox.perform boxStore ⟨RandomName.ofNat, 0⟩).1 =
        .error (.store (.invalidIri "a shelf")) ∧
      ((reclassBox.perform boxStore ⟨RandomName.ofNat, 0⟩).2.1 = boxStore ∨
        ∃ object known invalid, reclassBox.CutOff object known invalid ∧
          Error.store (.invalidIri "a shelf") = .store (.invalidIri invalid) ∧
          ObjectStore.setTypes boxStore object known =
            (.ok (), (reclassBox.perform boxStore ⟨RandomName.ofNat, 0⟩).2.1))) := by
  have unknown : (reclassBox.perform MemoryStore.empty ⟨RandomName.ofNat, 0⟩).1 =
      .error (.store (.unknownObject "urn:box")) := by
    rfl
  have refused : (reclassBox.perform boxStore ⟨RandomName.ofNat, 0⟩).1 =
      .error (.store (.invalidIri "a shelf")) := by
    decide +kernel
  exact ⟨⟨unknown, (unchanged_or_cut_off _ _ _).1 _ unknown⟩,
    ⟨refused, (unchanged_or_cut_off _ _ _).2 _ refused⟩⟩

/-- The call fails, and the box has lost its class for the one before the fault. -/
theorem class_lost_box :
    (reclassBox.perform boxStore ⟨RandomName.ofNat, 0⟩).1 =
        .error (.store (.invalidIri "a shelf")) ∧
      ObjectStore.types boxStore "urn:box" = .ok ["http://example.org/Folder"] ∧
      ObjectStore.types (reclassBox.perform boxStore ⟨RandomName.ofNat, 0⟩).2.1 "urn:box" =
        .ok ["http://example.org/Shelf"] ∧
      (reclassBox.perform boxStore ⟨RandomName.ofNat, 0⟩).2.1 ≠ boxStore := by
  have others : (reclassBox.perform boxStore ⟨RandomName.ofNat, 0⟩).2.1.triples ≠ boxStore.triples := by
    decide +kernel
  refine ⟨by decide +kernel, by decide +kernel, by decide +kernel, ?_⟩
  intro same
  exact others (congrArg TripleStore.triples same)

end ContentTyping

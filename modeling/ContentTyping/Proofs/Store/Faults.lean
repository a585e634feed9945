import ContentTyping.Store.Choice
import ContentTyping.Store.Memory
import ContentTyping.Store.Triples

/-!
# Faults of stores

When an object store refuses a call, it says so with a fault of its own. So an operation whose
outcome is no store fault was refused nothing by the store.
-/

namespace ContentTyping

/-- The store refuses calls with store faults only. -/
class LawfulObjectStore (S : Type) [ObjectStore S] : Prop where
  createOrReuse_error : ∀ (store : S) (supply : Supply) (node : Node) (error : Error),
    (ObjectStore.createOrReuse store supply node).1 = .error error →
      ∃ fault, error = .store fault
  setTypes_error : ∀ (store : S) (object : String) (types : List String) (error : Error),
    (ObjectStore.setTypes store object types).1 = .error error →
      ∃ fault, error = .store fault

/-- The result is no store fault. -/
def NoStoreFault {α : Type} (result : Except Error α) : Prop :=
  ∀ fault, result ≠ .error (.store fault)

namespace NoStoreFault

variable {α β : Type}

theorem ok (value : α) : NoStoreFault (.ok value : Except Error α) := by
  intro fault failed
  exact absurd failed (by simp)

theorem error {error : Error} (isOther : ∀ fault, error ≠ .store fault) :
    NoStoreFault (.error error : Except Error α) := by
  intro fault failed
  exact isOther fault (Except.error.inj failed)

theorem bind {step : Except Error α} {next : α → Except Error β} (first : NoStoreFault step)
    (rest : ∀ value, NoStoreFault (next value)) : NoStoreFault (step >>= next) := by
  intro fault failed
  cases outcome : step with
  | error error =>
      rw [outcome] at failed
      obtain rfl : error = .store fault := Except.error.inj failed
      exact first fault outcome
  | ok value =>
      rw [outcome] at failed
      exact rest value fault failed

theorem of_error {step : Except Error α} {error : Error} (noFault : NoStoreFault step)
    (failed : step = .error error) : NoStoreFault (.error error : Except Error β) := by
  intro fault same
  obtain rfl : error = .store fault := Except.error.inj same
  exact noFault fault failed

theorem map {step : Except Error α} (noFault : NoStoreFault step) (view : α → β) :
    NoStoreFault (step.map view) := by
  cases step with
  | error error => exact noFault.of_error rfl
  | ok value => exact .ok (view value)

end NoStoreFault

instance : LawfulObjectStore MemoryStore where
  createOrReuse_error store supply node error refused := by
    simp [ObjectStore.createOrReuse] at refused
  setTypes_error store object types error refused := by
    simp only [ObjectStore.setTypes, MemoryStore.setTypes] at refused
    cases known : store.record? object with
    | none =>
        simp only [known, Except.error.injEq] at refused
        exact ⟨_, refused.symm⟩
    | some record =>
        simp [known] at refused

namespace TripleStore

theorem checkIri_error {value : String} {error : Error} (refused : checkIri value = .error error) :
    error = .store (.invalidIri value) := by
  rw [checkIri] at refused
  split at refused
  · exact absurd refused (by simp)
  · exact (Except.error.inj refused).symm

theorem addTypes_error {object : String} {types : List String} {error : Error}
    {store : TripleStore} (refused : (store.addTypes object types).1 = .error error) :
    ∃ fault, error = .store fault := by
  induction types generalizing store with
  | nil =>
      exact absurd refused (by simp [addTypes])
  | cons type types inductionHypothesis =>
      rw [addTypes] at refused
      split at refused
      next checkError checked =>
          obtain rfl := Except.error.inj refused
          exact ⟨_, checkIri_error checked⟩
      next =>
          exact inductionHypothesis refused

end TripleStore

instance : LawfulObjectStore TripleStore where
  createOrReuse_error store supply node error refused := by
    simp only [ObjectStore.createOrReuse, TripleStore.register] at refused
    cases checked : TripleStore.checkIri (objectName supply node).1 with
    | error checkError =>
        simp only [checked, Except.error.injEq] at refused
        subst refused
        exact ⟨_, TripleStore.checkIri_error checked⟩
    | ok _ =>
        simp [checked] at refused
  setTypes_error store object types error refused := by
    simp only [ObjectStore.setTypes, TripleStore.setTypes] at refused
    cases checked : TripleStore.checkIri object with
    | error checkError =>
        simp only [checked, Except.error.injEq] at refused
        subst refused
        exact ⟨_, TripleStore.checkIri_error checked⟩
    | ok _ =>
        simp only [checked] at refused
        exact TripleStore.addTypes_error refused

instance {A B : Type} [ObjectStore A] [ObjectStore B] [LawfulObjectStore A]
    [LawfulObjectStore B] : LawfulObjectStore (A ⊕ B) where
  createOrReuse_error store supply node error refused := by
    cases store with
    | inl store => exact LawfulObjectStore.createOrReuse_error store supply node error refused
    | inr store => exact LawfulObjectStore.createOrReuse_error store supply node error refused
  setTypes_error store object types error refused := by
    cases store with
    | inl store => exact LawfulObjectStore.setTypes_error store object types error refused
    | inr store => exact LawfulObjectStore.setTypes_error store object types error refused

/-! ## Counts -/

/-- The store refuses to count with store faults only. -/
class LawfulCounts (S : Type) [ObjectStore S] : Prop where
  propertyCount_error : ∀ (store : S) (object property : String) (error : Error),
    ObjectStore.propertyCount store object property = .error error →
      ∃ fault, error = .store fault

instance : LawfulCounts MemoryStore where
  propertyCount_error store object property error refused := by
    simp [ObjectStore.propertyCount] at refused

theorem TripleStore.checkIris_error {values : List String} {error : Error}
    (refused : checkIris values = .error error) : ∃ fault, error = .store fault := by
  induction values with
  | nil =>
      exact absurd refused (by simp [checkIris])
  | cons value values inductionHypothesis =>
      rw [checkIris] at refused
      split at refused
      · exact inductionHypothesis refused
      next checkError checked =>
          obtain rfl := Except.error.inj refused
          exact ⟨_, checkIri_error checked⟩

instance : LawfulCounts TripleStore where
  propertyCount_error store object property error refused := by
    simp only [ObjectStore.propertyCount, TripleStore.propertyCount] at refused
    split at refused
    next checkError checked =>
        obtain rfl := Except.error.inj refused
        exact TripleStore.checkIris_error checked
    · exact absurd refused (by simp)

instance {A B : Type} [ObjectStore A] [ObjectStore B] [LawfulCounts A] [LawfulCounts B] :
    LawfulCounts (A ⊕ B) where
  propertyCount_error store object property error refused := by
    cases store with
    | inl store => exact LawfulCounts.propertyCount_error store object property error refused
    | inr store => exact LawfulCounts.propertyCount_error store object property error refused

end ContentTyping

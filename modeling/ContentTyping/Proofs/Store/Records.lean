import ContentTyping.Store.Memory

/-!
# Records of a memory store

A memory store holds one record for each name. Only the record under the name that a call speaks of
is another one after the call.
-/

namespace ContentTyping.MemoryStore

variable {store : MemoryStore} {object : String}

theorem contains_iff : store.contains object = true ↔ ∃ record, store.record? object = some record :=
  Option.isSome_iff_exists

theorem record?_put (object : String) (record : ObjectRecord) (other : String) :
    (store.put object record).record? other =
      if other = object then some record else store.record? other := by
  rw [record?, put, Std.ExtTreeMap.getElem?_insert, record?]
  by_cases same : other = object
  · subst same
    rw [if_pos Std.ReflCmp.compare_self, if_pos rfl]
  · have different : compare object other ≠ .eq :=
      fun equal => same (Std.LawfulEqCmp.eq_of_compare equal).symm
    rw [if_neg different, if_neg same]

theorem ext_record? {other : MemoryStore}
    (same : ∀ object, store.record? object = other.record? object) : store = other :=
  congrArg MemoryStore.mk (Std.ExtTreeMap.ext_getElem? same)

theorem put_put (object : String) (first second : ObjectRecord) :
    (store.put object first).put object second = store.put object second := by
  apply ext_record?
  intro other
  rw [record?_put, record?_put, record?_put]
  by_cases same : other = object
  · rw [if_pos same, if_pos same]
  · rw [if_neg same, if_neg same, if_neg same]

theorem put_eq_self {record : ObjectRecord} (found : store.record? object = some record) :
    store.put object record = store := by
  apply ext_record?
  intro other
  rw [record?_put]
  by_cases same : other = object
  · rw [if_pos same, same, found]
  · rw [if_neg same]

theorem register_eq_put (unknown : store.contains object = false) (node : String) :
    store.register object node = store.put object ⟨node, [], ∅⟩ := by
  rw [register, if_neg (by simp [unknown])]

theorem record?_register_of_ne {other : String} (different : other ≠ object) (node : String) :
    (store.register object node).record? other = store.record? other := by
  cases known : store.contains object with
  | true =>
      rw [register, if_pos known]
  | false =>
      rw [register_eq_put known, record?_put, if_neg different]

theorem record?_register (store : MemoryStore) (object node : String) :
    (store.register object node).record? object =
      some ((store.record? object).getD ⟨node, [], ∅⟩) := by
  cases found : store.record? object with
  | none =>
      have unknown : store.contains object = false := by rw [contains, found, Option.isSome_none]
      rw [register_eq_put unknown, record?_put, if_pos rfl, Option.getD_none]
  | some record =>
      have known : store.contains object = true := by rw [contains, found, Option.isSome_some]
      rw [register, if_pos known, found, Option.getD_some]

theorem setTypes_eq_put {record : ObjectRecord} (found : store.record? object = some record)
    (types : List String) :
    ObjectStore.setTypes store object types =
      (.ok (), store.put object { record with types := types }) := by
  simp [ObjectStore.setTypes, setTypes, found]

theorem contains_put (store : MemoryStore) (object other : String) (record : ObjectRecord) :
    (store.put object record).contains other = true ↔
      object = other ∨ store.contains other = true := by
  rw [contains, record?_put, contains]
  by_cases same : other = object
  · simp [same]
  · simp [same, Ne.symm same]

theorem contains_put_of_contains (known : store.contains object = true) (record : ObjectRecord)
    (other : String) : (store.put object record).contains other = store.contains other := by
  rw [Bool.eq_iff_iff, contains_put]
  constructor
  · rintro (rfl | contained)
    · exact known
    · exact contained
  · exact .inr

theorem contains_register (store : MemoryStore) (object node other : String) :
    (store.register object node).contains other = true ↔
      object = other ∨ store.contains other = true := by
  rw [register]
  by_cases known : store.contains object = true
  · rw [if_pos known]
    constructor
    · intro contained
      exact .inr contained
    · rintro (rfl | contained)
      · exact known
      · exact contained
  · rw [if_neg known, contains_put]

theorem types_put (record : ObjectRecord) (other : String) :
    (store.put object record).types other =
      if other = object then record.types else store.types other := by
  rw [types, record?_put]
  by_cases same : other = object
  · rw [if_pos same, if_pos same]
  · rw [if_neg same, if_neg same, types]

theorem types_register (node other : String) :
    (store.register object node).types other = store.types other := by
  by_cases same : other = object
  · subst same
    rw [types, record?_register, types]
    cases store.record? other <;> rfl
  · rw [types, record?_register_of_ne same, types]

theorem values_put (record : ObjectRecord) (other property : String) :
    (store.put object record).values other property =
      if other = object then record.properties.getD property [] else store.values other property := by
  rw [values, record?_put]
  by_cases same : other = object
  · rw [if_pos same, if_pos same]
  · rw [if_neg same, if_neg same, values]

theorem values_register (node other property : String) :
    (store.register object node).values other property = store.values other property := by
  by_cases same : other = object
  · subst same
    rw [values, record?_register, values]
    cases store.record? other with
    | none => exact Std.ExtTreeMap.getD_empty
    | some record => rfl
  · rw [values, record?_register_of_ne same, values]

/-! ## Values and classes that are added -/

theorem addValue_eq_put {record : ObjectRecord} (found : store.record? object = some record)
    (property value : String) :
    (store.addValue object property value).2 =
      store.put object
        ⟨record.node, record.types,
          record.properties.insert property (record.properties.getD property [] ++ [value])⟩ := by
  rw [addValue, found]

theorem contains_addValue (known : store.contains object = true) (property value other : String) :
    (store.addValue object property value).2.contains other = store.contains other := by
  obtain ⟨record, found⟩ := contains_iff.1 known
  rw [addValue_eq_put found, contains_put_of_contains known]

theorem values_addValue (known : store.contains object = true) (property value other name : String) :
    (store.addValue object property value).2.values other name =
      if object = other ∧ property = name then store.values other name ++ [value]
      else store.values other name := by
  obtain ⟨record, found⟩ := contains_iff.1 known
  rw [addValue_eq_put found, values_put]
  by_cases same : object = other
  · subst same
    rw [if_pos rfl, Std.ExtTreeMap.getD_insert, values, found]
    by_cases sameName : property = name
    · subst sameName
      rw [if_pos Std.ReflCmp.compare_self, if_pos ⟨rfl, rfl⟩]
    · rw [if_neg fun equal => sameName (Std.LawfulEqCmp.eq_of_compare equal),
        if_neg fun both => sameName both.2]
  · rw [if_neg (Ne.symm same), if_neg fun both => same both.1]

theorem types_addValue (known : store.contains object = true) (property value other : String) :
    (store.addValue object property value).2.types other = store.types other := by
  obtain ⟨record, found⟩ := contains_iff.1 known
  rw [addValue_eq_put found, types_put]
  by_cases same : other = object
  · rw [if_pos same, same, types, found]
  · rw [if_neg same]

theorem contains_setTypes (known : store.contains object = true) (types : List String) (other : String) :
    (ObjectStore.setTypes store object types).2.contains other = store.contains other := by
  obtain ⟨record, found⟩ := contains_iff.1 known
  rw [setTypes_eq_put found, contains_put_of_contains known]

theorem values_setTypes (known : store.contains object = true) (types : List String)
    (other property : String) :
    (ObjectStore.setTypes store object types).2.values other property =
      store.values other property := by
  obtain ⟨record, found⟩ := contains_iff.1 known
  rw [setTypes_eq_put found, values_put]
  by_cases same : other = object
  · rw [if_pos same, same, values, found]
  · rw [if_neg same]

theorem types_setTypes (known : store.contains object = true) (types : List String) (other : String) :
    (ObjectStore.setTypes store object types).2.types other =
      if object = other then types else store.types other := by
  obtain ⟨record, found⟩ := contains_iff.1 known
  rw [setTypes_eq_put found, types_put]
  by_cases same : object = other
  · rw [if_pos same, if_pos same.symm]
  · rw [if_neg same, if_neg (Ne.symm same)]

end ContentTyping.MemoryStore

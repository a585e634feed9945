import Mathlib.Data.List.Nodup
import ContentTyping.Json.Fields
import ContentTyping.Proofs.Json.Reading

/-!
# Written fields are read back

What is written for a number, a list, an optional value or a record is read back by what reads such
values. What is read as a number is below its bound.
-/

namespace ContentTyping.Json

/-- The value is written in plain JSON and read back from it. -/
structure Keeps {α : Type} (decode : Json → Option α) (json : Json) (value : α) : Prop where
  plain : Plain json
  read : decode json = some value

/-! ## Single values -/

theorem keeps_text (text : String) : Keeps text? (.string text) text :=
  ⟨.string text, rfl⟩

theorem natBelow?_ofNat {bound value : Nat} (small : value < bound) :
    natBelow? bound (ofNat value) = some value := by
  have digits : (toString value).toList = Nat.toDigits 10 value := by
    rw [Nat.toString_eq_ofList_toDigits, String.toList_ofList]
  have nonempty : (Nat.toDigits 10 value).isEmpty = false := by
    simp
  simp only [ofNat, natBelow?, digits, nonempty, Text.all_isDigit_toDigits,
    Text.digitsValue_toDigits, small]
  rfl

theorem keeps_ofNat {bound value : Nat} (small : value < bound) :
    Keeps (natBelow? bound) (ofNat value) value :=
  ⟨.ofNat value, natBelow?_ofNat small⟩

/-! ## Lists and optional values -/

section Parts

variable {α : Type} {decode : Json → Option α} {encode : α → Json}

theorem Keeps.map {β : Type} {json : Json} {value : α} (keeps : Keeps decode json value)
    (build : α → β) : Keeps (fun json => (decode json).map build) json (build value) :=
  ⟨keeps.plain, by rw [keeps.read, Option.map_some]⟩

theorem exists_keeps_list {encode? : α → Option Json} {values : List α}
    (each : ∀ value ∈ values, ∃ json, encode? value = some json ∧ Keeps decode json value) :
    ∃ items, values.mapM encode? = some items ∧ Keeps (list? decode) (.array items) values := by
  induction values with
  | nil =>
      exact ⟨[], rfl, .array (List.forall_mem_nil _), rfl⟩
  | cons value values inductionHypothesis =>
      obtain ⟨⟨item, written, first⟩, others⟩ := List.forall_mem_cons.1 each
      obtain ⟨items, allWritten, rest⟩ := inductionHypothesis others
      have plain : ∀ item ∈ items, Plain item := by
        cases rest.plain with
        | array each => exact each
      have read : items.mapM decode = some values := rest.read
      refine ⟨item :: items, ?_, .array (List.forall_mem_cons.2 ⟨first.plain, plain⟩), ?_⟩
      · rw [List.mapM_cons, written, allWritten]
        rfl
      · rw [list?, List.mapM_cons, first.read, read]
        rfl

theorem keeps_list {values : List α} (each : ∀ value ∈ values, Keeps decode (encode value) value) :
    Keeps (list? decode) (.array (values.map encode)) values := by
  obtain ⟨items, written, keeps⟩ :=
    exists_keeps_list fun value member => ⟨encode value, rfl, each value member⟩
  obtain rfl : values.map encode = items := Option.some.inj (List.mapM_pure.symm.trans written)
  exact keeps

theorem plain_ofOption {value : Option α}
    (each : ∀ found, value = some found → Keeps decode (encode found) found) :
    Plain (ofOption encode value) := by
  cases value with
  | none => exact .null
  | some found => exact (each found rfl).plain

/-- What null is not read as is not written as null. -/
theorem Keeps.ne_null {json : Json} {value : α} (keeps : Keeps decode json value)
    (notNull : decode .null = none) : json ≠ .null := by
  rintro rfl
  exact absurd (notNull.symm.trans keeps.read) (by simp)

theorem Keeps.optional {json : Json} {value : α} (keeps : Keeps decode json value)
    (notNull : decode .null = none) : optional decode (some json) = some (some value) := by
  rw [Json.optional, keeps.read, Option.map_some]
  exact keeps.ne_null notNull

/-- A field with no value is left out. -/
theorem optional_map (notNull : decode .null = none) {value : Option α}
    (each : ∀ found, value = some found → Keeps decode (encode found) found) :
    optional decode (value.map encode) = some value := by
  cases value with
  | none =>
      rfl
  | some found =>
      exact (each found rfl).optional notNull

/-- A field with no value is null. -/
theorem optional_ofOption (notNull : decode .null = none) {value : Option α}
    (each : ∀ found, value = some found → Keeps decode (encode found) found) :
    optional decode (some (ofOption encode value)) = some value := by
  rw [← optional_map notNull each]
  cases value with
  | none => rfl
  | some found => rfl

end Parts

/-! ## What is read -/

/-- Whatever is read has a property. -/
def Yields {α : Type} (decode : Json → Option α) (property : α → Prop) : Prop :=
  ∀ json value, decode json = some value → property value

theorem yields_natBelow? (bound : Nat) : Yields (natBelow? bound) fun value => value < bound := by
  intro json value read
  cases json with
  | number spelling =>
      rw [natBelow?] at read
      split at read
      next accepted =>
          obtain rfl := Option.some.inj read
          rw [Bool.and_eq_true, decide_eq_true_eq] at accepted
          exact accepted.2
      · exact absurd read (by simp)
  | _ => exact absurd read (by simp [natBelow?])

section Yielding

variable {α : Type} {decode : Json → Option α} {property : α → Prop}

theorem Yields.map {β : Type} {build : α → β} {built : β → Prop} (yields : Yields decode property)
    (carries : ∀ value, property value → built (build value)) :
    Yields (fun json => (decode json).map build) built := by
  intro json value read
  obtain ⟨found, isFound, rfl⟩ := Option.map_eq_some_iff.1 read
  exact carries found (yields json found isFound)

theorem Yields.needed (yields : Yields decode property) {field : Option Json} {value : α}
    (read : needed decode field = some value) : property value := by
  cases field with
  | none => exact absurd read (by simp [Json.needed])
  | some json => exact yields json value read

theorem Yields.optional (yields : Yields decode property) {field : Option Json} {value : Option α}
    (read : optional decode field = some value) : ∀ found, value = some found → property found := by
  rintro found rfl
  rw [Json.optional.eq_def] at read
  split at read
  · exact absurd read (by simp)
  · exact absurd read (by simp)
  next json _ =>
      obtain ⟨other, isOther, same⟩ := Option.map_eq_some_iff.1 read
      obtain rfl := Option.some.inj same
      exact yields json other isOther

theorem Yields.list (yields : Yields decode property) :
    Yields (list? decode) fun values => ∀ value ∈ values, property value := by
  intro json values read
  cases json with
  | array items =>
      rw [list?] at read
      induction items generalizing values with
      | nil =>
          obtain rfl := Option.some.inj read
          exact List.forall_mem_nil _
      | cons item items inductionHypothesis =>
          rw [List.mapM_cons] at read
          obtain ⟨first, isFirst, read⟩ := Option.bind_eq_some_iff.1 read
          obtain ⟨rest, isRest, read⟩ := Option.bind_eq_some_iff.1 read
          obtain rfl := Option.some.inj read
          exact List.forall_mem_cons.2 ⟨yields item first isFirst, inductionHypothesis rest isRest⟩
  | _ => exact absurd read (by simp [list?])

end Yielding

/-! ## Records -/

theorem lookup_members (members : List (String × Json)) (name : String) :
    member? name (members.map fun member => (some member.1, member.2)) = members.lookup name := by
  rw [member?]
  induction members with
  | nil => rfl
  | cons member members inductionHypothesis =>
      rw [List.map_cons, List.lookup_cons, List.lookup_cons, inductionHypothesis]
      rfl

/-- An object without repetitions is read by looking up each field. -/
theorem fields?_ofMembers {members : List (String × Json)} (names : List String) (required : Nat)
    (distinct : (members.map Prod.fst).Nodup) :
    fields? names required (ofMembers members) =
      some (names.map fun name => members.lookup name) := by
  have accepted : hasDistinctFields names
      (members.map fun member => (some member.1, member.2)) = true := by
    rw [hasDistinctFields, Bool.and_eq_true, List.all_eq_true, List.all_eq_true]
    refine ⟨fun member listed => ?_, fun name _ => ?_⟩
    · obtain ⟨member, _, rfl⟩ := List.mem_map.1 listed
      rfl
    · have once := List.nodup_iff_count_le_one.1 distinct name
      rw [List.count_eq_countP, List.countP_map, List.countP_eq_length_filter] at once
      rw [List.filter_map, List.length_map, decide_eq_true_eq]
      refine Nat.le_trans (Nat.le_of_eq (congrArg List.length ?_)) once
      refine List.filter_congr fun member _ => ?_
      exact decide_eq_decide.2 Option.some_inj
  rw [ofMembers, fields?, if_pos accepted]
  exact congrArg some (List.map_congr_left fun name _ => lookup_members members name)

end ContentTyping.Json

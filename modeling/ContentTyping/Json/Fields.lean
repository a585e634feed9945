import ContentTyping.Json.Value

/-!
# Fields of records

A record is written as an object with named fields, or as an array of its fields in order.
Fields of an object may come in any order and among others, but not twice.
-/

namespace ContentTyping

namespace Json

/-- The value of a field in a list of members, when there is one. -/
def member? (name : String) (members : List (Option String × Json)) : Option Json :=
  members.lookup (some name)

/-- Every name is a text, and no field is there twice. -/
def hasDistinctFields (names : List String) (members : List (Option String × Json)) : Bool :=
  members.all (·.1.isSome) &&
    names.all fun name => (members.filter (·.1 = some name)).length ≤ 1

/-- The fields of a record. In an array the last ones may be missing, down to a number of
fields that have to be there. -/
def fields? (names : List String) (required : Nat) : Json → Option (List (Option Json))
  | .object members =>
    if hasDistinctFields names members then
      some (names.map fun name => member? name members)
    else none
  | .array items =>
    if required ≤ items.length ∧ items.length ≤ names.length then
      some (items.map some ++ List.replicate (names.length - items.length) none)
    else none
  | _ => none

/-! ## Single fields -/

/-- A field that has to be there. -/
def needed {α : Type} (decode : Json → Option α) : Option Json → Option α
  | some json => decode json
  | none => none

/-- A field that may be missing or null. -/
def optional {α : Type} (decode : Json → Option α) : Option Json → Option (Option α)
  | none => some none
  | some .null => some none
  | some json => (decode json).map some

/-- A text. -/
def text? : Json → Option String
  | .string text => some text
  | _ => none

/-- A truth value. -/
def bool? : Json → Option Bool
  | .bool value => some value
  | _ => none

/-- The value of a row of digits. -/
def digitsValue (digits : List Char) : Nat :=
  digits.foldl (fun value digit => value * 10 + (digit.toNat - 48)) 0

/-- A natural number below a bound, written in digits alone. -/
def natBelow? (bound : Nat) : Json → Option Nat
  | .number spelling =>
    let digits := spelling.toList
    if !digits.isEmpty && digits.all Char.isDigit && digitsValue digits < bound then
      some (digitsValue digits)
    else none
  | _ => none

/-- A whole number, written in digits after an optional sign. Zero has no sign. -/
def int? : Json → Option Int
  | .number spelling =>
    match spelling.toList with
    | '-' :: digits =>
      if digits.all Char.isDigit && digits ≠ ['0'] then some (-(digitsValue digits : Int))
      else none
    | digits => if digits.all Char.isDigit then some (digitsValue digits : Int) else none
  | _ => none

/-- A list of values. -/
def list? {α : Type} (decode : Json → Option α) : Json → Option (List α)
  | .array items => items.mapM decode
  | _ => none

/-- The value of a name in an object; of members with one name the last one counts. -/
def get? (name : String) : Json → Option Json
  | .object members => members.reverse.lookup (some name)
  | _ => none

end Json

instance : JsonDecode Json := ⟨some, none⟩
instance : JsonDecode String := ⟨Json.text?, none⟩
instance : JsonDecode Bool := ⟨Json.bool?, none⟩
instance : JsonDecode Nat := ⟨Json.natBelow? UInt64.size, none⟩

instance : JsonDecode UInt32 :=
  ⟨fun json => (json.natBelow? UInt32.size).map Nat.toUInt32, none⟩

instance : JsonDecode UInt64 :=
  ⟨fun json => (json.natBelow? UInt64.size).map Nat.toUInt64, none⟩

instance : JsonDecode Int :=
  ⟨fun json =>
    json.int?.filter fun n => Int64.minValue.toInt ≤ n ∧ n ≤ Int64.maxValue.toInt, none⟩

instance {α : Type} [JsonDecode α] : JsonDecode (List α) :=
  ⟨Json.list? JsonDecode.decode?, none⟩

instance {α : Type} [JsonDecode α] : JsonDecode (Option α) :=
  ⟨fun json => Json.optional JsonDecode.decode? (some json), some none⟩

/-- The value of a field in an object; what stands for a missing field depends on its type. -/
def Json.field? {α : Type} [JsonDecode α] (name : String) (json : Json) : Option α :=
  match json.get? name with
  | some found => JsonDecode.decode? found
  | none => JsonDecode.missing?

end ContentTyping

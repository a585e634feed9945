/-!
# JSON values

Values as a text writes them: numbers keep their spelling, and objects keep the order and the
repetitions of their members.
-/

namespace ContentTyping

/-- A JSON value. A written string may hold half of a surrogate pair, which is no text; such a
string is only known to be there. -/
inductive Json where
  | null
  | bool (value : Bool)
  | number (spelling : String)
  | string (text : String)
  | brokenString
  | array (items : List Json)
  | object (members : List (Option String × Json))

/-- Types whose values have a written form. -/
class JsonEncode (α : Type) where
  encode : α → Json

/-- Types whose values can be read from a written form; some also from a missing one. -/
class JsonDecode (α : Type) where
  decode? : Json → Option α
  missing? : Option α := none

namespace Json

/-- A natural number. -/
def ofNat (n : Nat) : Json := .number (toString n)

/-- A value or null. -/
def ofOption {α : Type} (toJson : α → Json) : Option α → Json
  | some value => toJson value
  | none => .null

/-- A list of strings. -/
def ofStrings (texts : List String) : Json :=
  .array (texts.map .string)

/-- An object with the given members. -/
def ofMembers (members : List (String × Json)) : Json :=
  .object (members.map fun member => (some member.1, member.2))

/-- The members of a list in the order of their names. -/
def sortMembers (members : List (String × Json)) : List (String × Json) :=
  members.mergeSort fun first second => decide (first.1 ≤ second.1)

end Json

instance : JsonEncode Json := ⟨id⟩
instance : JsonEncode Unit := ⟨fun _ => .null⟩
instance : JsonEncode Nat := ⟨Json.ofNat⟩
instance : JsonEncode Bool := ⟨.bool⟩
instance : JsonEncode String := ⟨.string⟩

instance {α : Type} [JsonEncode α] : JsonEncode (Option α) :=
  ⟨Json.ofOption JsonEncode.encode⟩

instance {α : Type} [JsonEncode α] : JsonEncode (List α) :=
  ⟨fun items => .array (items.map JsonEncode.encode)⟩

instance {α β : Type} [JsonEncode α] [JsonEncode β] : JsonEncode (α × β) :=
  ⟨fun pair => .array [JsonEncode.encode pair.1, JsonEncode.encode pair.2]⟩

end ContentTyping

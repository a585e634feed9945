import ContentTyping.Json.Value
import ContentTyping.Store.Memory

/-!
# Stores as JSON

The written form of what a store knows of an object.
-/

namespace ContentTyping

/-- The parts of a record: the node that it was made for, its classes and its properties. -/
def ObjectRecord.cells (record : ObjectRecord) : List Json :=
  [.string record.node, Json.ofStrings record.types,
    Json.ofMembers (record.properties.toList.map fun (property, values) =>
      (property, Json.ofStrings values))]

/-- A record as the list of its parts. -/
def ObjectRecord.toJson (record : ObjectRecord) : Json := .array record.cells

instance : JsonEncode ObjectRecord := ⟨ObjectRecord.toJson⟩

end ContentTyping

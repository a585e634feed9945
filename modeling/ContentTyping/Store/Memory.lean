import ContentTyping.Store.Basic
import Std.Data.ExtTreeMap

/-!
# Stores of records

A store that keeps one record for each object, in the order of the object names.
-/

namespace ContentTyping

/-- What is known of an object. -/
structure ObjectRecord where
  /-- Identifier of the node that the object was made for. -/
  node : String
  types : List String
  /-- The values of every property that has been given one, in the order of the calls. -/
  properties : Std.ExtTreeMap String (List String)

/-- Records by object name. -/
structure MemoryStore where
  objects : Std.ExtTreeMap String ObjectRecord

namespace MemoryStore

/-- The store without objects. -/
def empty : MemoryStore := ⟨∅⟩

/-- The record of an object. -/
def record? (store : MemoryStore) (object : String) : Option ObjectRecord :=
  store.objects[object]?

/-- The object is known. -/
def contains (store : MemoryStore) (object : String) : Bool :=
  (store.record? object).isSome

/-- The number of objects. -/
def size (store : MemoryStore) : Nat :=
  store.objects.size

/-- The values of a property, none for an unknown object. -/
def values (store : MemoryStore) (object property : String) : List String :=
  match store.record? object with
  | none => []
  | some record => record.properties.getD property []

/-- Put a record in the place of the one under this name. -/
def put (store : MemoryStore) (object : String) (record : ObjectRecord) : MemoryStore :=
  ⟨store.objects.insert object record⟩

/-- Add a value of a property at the end of those that it has. -/
def addValue (store : MemoryStore) (object property value : String) :
    Except Error Unit × MemoryStore :=
  match store.record? object with
  | none => (.error (.store (.unknownObject object)), store)
  | some record =>
    let values := record.properties.getD property [] ++ [value]
    (.ok (),
      store.put object { record with properties := record.properties.insert property values })

/-- Register an object for a node, unless it is known. -/
def register (store : MemoryStore) (object node : String) : MemoryStore :=
  if store.contains object then store else store.put object ⟨node, [], ∅⟩

/-- Replace the classes of a known object. -/
def setTypes (store : MemoryStore) (object : String) (types : List String) :
    Except Error Unit × MemoryStore :=
  match store.record? object with
  | none => (.error (.store (.unknownObject object)), store)
  | some record => (.ok (), store.put object { record with types := types })

/-- The classes of an object as they were given. -/
def types (store : MemoryStore) (object : String) : List String :=
  match store.record? object with
  | none => []
  | some record => record.types

instance : ObjectStore MemoryStore where
  createOrReuse store supply node :=
    let name := objectName supply node
    (.ok name.1, store.register name.1 node.identifier, name.2)
  propertyCount store object property := .ok (store.values object property).length
  setTypes := setTypes
  types store object := .ok (store.types object)

end MemoryStore

end ContentTyping

import ContentTyping.Error
import ContentTyping.Identifier

/-!
# Object stores

A store keeps a domain object for a node, with classes and property values. Calls can be
refused; each call stands for itself.
-/

namespace ContentTyping

/-- What the typing of nodes asks of an object store. -/
class ObjectStore (S : Type) where
  /-- The object that a node names, or one under a fresh name, registered in the store. -/
  createOrReuse : S → Supply → Node → Except Error String × S × Supply
  /-- The number of values of a property; zero for an unknown object. -/
  propertyCount : S → String → String → Except Error Nat
  /-- Replace the classes of an object. -/
  setTypes : S → String → List String → Except Error Unit × S
  /-- The classes of an object. -/
  types : S → String → Except Error (List String)

/-- The object that a node names, or a fresh name. -/
def objectName (supply : Supply) (node : Node) : String × Supply :=
  match node.object with
  | some object => (object, supply)
  | none => supply.draw

end ContentTyping

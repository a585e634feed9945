import ContentTyping.Iri.Absolute
import ContentTyping.Store.Basic

/-!
# Stores of triples

A store that keeps a set of statements. Subjects and predicates are IRIs, objects of statements
are IRIs or literals, and every IRI is checked when it is given.
-/

namespace ContentTyping

/-- The object of a statement. -/
inductive Term where
  | iri (value : String)
  | literal (value : String)
  deriving DecidableEq

/-- The text of a term without the marks of its kind. -/
def Term.text : Term → String
  | .iri value => value
  | .literal value => value

/-- A statement. -/
structure Triple where
  subject : String
  predicate : String
  object : Term
  deriving DecidableEq

/-- A set of statements, each listed once. -/
structure TripleStore where
  triples : List Triple

namespace TripleStore

/-- The predicate that gives a subject a class. -/
def typePredicate : String := "http://www.w3.org/1999/02/22-rdf-syntax-ns#type"

/-- The predicate that leads from an object to the identifier of its node. -/
def nodePredicate : String := "https://ipm.example.org/ns#contentNode"

/-- The store without statements. -/
def empty : TripleStore := ⟨[]⟩

/-- Accepts absolute IRIs. -/
def checkIri (value : String) : Except Error Unit :=
  if Iri.isAbsolute value then .ok () else .error (.store (.invalidIri value))

/-- Accepts a list of absolute IRIs, and otherwise names the first value that is none. -/
def checkIris : List String → Except Error Unit
  | [] => .ok ()
  | value :: rest =>
    match checkIri value with
    | .ok _ => checkIris rest
    | .error error => .error error

/-- Add a statement, unless it is there. -/
def insert (store : TripleStore) (triple : Triple) : TripleStore :=
  if triple ∈ store.triples then store else ⟨triple :: store.triples⟩

/-- The statements about a subject with a predicate. -/
def about (store : TripleStore) (subject predicate : String) : List Triple :=
  store.triples.filter fun triple =>
    triple.subject = subject ∧ triple.predicate = predicate

/-- The store without the statements about a subject with a predicate. -/
def removeAbout (store : TripleStore) (subject predicate : String) : TripleStore :=
  ⟨store.triples.filter fun triple =>
    ¬(triple.subject = subject ∧ triple.predicate = predicate)⟩

/-- Texts in the order of their code points. -/
def sorted (texts : List String) : List String :=
  texts.mergeSort fun first second => decide (first ≤ second)

/-- Add a literal value of a property. -/
def addValue (store : TripleStore) (object property value : String) :
    Except Error Unit × TripleStore :=
  match checkIris [object, property] with
  | .error error => (.error error, store)
  | .ok _ => (.ok (), store.insert ⟨object, property, .literal value⟩)

/-- Note which node an object belongs to. -/
def register (store : TripleStore) (object node : String) :
    Except Error Unit × TripleStore :=
  match checkIri object with
  | .error error => (.error error, store)
  | .ok _ => (.ok (), store.insert ⟨object, nodePredicate, .literal node⟩)

/-- The number of values of a property. -/
def propertyCount (store : TripleStore) (object property : String) : Except Error Nat :=
  match checkIris [object, property] with
  | .error error => .error error
  | .ok _ => .ok (store.about object property).length

/-- Add classes one after the other, up to the first that is no IRI. -/
def addTypes (store : TripleStore) (object : String) :
    List String → Except Error Unit × TripleStore
  | [] => (.ok (), store)
  | type :: rest =>
    match checkIri type with
    | .error error => (.error error, store)
    | .ok _ => (store.insert ⟨object, typePredicate, .iri type⟩).addTypes object rest

/-- Drop all classes of an object and add the given ones. -/
def setTypes (store : TripleStore) (object : String) (types : List String) :
    Except Error Unit × TripleStore :=
  match checkIri object with
  | .error error => (.error error, store)
  | .ok _ => (store.removeAbout object typePredicate).addTypes object types

/-- The IRI of a term. -/
def iri? : Term → Option String
  | .iri value => some value
  | .literal _ => none

/-- The classes of an object in the order of their code points. -/
def types (store : TripleStore) (object : String) : Except Error (List String) :=
  match checkIri object with
  | .error error => .error error
  | .ok _ =>
    .ok (sorted ((store.about object typePredicate).filterMap fun triple =>
      iri? triple.object))

instance : ObjectStore TripleStore where
  createOrReuse store supply node :=
    let name := objectName supply node
    match store.register name.1 node.identifier with
    | (.ok _, next) => (.ok name.1, next, name.2)
    | (.error error, next) => (.error error, next, name.2)
  propertyCount := propertyCount
  setTypes := setTypes
  types := types

end TripleStore

end ContentTyping

import ContentTyping.Yaml.Compose
import ContentTyping.Yaml.Meaning

/-!
# Fields of records

A record is written as a mapping whose keys are texts. Fields may come in any order and among
others, but not twice; a record of which nothing is written has no fields.
-/

namespace ContentTyping.Yaml.Document

/-- The text of a scalar, whatever else the scalar may stand for. -/
def text? (document : Document) (node : Node) : Option String :=
  match document.resolve node with
  | some (.scalar _ _ text) => some text
  | _ => none

/-- The tag of truth values. -/
def boolTag : String := "tag:yaml.org,2002:bool"

/-- The truth value of a plain scalar, or of a literal one that is tagged as such. -/
def bool? (document : Document) (node : Node) : Option Bool :=
  match document.resolve node with
  | some (.scalar _ .plain text) => Yaml.bool? text
  | some (.scalar tag .literal text) => if tag = some boolTag then Yaml.bool? text else none
  | _ => none

/-- The entries of a record. -/
def entries? (document : Document) (node : Node) : Option (List (String × Node)) :=
  match document.resolve node with
  | some (.mapping entries) =>
    entries.mapM fun (key, value) => (document.text? key).map fun name => (name, value)
  | some (.scalar _ .plain "") => some []
  | _ => none

/-- The entries of a record in which none of these fields is there twice. -/
def record? (document : Document) (names : List String) (node : Node) :
    Option (List (String × Node)) := do
  let entries ← document.entries? node
  if names.all fun name => (entries.filter (·.1 = name)).length ≤ 1 then pure entries
  else none

/-- A field, or a value in its place when it is missing. -/
def field? {α : Type} (entries : List (String × Node)) (name : String)
    (decode : Node → Option α) (missing : Option α) : Option α :=
  match entries.lookup name with
  | some node => decode node
  | none => missing

end ContentTyping.Yaml.Document

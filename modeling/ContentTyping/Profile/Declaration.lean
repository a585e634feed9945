import ContentTyping.Profile.Draft
import ContentTyping.Profile.Json

/-!
# Declarations

A draft can be built from a list of declarations, each of them a value with a written form.
A declaration that introduces an element answers with the position and the written form of the
new handle; one that adds to an element already there answers with nothing.
-/

namespace ContentTyping

/-- One step in the making of a profile. -/
inductive Declaration where
  | relation (forward inverse : String)
  | property (identifier label : String)
  | nodeType (identifier label : String) (association : FileAssociation)
  | description (type : NodeTypeId) (text : String)
  | domainType (type : NodeTypeId) (uri : String)
  | parentRule (type : NodeTypeId) (constraint : EdgeConstraint)
  | childRule (type : NodeTypeId) (constraint : EdgeConstraint)
  | propertyRule (type : NodeTypeId) (constraint : PropertyConstraint)
  | transform (transform : Transform)
  deriving DecidableEq

namespace Declaration

/-- The words by which written declarations are told apart. -/
def words : List String :=
  ["relation", "property", "type", "describe", "domain_type", "parent", "child", "prop",
    "transform"]

/-- The declaration of a word, with the members of an object as its parts. -/
def ofWord? (word : String) (json : Json) : Option Declaration := do
  match word with
  | "relation" => pure (relation (← json.field? "forward") (← json.field? "inverse"))
  | "property" => pure (property (← json.field? "id") (← json.field? "label"))
  | "type" =>
    pure (nodeType (← json.field? "id") (← json.field? "label") (← json.field? "assoc"))
  | "describe" => pure (description (← json.field? "type") (← json.field? "text"))
  | "domain_type" => pure (domainType (← json.field? "type") (← json.field? "uri"))
  | "parent" => pure (parentRule (← json.field? "type") (← json.field? "constraint"))
  | "child" => pure (childRule (← json.field? "type") (← json.field? "constraint"))
  | "prop" =>
    let constraint := ⟨← json.field? "property", ← json.field? "cardinality"⟩
    pure (propertyRule (← json.field? "type") constraint)
  | "transform" =>
    pure (transform ⟨← json.field? "label", ← json.field? "description",
      ← json.field? "source", ← json.field? "parent", ← json.field? "children",
      ← json.field? "result"⟩)
  | _ => none

end Declaration

namespace ProfileDraft

/-- Follow a declaration. -/
def declare (draft : ProfileDraft) (declaration : Declaration) :
    Except ProfileError (Option (Nat × String) × ProfileDraft) :=
  match declaration with
  | .relation forward inverse =>
    (draft.addRelation forward inverse).map fun (id, next) =>
      (some (id.index, id.display), next)
  | .property identifier label =>
    (draft.addPropertyType identifier label).map fun (id, next) =>
      (some (id.index, id.display), next)
  | .nodeType identifier label association =>
    (draft.addNodeType identifier label association).map fun (id, next) =>
      (some (id.index, id.display), next)
  | .transform transform =>
    (draft.addTransform transform).map fun (id, next) =>
      (some (id.index, id.display), next)
  | .description type text => .ok (none, draft.describe type text)
  | .domainType type uri => .ok (none, draft.addDomainType type uri)
  | .parentRule type constraint => .ok (none, draft.addParentConstraint type constraint)
  | .childRule type constraint => .ok (none, draft.addChildConstraint type constraint)
  | .propertyRule type constraint => .ok (none, draft.addPropertyConstraint type constraint)

end ProfileDraft

end ContentTyping

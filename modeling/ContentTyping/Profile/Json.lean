import ContentTyping.Json.Fields
import ContentTyping.Profile.Basic

/-!
# Profiles as JSON

The written forms of handles, constraints and the elements of profiles, and the reading of those
that are given to the library from outside. Handles and bounds are 32-bit words.
-/

namespace ContentTyping

/-! ## Handles -/

def NodeTypeId.toJson (id : NodeTypeId) : Json := Json.ofNat id.index
def RelationId.toJson (id : RelationId) : Json := Json.ofNat id.index
def PropertyTypeId.toJson (id : PropertyTypeId) : Json := Json.ofNat id.index
def TransformId.toJson (id : TransformId) : Json := Json.ofNat id.index

def NodeTypeId.ofJson? (json : Json) : Option NodeTypeId :=
  (json.natBelow? UInt32.size).map NodeTypeId.mk

def RelationId.ofJson? (json : Json) : Option RelationId :=
  (json.natBelow? UInt32.size).map RelationId.mk

def PropertyTypeId.ofJson? (json : Json) : Option PropertyTypeId :=
  (json.natBelow? UInt32.size).map PropertyTypeId.mk

def TransformId.ofJson? (json : Json) : Option TransformId :=
  (json.natBelow? UInt32.size).map TransformId.mk

instance : JsonEncode NodeTypeId := ⟨NodeTypeId.toJson⟩
instance : JsonEncode RelationId := ⟨RelationId.toJson⟩
instance : JsonEncode PropertyTypeId := ⟨PropertyTypeId.toJson⟩
instance : JsonEncode TransformId := ⟨TransformId.toJson⟩
instance : JsonDecode NodeTypeId := ⟨NodeTypeId.ofJson?, none⟩
instance : JsonDecode RelationId := ⟨RelationId.ofJson?, none⟩
instance : JsonDecode PropertyTypeId := ⟨PropertyTypeId.ofJson?, none⟩
instance : JsonDecode TransformId := ⟨TransformId.ofJson?, none⟩

/-! ## File kinds -/

/-- The word for a file kind. -/
def FileKind.toJson : FileKind → Json
  | .directory => .string "directory"
  | .regularFile => .string "regular_file"

/-- The file kind of a word. -/
def FileKind.ofWord? (word : String) : Option FileKind :=
  if word = "directory" then some .directory
  else if word = "regular_file" then some .regularFile
  else none

/-- A file kind: a word, or an object with the word as its only member, which is null. -/
def FileKind.ofJson? : Json → Option FileKind
  | .string word => ofWord? word
  | .object [(some word, .null)] => ofWord? word
  | _ => none

/-- The word for a file association. -/
def FileAssociation.toJson : FileAssociation → Json
  | .directory => .string "DIRECTORY"
  | .regularFile => .string "REGULAR_FILE"
  | .either => .string "EITHER"

/-- The file association of a word. -/
def FileAssociation.ofWord? (word : String) : Option FileAssociation :=
  if word = "DIRECTORY" then some .directory
  else if word = "REGULAR_FILE" then some .regularFile
  else if word = "EITHER" then some .either
  else none

/-- A file association, written as a word or as an object with the word as its only member. -/
def FileAssociation.ofJson? : Json → Option FileAssociation
  | .string word => ofWord? word
  | .object [(some word, .null)] => ofWord? word
  | _ => none

instance : JsonEncode FileKind := ⟨FileKind.toJson⟩
instance : JsonDecode FileKind := ⟨FileKind.ofJson?, none⟩
instance : JsonEncode FileAssociation := ⟨FileAssociation.toJson⟩
instance : JsonDecode FileAssociation := ⟨FileAssociation.ofJson?, none⟩

/-! ## Constraints -/

/-- Bounds as an object. -/
def Cardinality.toJson (cardinality : Cardinality) : Json :=
  Json.ofMembers
    [("min", Json.ofNat cardinality.min.toNat),
      ("max", Json.ofOption (fun max => Json.ofNat max.toNat) cardinality.max)]

/-- A bound. -/
def Cardinality.boundOfJson? (json : Json) : Option UInt32 :=
  (json.natBelow? UInt32.size).map Nat.toUInt32

/-- Bounds from their written form. -/
def Cardinality.ofJson? (json : Json) : Option Cardinality := do
  match ← json.fields? ["min", "max"] 2 with
  | [min, max] =>
    let min ← Json.needed boundOfJson? min
    let max ← Json.optional boundOfJson? max
    pure ⟨min, max⟩
  | _ => none

/-- An edge as a pair. -/
def Edge.toJson (edge : Edge) : Json :=
  .array [Json.ofOption NodeTypeId.toJson edge.nodeType,
    Json.ofOption RelationId.toJson edge.relation]

/-- An edge from a pair. -/
def Edge.ofJson? : Json → Option Edge
  | .array [nodeType, relation] => do
    let nodeType ← Json.optional NodeTypeId.ofJson? (some nodeType)
    let relation ← Json.optional RelationId.ofJson? (some relation)
    pure ⟨nodeType, relation⟩
  | _ => none

/-- A constraint as an object. -/
def EdgeConstraint.toJson (constraint : EdgeConstraint) : Json :=
  Json.ofMembers
    [("node_type", Json.ofOption NodeTypeId.toJson constraint.nodeType),
      ("relation", Json.ofOption RelationId.toJson constraint.relation),
      ("matches_none", .bool constraint.matchesNone),
      ("cardinality", constraint.cardinality.toJson)]

/-- A constraint from its written form; bounds that are left out admit any number. -/
def EdgeConstraint.ofJson? (json : Json) : Option EdgeConstraint := do
  match ← json.fields? ["node_type", "relation", "matches_none", "cardinality"] 3 with
  | [nodeType, relation, matchesNone, cardinality] =>
    let nodeType ← Json.optional NodeTypeId.ofJson? nodeType
    let relation ← Json.optional RelationId.ofJson? relation
    let matchesNone ← Json.needed Json.bool? matchesNone
    let cardinality ←
      match cardinality with
      | none => some Cardinality.any
      | some json => Cardinality.ofJson? json
    pure ⟨nodeType, relation, matchesNone, cardinality⟩
  | _ => none

instance : JsonEncode Cardinality := ⟨Cardinality.toJson⟩
instance : JsonDecode Cardinality := ⟨Cardinality.ofJson?, none⟩
instance : JsonEncode Edge := ⟨Edge.toJson⟩
instance : JsonDecode Edge := ⟨Edge.ofJson?, none⟩
instance : JsonEncode EdgeConstraint := ⟨EdgeConstraint.toJson⟩
instance : JsonDecode EdgeConstraint := ⟨EdgeConstraint.ofJson?, none⟩

/-! ## Elements of profiles -/

/-- A relation as an object. -/
def Relation.toJson (relation : Relation) : Json :=
  Json.ofMembers
    [("forward_predicate", .string relation.forward),
      ("inverse_predicate", .string relation.inverse)]

/-- A property type as an object. -/
def PropertyType.toJson (property : PropertyType) : Json :=
  Json.ofMembers
    [("identifier", .string property.identifier), ("label", .string property.label),
      ("description", .string property.description)]

/-- A property constraint as an object. -/
def PropertyConstraint.toJson (constraint : PropertyConstraint) : Json :=
  Json.ofMembers
    [("property_type", constraint.property.toJson),
      ("cardinality", constraint.cardinality.toJson)]

/-- A node type as an object. -/
def NodeType.toJson (type : NodeType) : Json :=
  Json.ofMembers
    [("identifier", .string type.identifier), ("label", .string type.label),
      ("description", .string type.description),
      ("domain_types", Json.ofStrings type.domainTypes),
      ("file_association", type.fileAssociation.toJson),
      ("parent_constraints", .array (type.parentConstraints.map EdgeConstraint.toJson)),
      ("child_constraints", .array (type.childConstraints.map EdgeConstraint.toJson)),
      ("property_constraints",
        .array (type.propertyConstraints.map PropertyConstraint.toJson)),
      ("domain_profile", .string type.domainProfile)]

/-- A transform as an object. -/
def Transform.toJson (transform : Transform) : Json :=
  Json.ofMembers
    [("label", .string transform.label), ("description", .string transform.description),
      ("source_node_type", transform.source.toJson),
      ("source_parent_constraint",
        Json.ofOption EdgeConstraint.toJson transform.parentCondition),
      ("source_child_constraints",
        .array (transform.childConditions.map EdgeConstraint.toJson)),
      ("result_node_type", transform.result.toJson)]

/-- The elements of a list, each after its position. -/
def numberedJson {α : Type} (encode : α → List Json) (items : List α) : Json :=
  .array (items.zipIdx.map fun (item, index) => .array (Json.ofNat index :: encode item))

/-- A profile as an object. A node type is followed by whether it is structural and whether it
may stand at the root. -/
def DomainProfile.toJson (profile : DomainProfile) : Json :=
  Json.ofMembers
    [("identifier", .string profile.identifier), ("domain", .string profile.domain),
      ("label", .string profile.label),
      ("type_count", Json.ofNat profile.nodeTypes.length),
      ("relations", numberedJson (fun relation => [relation.toJson]) profile.relations),
      ("properties", numberedJson (fun property => [property.toJson]) profile.propertyTypes),
      ("types",
        numberedJson (fun type => [type.toJson, .bool type.isStructural, .bool type.mayBeRoot])
          profile.nodeTypes),
      ("transforms", numberedJson (fun transform => [transform.toJson]) profile.transforms)]

instance : JsonEncode Relation := ⟨Relation.toJson⟩
instance : JsonEncode PropertyType := ⟨PropertyType.toJson⟩
instance : JsonEncode NodeType := ⟨NodeType.toJson⟩
instance : JsonEncode Transform := ⟨Transform.toJson⟩
instance : JsonEncode DomainProfile := ⟨DomainProfile.toJson⟩

end ContentTyping

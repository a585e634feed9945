import ContentTyping.Json.Parser
import ContentTyping.Json.Printer
import ContentTyping.Profile.Json
import ContentTyping.Time.Rfc3339
import ContentTyping.Tree.Basic

/-!
# Trees as JSON

A tree is written as its slots, its root and its profile. The index is not written but made
anew when a tree is read.
-/

namespace ContentTyping

/-! ## Slots and instants -/

def NodeId.toJson (id : NodeId) : Json := Json.ofNat id.index

/-- Slots are numbered by 64-bit words. -/
def NodeId.ofJson? (json : Json) : Option NodeId :=
  (json.natBelow? UInt64.size).map NodeId.mk

instance : JsonEncode NodeId := ⟨NodeId.toJson⟩
instance : JsonDecode NodeId := ⟨NodeId.ofJson?, none⟩

/-- The instant that a string writes. -/
def Instant.ofJson? (json : Json) : Option Instant :=
  json.text?.bind Instant.parse?

/-! ## Files -/

namespace FileInfo

/-- The fields of a file in the order in which they are written. -/
def fieldNames : List String :=
  ["path", "kind", "size", "checksum", "modified", "created"]

/-- A field that is left out when there is no value. -/
def fieldIfAny (name : String) : Option String → List (String × Json)
  | some text => [(name, .string text)]
  | none => []

/-- A file as an object. Only a path that is text can be written. -/
def toJson? (info : FileInfo) : Option Json :=
  info.path.toString?.map fun path =>
    Json.ofMembers <|
      [("path", .string path), ("kind", info.kind.toJson),
        ("size", Json.ofNat info.size.toNat)] ++
      fieldIfAny "checksum" info.checksum ++
      fieldIfAny "modified" (info.modified.map Instant.display) ++
      fieldIfAny "created" (info.created.map Instant.display)

/-- A file from its fields. -/
def ofFields? : List (Option Json) → Option FileInfo
  | [path, kind, size, checksum, modified, created] => do
    let path ← Json.needed Json.text? path
    let kind ← Json.needed FileKind.ofJson? kind
    let size ← Json.needed (Json.natBelow? UInt64.size) size
    let checksum ← Json.optional Json.text? checksum
    let modified ← Json.optional Instant.ofJson? modified
    let created ← Json.optional Instant.ofJson? created
    pure ⟨RawPath.ofString path, kind, size.toUInt64, checksum, modified, created⟩
  | _ => none

/-- A file from its written form. -/
def ofJson? (json : Json) : Option FileInfo :=
  (json.fields? fieldNames 6).bind ofFields?

end FileInfo

instance : JsonDecode FileInfo := ⟨FileInfo.ofJson?, none⟩

/-! ## Nodes -/

namespace Node

/-- The fields of a node in the order in which they are written. -/
def fieldNames : List String :=
  ["identifier", "name", "parent", "children", "parent_relation", "domain_object",
    "file_info", "node_type", "sub_node_types", "ignored"]

/-- A node as an object, given the written form of its file. -/
def toJsonWith (node : Node) (file : Json) : Json :=
  Json.ofMembers
    [("identifier", .string node.identifier), ("name", .string node.name),
      ("parent", Json.ofOption NodeId.toJson node.parent),
      ("children", .array (node.children.map NodeId.toJson)),
      ("parent_relation", Json.ofOption RelationId.toJson node.relation),
      ("domain_object", Json.ofOption .string node.object), ("file_info", file),
      ("node_type", Json.ofOption NodeTypeId.toJson node.nodeType),
      ("sub_node_types", .array (node.subTypes.map NodeTypeId.toJson)),
      ("ignored", .bool node.ignored)]

/-- A node and its slot as a short object: no file, and nothing for what is empty or false. -/
def summaryJson (id : NodeId) (node : Node) : Json :=
  let part (name : String) (value : Option Json) : List (String × Json) :=
    value.toList.map fun found => (name, found)
  let unlessEmpty (items : List Json) : Option Json :=
    if items.isEmpty then none else some (.array items)
  Json.ofMembers <|
    [("i", id.toJson), ("id", .string node.identifier), ("name", .string node.name)] ++
    part "parent" (node.parent.map NodeId.toJson) ++
    part "children" (unlessEmpty (node.children.map NodeId.toJson)) ++
    part "rel" (node.relation.map RelationId.toJson) ++
    part "obj" (node.object.map Json.string) ++
    part "type" (node.nodeType.map NodeTypeId.toJson) ++
    part "subs" (unlessEmpty (node.subTypes.map NodeTypeId.toJson)) ++
    part "ignored" (if node.ignored then some (.bool true) else none)

/-- A node as an object. -/
def toJson? (node : Node) : Option Json :=
  match node.file with
  | none => some (node.toJsonWith .null)
  | some info => info.toJson?.map node.toJsonWith

/-- A node from its fields. -/
def ofFields? : List (Option Json) → Option Node
  | [identifier, name, parent, children, relation, object, file, nodeType, subTypes,
      ignored] => do
    let identifier ← Json.needed Json.text? identifier
    let name ← Json.needed Json.text? name
    let parent ← Json.optional NodeId.ofJson? parent
    let children ← Json.needed (Json.list? NodeId.ofJson?) children
    let relation ← Json.optional RelationId.ofJson? relation
    let object ← Json.optional Json.text? object
    let file ← Json.optional FileInfo.ofJson? file
    let nodeType ← Json.optional NodeTypeId.ofJson? nodeType
    let subTypes ← Json.needed (Json.list? NodeTypeId.ofJson?) subTypes
    let ignored ← Json.needed Json.bool? ignored
    pure ⟨identifier, name, parent, children, relation, object, file, nodeType, subTypes,
      ignored⟩
  | _ => none

/-- A node from its written form. -/
def ofJson? (json : Json) : Option Node :=
  (json.fields? fieldNames 10).bind ofFields?

end Node

/-! ## Trees -/

namespace ContentTree

/-- The fields of a tree in the order in which they are written. -/
def fieldNames : List String := ["nodes", "root", "profile"]

/-- A slot: a node or null. -/
def slotToJson? : Option Node → Option Json
  | none => some .null
  | some node => node.toJson?

/-- The written slot. -/
def slotOfJson? : Json → Option (Option Node)
  | .null => some none
  | json => (Node.ofJson? json).map some

/-- A tree as an object. -/
def toJson? (tree : ContentTree) : Option Json :=
  (tree.nodes.toList.mapM slotToJson?).map fun slots =>
    Json.ofMembers
      [("nodes", .array slots),
        ("root", Json.ofOption NodeId.toJson tree.root),
        ("profile", Json.ofOption .string tree.profile)]

/-- A tree from its fields. -/
def ofFields? : List (Option Json) → Option ContentTree
  | [nodes, root, profile] => do
    let nodes ← Json.needed (Json.list? slotOfJson?) nodes
    let root ← Json.optional NodeId.ofJson? root
    let profile ← Json.optional Json.text? profile
    pure (ofSlots nodes.toArray root profile)
  | _ => none

/-- A tree from its written form. In an array the profile may be missing. -/
def ofJson? (json : Json) : Option ContentTree :=
  (json.fields? fieldNames 2).bind ofFields?

/-- The text of a tree. A file path that is no text cannot be written. -/
def toText (tree : ContentTree) : Except Error String :=
  match tree.toJson? with
  | some json => .ok json.toText
  | none => .error .malformedJson

/-- The tree that a text writes. -/
def ofText (text : String) : Except Error ContentTree :=
  match (Json.parse? text).bind ofJson? with
  | some tree => .ok tree
  | none => .error .malformedJson

end ContentTree

end ContentTyping

import ContentTyping.Engine.Retyping
import ContentTyping.Profile.Catalog
import ContentTyping.Text.Blank
import ContentTyping.Validation.Json

/-!
# Printed results

The lines and the values in which commands show profiles, trees, reports and transforms.
-/

namespace ContentTyping.CommandLine

/-- The sign of success. -/
def successSign : String := "✓"

/-- The sign of failure. -/
def failureSign : String := "✗"

/-- The sign of a warning. -/
def warningSign : String := "!"

/-- A value with the names of its members in order. -/
def sortedObject (members : List (String × Json)) : Json :=
  Json.ofMembers (Json.sortMembers members)

/-! ## Profiles -/

/-- A profile with the labels of its types and transforms. -/
def profileJson (profile : DomainProfile) : Json :=
  sortedObject
    [("identifier", .string profile.identifier), ("label", .string profile.label),
      ("nodeTypes", Json.ofStrings (profile.nodeTypes.map NodeType.label)),
      ("transforms", Json.ofStrings (profile.transforms.map Transform.label))]

/-- The lines on a profile. -/
def profileLines (profile : DomainProfile) : List String :=
  [s!"{profile.label} {profile.identifier}", "  Node types:"] ++
    profile.nodeTypes.map (fun type =>
      s!"    {Text.padRight 20 type.label} {type.fileAssociation.display}") ++
    ["  Transforms:"] ++
    profile.transforms.map fun transform =>
      let source := profile.typeLabel transform.source
      let result := profile.typeLabel transform.result
      s!"    {Text.padRight 34 transform.label} {source} -> {result}"

/-! ## Trees -/

/-- The label of the type of a node. -/
def typeLabel? (profile : DomainProfile) (node : Node) : Option String :=
  (node.nodeType.bind profile.nodeType?).map NodeType.label

/-- The label of the type of a node, or the word for none. -/
def typeWord (profile : DomainProfile) (tree : ContentTree) (id : NodeId) : String :=
  ((tree.get? id).bind (typeLabel? profile)).getD "untyped"

/-- The nodes of a tree in the order of a walk. -/
def nodesInOrder (tree : ContentTree) : List (NodeId × Node) :=
  match tree.root with
  | none => []
  | some root =>
    (tree.descendants root).filterMap fun id => (tree.get? id).map fun node => (id, node)

/-- The line on a node, indented by its depth. -/
def nodeLine (profile : DomainProfile) (tree : ContentTree) (id : NodeId) (node : Node) :
    String :=
  let indent := String.ofList (List.replicate (2 * tree.depth id) ' ')
  if node.ignored then s!"{indent}{node.name} (ignored)"
  else s!"{indent}{node.name} [{typeWord profile tree id}]"

/-- The lines on a tree. -/
def treeLines (profile : DomainProfile) (tree : ContentTree) : List String :=
  (nodesInOrder tree).map fun (id, node) => nodeLine profile tree id node

/-- A node with what its typing says in words. -/
def nodeJson (profile : DomainProfile) (tree : ContentTree) (id : NodeId) (node : Node) :
    Json :=
  let relation := (node.relation.bind profile.relation?).map Relation.forward
  sortedObject
    [("path", .string (tree.pathOf id)), ("identifier", .string node.identifier),
      ("nodeType", Json.ofOption .string (typeLabel? profile node)),
      ("relation", Json.ofOption .string relation),
      ("domainObject", Json.ofOption .string node.object), ("ignored", .bool node.ignored)]

/-- A tree with its nodes in the order of a walk. -/
def treeJson (profile : DomainProfile) (tree : ContentTree) : Json :=
  sortedObject
    [("profile", Json.ofOption .string tree.profile),
      ("nodes",
        .array ((nodesInOrder tree).map fun (id, node) => nodeJson profile tree id node))]

/-! ## Reports -/

/-- The lines on a report. -/
def reportLines (report : ValidationReport) : List String :=
  if report.isValid then [s!"{successSign} {report.checked} node(s) valid"]
  else
    report.violations.map (fun violation => s!"{failureSign} {violation.display}") ++
      ["", s!"{report.violations.length} violation(s) in {report.checked} node(s)"]

/-! ## Transforms -/

/-- A node with the transforms that are legal for it. -/
def transformsJson (path type : String) (transforms : List Transform) : Json :=
  sortedObject
    [("node", .string path), ("nodeType", .string type),
      ("transforms", Json.ofStrings (transforms.map Transform.label))]

/-- The lines on a node and the transforms that are legal for it. -/
def transformLines (profile : DomainProfile) (path type : String)
    (transforms : List Transform) : List String :=
  [s!"{path} ({type})"] ++
    if transforms.isEmpty then ["  no legal transforms"]
    else
      transforms.map fun transform =>
        let result := profile.typeLabel transform.result
        s!"  {Text.padRight 34 transform.label} -> {result}"

/-- The lines on a transform that was applied, with what is wrong around the node now. -/
def appliedLines (label : String) (report : ValidationReport) : List String :=
  s!"{successSign} applied {label}" ::
    report.violations.map fun violation => s!"  {warningSign} {violation.display}"

end ContentTyping.CommandLine

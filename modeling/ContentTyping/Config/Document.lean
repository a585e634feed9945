import ContentTyping.Config.Basic

/-!
# Written configurations

A configuration is written as a document with the parts `metadata` and `spec`. Reading fills in
the defaults of what is left out, and accepts only valid configurations.
-/

namespace ContentTyping.EngineConfig

/-! ## Reading -/

/-- Part of a configuration. -/
structure Spec where
  profile : String := Pcdm.profile.identifier
  rollbackOnFailure : Bool := false
  scan : ScanOptions := {}

/-- The name that a configuration is given. -/
def nameOf? (document : Yaml.Document) (node : Yaml.Node) : Option String := do
  let entries ← document.record? ["name"] node
  Yaml.Document.field? entries "name" document.text? none

/-- The policy on failed assignments. -/
def rollbackOf? (document : Yaml.Document) (node : Yaml.Node) : Option Bool := do
  let entries ← document.record? ["rollbackOnFailure"] node
  Yaml.Document.field? entries "rollbackOnFailure" document.bool? (some false)

/-- The choices that a configuration makes. -/
def specOf? (document : Yaml.Document) (node : Yaml.Node) : Option Spec := do
  let entries ← document.record? ["profile", "assignment", "scanner"] node
  let default : Spec := {}
  let profile ←
    Yaml.Document.field? entries "profile" document.text? (some default.profile)
  let rollback ←
    Yaml.Document.field? entries "assignment" (rollbackOf? document)
      (some default.rollbackOnFailure)
  let scan ←
    Yaml.Document.field? entries "scanner" (ScanOptions.ofYaml? document)
      (some default.scan)
  pure ⟨profile, rollback, scan⟩

/-- The configuration that a document writes, valid or not. -/
def ofDocument? (document : Yaml.Document) : Option EngineConfig := do
  let entries ← document.record? ["apiVersion", "kind", "metadata", "spec"] document.root
  let apiVersion ← Yaml.Document.field? entries "apiVersion" document.text? none
  let kind ← Yaml.Document.field? entries "kind" document.text? none
  let name ← Yaml.Document.field? entries "metadata" (nameOf? document) none
  let spec ← Yaml.Document.field? entries "spec" (specOf? document) (some {})
  pure ⟨apiVersion, kind, name, spec.profile, spec.rollbackOnFailure, spec.scan⟩

/-- The valid configuration that a text writes. -/
def ofText (text : String) : Except Error EngineConfig :=
  match (Yaml.Document.parse? text).bind ofDocument? with
  | none => .error .malformedYaml
  | some config =>
    match config.validate with
    | .error error => .error error
    | .ok _ => .ok config

/-! ## Writing -/

/-- The text of a configuration. -/
def toText (config : EngineConfig) : String :=
  String.ofList <|
    Yaml.writeEntry 0 "apiVersion" config.apiVersion ++
      Yaml.writeEntry 0 "kind" config.kind ++
      Yaml.writeKey 0 "metadata" ++ Yaml.writeEntry 2 "name" config.name ++
      Yaml.writeKey 0 "spec" ++ Yaml.writeEntry 2 "profile" config.profile ++
      Yaml.writeKey 2 "assignment" ++
      Yaml.writeFlag 4 "rollbackOnFailure" config.rollbackOnFailure ++
      Yaml.writeKey 2 "scanner" ++ config.scan.toYaml 4

/-- A configuration as an object. -/
def toJson (config : EngineConfig) : Json :=
  Json.ofMembers
    [("apiVersion", .string config.apiVersion), ("kind", .string config.kind),
      ("metadata", Json.ofMembers [("name", .string config.name)]),
      ("spec", Json.ofMembers
        [("profile", .string config.profile),
          ("assignment",
            Json.ofMembers [("rollbackOnFailure", .bool config.rollbackOnFailure)]),
          ("scanner", config.scan.toJson)])]

end ContentTyping.EngineConfig

namespace ContentTyping

instance : JsonEncode EngineConfig := ⟨EngineConfig.toJson⟩

end ContentTyping

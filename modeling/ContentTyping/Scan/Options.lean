import ContentTyping.Json.Fields
import ContentTyping.Yaml.Fields
import ContentTyping.Yaml.Writer

/-!
# Options of a scan

What a scan takes in, and the written forms of this choice.
-/

namespace ContentTyping

/-- What a scan takes in. -/
structure ScanOptions where
  /-- Entries whose names begin with a dot. -/
  includeHidden : Bool := false
  /-- What symbolic links lead to, in their place. -/
  followLinks : Bool := false
  /-- A checksum for every file. -/
  checksums : Bool := true
  deriving DecidableEq

namespace ScanOptions

/-- The names of the options in the order in which they are written. -/
def fieldNames : List String :=
  ["includeHidden", "followLinks", "checksums"]

/-- The options as an object. -/
def toJson (options : ScanOptions) : Json :=
  Json.ofMembers
    [("includeHidden", .bool options.includeHidden),
      ("followLinks", .bool options.followLinks), ("checksums", .bool options.checksums)]

/-- An option, or its default when it is missing. -/
def flag? (default : Bool) : Option Json → Option Bool
  | none => some default
  | some json => json.bool?

/-- The options that are written as an object or an array. -/
def ofJson? (json : Json) : Option ScanOptions := do
  match ← json.fields? fieldNames 0 with
  | [includeHidden, followLinks, checksums] =>
    pure ⟨← flag? false includeHidden, ← flag? false followLinks, ← flag? true checksums⟩
  | _ => none

/-- The options that are written as a mapping. -/
def ofYaml? (document : Yaml.Document) (node : Yaml.Node) : Option ScanOptions := do
  let entries ← document.record? fieldNames node
  let flag (name : String) (default : Bool) : Option Bool :=
    Yaml.Document.field? entries name document.bool? (some default)
  pure ⟨← flag "includeHidden" false, ← flag "followLinks" false, ← flag "checksums" true⟩

/-- The entries of the options in a mapping at a column. -/
def toYaml (options : ScanOptions) (column : Nat) : List Char :=
  Yaml.writeFlag column "includeHidden" options.includeHidden ++
    Yaml.writeFlag column "followLinks" options.followLinks ++
    Yaml.writeFlag column "checksums" options.checksums

end ScanOptions

instance : JsonEncode ScanOptions := ⟨ScanOptions.toJson⟩
instance : JsonDecode ScanOptions := ⟨ScanOptions.ofJson?, none⟩

end ContentTyping

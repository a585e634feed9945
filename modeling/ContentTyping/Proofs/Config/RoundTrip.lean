import ContentTyping.Config.Load
import ContentTyping.Proofs.FileSystem.Writing
import ContentTyping.Proofs.Text.Utf8
import ContentTyping.Proofs.Yaml.Mappings
import Mathlib.Data.List.Nodup

/-!
# Saved configurations are loaded again

The text of a configuration is a document of lines, which is parsed as records of texts and truth
values. From these the configuration is read as it was, whatever stands in its name and its profile.
-/

namespace ContentTyping

namespace EngineConfig

open Yaml

variable (config : EngineConfig)

/-! ## The lines of a configuration -/

/-- The lines that a configuration is written in. -/
def lines : List Line :=
  [⟨0, "apiVersion", .text config.apiVersion⟩, ⟨0, "kind", .text config.kind⟩,
    ⟨0, "metadata", .mapping⟩, ⟨2, "name", .text config.name⟩, ⟨0, "spec", .mapping⟩,
    ⟨2, "profile", .text config.profile⟩, ⟨2, "assignment", .mapping⟩,
    ⟨4, "rollbackOnFailure", .flag config.rollbackOnFailure⟩, ⟨2, "scanner", .mapping⟩,
    ⟨4, "includeHidden", .flag config.scan.includeHidden⟩,
    ⟨4, "followLinks", .flag config.scan.followLinks⟩,
    ⟨4, "checksums", .flag config.scan.checksums⟩]

theorem toText_eq : config.toText = String.ofList (writeLines config.lines) := by
  simp only [toText, ScanOptions.toYaml, writeEntry_eq, writeFlag_eq, writeKey_eq, writeLines, lines,
    List.flatMap_cons, List.flatMap_nil, List.append_nil, List.append_assoc]

theorem fit_lines : Fit config.lines := by
  have isKey : ∀ key ∈ config.lines.map Line.key, Line.IsKey key := by
    intro key member
    simp only [lines, List.map_cons, List.map_nil, List.mem_cons, List.not_mem_nil, or_false] at member
    rcases member with rfl | rfl | rfl | rfl | rfl | rfl | rfl | rfl | rfl | rfl | rfl | rfl <;>
      exact ⟨by decide, by decide, by decide⟩
  simp only [lines, List.map_cons, List.map_nil, List.forall_mem_cons] at isKey
  simp [lines, fit_cons, isKey, LineValue.isMapping, startColumn, Fit.nil]

/-! ## The records of a configuration -/

/-- A text as a node. -/
def textNode (text : String) : Yaml.Node :=
  .scalar none (styleOf text) text

/-- A truth value as a node. -/
def flagNode (value : Bool) : Yaml.Node :=
  .scalar none .plain (toString value)

/-- A record as a node. -/
def recordNode (fields : List (String × Yaml.Node)) : Yaml.Node :=
  .mapping (fields.map fun (name, value) => (keyNode name, value))

/-- The name of a configuration as a node. -/
def metadataNode : Yaml.Node :=
  recordNode [("name", textNode config.name)]

/-- The policy on failed assignments as a node. -/
def assignmentNode : Yaml.Node :=
  recordNode [("rollbackOnFailure", flagNode config.rollbackOnFailure)]

/-- Options of a scan as a node. -/
def scannerNode (options : ScanOptions) : Yaml.Node :=
  recordNode
    [("includeHidden", flagNode options.includeHidden), ("followLinks", flagNode options.followLinks),
      ("checksums", flagNode options.checksums)]

/-- The choices of a configuration as a node. -/
def specNode : Yaml.Node :=
  recordNode
    [("profile", textNode config.profile), ("assignment", config.assignmentNode),
      ("scanner", scannerNode config.scan)]

/-- A configuration as a node. -/
def node : Yaml.Node :=
  recordNode
    [("apiVersion", textNode config.apiVersion), ("kind", textNode config.kind),
      ("metadata", config.metadataNode), ("spec", config.specNode)]

theorem parse?_toText : Document.parse? config.toText = some ⟨config.node, {}⟩ := by
  -- The entries are composed from the last one to the first, inner mappings before outer ones.
  have name := composes_nil.text "name" (styleOf config.name) config.name
  have rollback :=
    composes_nil.text "rollbackOnFailure" .plain (toString config.rollbackOnFailure)
  have scanner := ((composes_nil.text "checksums" .plain (toString config.scan.checksums)).text
    "followLinks" .plain (toString config.scan.followLinks)).text
    "includeHidden" .plain (toString config.scan.includeHidden)
  have spec := ((composes_nil.mapping "scanner" scanner).mapping "assignment" rollback).text
    "profile" (styleOf config.profile) config.profile
  have whole := (((composes_nil.mapping "spec" spec).mapping "metadata" name).text
    "kind" (styleOf config.kind) config.kind).text
    "apiVersion" (styleOf config.apiVersion) config.apiVersion
  rw [toText_eq]
  refine parse?_writeLines config.fit_lines ?_ whole
  simp [lines, lineTokens, Line.keyTokens, Line.endTokens, Line.openAt, Line.valueTokens]

/-! ## Reading of records -/

section Records

variable (document : Document)

theorem text?_textNode (text : String) : document.text? (textNode text) = some text :=
  rfl

theorem bool?_flagNode (value : Bool) : document.bool? (flagNode value) = some value := by
  cases value <;> rfl

/-- A record is read as its fields when no two of them have one name. -/
theorem record?_recordNode {fields : List (String × Yaml.Node)}
    (different : (fields.map Prod.fst).Nodup) (names : List String) :
    document.record? names (recordNode fields) = some fields := by
  have entries : document.entries? (recordNode fields) = some fields := by
    have fieldsRead : (fields.map fun field => (keyNode field.1, field.2)).mapM
        (fun entry => (document.text? entry.1).map fun name => (name, entry.2)) = some fields := by
      rw [List.mapM_map]
      exact List.mapM_pure.trans (congrArg some (List.map_id fields))
    exact fieldsRead
  have once (name : String) : (fields.filter (·.1 = name)).length ≤ 1 := by
    have count := List.nodup_iff_count_le_one.1 different name
    rw [List.count_eq_countP, List.countP_map, List.countP_eq_length_filter] at count
    exact count
  rw [Document.record?, entries]
  simp [once]

theorem nameOf?_metadataNode : nameOf? document config.metadataNode = some config.name := by
  rw [nameOf?, metadataNode, record?_recordNode document (by simp)]
  rfl

theorem rollbackOf?_assignmentNode :
    rollbackOf? document config.assignmentNode = some config.rollbackOnFailure := by
  rw [rollbackOf?, assignmentNode, record?_recordNode document (by simp)]
  exact bool?_flagNode document config.rollbackOnFailure

theorem ofYaml?_scannerNode (options : ScanOptions) :
    ScanOptions.ofYaml? document (scannerNode options) = some options := by
  rw [ScanOptions.ofYaml?, scannerNode, record?_recordNode document (by simp)]
  simp [Document.field?, List.lookup_cons, bool?_flagNode]

theorem specOf?_specNode :
    specOf? document config.specNode =
      some ⟨config.profile, config.rollbackOnFailure, config.scan⟩ := by
  rw [specOf?, specNode, record?_recordNode document (by simp)]
  simp [Document.field?, List.lookup_cons, text?_textNode, rollbackOf?_assignmentNode, ofYaml?_scannerNode]

end Records

theorem ofDocument?_node : ofDocument? ⟨config.node, {}⟩ = some config := by
  rw [ofDocument?, node, record?_recordNode _ (by simp)]
  simp [Document.field?, List.lookup_cons, text?_textNode, nameOf?_metadataNode, specOf?_specNode]

/-- The text of a configuration is read as the configuration, if it is valid. -/
theorem ofText_toText : ofText config.toText = config.validate.map fun _ => config := by
  simp only [ofText, parse?_toText, Option.bind_some, ofDocument?_node]
  cases config.validate with
  | error fault => rfl
  | ok _ => rfl

end EngineConfig

/-! ## Files -/

namespace FileSystem

variable {system saved : FileSystem} {path : RawPath} {now : FileTimes} {config : EngineConfig}

theorem saveConfig_eq_ok_iff : system.saveConfig path now config = .ok saved ↔
    system.write path (Text.utf8Bytes config.toText.toList) now = .ok saved := by
  rw [saveConfig]
  cases system.write path (Text.utf8Bytes config.toText.toList) now with
  | error fault => simp
  | ok result => simp

theorem readText_of_saveConfig (written : system.saveConfig path now config = .ok saved) :
    saved.readText path = .ok config.toText := by
  rw [readText, read_write (saveConfig_eq_ok_iff.1 written)]
  simp only [Text.ofUtf8?_utf8Bytes]

/-- A valid configuration can be saved wherever a path leads to a file or to a place for one, and is
loaded from there as it was. -/
theorem loadConfig_of_saveConfig (valid : config.validate = .ok ()) (system : FileSystem)
    (path : RawPath) (now : FileTimes) :
    ((∃ saved, system.saveConfig path now config = .ok saved) ↔ system.LeadsToWrite path) ∧
      ∀ saved, system.saveConfig path now config = .ok saved → saved.loadConfig path = .ok config := by
  constructor
  · simp only [saveConfig_eq_ok_iff]
    exact exists_write_iff system path _ now
  · intro saved written
    have isThere := pathExists_of_read (read_write (saveConfig_eq_ok_iff.1 written))
    rw [loadConfig, isThere, readText_of_saveConfig written]
    simp only [EngineConfig.ofText_toText, valid]
    rfl

/-- A configuration with names that would be something else without quotes. -/
def deceptive : EngineConfig where
  apiVersion := EngineConfig.currentVersion
  kind := EngineConfig.ownKind
  name := " - yes: 'no' #1\n\t\u0000\"\\"
  profile := "0x1F"
  rollbackOnFailure := true
  scan := { followLinks := true, checksums := false }

/-- A file system in which a path leads to a file that is not there yet. -/
def danglingLink : FileSystem where
  top := .directory [([0x61], .link (RawPath.ofString "b"))] {}

theorem loadConfig_of_saveConfig_deceptive :
    deceptive.validate = .ok () ∧ danglingLink.LeadsToWrite (RawPath.ofString "a") ∧
      ∃ saved, danglingLink.saveConfig (RawPath.ofString "a") {} deceptive = .ok saved ∧
        saved.loadConfig (RawPath.ofString "a") = .ok deceptive := by
  have valid : deceptive.validate = .ok () := by decide
  have leads : danglingLink.LeadsToWrite (RawPath.ofString "a") := by
    have toLink : (RawPath.ofString "a").stepsToFile = [[0x61]] := by decide
    have toFile : (RawPath.ofString "b").stepsToFile = [[0x62]] := by decide
    refine ⟨by decide, [], [0x62], ?_⟩
    rw [toLink]
    refine .link rfl (by decide) rfl ?_
    rw [toFile]
    have isFree : danglingLink.top.entries.lookup [0x62] = none := rfl
    refine .here (by decide) ⟨_, _, rfl, fun entry found => ?_⟩ fun _ => by decide
    exact absurd (isFree.symm.trans found) (by simp)
  have saves := loadConfig_of_saveConfig valid danglingLink (RawPath.ofString "a") {}
  obtain ⟨saved, written⟩ := saves.1.2 leads
  exact ⟨valid, leads, saved, written, saves.2 saved written⟩

end FileSystem

end ContentTyping

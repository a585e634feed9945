import ContentTyping.Config.Document
import ContentTyping.Engine.Basic
import ContentTyping.FileSystem.Write

/-!
# Using configurations

Configurations are kept in files, and an engine is set up with the profile that one names.
-/

namespace ContentTyping

/-- The configuration in the file at the end of a path. -/
def FileSystem.loadConfig (system : FileSystem) (path : RawPath) :
    Except Error EngineConfig :=
  if !system.pathExists path then .error (.config (.fileNotFound path.display))
  else
    match system.readText path with
    | .error fault => .error (.system fault)
    | .ok text => EngineConfig.ofText text

/-- The file system after a configuration is saved to the file at the end of a path. -/
def FileSystem.saveConfig (system : FileSystem) (path : RawPath) (now : FileTimes)
    (config : EngineConfig) : Except Error FileSystem :=
  match system.write path (Text.utf8Bytes config.toText.toList) now with
  | .error fault => .error (.system fault)
  | .ok saved => .ok saved

/-- The engine that a configuration asks for, with a profile of the catalog. -/
def ProfileEngine.ofConfig (catalog : ProfileCatalog) (config : EngineConfig) :
    Except Error ProfileEngine :=
  match catalog.resolve config.profile with
  | .error fault => .error (.catalog fault)
  | .ok profile => .ok ⟨profile, config.rollbackOnFailure⟩

end ContentTyping

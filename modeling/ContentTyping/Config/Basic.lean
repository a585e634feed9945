import ContentTyping.Error
import ContentTyping.Profile.Pcdm
import ContentTyping.Scan.Options

/-!
# Configurations

What an engine and a scan are set up with, and which configurations are accepted.
-/

namespace ContentTyping

/-- A configuration. -/
structure EngineConfig where
  apiVersion : String
  kind : String
  name : String
  /-- The identifier or the label of a profile. -/
  profile : String
  rollbackOnFailure : Bool
  scan : ScanOptions
  deriving DecidableEq

namespace EngineConfig

/-- The version of the form of configurations. -/
def currentVersion : String := "ipm/v1"

/-- The kind that a configuration says it is. -/
def ownKind : String := "EngineConfig"

/-- The configuration with a name and the default choices. -/
def named (name : String) : EngineConfig where
  apiVersion := currentVersion
  kind := ownKind
  name := name
  profile := Pcdm.profile.identifier
  rollbackOnFailure := false
  scan := {}

/-- The configuration where none is given. -/
def standard : EngineConfig := named "default"

/-- The first thing that is wrong with a configuration. -/
def fault? (config : EngineConfig) : Option ConfigFault :=
  if config.apiVersion ≠ currentVersion then
    some (.wrongVersion currentVersion config.apiVersion)
  else if config.kind ≠ ownKind then some (.wrongKind ownKind config.kind)
  else if config.name.isEmpty then some .emptyName
  else if config.profile.isEmpty then some .emptyProfile
  else none

/-- Accepts a configuration of the current version and kind with a name and a profile. -/
def validate (config : EngineConfig) : Except Error Unit :=
  match config.fault? with
  | some fault => .error (.config fault)
  | none => .ok ()

end EngineConfig

end ContentTyping

import ContentTyping.Profile.Catalog
import ContentTyping.Profile.Error
import ContentTyping.Validation.Violation

/-!
# Errors

Everything that can go wrong in an operation, by cause, with the message for each cause.
-/

namespace ContentTyping

/-- Why no type could be found for a node. -/
inductive Obstacle where
  | parentUntyped
  /-- No type accepts the file kind and may stand at the top of a tree. -/
  | notARoot (kind : Option FileKind)
  /-- No type accepts the file kind and may stand below the type with this label. -/
  | notBelow (kind : Option FileKind) (parentLabel : String)
  /-- Every child could be typed, but together they break a constraint of this type. -/
  | childrenUnfit (label : String)
  deriving DecidableEq

/-- The word for the kind of file that a node stands for. -/
def kindWord : Option FileKind → String
  | some .directory => "directory"
  | some .regularFile => "regular file"
  | none => "virtual"

/-- The wording of an obstacle. -/
def Obstacle.message : Obstacle → String
  | .parentUntyped => "parent is untyped"
  | .notARoot kind => s!"no {kindWord kind} type may be a root"
  | .notBelow kind parentLabel =>
    s!"no {kindWord kind} type may be placed below {parentLabel}"
  | .childrenUnfit label => s!"children do not satisfy the child constraints of {label}"

/-- Why a node cannot be given a type, or why a report is not empty. -/
inductive Breach where
  | typeRefused (label : String) (association : FileAssociation)
  | subTypeRefused (label : String) (association : FileAssociation)
  | violated (violation : Violation)
  deriving DecidableEq

/-- The wording of a breach. -/
def Breach.message : Breach → String
  | .typeRefused label association => s!"{label} requires a {association.display} node"
  | .subTypeRefused label association =>
    s!"sub-type {label} requires a {association.display} node"
  | .violated violation => violation.display

/-- Why an edit of a tree is refused. -/
inductive EditFault where
  | identifierTaken (identifier : String)
  | rootMoved
  | movedBelowItself (id : NodeId)
  | noRoot
  deriving DecidableEq

/-- The wording of an edit fault. -/
def EditFault.message : EditFault → String
  | .identifierTaken identifier => s!"identifier already in tree: {identifier}"
  | .rootMoved => "the root cannot be moved"
  | .movedBelowItself id => s!"{id.display} cannot be moved below itself"
  | .noRoot => "tree has no root"

/-- Why an object store refuses a call. -/
inductive StoreFault where
  | unknownObject (object : String)
  | invalidIri (value : String)
  | queryFailed
  | notASelection
  deriving DecidableEq

/-- The wording of a store fault. -/
def StoreFault.message : StoreFault → String
  | .unknownObject object => s!"unknown object: {object}"
  | .invalidIri value => s!"invalid IRI '{value}'"
  | .queryFailed => "query failed"
  | .notASelection => "expected SELECT query results"

/-- An error of the file system, with the words and the number of the operating system. -/
inductive SystemFault where
  | noSuchEntry
  | notADirectory
  | isADirectory
  | tooManyLinks
  | notAStream
  | nameTooLong
  | zeroInName
  | invalidText
  deriving DecidableEq

/-- The wording of a file system error. -/
def SystemFault.message : SystemFault → String
  | .noSuchEntry => "No such file or directory (os error 2)"
  | .notADirectory => "Not a directory (os error 20)"
  | .isADirectory => "Is a directory (os error 21)"
  | .tooManyLinks => "Too many levels of symbolic links (os error 40)"
  | .notAStream => "No such device or address (os error 6)"
  | .nameTooLong => "File name too long (os error 36)"
  | .zeroInName => "file name contained an unexpected NUL byte"
  | .invalidText => "stream did not contain valid UTF-8"

/-- Why a scan cannot be completed. Paths are given as they are shown. -/
inductive ScanFault where
  | notFound (path : String)
  | nothingToScan (path : String)
  | orphaned (path : String)
  | notARegularFile (path : String)
  /-- A link leads back to a directory above it. -/
  | linkLoop (link ancestor : String)
  | inaccessible (path : String) (fault : SystemFault)
  deriving DecidableEq

/-- The wording of a scan fault. -/
def ScanFault.message : ScanFault → String
  | .notFound path => s!"path not found: {path}"
  | .nothingToScan path => s!"nothing to scan at {path}"
  | .orphaned path => s!"orphaned entry: {path}"
  | .notARegularFile path => s!"not a regular file: {path}"
  | .linkLoop link ancestor =>
    s!"File system loop found: {link} points to an ancestor {ancestor}"
  | .inaccessible path fault =>
    s!"IO error for operation on {path}: {fault.message}"

/-- Why a configuration is refused. -/
inductive ConfigFault where
  | fileNotFound (path : String)
  | wrongVersion (expected actual : String)
  | wrongKind (expected actual : String)
  | emptyName
  | emptyProfile
  deriving DecidableEq

/-- The wording of a configuration fault. -/
def ConfigFault.message : ConfigFault → String
  | .fileNotFound path => s!"config file not found: {path}"
  | .wrongVersion expected actual =>
    s!"Invalid apiVersion: expected '{expected}', got '{actual}'"
  | .wrongKind expected actual => s!"Invalid kind: expected '{expected}', got '{actual}'"
  | .emptyName => "metadata.name cannot be empty"
  | .emptyProfile => "spec.profile cannot be empty"

/-- An error of any operation. -/
inductive Error where
  /-- No type was found for the node with this identifier. -/
  | noEligibleType (node : String) (obstacle : Obstacle)
  | constraintViolation (node : String) (breach : Breach)
  | illegalTransform (node transform : String)
  /-- The tree is typed by another profile. -/
  | profileMismatch (bound own : String)
  | unknownNode (id : NodeId)
  | unknownNodeType (id : NodeTypeId) (profile : String)
  | invalidTreeEdit (fault : EditFault)
  | profile (fault : ProfileError)
  | catalog (fault : CatalogError)
  | store (fault : StoreFault)
  | scan (fault : ScanFault)
  | config (fault : ConfigFault)
  | system (fault : SystemFault)
  /-- A text is not a document of the form asked for. -/
  | malformedYaml
  | malformedJson
  /-- A handle or a slot number was used that lies beyond the end of its list. -/
  | outOfRange
  deriving DecidableEq

namespace Error

/-- The message of an error. -/
def message : Error → String
  | .noEligibleType node obstacle =>
    s!"No eligible type for node {node} ({obstacle.message})"
  | .constraintViolation node breach =>
    s!"Constraint violation at node {node}: {breach.message}"
  | .illegalTransform node transform => s!"Illegal transform '{transform}' for node {node}"
  | .profileMismatch bound own =>
    s!"Profile mismatch: tree typed by {bound}, engine uses {own}"
  | .unknownNode id => s!"Unknown node: {id.display}"
  | .unknownNodeType id owner => s!"Unknown node type: {id.display} in {owner}"
  | .invalidTreeEdit fault => s!"Invalid tree edit: {fault.message}"
  | .profile fault => s!"Profile error: {fault.message}"
  | .catalog fault => s!"Profile error: {fault.message}"
  | .store fault => s!"Object store error: {fault.message}"
  | .scan fault => s!"Scan error: {fault.message}"
  | .config fault => s!"Config error: {fault.message}"
  | .system fault => s!"IO error: {fault.message}"
  | .malformedYaml => "YAML error: malformed document"
  | .malformedJson => "JSON error: malformed document"
  | .outOfRange => "index out of range"

/-- The name of the kind of an error. -/
def kind : Error → String
  | .noEligibleType .. => "NoEligibleType"
  | .constraintViolation .. => "ConstraintViolation"
  | .illegalTransform .. => "IllegalTransform"
  | .profileMismatch .. => "ProfileMismatch"
  | .unknownNode .. => "UnknownNode"
  | .unknownNodeType .. => "UnknownNodeType"
  | .invalidTreeEdit .. => "InvalidTreeEdit"
  | .profile .. => "Profile"
  | .catalog .. => "Profile"
  | .store .. => "Store"
  | .scan .. => "Scan"
  | .config .. => "Config"
  | .system .. => "Io"
  | .malformedYaml => "Yaml"
  | .malformedJson => "Json"
  | .outOfRange => "OutOfRange"

/-- A caller may recover by choosing another type, transform or node. -/
def isRecoverable : Error → Bool
  | .noEligibleType .. => true
  | .constraintViolation .. => true
  | .illegalTransform .. => true
  | _ => false

end Error

end ContentTyping

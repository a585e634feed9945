import ContentTyping.FileSystem.RawPath
import ContentTyping.Profile.FileAssociation
import ContentTyping.Profile.Handle
import ContentTyping.Time.Instant

/-!
# Content nodes

A node stands between one entry of a file system, or a virtual grouping, and the domain object
that carries its data.
-/

namespace ContentTyping

/-- The slot of a node in its tree. -/
structure NodeId where
  index : Nat
  deriving DecidableEq, Hashable

/-- The written form of a node id, such as `node#3`. -/
def NodeId.display (id : NodeId) : String :=
  s!"node#{id.index}"

/-- What a scan has recorded of a file. -/
structure FileInfo where
  path : RawPath
  kind : FileKind
  /-- Length in bytes; zero for a directory. -/
  size : UInt64
  checksum : Option String := none
  modified : Option Instant := none
  created : Option Instant := none
  deriving DecidableEq

/-- A directory without further records. -/
def FileInfo.directory (path : RawPath) : FileInfo :=
  { path := path, kind := .directory, size := 0 }

/-- A regular file of some length without further records. -/
def FileInfo.regularFile (path : RawPath) (size : UInt64) : FileInfo :=
  { path := path, kind := .regularFile, size := size }

/-- One node of a content tree. -/
structure Node where
  /-- Unique within the tree. -/
  identifier : String
  name : String
  parent : Option NodeId := none
  children : List NodeId := []
  /-- The relation recorded for the edge to the parent. -/
  relation : Option RelationId := none
  /-- The object in the store that belongs to the node. -/
  object : Option String := none
  file : Option FileInfo := none
  nodeType : Option NodeTypeId := none
  subTypes : List NodeTypeId := []
  /-- An ignored node and all below it are left out of every check. -/
  ignored : Bool := false
  deriving DecidableEq

namespace Node

/-- The kind of the file that the node stands for; nothing for a virtual node. -/
def fileKind (node : Node) : Option FileKind :=
  node.file.map FileInfo.kind

/-- The node with nothing recorded about its typing. -/
def clearTyping (node : Node) : Node :=
  { node with nodeType := none, subTypes := [], relation := none, object := none }

end Node

end ContentTyping

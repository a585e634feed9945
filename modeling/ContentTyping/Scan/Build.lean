import ContentTyping.Scan.Checksum
import ContentTyping.Scan.Walk
import ContentTyping.Tree.Edit
import Std.Data.HashMap

/-!
# Trees of scanned files

A scan makes a tree of the directories and files that a walk comes to. Links that are not
followed and special files are left out.
-/

namespace ContentTyping

/-- The kind of an entry that becomes a node. -/
def FileTree.kind? : FileTree → Option FileKind
  | .directory _ _ => some .directory
  | .file _ _ => some .regularFile
  | _ => none

/-- What a scan records of a directory or a file. -/
def Visit.fileInfo (options : ScanOptions) (visit : Visit) (kind : FileKind) : FileInfo :=
  let times := visit.entry.times
  let contents := match visit.entry with
    | .file contents _ => contents
    | _ => []
  { path := visit.path
    kind := kind
    size := contents.length.toUInt64
    checksum :=
      if kind = .regularFile && options.checksums then some (Checksum.ofBytes contents)
      else none
    modified := times.modified
    created := times.created }

/-- A scan on its way: the tree so far, and the nodes of the directories by the components of
their paths. -/
structure Scanning where
  tree : Option ContentTree := none
  directories : Std.HashMap (List FileName) NodeId := ∅
  supply : Supply

namespace Scanning

/-- The same scan with one more node, which can take others below it if it is a directory. -/
def adding (scanning : Scanning) (visit : Visit) (kind : FileKind) (id : NodeId)
    (tree : ContentTree) : Scanning :=
  { scanning with
    tree := some tree
    directories :=
      if kind = .directory then scanning.directories.insert visit.path.components id
      else scanning.directories }

/-- The node of the directory that a visited entry is in. -/
def parentOf? (scanning : Scanning) (visit : Visit) : Option NodeId :=
  match visit.path.components with
  | [] => none
  | components => scanning.directories[components.dropLast]?

/-- Take in a visit. The first node is the root of the tree. -/
def take (options : ScanOptions) (scanning : Scanning) (visit : Visit) :
    Except Error Scanning × Supply :=
  match visit.entry.kind? with
  | none => (.ok scanning, scanning.supply)
  | some kind =>
    let (identifier, supply) := scanning.supply.draw
    let node : Node :=
      { identifier := identifier
        name := Text.ofUtf8Lossy visit.name
        file := some (visit.fileInfo options kind) }
    let drawn := { scanning with supply := supply }
    match scanning.tree with
    | none =>
      let (id, tree) := ContentTree.withRoot node
      (.ok (drawn.adding visit kind id tree), supply)
    | some tree =>
      match scanning.parentOf? visit with
      | none => (.error (.scan (.orphaned visit.path.display)), supply)
      | some parent =>
        match tree.addChild parent node with
        | .error error => (.error error, supply)
        | .ok (id, next) => (.ok (drawn.adding visit kind id next), supply)

/-- Take in visits one after the other. -/
def takeAll (options : ScanOptions) :
    List Visit → Scanning → Except Error Scanning × Supply
  | [], scanning => (.ok scanning, scanning.supply)
  | visit :: rest, scanning =>
    match scanning.take options visit with
    | (.error error, supply) => (.error error, supply)
    | (.ok next, _) => takeAll options rest next

end Scanning

/-- The tree of what lies at the end of a path, and the supply of names afterwards. -/
def FileSystem.scan (system : FileSystem) (options : ScanOptions) (path : RawPath)
    (supply : Supply) : Except Error ContentTree × Supply :=
  if !system.pathExists path then (.error (.scan (.notFound path.display)), supply)
  else
    let walk := system.walk options path
    match Scanning.takeAll options walk.visits { supply := supply } with
    | (.error error, supply) => (.error error, supply)
    | (.ok scanned, supply) =>
      match walk.fault?, scanned.tree with
      | some fault, _ => (.error (.scan fault), supply)
      | none, some tree => (.ok tree, supply)
      | none, none => (.error (.scan (.nothingToScan path.display)), supply)

end ContentTyping

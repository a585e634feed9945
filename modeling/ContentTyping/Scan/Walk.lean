import ContentTyping.FileSystem.Basic
import ContentTyping.Scan.Options

/-!
# Walks through a file system

A walk visits an entry and all that lies below it, depth first and in the order of the names.
It ends at the first thing that goes wrong.
-/

namespace ContentTyping

/-- An entry that a walk has come to, in the place of a link what it leads to if links are
followed. -/
structure Visit where
  path : RawPath
  name : FileName
  entry : FileTree

/-- The entries visited, and what ended the walk early. -/
structure Walk where
  visits : List Visit := []
  fault? : Option ScanFault := none

namespace Walk

/-- One walk after another, unless the first ended early. -/
def append (first : Walk) (second : Unit → Walk) : Walk :=
  match first.fault? with
  | some _ => first
  | none =>
    let next := second ()
    ⟨first.visits ++ next.visits, next.fault?⟩

/-- Walks one after the other. -/
def concat {α : Type} (walk : α → Walk) : List α → Walk
  | [] => {}
  | first :: rest => (walk first).append fun _ => concat walk rest

/-- The walk that comes to nothing but a fault. -/
def fail (fault : ScanFault) : Walk := { fault? := some fault }

end Walk

/-- A name that begins with a dot. What is no text has no such name. -/
def isHiddenName (name : FileName) : Bool :=
  (Text.ofUtf8? name).isSome && name.head? = some RawPath.dot

/-- The entries of a directory in the order of their names. -/
def sortedEntries (entry : FileTree) : List (FileName × FileTree) :=
  entry.entries.mergeSort fun first second => decide (first.1 ≤ second.1)

/-- A directory that a walk is in: its location, and the path that led to it. -/
structure Ancestor where
  location : Location
  path : RawPath

namespace FileSystem

variable (system : FileSystem)

/-- What a link leads to. It must not lead back to a directory that the walk is in. -/
def followLink (location : Location) (path : RawPath) (ancestors : List Ancestor) :
    Except ScanFault (Location × FileTree) :=
  match follow system.top true linkLimit [] location with
  | .error fault => .error (.inaccessible path.display fault)
  | .ok target =>
    match system.top.get? target with
    | none => .error (.inaccessible path.display .noSuchEntry)
    | some entry =>
      if entry.isDirectory then
        match ancestors.find? (·.location = target) with
        | some ancestor => .error (.linkLoop path.display ancestor.path.display)
        | none => .ok (target, entry)
      else .ok (target, entry)

/-- Visit an entry below the start of a walk and all that lies below it. `steps` bounds how
deep the walk may go. -/
def visitBelow (options : ScanOptions) : Nat → List Ancestor → RawPath → Location →
    FileName × FileTree → Walk
  | 0, _, _, _, _ => {}
  | steps + 1, ancestors, parentPath, parent, (name, entry) =>
    let path := parentPath.join name
    let location := parent ++ [name]
    let found :=
      if options.followLinks && entry.isLink then system.followLink location path ancestors
      else .ok (location, entry)
    match found with
    | .error fault => Walk.fail fault
    | .ok (location, entry) =>
      if !options.includeHidden && isHiddenName name then {}
      else
        (⟨[⟨path, name, entry⟩], none⟩ : Walk).append fun _ =>
          Walk.concat (visitBelow options steps (⟨location, path⟩ :: ancestors) path location)
            (sortedEntries entry)

/-- Deep enough for any walk: links followed from one directory to the next lead to different
ones, and between two of them a walk goes down the tree. -/
def depthBound : Nat := (system.top.size + 1) * (system.top.size + 1)

/-- The name that the start of a walk has: the last one of its path, or all of the path. -/
def nameOfStart (path : RawPath) : FileName :=
  path.fileName?.getD path.bytes

/-- Walk from the end of a path. A link at the start is visited as such if links are not
followed, but the directory that it leads to is gone through. -/
def walk (options : ScanOptions) (path : RawPath) : Walk :=
  match system.locate options.followLinks path, system.locate true path with
  | .ok start, .ok location =>
    match system.top.get? start, system.top.get? location with
    | some entry, some target =>
      (⟨[⟨path, nameOfStart path, entry⟩], none⟩ : Walk).append fun _ =>
        Walk.concat
          (system.visitBelow options system.depthBound [⟨location, path⟩] path location)
          (sortedEntries target)
    | _, _ => Walk.fail (.inaccessible path.display .noSuchEntry)
  | .error fault, _ => Walk.fail (.inaccessible path.display fault)
  | _, .error fault => Walk.fail (.inaccessible path.display fault)

end FileSystem

end ContentTyping

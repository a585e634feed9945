import ContentTyping.FileSystem.Basic

/-!
# Laying out files

A file system is made by putting entries in their places one after the other. Directories on
the way are made where they are missing.
-/

namespace ContentTyping

namespace FileTree

/-- An entry with a name in place of the one that has the name, or behind all others. -/
def insertEntry (name : FileName) (entry : FileTree) :
    List (FileName × FileTree) → List (FileName × FileTree)
  | [] => [(name, entry)]
  | (other, old) :: rest =>
    if other = name then (name, entry) :: rest else (other, old) :: insertEntry name entry rest

/-- The tree with an entry at a location below existing directories. -/
def put (entry : FileTree) : Location → FileTree → FileTree
  | [], _ => entry
  | name :: rest, directory entries times =>
    let old := (entries.lookup name).getD (directory [] times)
    directory (insertEntry name (put entry rest old) entries) times
  | _ :: _, other => other

end FileTree

namespace FileSystem

/-- The location of a directory below another one, through links, and the file system with the
directories on the way. -/
def makeDirectories (times : FileTimes) (system : FileSystem) :
    List FileName → Location → Location × FileSystem
  | [], location => (location, system)
  | name :: rest, location =>
    match follow system.top true linkLimit location [name] with
    | .ok next => makeDirectories times system rest next
    | .error _ =>
      let next := location ++ [name]
      let made := FileTree.put (.directory [] times) next system.top
      makeDirectories times { system with top := made } rest next

/-- Put an entry at a path. A directory that is there already stays as it is. -/
def place (times : FileTimes) (system : FileSystem) (path : RawPath) (entry : FileTree) :
    FileSystem :=
  let start := if path.isAbsolute then [] else system.workingDirectory
  if entry.isDirectory then (system.makeDirectories times path.steps start).2
  else
    match path.steps.getLast? with
    | none => system
    | some name =>
      let (location, made) := system.makeDirectories times path.steps.dropLast start
      { made with top := FileTree.put entry (location ++ [name]) made.top }

/-- The file system of some entries, laid out in a working directory of its own. -/
def ofEntries (times : FileTimes) (home : Location) (entries : List (RawPath × FileTree)) :
    FileSystem :=
  let bare : FileSystem := { top := .directory [] times }
  let start := (bare.makeDirectories times home []).2
  entries.foldl (fun system item => system.place times item.1 item.2)
    { start with workingDirectory := home }

end FileSystem

end ContentTyping

import ContentTyping.FileSystem.Layout

/-!
# Writing files

A file is written to the end of a path. The file may be missing there, but not the directory that it
is to stand in. What is written replaces all that the file held before.
-/

namespace ContentTyping

namespace FileTree

/-- The tree with a change to the entry at a location. -/
def change (edit : FileTree → FileTree) : Location → FileTree → FileTree
  | [], tree => edit tree
  | name :: rest, directory entries times =>
    match entries.lookup name with
    | some entry => directory (insertEntry name (entry.change edit rest) entries) times
    | none => directory entries times
  | _ :: _, other => other

/-- A directory with a file of these contents in it. A new file has these times. One that was there
before keeps the time when it was made. -/
def withFile (name : FileName) (contents : List UInt8) (now : FileTimes) : FileTree → FileTree
  | directory entries times =>
    match entries.lookup name with
    | some (file _ old) =>
      directory (insertEntry name (file contents { old with modified := now.modified }) entries) times
    | _ =>
      directory (insertEntry name (file contents now) entries)
        { times with modified := now.modified }
  | other => other

end FileTree

/-- What is wrong with a path, whatever there is in the file system. -/
def RawPath.fault? (path : RawPath) : Option SystemFault :=
  if path.bytes.isEmpty then some .noSuchEntry
  else if 0 ∈ path.bytes then some .zeroInName
  else if FileSystem.pathLimit ≤ path.bytes.length then some .nameTooLong
  else none

/-- The names of a path one after the other, with dots. The empty name stands for a slash at the
end. -/
def RawPath.stepsToFile (path : RawPath) : List FileName :=
  (splitSlashes path.bytes).filter (!·.isEmpty) ++
    if path.bytes.getLast? = some slash then [[]] else []

namespace FileSystem

/-- The directory and the name of the file to which names lead from a location. The file need not be
there. At most `links` links are followed. -/
def followToFile (top : FileTree) (links : Nat) (location : Location) (names : List FileName) :
    Except SystemFault (Location × FileName) :=
  match names with
  | [] => .error .isADirectory
  | name :: rest =>
    match top.get? location with
    | some (.directory entries _) =>
      if rest = [[]] then .error .isADirectory
      else if name = [] ∨ name = [RawPath.dot] then followToFile top links location rest
      else if name = RawPath.dots then followToFile top links location.dropLast rest
      else
        match entries.lookup name with
        | none =>
          if nameLimit < name.length then .error .nameTooLong
          else if rest.isEmpty then .ok (location, name)
          else .error .noSuchEntry
        | some (.file _ _) =>
          if rest.isEmpty then .ok (location, name) else .error .notADirectory
        | some (.directory _ _) => followToFile top links (location ++ [name]) rest
        | some (.link target) =>
          match links with
          | 0 => .error .tooManyLinks
          | links + 1 =>
            let start := if target.isAbsolute then [] else location
            followToFile top links start (target.stepsToFile ++ rest)
        | some .special => .error (if rest.isEmpty then .notAStream else .notADirectory)
    | _ => .error .notADirectory
  termination_by (links, names.length)

/-- The file system after bytes are written to the file at the end of a path. -/
def write (system : FileSystem) (path : RawPath) (contents : List UInt8) (now : FileTimes) :
    Except SystemFault FileSystem :=
  match path.fault? with
  | some fault => .error fault
  | none =>
    let start := if path.isAbsolute then [] else system.workingDirectory
    match followToFile system.top linkLimit start path.stepsToFile with
    | .error fault => .error fault
    | .ok (directory, name) =>
      .ok { system with top := system.top.change (FileTree.withFile name contents now) directory }

end FileSystem

end ContentTyping

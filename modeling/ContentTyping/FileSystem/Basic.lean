import ContentTyping.Error
import ContentTyping.FileSystem.RawPath
import ContentTyping.Time.Instant

/-!
# File systems

A file system is a tree of directories with files, symbolic links and special files in them. A
path is followed name by name from the top or from the working directory, through the links that
it meets.
-/

namespace ContentTyping

/-- A name in a directory. -/
abbrev FileName := List UInt8

/-- The names that lead from the top to an entry. -/
abbrev Location := List FileName

/-- When an entry was changed last, and when it was made. -/
structure FileTimes where
  modified : Option Instant := none
  created : Option Instant := none
  deriving DecidableEq

/-- An entry of a file system. -/
inductive FileTree where
  | file (contents : List UInt8) (times : FileTimes)
  | directory (entries : List (FileName × FileTree)) (times : FileTimes)
  | link (target : RawPath)
  /-- A socket, a device or the like. -/
  | special

namespace FileTree

/-- The entries of a directory. -/
def entries : FileTree → List (FileName × FileTree)
  | directory entries _ => entries
  | _ => []

/-- The times of a file or a directory. -/
def times : FileTree → FileTimes
  | file _ times => times
  | directory _ times => times
  | _ => {}

/-- The entry is a directory. -/
def isDirectory : FileTree → Bool
  | directory _ _ => true
  | _ => false

/-- The entry is a symbolic link. -/
def isLink : FileTree → Bool
  | link _ => true
  | _ => false

/-- The entry at a location, links not followed. -/
def get? (tree : FileTree) : Location → Option FileTree
  | [] => some tree
  | name :: rest => (tree.entries.lookup name).bind fun entry => entry.get? rest

mutual

/-- The number of entries of a tree, with the tree itself. -/
def size : FileTree → Nat
  | directory entries _ => entriesSize entries + 1
  | _ => 1

/-- The number of entries of some trees. -/
def entriesSize : List (FileName × FileTree) → Nat
  | [] => 0
  | (_, entry) :: rest => entry.size + entriesSize rest

end

end FileTree

/-- A file system and the directory that relative paths begin at. -/
structure FileSystem where
  top : FileTree
  workingDirectory : Location := []

namespace RawPath

/-- Two dots, the name of the directory above. -/
def dots : FileName := [dot, dot]

/-- The names of a path one after the other, with dots. A slash at the end asks for a
directory, as a dot would. -/
def steps (path : RawPath) : List FileName :=
  (splitSlashes path.bytes).filter (!·.isEmpty) ++
    if path.bytes.getLast? = some slash then [[dot]] else []

end RawPath

namespace FileSystem

/-- The number of links that a path may lead through. -/
def linkLimit : Nat := 40

/-- The longest name that a directory takes. -/
def nameLimit : Nat := 255

/-- The number of bytes that a path stays below. -/
def pathLimit : Nat := 4096

/-- Where names lead from a location. The last name is followed too when it is a link, if that
is asked for. At most `links` links are followed. -/
def follow (top : FileTree) (followLast : Bool) (links : Nat) (location : Location)
    (names : List FileName) : Except SystemFault Location :=
  match names with
  | [] => .ok location
  | name :: rest =>
    match top.get? location with
    | some (.directory entries _) =>
      if name = [RawPath.dot] then follow top followLast links location rest
      else if name = RawPath.dots then follow top followLast links location.dropLast rest
      else
        match entries.lookup name with
        | none => .error (if nameLimit < name.length then .nameTooLong else .noSuchEntry)
        | some (.link target) =>
          if rest.isEmpty && !followLast then .ok (location ++ [name])
          else
            match links with
            | 0 => .error .tooManyLinks
            | links + 1 =>
              let start := if target.isAbsolute then [] else location
              follow top followLast links start (target.steps ++ rest)
        | some _ => follow top followLast links (location ++ [name]) rest
    | _ => .error .notADirectory
  termination_by (links, names.length)

variable (system : FileSystem)

/-- Where a path leads. -/
def locate (followLast : Bool) (path : RawPath) : Except SystemFault Location :=
  if path.bytes.isEmpty then .error .noSuchEntry
  else if 0 ∈ path.bytes then .error .zeroInName
  else if pathLimit ≤ path.bytes.length then .error .nameTooLong
  else
    let start := if path.isAbsolute then [] else system.workingDirectory
    follow system.top followLast linkLimit start path.steps

/-- The entry at the end of a path. -/
def entry (followLast : Bool) (path : RawPath) : Except SystemFault FileTree :=
  match system.locate followLast path with
  | .error fault => .error fault
  | .ok location =>
    match system.top.get? location with
    | some entry => .ok entry
    | none => .error .noSuchEntry

/-- A path leads to an entry. -/
def pathExists (path : RawPath) : Bool :=
  match system.entry true path with
  | .ok _ => true
  | .error _ => false

/-- The bytes of a file. -/
def read (path : RawPath) : Except SystemFault (List UInt8) :=
  match system.entry true path with
  | .error fault => .error fault
  | .ok (.file contents _) => .ok contents
  | .ok (.directory _ _) => .error .isADirectory
  | .ok _ => .error .notAStream

/-- The text of a file. -/
def readText (path : RawPath) : Except SystemFault String :=
  match system.read path with
  | .error fault => .error fault
  | .ok bytes =>
    match Text.ofUtf8? bytes with
    | some text => .ok text
    | none => .error .invalidText

end FileSystem

end ContentTyping

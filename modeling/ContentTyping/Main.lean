import ContentTyping.CommandLine.Run
import ContentTyping.FileSystem.Layout

/-!
# The program

The program looks at the places of the machine that its arguments name, carries out the command
on what it has seen there, and prints what comes of it. All looking is done before the command
runs; the command itself works on a value.
-/

namespace ContentTyping.Machine

/-! ## Places -/

/-- The names that lead from the top to the end of an absolute path. -/
def locationOf (path : String) : Location :=
  (RawPath.ofString path).components

/-- A location as a directory and a name in it. -/
def placeAt (location : Location) : IO.FS.DirEntry :=
  let names := location.map Text.ofUtf8Lossy
  ⟨"/" ++ "/".intercalate names.dropLast, names.getLastD "."⟩

/-- A path to nothing: no entry has a zero in its name. -/
def deadEnd : RawPath := ⟨[RawPath.slash, 0]⟩

/-- What a link leads to in the end, by a path without links. A link that leads from link to
link for ever stands for a link to itself. -/
def endOfLink (place : IO.FS.DirEntry) : IO RawPath := do
  match ← place.path.metadata.toBaseIO with
  | .ok _ => pure (RawPath.ofString (← IO.FS.realPath place.path).toString)
  | .error (.noFileOrDirectory _ _ _) => pure deadEnd
  | .error _ => pure (RawPath.ofString place.path.toString)

/-- The entry at a place without what is below it. -/
def lookAt (place : IO.FS.DirEntry) : IO FileTree := do
  let metadata ← place.path.symlinkMetadata
  let times : FileTimes :=
    { modified := some ⟨metadata.modified.sec, metadata.modified.nsec.toNat⟩ }
  match metadata.type with
  | .dir => pure (.directory [] times)
  | .file => pure (.file (← IO.FS.readBinFile place.path).toList times)
  | .symlink => pure (.link (← endOfLink place))
  | .other => pure .special

/-- The entry at a place with all that is below it, and where the links in it lead. No path is
deeper than the given number of names. -/
def observe : Nat → IO.FS.DirEntry → StateT (List Location) IO FileTree
  | 0, _ => pure .special
  | depth + 1, place => do
    match ← lookAt place with
    | .directory _ times =>
      let mut entries : Array (FileName × FileTree) := #[]
      for child in ← place.path.readDir do
        entries := entries.push
          ((RawPath.ofString child.fileName).bytes, ← observe depth child)
      pure (.directory entries.toList times)
    | .link target =>
      unless target = deadEnd do modify fun targets => target.components :: targets
      pure (.link target)
    | other => pure other

/-! ## What is known of the machine -/

/-- The same entries, with a directory at a location where nothing is known yet. -/
def withDirectory (known : FileTree) (location : Location) : FileTree :=
  match known.get? location with
  | some _ => known
  | none => FileTree.put (.directory [] {}) location known

/-- The same entries, with one more at a location; a directory that is known stays. -/
def withEntry (known : FileTree) (location : Location) (entry : FileTree) : FileTree :=
  if entry.isDirectory then withDirectory known location
  else FileTree.put entry location known

/-- Follow names from a location, and learn what stands on the way and where they lead. -/
def follow (known : FileTree) (location : Location) :
    List FileName → IO (FileTree × Option Location)
  | [] => pure (known, some location)
  | name :: rest => do
    if name = [RawPath.dot] then follow known location rest
    else if name = RawPath.dots then follow known location.dropLast rest
    else
      let child := location ++ [name]
      match ← (lookAt (placeAt child)).toBaseIO with
      | .error _ => pure (known, none)
      | .ok (.link target) =>
        let known := withEntry known child (.link target)
        let goal := target.components
        match ← (lookAt (placeAt goal)).toBaseIO with
        | .ok (.link _) => pure (known, none)
        | .ok entry => follow (withEntry known goal entry) goal rest
        | .error _ => pure (known, none)
      | .ok entry => follow (withEntry known child entry) child rest

/-- Learn what stands at some locations and, if links are to be followed, where they lead. -/
partial def learn (followLinks : Bool) (known : FileTree) (seen : List Location) :
    List Location → IO FileTree
  | [] => pure known
  | location :: rest => do
    if seen.any (·.isPrefixOf location) then learn followLinks known seen rest
    else
      let (entry, targets) ← (observe FileSystem.pathLimit (placeAt location)).run []
      learn followLinks (FileTree.put entry location known) (location :: seen)
        (if followLinks then targets ++ rest else rest)

/-- The file system with the entries that a path goes through, and where the path ends. -/
def learnWay (system : FileSystem) (path : RawPath) :
    IO (FileSystem × Option Location) := do
  let start := if path.isAbsolute then [] else system.workingDirectory
  let (known, goal) ← follow system.top start path.steps
  pure ({ system with top := known }, goal)

/-- The file system of which only the way to the working directory is known. -/
def start : IO FileSystem := do
  let home := locationOf (← IO.currentDir).toString
  pure { top := withDirectory (.directory [] {}) home, workingDirectory := home }

/-! ## Names and commands -/

/-- Random names that do not repeat. -/
def randomSupply : IO Supply := do
  let number (bytes : ByteArray) : Nat :=
    bytes.toList.foldl (fun value byte => value * 256 + byte.toNat) 0
  let first := number (← IO.getRandomBytes 16)
  let step := 2 * number (← IO.getRandomBytes 15) + 1
  pure ⟨fun n => RandomName.ofNat (first + n * step), 0⟩

/-- The path that a command works on. -/
def pathOf? : CommandLine.Command → Option RawPath
  | .profiles => none
  | .assign path _ => some path
  | .validate path => some path
  | .transforms path _ _ => some path

/-- The file system as far as a command line needs it. -/
def lookAround (words : List String) : IO FileSystem := do
  let mut system ← start
  if let some (.run invocation) := CommandLine.parse words then
    if let some path := invocation.config then
      system := (← learnWay system path).1
    if let .ok config := CommandLine.configure system invocation then
      if let some path := pathOf? invocation.command then
        let (known, goal) ← learnWay system path
        let followLinks := config.scan.followLinks
        system := { known with top := ← learn followLinks known.top [] goal.toList }
  pure system

end ContentTyping.Machine

/-- Carry out a command line. -/
def main (words : List String) : IO UInt32 := do
  let system ← ContentTyping.Machine.lookAround words
  let supply ← ContentTyping.Machine.randomSupply
  let outcome := ContentTyping.CommandLine.run system supply words
  (← IO.getStdout).putStr outcome.stdout
  (← IO.getStderr).putStr outcome.stderr
  pure outcome.code.toUInt32

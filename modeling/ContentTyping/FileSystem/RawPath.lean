import ContentTyping.Text.Utf8

/-!
# Paths

A path is a sequence of bytes, most often but not always the bytes of a text. Slashes divide it
into components; repeated and trailing slashes and single dots after the first place do not
count.
-/

namespace ContentTyping

/-- A path as the file system gives it. -/
structure RawPath where
  bytes : List UInt8
  deriving DecidableEq, Hashable

namespace RawPath

/-- The byte of the slash. -/
def slash : UInt8 := 0x2F

/-- The byte of the dot. -/
def dot : UInt8 := 0x2E

/-- The path with this text. -/
def ofString (text : String) : RawPath :=
  ⟨Text.utf8Bytes text.toList⟩

/-- The text of a path, when it has one. -/
def toString? (path : RawPath) : Option String :=
  Text.ofUtf8? path.bytes

/-- The text of a path for messages: what is not text shows as replacement characters. -/
def display (path : RawPath) : String :=
  Text.ofUtf8Lossy path.bytes

/-- Pieces of a byte sequence between slashes. -/
def splitSlashes : List UInt8 → List (List UInt8)
  | [] => [[]]
  | byte :: rest =>
    if byte = slash then [] :: splitSlashes rest
    else
      match splitSlashes rest with
      | [] => [[byte]]
      | piece :: others => (byte :: piece) :: others

/-- A path that begins at the top of the file system. -/
def isAbsolute (path : RawPath) : Bool :=
  path.bytes.head? = some slash

/-- The names that a path goes through. A single dot counts only as the first component of a
relative path. -/
def components (path : RawPath) : List (List UInt8) :=
  let pieces := (splitSlashes path.bytes).filter (!·.isEmpty)
  if path.isAbsolute then pieces.filter (· ≠ [dot])
  else
    match pieces with
    | [] => []
    | first :: rest => first :: rest.filter (· ≠ [dot])

/-- The last component, unless it is a dot or two or there is none. -/
def fileName? (path : RawPath) : Option (List UInt8) :=
  match path.components.getLast? with
  | none => none
  | some last => if last = [dot] ∨ last = [dot, dot] then none else some last

/-- A name below a path, with one slash between them. -/
def join (path : RawPath) (name : List UInt8) : RawPath :=
  if path.bytes.isEmpty ∨ path.bytes.getLast? = some slash then ⟨path.bytes ++ name⟩
  else ⟨path.bytes ++ slash :: name⟩

end RawPath

end ContentTyping

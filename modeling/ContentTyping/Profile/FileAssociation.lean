/-!
# File kinds and file associations

A node either stands for a directory or a regular file, or it is virtual and stands for no
file at all. A node type says which of these it belongs on.
-/

namespace ContentTyping

/-- What a file of the scanned layout is. -/
inductive FileKind where
  | directory
  | regularFile
  deriving DecidableEq, Hashable

/-- Which file kinds a node type belongs on. -/
inductive FileAssociation where
  | directory
  | regularFile
  | either
  deriving DecidableEq, Hashable

namespace FileAssociation

/-- A virtual node, which has no file kind, is accepted by every association. -/
def accepts : FileAssociation → Option FileKind → Bool
  | _, none => true
  | .either, some _ => true
  | .directory, some .directory => true
  | .regularFile, some .regularFile => true
  | .directory, some .regularFile => false
  | .regularFile, some .directory => false

/-- Could a node of one association become a node of the other? -/
def compatibleWith (first second : FileAssociation) : Bool :=
  first = second || first = .either || second = .either

/-- The words for an association in messages and listings. -/
def display : FileAssociation → String
  | .directory => "directory"
  | .regularFile => "regular file"
  | .either => "either"

end FileAssociation

end ContentTyping

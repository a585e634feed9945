import ContentTyping.Yaml.Token

/-!
# Nodes of a document

A document is a tree of scalars, sequences and mappings, in which an alias stands for a node
that was marked with an anchor.
-/

namespace ContentTyping.Yaml

/-- A node. -/
inductive Node where
  | scalar (tag : Option String) (style : ScalarStyle) (text : String)
  | sequence (items : List Node)
  | mapping (entries : List (Node × Node))
  /-- The node that was marked with the anchor of this number. -/
  | alias (number : Nat)

/-- The node where none is written. -/
def Node.empty : Node := .scalar none .plain ""

/-- The anchors of a document. Each name has a number, the count of names known before it, and
a name that is used again takes a new one. -/
structure Anchors where
  numbers : List (String × Nat) := []
  /-- The places of marked nodes by number, the latest first. -/
  places : List (Nat × Nat) := []
  /-- The marked nodes by place. -/
  nodes : List (Nat × Node) := []

namespace Anchors

/-- The number of a name. -/
def number? (anchors : Anchors) (name : String) : Option Nat :=
  anchors.numbers.lookup name

/-- Mark the node that begins here. Gives its place. -/
def mark (anchors : Anchors) (name : String) : Nat × Anchors :=
  let number := anchors.numbers.length
  let place := anchors.places.length
  (place,
    { anchors with
      numbers := (name, number) :: anchors.numbers.filter (·.1 ≠ name)
      places := (number, place) :: anchors.places })

/-- Note the node that began at a place. -/
def complete (anchors : Anchors) (place : Nat) (node : Node) : Anchors :=
  { anchors with nodes := (place, node) :: anchors.nodes }

/-- The node with a number. -/
def node? (anchors : Anchors) (number : Nat) : Option Node :=
  (anchors.places.lookup number).bind fun place => anchors.nodes.lookup place

end Anchors

/-- A document: its node and its anchors. -/
structure Document where
  root : Node
  anchors : Anchors

/-- A node that is not an alias: the node itself, or the one that it stands for. -/
def Document.resolve (document : Document) : Node → Option Node
  | .alias number => document.anchors.node? number
  | node => some node

end ContentTyping.Yaml

import ContentTyping.Text.Blank
import ContentTyping.Tree.Walk

/-!
# Paths of names

Below the root a node is found by the names on the way to it, joined with slashes.
-/

namespace ContentTyping.ContentTree

variable (tree : ContentTree)

/-- The first child with a name. -/
def childNamed? (id : NodeId) (name : String) : Option NodeId :=
  (tree.children id).find? fun child => (tree.get? child).any (·.name = name)

/-- The names of a path; empty ones and single dots do not count. -/
def pathNames (path : String) : List String :=
  ((Text.pieces '/' path.toList).map String.ofList).filter fun name => name ≠ "" ∧ name ≠ "."

/-- The node at the end of a path from the root. -/
def findByPath? (path : String) : Option NodeId :=
  match tree.root with
  | none => none
  | some root => (pathNames path).foldlM tree.childNamed? root

/-- The names from below the root down to a node. -/
def namesTo (id : NodeId) : List String :=
  let above :=
    ((tree.ancestors id).reverse.drop 1).filterMap fun ancestor =>
      (tree.get? ancestor).map Node.name
  match tree.get? id with
  | none => above
  | some node => if node.parent.isSome then above ++ [node.name] else above

/-- The path of names from below the root down to a node; the root has the empty path. -/
def pathOf (id : NodeId) : String :=
  String.intercalate "/" (tree.namesTo id)

end ContentTyping.ContentTree

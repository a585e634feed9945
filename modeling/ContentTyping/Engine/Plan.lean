import ContentTyping.Profile.Basic
import ContentTyping.Tree.Walk
import Std.Data.HashMap

/-!
# Plans

A plan gives every active node of a subtree a type, from the top down. Candidates are tried in
declaration order; the first one is taken below which every child can in turn be given its own
first suitable candidate. Siblings are decided independently of each other.

Whether a node can take a type with all below it is decided once for each pair and noted in a
table, which is filled from the leaves upwards.
-/

namespace ContentTyping

/-- The type of a node and the relation of its edge to the parent. -/
structure Placement where
  node : NodeId
  nodeType : NodeTypeId
  relation : Option RelationId
  deriving DecidableEq

/-- A type for a node with the relation that goes with it. -/
structure Candidate where
  nodeType : NodeTypeId
  relation : Option RelationId
  deriving DecidableEq

/-- The decision of a node for a candidate. -/
def Candidate.at (candidate : Candidate) (node : NodeId) : Placement :=
  ⟨node, candidate.nodeType, candidate.relation⟩

/-- The edge that a candidate of a child makes. -/
def Candidate.edge (candidate : Candidate) : Edge :=
  ⟨some candidate.nodeType, candidate.relation⟩

/-- What the planner finds. -/
inductive Plan where
  | complete (placements : List Placement)
  /-- No plan covers everything: the placements that can be kept, the nodes that stay without
  a type, and where and why the search ended. -/
  | blocked (placements : List Placement) (untyped : List NodeId) (node : NodeId)
      (obstacle : Obstacle)
  deriving DecidableEq

/-- For a node and a type: can the node take the type with all below it typed? -/
abbrev Viability := Std.HashMap (NodeId × NodeTypeId) Bool

namespace DomainProfile

variable (profile : DomainProfile) (tree : ContentTree)

/-- The types that accept the node's file kind and may stand below the parent type, each with
the relation of its placement. -/
def candidates (parentType : Option NodeTypeId) (id : NodeId) : List Candidate :=
  match tree.get? id with
  | none => []
  | some node =>
    (profile.typesForKind node.fileKind).filterMap fun type =>
      (profile.placement? type parentType).map fun placement => ⟨type, placement.relation⟩

/-- The first candidate that the table allows. -/
def choose? (table : Viability) (parentType : Option NodeTypeId) (id : NodeId) :
    Option Candidate :=
  (profile.candidates tree parentType id).find? fun candidate =>
    table.getD (id, candidate.nodeType) false

/-- Can the node take the type, by the table's entries for its children? -/
def suits (table : Viability) (id : NodeId) (type : NodeTypeId) : Bool :=
  match (tree.activeChildren id).mapM (profile.choose? tree table (some type)) with
  | none => false
  | some chosen => (profile.brokenChildConstraints type (chosen.map Candidate.edge)).isEmpty

/-- Enter what a node can take. Its children are in the table already. -/
def noteNode (table : Viability) (id : NodeId) : Viability :=
  (profile.typesForKind ((tree.get? id).bind Node.fileKind)).foldl
    (fun noted type => noted.insert (id, type) (profile.suits tree noted id type))
    table

/-- The table for a subtree. -/
def viability (start : NodeId) : Viability :=
  (tree.activeSubtree start).reverse.foldl (profile.noteNode tree) ∅

/-- The placements of a node and of the choices below it, to a number of steps. -/
def collect (table : Viability) : Nat → Candidate → NodeId → List Placement
  | 0, _, _ => []
  | steps + 1, candidate, id =>
    candidate.at id ::
      (tree.activeChildren id).flatMap fun child =>
        match profile.choose? tree table (some candidate.nodeType) child with
        | none => []
        | some chosen => collect table steps chosen child

/-- Type what can be typed: a subtree that can be completed as a whole, else a node by its first
candidate and on below it. What has no candidate stays untyped with all below it. -/
def bestEffort (table : Viability) :
    Nat → Option NodeTypeId → NodeId → List Placement × List NodeId
  | 0, _, _ => ([], [])
  | steps + 1, parentType, id =>
    match profile.choose? tree table parentType id with
    | some chosen => (profile.collect tree table (steps + 1) chosen id, [])
    | none =>
      match profile.candidates tree parentType id with
      | [] => ([], tree.activeSubtree id)
      | first :: _ =>
        let below :=
          (tree.activeChildren id).map (bestEffort table steps (some first.nodeType))
        (first.at id :: below.flatMap Prod.fst, below.flatMap Prod.snd)

/-- Follow the first candidates down to the node at which the search ends. -/
def diagnose (table : Viability) :
    Nat → Option NodeTypeId → NodeId → NodeId × Obstacle
  | 0, _, id => (id, .parentUntyped)
  | steps + 1, parentType, id =>
    match profile.candidates tree parentType id with
    | [] =>
      let kind := (tree.get? id).bind Node.fileKind
      (id,
        match parentType with
        | none => .notARoot kind
        | some parent => .notBelow kind (profile.typeLabel parent))
    | first :: _ =>
      let stuck :=
        (tree.activeChildren id).find? fun child =>
          (profile.choose? tree table (some first.nodeType) child).isNone
      match stuck with
      | some child => diagnose table steps (some first.nodeType) child
      | none => (id, .childrenUnfit (profile.typeLabel first.nodeType))

/-- Plan the types of a node and its active subtree below a parent of the given type. -/
def plan (start : NodeId) (parentType : Option NodeTypeId) : Plan :=
  let table := profile.viability tree start
  let steps := tree.nodes.size + 1
  match profile.choose? tree table parentType start with
  | some chosen => .complete (profile.collect tree table steps chosen start)
  | none =>
    let effort := profile.bestEffort tree table steps parentType start
    let ending := profile.diagnose tree table steps parentType start
    .blocked effort.1 effort.2 ending.1 ending.2

end DomainProfile

end ContentTyping

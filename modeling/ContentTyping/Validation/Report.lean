import ContentTyping.Tree.Path
import ContentTyping.Validation.Edges

/-!
# Reports

A node is in order when it is typed, each of its types is known and fits its file kind, one of
its parent constraints holds, and none of its child constraints is broken. A report lists what
is not in order.
-/

namespace ContentTyping

/-- How many nodes were looked at, and what is wrong with them. -/
structure ValidationReport where
  checked : Nat
  violations : List Violation
  deriving DecidableEq

namespace ValidationReport

/-- Nothing is wrong. -/
def isValid (report : ValidationReport) : Bool :=
  report.violations.isEmpty

/-- Members of a list at their first places only. -/
def eachOnce : List NodeId → List NodeId
  | [] => []
  | first :: rest => first :: (eachOnce rest).filter (· ≠ first)

/-- The nodes with something wrong, in the order of the report. -/
def offendingNodes (report : ValidationReport) : List NodeId :=
  eachOnce (report.violations.map Violation.node)

/-- The first violation as an error. -/
def toResult (report : ValidationReport) (tree : ContentTree) : Except Error Unit :=
  match report.violations with
  | [] => .ok ()
  | first :: _ =>
    let name :=
      match tree.get? first.node with
      | some node => node.identifier
      | none => first.node.display
    .error (.constraintViolation name (.violated first))

end ValidationReport

namespace DomainProfile

variable (profile : DomainProfile)

/-- What is wrong with one of the types that a node carries. -/
def typeDefect? (kind : Option FileKind) (id : NodeTypeId) : Option Defect :=
  match profile.nodeType? id with
  | none => some (.unknownType id)
  | some type =>
    if type.fileAssociation.accepts kind then none
    else some (.fileAssociationMismatch type.label type.fileAssociation kind)

/-- What is wrong with a node of a known primary type. -/
def typedDefects (tree : ContentTree) (id : NodeId) (node : Node) (primary : NodeTypeId)
    (type : NodeType) : List Defect :=
  (primary :: node.subTypes).filterMap (profile.typeDefect? node.fileKind) ++
    (if profile.satisfiesParentConstraint tree id then []
      else [.noParentConstraintSatisfied type.label]) ++
    (profile.brokenChildConstraints primary (tree.childEdges id)).map fun broken =>
      .childConstraint type.label broken.1 broken.2

/-- What is wrong with a node; nothing with one that is ignored. -/
def defects (tree : ContentTree) (id : NodeId) : List Defect :=
  match tree.get? id with
  | none => []
  | some node =>
    if node.ignored then []
    else
      match node.nodeType with
      | none => [.untyped]
      | some primary =>
        match profile.nodeType? primary with
        | none => [.unknownType primary]
        | some type => profile.typedDefects tree id node primary type

/-- The violations at a node. -/
def checkNode (tree : ContentTree) (id : NodeId) : List Violation :=
  (profile.defects tree id).map fun defect => ⟨id, tree.pathOf id, defect⟩

/-- The report on a list of nodes. -/
def reportOn (tree : ContentTree) (ids : List NodeId) : ValidationReport :=
  ⟨ids.length, ids.flatMap (profile.checkNode tree)⟩

/-- The report on a node and its active subtree. -/
def validationReport (tree : ContentTree) (start : NodeId) : ValidationReport :=
  profile.reportOn tree (tree.activeSubtree start)

/-- The report on a node, its parent and its children: all that an edit at the node can
affect. -/
def revalidateAround (tree : ContentTree) (id : NodeId) : ValidationReport :=
  let around := (tree.parent? id).toList ++ id :: tree.children id
  profile.reportOn tree (around.filter (!tree.isExcluded ·))

end DomainProfile

end ContentTyping

import ContentTyping.Tree.Json
import ContentTyping.Validation.Report

/-!
# Reports as JSON

The written form of violations and reports.
-/

namespace ContentTyping

/-- The members that tell what is wrong. -/
def Defect.members : Defect → List (String × Json)
  | .untyped => [("kind", .string "untyped")]
  | .unknownType id => [("kind", .string "unknown_type"), ("node_type", id.toJson)]
  | .fileAssociationMismatch label expected actual =>
    [("kind", .string "file_association_mismatch"), ("node_type", .string label),
      ("expected", expected.toJson), ("actual", Json.ofOption FileKind.toJson actual)]
  | .noParentConstraintSatisfied label =>
    [("kind", .string "no_parent_constraint_satisfied"), ("node_type", .string label)]
  | .childConstraint label constraint actual =>
    [("kind", .string "child_constraint"), ("node_type", .string label),
      ("constraint", constraint.toJson), ("actual", Json.ofNat actual)]

/-- A violation as an object. -/
def Violation.toJson (violation : Violation) : Json :=
  Json.ofMembers
    ([("node", violation.node.toJson), ("path", .string violation.path)] ++
      violation.defect.members)

/-- A report as an object. -/
def ValidationReport.toJson (report : ValidationReport) : Json :=
  Json.ofMembers
    [("checked", Json.ofNat report.checked),
      ("violations", .array (report.violations.map Violation.toJson))]

instance : JsonEncode Violation := ⟨Violation.toJson⟩
instance : JsonEncode ValidationReport := ⟨ValidationReport.toJson⟩

end ContentTyping

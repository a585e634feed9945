import ContentTyping.Engine.Assignment
import ContentTyping.Engine.Typing
import ContentTyping.Validation.Json

/-!
# Results of engines as JSON

The written form of assignments and of property violations.
-/

namespace ContentTyping

/-- A placement as an object. -/
def Placement.toJson (placement : Placement) : Json :=
  Json.ofMembers
    [("node", placement.node.toJson), ("node_type", placement.nodeType.toJson),
      ("relation", Json.ofOption RelationId.toJson placement.relation)]

/-- A report of an assignment as an object. -/
def AssignmentReport.toJson (report : AssignmentReport) : Json :=
  Json.ofMembers
    [("placements", .array (report.placements.map Placement.toJson)),
      ("objects", Json.ofNat report.objects)]

/-- A property violation as an object. -/
def ProfileEngine.PropertyViolation.toJson (violation : PropertyViolation) : Json :=
  Json.ofMembers
    [("node", violation.node.toJson), ("property_type", violation.property.toJson),
      ("property", .string violation.identifier),
      ("cardinality", violation.cardinality.toJson), ("actual", Json.ofNat violation.actual)]

instance : JsonEncode AssignmentReport := ⟨AssignmentReport.toJson⟩

instance : JsonEncode ProfileEngine.PropertyViolation :=
  ⟨ProfileEngine.PropertyViolation.toJson⟩

end ContentTyping

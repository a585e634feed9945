import ContentTyping.Proofs.Engine.KnownObjects

/-!
# Validation after assignment

The planner judges edges that are not there yet, the report judges the recorded ones. What one of
them accepts the other does not reject: after a successful assignment the report on the same
subtree is empty.
-/

namespace ContentTyping.ProfileEngine

open ContentTree

variable {engine : ProfileEngine} {S : Type} [ObjectStore S]

theorem validationReport_eq_ok_iff {tree : ContentTree} {start : NodeId}
    {report : ValidationReport} :
    engine.validationReport tree start = .ok report ↔ engine.checkBinding tree = .ok () ∧
      tree.contains start = true ∧ engine.profile.validationReport tree start = report :=
  reading_eq_ok_iff

theorem validationReport_of_bound {tree : ContentTree} {start : NodeId}
    (bound : tree.profile = some engine.profile.identifier) (live : tree.contains start = true) :
    engine.validationReport tree start = .ok (engine.profile.validationReport tree start) := by
  have free : engine.checkBinding tree = .ok () := by
    refine checkBinding_eq_ok fun other isBound => ?_
    exact Option.some.inj (isBound.symm.trans bound)
  exact validationReport_eq_ok_iff.2 ⟨free, live, rfl⟩

/-- A tree is valid when the engine does not refuse it and finds nothing wrong. -/
theorem isValid_iff {tree : ContentTree} {start : NodeId} :
    engine.isValid tree start = true ↔ engine.checkBinding tree = .ok () ∧
      tree.contains start = true ∧
      (engine.profile.validationReport tree start).violations = [] := by
  rw [isValid]
  cases outcome : engine.validationReport tree start with
  | error error =>
      constructor
      · intro valid
        exact absurd valid (by simp)
      · rintro ⟨free, live, _⟩
        rw [validationReport_eq_ok_iff.2 ⟨free, live, rfl⟩] at outcome
        exact absurd outcome (by simp)
  | ok report =>
      obtain ⟨free, live, rfl⟩ := validationReport_eq_ok_iff.1 outcome
      simp [free, live, ValidationReport.isValid]

/-- After a successful assignment the report on the subtree is empty, and the placements list the
nodes of the subtree that are not excluded, each once and in pre-order, with the type and the
relation that are recorded now. -/
theorem validationReport_empty_of_assignNodeTypes_ok {workspace last : Workspace S}
    (wellFormed : workspace.tree.WellFormed) {start : NodeId}
    (included : workspace.tree.isExcluded start = false)
    (subTypesFit : engine.profile.SubTypesFit workspace.tree (workspace.tree.activeSubtree start))
    {report : AssignmentReport}
    (done : engine.assignNodeTypes start workspace = (.ok report, last)) :
    (∃ validation, engine.validationReport last.tree start = .ok validation ∧
      validation.violations = []) ∧
    report.placements.map Placement.node = workspace.tree.activeSubtree start ∧
    (report.placements.map Placement.node).Nodup ∧
    (∀ id, id ∈ report.placements.map Placement.node ↔
      Below workspace.tree start id ∧ workspace.tree.isExcluded id = false) ∧
    ∀ placement ∈ report.placements, ∃ node, last.tree.get? placement.node = some node ∧
      node.nodeType = some placement.nodeType ∧ node.relation = placement.relation := by
  have outcome : (engine.assignNodeTypes start workspace).1 = .ok report := by rw [done]
  have lastIs : (engine.assignNodeTypes start workspace).2 = last := by rw [done]
  obtain ⟨parentType, choice, assigned⟩ := exists_assigned_of_ok wellFormed included outcome
  rw [lastIs] at assigned
  have recorded := assigned.recorded
  obtain ⟨node, _, _, found, _⟩ := assignNodeTypes_ok included outcome
  have live : workspace.tree.contains start = true := contains_iff.2 ⟨node, found⟩
  have nodes : report.placements.map Placement.node = workspace.tree.activeSubtree start := by
    rw [assigned.placements, DomainProfile.placementsOf_nodes]
  refine ⟨⟨_, validationReport_of_bound assigned.bound ?_, ?_⟩, nodes, ?_, ?_, ?_⟩
  · rw [recorded.links.contains]
    exact live
  · exact assigned.isFirst.validationReport_violations_eq_nil wellFormed recorded
      assigned.parentTyped subTypesFit
  · rw [nodes]
    exact wellFormed.activeSubtree_nodup start
  · intro id
    rw [nodes]
    exact wellFormed.mem_activeSubtree_iff_not_isExcluded live included
  · intro placement member
    rw [assigned.placements, DomainProfile.placementsOf] at member
    obtain ⟨id, listed, rfl⟩ := List.mem_map.1 member
    obtain ⟨_, typed, _, typedFound, same⟩ := recorded.exists_get? listed
    exact ⟨typed, typedFound, (congrArg Node.nodeType same :), (congrArg Node.relation same :)⟩

theorem validationReport_empty_smallWorkspace :
    ∃ report last, pcdmEngine.assignNodeTypes ⟨0⟩ smallWorkspace = (.ok report, last) ∧
      report.placements.map Placement.node = [⟨0⟩, ⟨1⟩, ⟨2⟩] ∧
      ∃ validation, pcdmEngine.validationReport last.tree ⟨0⟩ = .ok validation ∧
        validation.violations = [] := by
  obtain ⟨report, outcome⟩ := assignNodeTypes_smallWorkspace_ok
  have done : pcdmEngine.assignNodeTypes ⟨0⟩ smallWorkspace =
      (.ok report, (pcdmEngine.assignNodeTypes ⟨0⟩ smallWorkspace).2) :=
    Prod.ext outcome rfl
  have subTypesFit : Pcdm.profile.SubTypesFit smallArchive (smallArchive.activeSubtree ⟨0⟩) := by
    decide
  obtain ⟨validated, nodes, _⟩ :=
    validationReport_empty_of_assignNodeTypes_ok wellFormed_smallArchive rfl subTypesFit done
  exact ⟨report, _, done, nodes, validated⟩

end ContentTyping.ProfileEngine

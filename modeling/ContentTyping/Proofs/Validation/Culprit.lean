import ContentTyping.Proofs.Plan.Diagnosis
import ContentTyping.Proofs.Validation.PartialChoice

/-!
# Culprits in reports

Once a best choice is recorded, a report finds the node at which the search ended: it is untyped when no
type could be given to it, and breaks a child constraint when its children could not be typed
together. No defect is found at a node that was given a type viable for it.
-/

namespace ContentTyping

open ContentTree

/-- The defect bears out what was said of the node. -/
inductive Obstacle.BorneOut : Obstacle → Defect → Prop
  | notARoot (kind : Option FileKind) : BorneOut (.notARoot kind) .untyped
  | notBelow (kind : Option FileKind) (parentLabel : String) :
      BorneOut (.notBelow kind parentLabel) .untyped
  | childrenUnfit (label : String) (constraint : EdgeConstraint) (actual : Nat) :
      BorneOut (.childrenUnfit label) (.childConstraint label constraint actual)

theorem DomainProfile.borneOut_noPlaceFor (profile : DomainProfile) (kind : Option FileKind)
    (parentType : Option NodeTypeId) : (profile.noPlaceFor kind parentType).BorneOut .untyped := by
  cases parentType with
  | none => exact .notARoot kind
  | some parent => exact .notBelow kind _

namespace DomainProfile

variable {profile : DomainProfile}

/-! ## Defects of single nodes -/

section SingleNodes

variable {tree : ContentTree} {id : NodeId} {node : Node}

theorem untyped_mem_defects (found : tree.get? id = some node) (active : node.ignored = false)
    (untyped : node.nodeType = none) : .untyped ∈ profile.defects tree id := by
  simp only [defects, found, active, Bool.false_eq_true, if_false, untyped, List.mem_singleton]

theorem childConstraint_mem_defects (found : tree.get? id = some node)
    (active : node.ignored = false) {primary : NodeTypeId} (typed : node.nodeType = some primary)
    {broken : EdgeConstraint × Nat}
    (isBroken : broken ∈ profile.brokenChildConstraints primary (tree.childEdges id)) :
    .childConstraint (profile.typeLabel primary) broken.1 broken.2 ∈ profile.defects tree id := by
  cases isDefined : profile.nodeType? primary with
  | none =>
      rw [brokenChildConstraints, isDefined] at isBroken
      exact absurd isBroken List.not_mem_nil
  | some type =>
      simp only [defects, found, active, Bool.false_eq_true, if_false, typed, isDefined, typeLabel]
      exact List.mem_append_right _ (List.mem_map.2 ⟨broken, isBroken, rfl⟩)

/-- A report lists every defect of every listed node, and nothing else. -/
theorem mem_validationReport_iff {start : NodeId} {violation : Violation} :
    violation ∈ (profile.validationReport tree start).violations ↔
      violation.node ∈ tree.activeSubtree start ∧
        violation.path = tree.pathOf violation.node ∧
        violation.defect ∈ profile.defects tree violation.node := by
  simp only [validationReport, reportOn, checkNode, List.mem_flatMap, List.mem_map]
  constructor
  · rintro ⟨id, listed, defect, isDefect, rfl⟩
    exact ⟨listed, rfl, isDefect⟩
  · rintro ⟨listed, isPath, isDefect⟩
    exact ⟨violation.node, listed, violation.defect, isDefect, by rw [← isPath]⟩

end SingleNodes

/-! ## Recorded choices -/

variable {before after : ContentTree} {start : NodeId} {parentType : Option NodeTypeId}
  {choice : NodeId → Option Candidate}

/-- A listed node has what was chosen for it recorded, and nothing else of it but the object may have
changed. -/
theorem exists_get?_of_partlyRecorded (recorded : PartlyRecorded before after start choice)
    {id : NodeId} (listed : id ∈ before.activeSubtree start) :
    ∃ node typed, before.get? id = some node ∧ after.get? id = some typed ∧
      node.ignored = false ∧
      typed.withoutObject = (node.typedAs (recordOf (choice id))).withoutObject := by
  obtain ⟨node, found, active⟩ := isActive_iff.1 (isActive_of_mem_activeSubtree listed)
  obtain ⟨typed, typedFound, same⟩ := recorded.exists_get?_of_retype listed found
  exact ⟨node, typed, found, typedFound, active, same⟩

namespace BestChoice

variable (wellFormed : before.WellFormed)
  (isBest : profile.BestChoice before start parentType choice)
  (recorded : PartlyRecorded before after start choice)
  {id : NodeId} (listed : id ∈ before.activeSubtree start) {candidate : Candidate}
  (chosen : choice id = some candidate)

include wellFormed isBest recorded listed chosen

/-- Where all children have viable candidates, their edges are recorded. -/
theorem childEdges (noneStuck : profile.firstStuck? before candidate.nodeType id = none) :
    after.childEdges id = (before.activeChildren id).filterMap fun child =>
      (profile.firstViable? before (some candidate.nodeType) child).map Candidate.edge := by
  rw [childEdges_eq, recorded.links_of_retype.activeChildren, ← List.filterMap_eq_map]
  refine List.filterMap_congr fun child member => ?_
  obtain ⟨viable, isViable⟩ :=
    Option.ne_none_iff_exists'.1 (firstStuck?_eq_none_iff.1 noneStuck child member)
  have childListed := wellFormed.mem_activeSubtree_of_mem_activeChildren listed member
  have childChosen : choice child = some viable := by
    rw [isBest.atChild id listed child member, chosen, Option.bind_some,
      bestCandidate?_of_firstViable? isViable]
  rw [isViable, Function.comp, recorded.edgeOf childListed, childChosen]
  rfl

/-- Nothing is wrong with a node that was given a type viable for it. -/
theorem defects_eq_nil_of_viable
    (parentTyped : (before.parent? start).map (fun parent => (before.edgeOf parent).nodeType) =
      parentType.map some)
    (subTypesFit : profile.SubTypesFit before (before.activeSubtree start))
    (isViable : profile.viable before id candidate.nodeType = true) :
    profile.defects after id = [] := by
  obtain ⟨node, typed, found, typedFound, active, same⟩ :=
    exists_get?_of_partlyRecorded recorded listed
  rw [chosen] at same
  obtain ⟨accepted, noneStuck, unbroken⟩ := (viable_iff_firstStuck? wellFormed).1 isViable
  rw [fileKind, found, Option.bind_some] at accepted
  refine defects_eq_nil_of_withoutObject typedFound same active ⟨rfl, ?_, ?_, ?_⟩
  · intro type member
    rcases List.mem_cons.1 member with rfl | further
    · exact accepted
    · exact subTypesFit id listed node found type further
  · have isType : typed.nodeType = some candidate.nodeType := (congrArg Node.nodeType same :)
    obtain ⟨definition, isDefined, _⟩ := mem_typesForKind_iff.1 accepted
    exact ⟨definition, isDefined, (satisfiesParentConstraint_iff typedFound isType isDefined).1
      (isBest.satisfiesParentConstraint wellFormed recorded parentTyped listed chosen)⟩
  · rw [isBest.childEdges wellFormed recorded listed chosen noneStuck]
    exact unbroken

/-- A node with a type that is not viable for it, although all its children have viable candidates below the
type, breaks a child constraint. -/
theorem exists_broken_of_not_viable
    (noneStuck : profile.firstStuck? before candidate.nodeType id = none)
    (accepted : candidate.nodeType ∈ profile.typesForKind (before.fileKind id))
    (notViable : ¬ profile.viable before id candidate.nodeType = true) :
    ∃ broken, broken ∈ profile.brokenChildConstraints candidate.nodeType (after.childEdges id) := by
  rw [isBest.childEdges wellFormed recorded listed chosen noneStuck]
  refine List.exists_mem_of_ne_nil _ fun unbroken => notViable ?_
  exact (viable_iff_firstStuck? wellFormed).2 ⟨accepted, noneStuck, unbroken⟩

end BestChoice

/-- Where a best choice is recorded, the node at which the search ended has the defect for which it
ended. -/
theorem Culprit.exists_defect {ending : NodeId} {obstacle : Obstacle}
    (culprit : profile.Culprit before choice ending obstacle) (wellFormed : before.WellFormed)
    (isBest : profile.BestChoice before start parentType choice)
    (recorded : PartlyRecorded before after start choice)
    (listed : ending ∈ before.activeSubtree start)
    (parentTyped : (before.parent? start).map (fun parent => (before.edgeOf parent).nodeType) =
      parentType.map some) :
    ∃ defect ∈ profile.defects after ending, obstacle.BorneOut defect := by
  obtain ⟨node, typed, found, typedFound, active, same⟩ :=
    exists_get?_of_partlyRecorded recorded listed
  have typedActive : typed.ignored = false := (congrArg Node.ignored same :).trans active
  have sameType : typed.nodeType = (choice ending).map Candidate.nodeType :=
    (congrArg Node.nodeType same :).trans (nodeType_recordOf _)
  cases culprit with
  | unplaced undecided =>
      rw [undecided, Option.map_none] at sameType
      exact ⟨.untyped, untyped_mem_defects typedFound typedActive sameType,
        profile.borneOut_noPlaceFor _ _⟩
  | @unfit candidate chosen noneStuck notViable =>
      rw [chosen, Option.map_some] at sameType
      have accepted :=
        (isBest.exists_placement wellFormed recorded parentTyped listed chosen).1
      obtain ⟨broken, isBroken⟩ := isBest.exists_broken_of_not_viable wellFormed recorded listed
        chosen noneStuck accepted notViable
      exact ⟨_, childConstraint_mem_defects typedFound typedActive sameType isBroken,
        .childrenUnfit _ _ _⟩

end DomainProfile

end ContentTyping

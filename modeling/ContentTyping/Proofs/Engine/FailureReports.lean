import ContentTyping.Proofs.Engine.PartialTyping
import ContentTyping.Proofs.Validation.Culprit

/-!
# Failures and the reports on them

An engine that does not roll back keeps what it could decide. The node that the failure names is the one
at which the search ended, and a report made right afterwards finds there the defect that the failure
speaks of. Among the nodes listed before it the report only has its ancestors.
-/

namespace ContentTyping

open ContentTree DomainProfile

/-- In a well-formed tree an identifier leads to the one node that bears it. -/
theorem ContentTree.WellFormed.findByIdentifier?_eq_some_iff {tree : ContentTree}
    (wellFormed : tree.WellFormed) {identifier : String} {id : NodeId} :
    tree.findByIdentifier? identifier = some id ↔
      (tree.get? id).map Node.identifier = some identifier := by
  rw [Option.map_eq_some_iff, ← wellFormed.indexed, findByIdentifier?]
  cases indexed : tree.index[identifier]? with
  | none =>
      simp
  | some other =>
      obtain ⟨node, found, bears⟩ := (wellFormed.indexed identifier other).1 indexed
      simp [found, bears]

/-- A blocked plan says where the way down from the start ends. -/
theorem DomainProfile.EndsAt.of_plan_eq_blocked {profile : DomainProfile} {tree : ContentTree}
    {start : NodeId} {parentType : Option NodeTypeId} (wellFormed : tree.WellFormed)
    (active : tree.isActive start = true) {placements : List Placement} {untyped : List NodeId}
    {ending : NodeId} {obstacle : Obstacle}
    (blocked : profile.plan tree start parentType = .blocked placements untyped ending obstacle) :
    profile.firstViable? tree parentType start = none ∧
      profile.EndsAt tree parentType start ending obstacle := by
  have listed := wellFormed.mem_activeSubtree_self active
  obtain ⟨node, reason, ends⟩ : ∃ node reason, profile.EndsAt tree parentType start node reason :=
    exists_endsAt wellFormed active parentType
  rw [plan, choose?_viability wellFormed listed,
    ends.diagnose_eq wellFormed listed (by omega)] at blocked
  split at blocked
  · exact absurd blocked (by simp)
  next notViable =>
      injection blocked with _ _ sameNode sameReason
      subst sameNode sameReason
      exact ⟨notViable, ends⟩

/-- Where the way down ends, a report on what could be decided has the defect that stopped it. -/
theorem DomainProfile.EndsAt.exists_violation {profile : DomainProfile} {before after : ContentTree}
    {start ending : NodeId} {parentType : Option NodeTypeId} {obstacle : Obstacle}
    {choice : NodeId → Option Candidate}
    (ends : profile.EndsAt before parentType start ending obstacle) (wellFormed : before.WellFormed)
    (active : before.isActive start = true)
    (notViable : profile.firstViable? before parentType start = none)
    (isBest : profile.BestChoice before start parentType choice)
    (recorded : PartlyRecorded before after start choice)
    (parentTyped : (before.parent? start).map (fun parent => (before.edgeOf parent).nodeType) =
      parentType.map some) :
    ∃ violation ∈ (profile.validationReport after start).violations,
      violation.node = ending ∧ obstacle.BorneOut violation.defect := by
  have listed := ends.mem_activeSubtree wellFormed active isBest notViable
  obtain ⟨defect, isDefect, borneOut⟩ := (ends.culprit wellFormed active isBest notViable).exists_defect
    wellFormed isBest recorded listed parentTyped
  rw [← recorded.links_of_retype.activeSubtree start] at listed
  exact ⟨⟨ending, after.pathOf ending, defect⟩,
    mem_validationReport_iff.2 ⟨listed, rfl, isDefect⟩, rfl, borneOut⟩

namespace ProfileEngine

variable {engine : ProfileEngine} {S : Type} [ObjectStore S] {workspace last : Workspace S}
  {start : NodeId} {name : String} {obstacle : Obstacle}

/-- When a search below a typed parent, or from the root, ends without an eligible type and the engine
does not roll back, following the first candidates down comes to an end whatever number of steps
is allowed beyond the size of the tree. The node there is the one that the failure names. It belongs
to the active subtree, and a report on the subtree has at it the defect that the failure speaks of.
With further types that fit, the nodes listed before it at which the report has anything are
ancestors of it. -/
theorem culprit_of_noEligibleType [LawfulObjectStore S]
    (wellFormed : workspace.tree.WellFormed) (keeps : engine.rollbackOnFailure = false)
    (searched : ∀ parent, workspace.tree.parent? start = some parent →
      (workspace.tree.edgeOf parent).nodeType ≠ none)
    (failed : engine.assignNodeTypes start workspace =
      (.error (.noEligibleType name obstacle), last)) :
    ∃ parentType ending report,
      (workspace.tree.parent? start).map
          (fun parent => (workspace.tree.edgeOf parent).nodeType) = parentType.map some ∧
      (∀ steps, workspace.tree.nodes.size < steps →
        engine.profile.diagnose workspace.tree (engine.profile.viability workspace.tree start) steps
          parentType start = (ending, obstacle)) ∧
      workspace.tree.findByIdentifier? name = some ending ∧
      ending ∈ workspace.tree.activeSubtree start ∧
      engine.validationReport last.tree start = .ok report ∧
      (∃ violation ∈ report.violations, violation.node = ending ∧
        obstacle.BorneOut violation.defect) ∧
      (engine.profile.SubTypesFit workspace.tree (workspace.tree.activeSubtree start) →
        ∀ violation ∈ report.violations,
          violation.node ∈ (workspace.tree.activeSubtree start).takeWhile (· ≠ ending) →
            violation.node ∈ workspace.tree.ancestors ending) := by
  obtain ⟨parentType, searches⟩ := exists_searches_of_noEligibleType searched failed
  have active := searches.isActive
  have startListed := wellFormed.mem_activeSubtree_self active
  rw [searches.assignNodeTypes_eq] at failed
  obtain ⟨placements, untyped, ending, isBlocked, named, ⟨rollsBack, _⟩ | ⟨_, written⟩⟩ :=
    exists_blocked_of_noEligibleType (contains_of_mem_plan searches.live parentType) failed
  · rw [keeps] at rollsBack
    exact absurd rollsBack (by simp)
  obtain ⟨notViable, ends⟩ := EndsAt.of_plan_eq_blocked wellFormed active isBlocked
  obtain ⟨choice, isBest⟩ : ∃ choice,
      engine.profile.BestChoice workspace.tree start parentType choice :=
    exists_bestChoice wellFormed start parentType
  obtain ⟨rfl, rfl⟩ := eq_of_plan_eq_blocked wellFormed active isBest isBlocked
  have recorded := partlyRecorded_of_writePlacements written
  have sameListed := recorded.links_of_retype.activeSubtree start
  have lastLive : last.tree.contains start = true := by
    rw [recorded.links_of_retype.contains]
    exact searches.live
  have endingListed := ends.mem_activeSubtree wellFormed active isBest notViable
  refine ⟨parentType, ending, _, searches.parentTyped, ?_, ?_, endingListed,
    validationReport_eq_ok_iff.2
      ⟨checkBinding_of_writePlacements searches.free written, lastLive, rfl⟩,
    ends.exists_violation wellFormed active notViable isBest recorded searches.parentTyped, ?_⟩
  · intro steps enough
    exact ends.diagnose_eq wellFormed startListed (Nat.le_add_right_of_le (Nat.le_of_lt enough))
  · exact wellFormed.findByIdentifier?_eq_some_iff.2 named
  · intro subTypesFit violation reported before
    obtain ⟨listed, _, isDefect⟩ := mem_validationReport_iff.1 reported
    rw [sameListed] at listed
    rcases ends.above_or_viable_of_before wellFormed active isBest notViable before with
      above | ⟨candidate, chosen, isViable⟩
    · exact above
    · rw [isBest.defects_eq_nil_of_viable wellFormed recorded listed chosen searches.parentTyped
        subTypesFit isViable] at isDefect
      exact absurd isDefect List.not_mem_nil

/-- A directory that holds an empty box and a sheet with a copy below it. -/
def looseSheets : Workspace MemoryStore :=
  let shelf := (withRoot
    { identifier := "shelf", name := "shelf", file := some (.directory (.ofString "shelf")) }).2
  let withBox := shelf.withChild ⟨0⟩
    { identifier := "box", name := "box", file := some (.directory (.ofString "shelf/box")) }
  let withSheet := withBox.withChild ⟨0⟩
    { identifier := "sheet", name := "sheet"
      file := some (.regularFile (.ofString "shelf/sheet") 2) }
  { smallWorkspace with
    tree := withSheet.withChild ⟨2⟩
      { identifier := "copy", name := "copy"
        file := some (.regularFile (.ofString "shelf/sheet/copy") 2) } }

theorem wellFormed_looseSheets : looseSheets.tree.WellFormed := by
  refine WellFormed.withChild (WellFormed.withChild (WellFormed.withChild
    (wellFormed_withRoot _) ?_ ?_) ?_ ?_) ?_ ?_
  · rfl
  · simp [withRoot, ContentTree.insert, empty, Std.ExtTreeMap.contains_insert]
  · rfl
  · simp [index_withChild, withRoot, ContentTree.insert, empty, Std.ExtTreeMap.contains_insert]
  · rfl
  · simp [index_withChild, withRoot, ContentTree.insert, empty, Std.ExtTreeMap.contains_insert]

/-- The sheet has no place below the first type that is tried for the shelf. -/
theorem endsAt_looseSheets : Pcdm.profile.EndsAt looseSheets.tree none ⟨0⟩ ⟨2⟩
    (.notBelow (some .regularFile) "AdministrativeSet") := by
  have shelf : Pcdm.profile.candidates looseSheets.tree none ⟨0⟩ =
      [⟨Pcdm.administrativeSet, none⟩, ⟨Pcdm.collection, none⟩, ⟨Pcdm.object, none⟩] := by decide
  have sheet : Pcdm.profile.candidates looseSheets.tree (some Pcdm.administrativeSet) ⟨2⟩ = [] := by
    decide
  exact .descend shelf (by decide) (.unplaced sheet)

theorem culprit_looseSheets :
    ∃ report, pcdmEngine.validationReport (pcdmEngine.assignNodeTypes ⟨0⟩ looseSheets).2.tree ⟨0⟩ =
        .ok report ∧
      (∃ violation ∈ report.violations, violation.node = ⟨2⟩ ∧ violation.defect = .untyped) ∧
      ∀ violation ∈ report.violations, violation.node ≠ ⟨1⟩ := by
  have objectsKnown : looseSheets.ObjectsKnown := by
    refine Workspace.objectsKnown_of_no_objects ?_
    decide
  have notViable : Pcdm.profile.firstViable? looseSheets.tree none ⟨0⟩ = none := by decide
  have searches : pcdmEngine.Searches looseSheets.tree ⟨0⟩ none := ⟨rfl, rfl, rfl, rfl, by simp⟩
  obtain ⟨name, obstacle, failed⟩ := exists_noEligibleType_of_not_viable wellFormed_looseSheets
    searches notViable (pcdmEngine.noStoreFault_assignNodeTypes objectsKnown ⟨0⟩)
  obtain ⟨parentType, ending, report, parentTyped, diagnosed, _, _, isReport,
      ⟨violation, reported, atEnding, borneOut⟩, before⟩ :=
    @culprit_of_noEligibleType pcdmEngine MemoryStore _ looseSheets
      (pcdmEngine.assignNodeTypes ⟨0⟩ looseSheets).2 ⟨0⟩ name obstacle _ wellFormed_looseSheets rfl
      (by decide) (Prod.ext failed rfl)
  obtain rfl : parentType = none := Option.map_eq_none_iff.1 parentTyped.symm
  have shelfListed : (⟨0⟩ : NodeId) ∈ looseSheets.tree.activeSubtree ⟨0⟩ := by decide
  have atSheet : pcdmEngine.profile.diagnose looseSheets.tree _ 5 none ⟨0⟩ = _ :=
    endsAt_looseSheets.diagnose_eq wellFormed_looseSheets shelfListed (by decide)
  obtain ⟨rfl, rfl⟩ := Prod.mk.inj ((diagnosed 5 (by decide)).symm.trans atSheet)
  refine ⟨report, isReport, ⟨violation, reported, atEnding, ?_⟩, ?_⟩
  · generalize violation.defect = defect at borneOut
    cases borneOut
    rfl
  · intro other otherReported isBox
    have above := before (by decide) other otherReported (by rw [isBox]; decide)
    rw [isBox] at above
    exact absurd above (by decide)

end ProfileEngine

end ContentTyping

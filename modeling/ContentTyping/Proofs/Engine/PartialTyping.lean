import ContentTyping.Proofs.Engine.Closure
import ContentTyping.Proofs.Validation.PartialChoice

/-!
# Failed assignments

An engine that does not roll back keeps what a blocked plan could decide. Then the best choice stands
recorded on the active subtree, every node of it decided once, and besides it only objects have
changed.
-/

namespace ContentTyping.ProfileEngine

open ContentTree DomainProfile

variable {engine : ProfileEngine} {S : Type} [ObjectStore S] {workspace last : Workspace S}
  {start : NodeId} {name : String} {obstacle : Obstacle}

/-! ## How a search ends -/

/-- A parent type is missing when the parent is untyped. -/
theorem exists_untyped_parent {tree : ContentTree} {node : Node}
    (failed : engine.parentTypeOf tree node = .error (.noEligibleType name obstacle)) :
    ∃ parent, node.parent = some parent ∧ (tree.edgeOf parent).nodeType = none := by
  rw [parentTypeOf] at failed
  cases link : node.parent with
  | none =>
      rw [link] at failed
      exact absurd failed (by simp [pure, Except.pure])
  | some parent =>
      refine ⟨parent, rfl, ?_⟩
      rw [link] at failed
      cases found : tree.get? parent with
      | none =>
          simp [ContentTree.node, found, Bind.bind, Except.bind] at failed
      | some above =>
          cases typed : above.nodeType with
          | none =>
              rw [edgeOf_of_get? found, typed]
          | some type =>
              cases known : engine.profile.nodeType? type <;>
                simp [ContentTree.node, found, typed, definition, known, Bind.bind, Except.bind,
                  pure, Except.pure] at failed

/-- When the parent of the start is typed, only a search can end without an eligible type. -/
theorem exists_searches_of_noEligibleType
    (searched : ∀ parent, workspace.tree.parent? start = some parent →
      (workspace.tree.edgeOf parent).nodeType ≠ none)
    (failed : engine.assignNodeTypes start workspace =
      (.error (.noEligibleType name obstacle), last)) :
    ∃ parentType, engine.Searches workspace.tree start parentType := by
  rcases assignNodeTypes_cases failed with ⟨_, declined⟩ | searches
  · cases declined with
    | mismatch refused =>
        rw [checkBinding] at refused
        split at refused
        · exact absurd refused (by simp)
        · split at refused
          · exact absurd refused (by simp)
          · exact absurd refused (by simp)
    | unknown refused =>
        rw [ContentTree.node] at refused
        split at refused
        · exact absurd refused (by simp)
        · exact absurd refused (by simp)
    | parentUntyped found refused =>
        obtain ⟨parent, link, untyped⟩ := exists_untyped_parent refused
        exact absurd untyped (searched parent ((parent?_of_get? found).trans link))
  · exact searches

/-- Only a blocked plan ends without an eligible type. It has been written unless the engine rolls
back. -/
theorem exists_blocked_of_noEligibleType [LawfulObjectStore S] {plan : Plan}
    (live : ∀ placement ∈ plan.placements, workspace.tree.contains placement.node = true)
    (failed : engine.carryOut plan workspace = (.error (.noEligibleType name obstacle), last)) :
    ∃ placements untyped ending, plan = .blocked placements untyped ending obstacle ∧
      (workspace.tree.get? ending).map Node.identifier = some name ∧
      (engine.rollbackOnFailure = true ∧ last = workspace ∨
        engine.rollbackOnFailure = false ∧
          engine.writePlacements placements untyped workspace = (.ok (), last)) := by
  -- Writing only fails with a fault of the store.
  have noFault {untyped : List NodeId} {next : Workspace S} :
      engine.writePlacements plan.placements untyped workspace ≠
        (.error (.noEligibleType name obstacle), next) := by
    intro refused
    obtain ⟨fault, isFault⟩ := writePlacements_error live refused
    exact absurd isFault (by simp)
  cases plan with
  | complete placements =>
      rcases carryOut_complete_cases failed with ⟨error, isError, refused⟩ | ⟨_, isReport, _⟩
      · obtain rfl := Except.error.inj isError
        exact absurd refused noFault
      · exact absurd isReport (by simp)
  | blocked placements untyped ending stuck =>
      rw [carryOut] at failed
      split at failed
      next error unknown =>
          obtain rfl : error = .noEligibleType name obstacle :=
            Except.error.inj (congrArg Prod.fst failed)
          rw [ContentTree.node] at unknown
          split at unknown
          · exact absurd unknown (by simp)
          · exact absurd unknown (by simp)
      next node isNode =>
          have found := node_eq_ok_iff.1 isNode
          split at failed
          next rollsBack =>
              simp only [Prod.mk.injEq, Except.error.injEq, Error.noEligibleType.injEq] at failed
              obtain ⟨⟨rfl, rfl⟩, rfl⟩ := failed
              exact ⟨placements, untyped, ending, rfl, by rw [found, Option.map_some],
                .inl ⟨rollsBack, rfl⟩⟩
          next keeps =>
              split at failed
              next error next refused =>
                  obtain rfl : error = .noEligibleType name obstacle :=
                    Except.error.inj (congrArg Prod.fst failed)
                  exact absurd refused noFault
              next next written =>
                  simp only [Prod.mk.injEq, Except.error.injEq, Error.noEligibleType.injEq]
                    at failed
                  obtain ⟨⟨rfl, rfl⟩, rfl⟩ := failed
                  exact ⟨placements, untyped, ending, rfl, by rw [found, Option.map_some],
                    .inr ⟨Bool.eq_false_iff.2 keeps, written⟩⟩

/-- Where the start has no viable candidate, only the store can give another reason for the
failure. -/
theorem exists_noEligibleType_of_not_viable [LawfulObjectStore S]
    (wellFormed : workspace.tree.WellFormed) {parentType : Option NodeTypeId}
    (searches : engine.Searches workspace.tree start parentType)
    (notViable : engine.profile.firstViable? workspace.tree parentType start = none)
    (noFault : NoStoreFault (engine.assignNodeTypes start workspace).1) :
    ∃ name obstacle, (engine.assignNodeTypes start workspace).1 =
      .error (.noEligibleType name obstacle) := by
  obtain ⟨placements, untyped, ending, obstacle, endingLive, isBlocked⟩ :=
    exists_blocked_of_not_viable wellFormed searches.isActive notViable
  obtain ⟨endingNode, endingFound⟩ := contains_iff.1 endingLive
  have placedLive : ∀ placement ∈ (engine.profile.plan workspace.tree start parentType).placements,
      workspace.tree.contains placement.node = true := contains_of_mem_plan searches.live parentType
  rw [isBlocked] at placedLive
  rw [searches.assignNodeTypes_eq, isBlocked, carryOut, node_eq_ok_iff.2 endingFound]
    at noFault ⊢
  simp only at noFault ⊢
  split
  · exact ⟨_, _, rfl⟩
  next keeps =>
      rw [if_neg keeps] at noFault
      split
      next error next refused =>
          rw [refused] at noFault
          obtain ⟨fault, rfl⟩ := writePlacements_error placedLive refused
          exact absurd rfl (noFault fault)
      · exact ⟨_, _, rfl⟩

/-! ## What is left behind -/

theorem foldl_writePlacement_decided (ids : List NodeId) (choice : NodeId → Option Candidate)
    (tree : ContentTree) :
    (ids.filterMap fun id => (choice id).map fun candidate => candidate.at id).foldl
        writePlacement tree =
      tree.retype (ids.filter fun id => (choice id).isSome) fun id => recordOf (choice id) := by
  induction ids generalizing tree with
  | nil =>
      rfl
  | cons id ids inductionHypothesis =>
      cases chosen : choice id with
      | none =>
          rw [List.filterMap_cons_none (by rw [chosen]; rfl),
            List.filter_cons_of_neg (by simp [chosen])]
          exact inductionHypothesis tree
      | some candidate =>
          rw [List.filterMap_cons_some (by rw [chosen]; rfl),
            List.filter_cons_of_pos (by simp [chosen]), List.foldl_cons, inductionHypothesis,
            ContentTree.retype, ContentTree.retype, List.foldl_cons, chosen]
          rfl

theorem foldl_eraseType_undecided {ids : List NodeId} {choice : NodeId → Option Candidate}
    (undecided : ∀ id ∈ ids, choice id = none) (tree : ContentTree) :
    ids.foldl eraseType tree = tree.retype ids fun id => recordOf (choice id) := by
  have erased : ids.foldl eraseType tree = tree.retype ids fun _ => recordOf none := rfl
  rw [erased]
  refine retype_congr fun id member => ?_
  rw [undecided id member]

/-- Writing what a best choice has decided, and erasing what it has not, records the choice. -/
theorem partlyRecorded_of_writePlacements {choice : NodeId → Option Candidate}
    {outcome : Except Error Unit}
    (called : engine.writePlacements (decidedBy workspace.tree start choice)
      (undecidedBy workspace.tree start choice) workspace = (outcome, last)) :
    PartlyRecorded workspace.tree last.tree start choice := by
  have nothing : ∀ id ∈ undecidedBy workspace.tree start choice, choice id = none := by
    intro id member
    exact Option.isNone_iff_eq_none.1 (List.mem_filter.1 member).2
  have written := writePlacements_nodes called
  rw [foldl_eraseType_undecided nothing, decidedBy, foldl_writePlacement_decided,
    ← retype_append] at written
  -- Placed and untyped nodes are those of the subtree in another order.
  refine written.trans (agreeOn_retype_of_mem_iff _ (fun id => ?_) _)
  have partition := decided_append_undecided_perm workspace.tree start choice
  rw [decidedBy_nodes] at partition
  exact partition.mem_iff

/-- What is left of an assignment that was given up: the decisions of its plan, which name every
node of the active subtree once, stand recorded. -/
structure PartlyAssigned (profile : DomainProfile) (before after : ContentTree) (start : NodeId)
    (placements : List Placement) (untyped : List NodeId) : Prop where
  once : (placements.map Placement.node ++ untyped).Nodup
  all : (placements.map Placement.node ++ untyped).Perm (before.activeSubtree start)
  typed : ∀ placement ∈ placements,
    after.edgeOf placement.node = ⟨some placement.nodeType, placement.relation⟩
  untyped : ∀ id ∈ untyped, after.edgeOf id = ⟨none, none⟩
  /-- Outside the active subtree nothing but objects is different. -/
  elsewhere : ∀ id ∉ before.activeSubtree start,
    (after.get? id).map Node.withoutObject = (before.get? id).map Node.withoutObject
  untyped_iff : ∀ id ∈ before.activeSubtree start, (after.edgeOf id).nodeType = none ↔
    (∃ parent ∈ before.activeSubtree start, before.parent? id = some parent ∧
      (after.edgeOf parent).nodeType = none) ∨
    ∀ type ∈ profile.typesForKind (before.fileKind id),
      profile.placement? type (after.typeAbove id) = none
  placed : ∀ id ∈ before.activeSubtree start, ∀ type, (after.edgeOf id).nodeType = some type →
    type ∈ profile.typesForKind (before.fileKind id) ∧
    (∃ placement, profile.placement? type (after.typeAbove id) = some placement ∧
      (after.edgeOf id).relation = placement.relation) ∧
    profile.satisfiesParentConstraint after id = true

theorem partlyAssigned_of_recorded {profile : DomainProfile} {before after : ContentTree}
    {parentType : Option NodeTypeId} {choice : NodeId → Option Candidate}
    (wellFormed : before.WellFormed)
    (isBest : profile.BestChoice before start parentType choice)
    (recorded : PartlyRecorded before after start choice)
    (parentTyped : (before.parent? start).map (fun parent => (before.edgeOf parent).nodeType) =
      parentType.map some) :
    PartlyAssigned profile before after start (decidedBy before start choice)
      (undecidedBy before start choice) := by
  have partition := decided_append_undecided_perm before start choice
  have untyped_iff : ∀ id ∈ before.activeSubtree start,
      ((after.edgeOf id).nodeType = none ↔ choice id = none) := by
    intro id listed
    rw [recorded.edgeOf listed, nodeType_recordOf, Option.map_eq_none_iff]
  refine ⟨partition.nodup_iff.2 (wellFormed.activeSubtree_nodup start), partition, ?_, ?_, ?_, ?_,
    ?_⟩
  · intro placement member
    obtain ⟨id, listed, isPlaced⟩ := List.mem_filterMap.1 member
    obtain ⟨candidate, chosen, rfl⟩ := Option.map_eq_some_iff.1 isPlaced
    have isRecorded := recorded.edgeOf listed
    rw [chosen] at isRecorded
    exact isRecorded
  · intro id member
    obtain ⟨listed, undecided⟩ := List.mem_filter.1 member
    rw [recorded.edgeOf listed, Option.isNone_iff_eq_none.1 undecided]
    rfl
  · intro id unlisted
    have same := recorded.get id
    rw [get?_retype, if_neg unlisted] at same
    exact same
  · intro id listed
    have live := contains_of_mem_activeSubtree listed
    rw [untyped_iff id listed, ← candidates_eq_nil_iff live,
      isBest.eq_none_iff wellFormed recorded parentTyped listed]
    refine or_congr_left (exists_congr fun parent => ?_)
    refine and_congr_right fun parentListed => and_congr_right fun _ => ?_
    exact (untyped_iff parent parentListed).symm
  · intro id listed type isType
    rw [recorded.edgeOf listed, nodeType_recordOf, Option.map_eq_some_iff] at isType
    obtain ⟨candidate, chosen, rfl⟩ := isType
    obtain ⟨accepted, placement, placed, sameRelation⟩ :=
      isBest.exists_placement wellFormed recorded parentTyped listed chosen
    refine ⟨accepted, ⟨placement, placed, ?_⟩,
      isBest.satisfiesParentConstraint wellFormed recorded parentTyped listed chosen⟩
    rw [recorded.edgeOf listed, chosen]
    exact sameRelation.symm

theorem checkBinding_of_writePlacements {placements : List Placement} {untyped : List NodeId}
    (free : engine.checkBinding workspace.tree = .ok ())
    (written : engine.writePlacements placements untyped workspace = (.ok (), last)) :
    engine.checkBinding last.tree = .ok () := by
  by_cases nothing : placements = []
  · subst nothing
    obtain rfl : { workspace with tree := untyped.foldl eraseType workspace.tree } = last :=
      congrArg Prod.snd written
    have sameProfile : (untyped.foldl eraseType workspace.tree).profile =
        workspace.tree.profile := profile_retype untyped fun _ => ⟨none, none⟩
    rw [checkBinding, sameProfile]
    exact free
  · have bound := writePlacements_profile nothing written
    exact checkBinding_eq_ok fun other isBound => Option.some.inj (isBound.symm.trans bound)

/-- When a search below a typed parent, or from the root, ends without an eligible type and the engine
does not roll back, the decisions of the blocked plan stand recorded, and with further types that
fit, a report on the subtree only has untyped nodes and broken child constraints. -/
theorem partlyAssigned_of_noEligibleType [LawfulObjectStore S]
    (wellFormed : workspace.tree.WellFormed) (keeps : engine.rollbackOnFailure = false)
    (searched : ∀ parent, workspace.tree.parent? start = some parent →
      (workspace.tree.edgeOf parent).nodeType ≠ none)
    (failed : engine.assignNodeTypes start workspace =
      (.error (.noEligibleType name obstacle), last)) :
    (∃ parentType placements untyped ending,
      (workspace.tree.parent? start).map
          (fun parent => (workspace.tree.edgeOf parent).nodeType) = parentType.map some ∧
      engine.profile.plan workspace.tree start parentType =
        .blocked placements untyped ending obstacle ∧
      PartlyAssigned engine.profile workspace.tree last.tree start placements untyped) ∧
    (engine.profile.SubTypesFit workspace.tree (workspace.tree.activeSubtree start) →
      ∃ report, engine.validationReport last.tree start = .ok report ∧
        ∀ violation ∈ report.violations, violation.defect = .untyped ∨
          ∃ label constraint actual,
            violation.defect = .childConstraint label constraint actual) := by
  obtain ⟨parentType, searches⟩ := exists_searches_of_noEligibleType searched failed
  have active := searches.isActive
  have parentTyped := searches.parentTyped
  rw [searches.assignNodeTypes_eq] at failed
  obtain ⟨placements, untyped, ending, isBlocked, _, ⟨rollsBack, _⟩ | ⟨_, written⟩⟩ :=
    exists_blocked_of_noEligibleType (contains_of_mem_plan searches.live parentType) failed
  · rw [keeps] at rollsBack
    exact absurd rollsBack (by simp)
  obtain ⟨choice, isBest⟩ : ∃ choice,
      engine.profile.BestChoice workspace.tree start parentType choice :=
    exists_bestChoice wellFormed start parentType
  obtain ⟨rfl, rfl⟩ := eq_of_plan_eq_blocked wellFormed active isBest isBlocked
  have recorded := partlyRecorded_of_writePlacements written
  refine ⟨⟨parentType, _, _, ending, parentTyped, isBlocked,
    partlyAssigned_of_recorded wellFormed isBest recorded parentTyped⟩, ?_⟩
  intro subTypesFit
  have lastLive : last.tree.contains start = true := by
    rw [recorded.links_of_retype.contains]
    exact searches.live
  refine ⟨_, validationReport_eq_ok_iff.2
    ⟨checkBinding_of_writePlacements searches.free written, lastLive, rfl⟩, ?_⟩
  intro violation reported
  exact isBest.violation_cases wellFormed recorded parentTyped subTypesFit reported

/-- The small archive with a thumbnail below the page. -/
def crowdedWorkspace : Workspace MemoryStore :=
  { smallWorkspace with
    tree := smallArchive.withChild ⟨2⟩
      { identifier := "thumbnail", name := "thumbnail"
        file := some (.regularFile (.ofString "archive/item/page.tif/thumbnail") 1) } }

theorem wellFormed_crowdedWorkspace : crowdedWorkspace.tree.WellFormed := by
  refine wellFormed_smallArchive.withChild rfl ?_
  simp [smallArchive, index_withChild, withRoot, ContentTree.insert, empty,
    Std.ExtTreeMap.contains_insert]

theorem partlyAssigned_crowdedWorkspace :
    ∃ placements untyped, PartlyAssigned Pcdm.profile crowdedWorkspace.tree
        (pcdmEngine.assignNodeTypes ⟨0⟩ crowdedWorkspace).2.tree ⟨0⟩ placements untyped ∧
      ∃ report, pcdmEngine.validationReport
        (pcdmEngine.assignNodeTypes ⟨0⟩ crowdedWorkspace).2.tree ⟨0⟩ = .ok report := by
  have objectsKnown : crowdedWorkspace.ObjectsKnown := by
    refine Workspace.objectsKnown_of_no_objects ?_
    decide
  have notViable : Pcdm.profile.firstViable? crowdedWorkspace.tree none ⟨0⟩ = none := by decide
  have searches : pcdmEngine.Searches crowdedWorkspace.tree ⟨0⟩ none :=
    ⟨rfl, rfl, rfl, rfl, by simp⟩
  obtain ⟨name, obstacle, failed⟩ := exists_noEligibleType_of_not_viable
    wellFormed_crowdedWorkspace searches notViable
    (pcdmEngine.noStoreFault_assignNodeTypes objectsKnown ⟨0⟩)
  obtain ⟨⟨_, placements, untyped, _, _, _, assigned⟩, reported⟩ :=
    @partlyAssigned_of_noEligibleType pcdmEngine MemoryStore _ crowdedWorkspace
      (pcdmEngine.assignNodeTypes ⟨0⟩ crowdedWorkspace).2 ⟨0⟩ name obstacle _
      wellFormed_crowdedWorkspace rfl (by decide) (Prod.ext failed rfl)
  obtain ⟨report, isReport, _⟩ := reported (by decide)
  exact ⟨placements, untyped, assigned, report, isReport⟩

end ContentTyping.ProfileEngine

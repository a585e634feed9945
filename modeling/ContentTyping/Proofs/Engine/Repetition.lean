import ContentTyping.Proofs.Engine.PartialTyping
import ContentTyping.Proofs.Engine.Sessions
import ContentTyping.Proofs.Engine.Settled
import ContentTyping.Proofs.Plan.Outline
import ContentTyping.Proofs.Tree.Surroundings

/-!
# Repeated assignments

A plan does not look at what has been recorded about the typing. So an assignment that is repeated,
for the same start or for a node below it, decides as before, and where the decisions stand recorded
and the objects are settled, there is nothing left to write.
-/

namespace ContentTyping

open ContentTree

theorem foldl_eq_self {α β : Type} {step : β → α → β} {items : List α} {state : β}
    (kept : ∀ item ∈ items, step state item = state) : items.foldl step state = state := by
  induction items with
  | nil =>
      rfl
  | cons item items inductionHypothesis =>
      rw [List.foldl_cons, kept item List.mem_cons_self]
      exact inductionHypothesis fun other member => kept other (List.mem_cons_of_mem item member)

theorem ContentTree.modify_typedAs_eq_self {tree : ContentTree} {id : NodeId} {edge : Edge}
    (recorded : tree.edgeOf id = edge) : tree.modify id (Node.typedAs edge) = tree := by
  refine modify_eq_self fun node found => ?_
  rw [← recorded, edgeOf_of_get? found]
  rfl

namespace ProfileEngine

open DomainProfile

variable {engine : ProfileEngine} {workspace last : Workspace MemoryStore} {start : NodeId}
  {placements : List Placement} {untyped : List NodeId}

/-! ## Nothing left to write -/

/-- The placements stand recorded with the objects of their nodes, and the other nodes are untyped. -/
structure Standing (engine : ProfileEngine) (placements : List Placement) (untyped : List NodeId)
    (workspace : Workspace MemoryStore) : Prop where
  live : ∀ placement ∈ placements, workspace.tree.contains placement.node = true
  typed : ∀ placement ∈ placements,
    workspace.tree.edgeOf placement.node = ⟨some placement.nodeType, placement.relation⟩
  untyped : ∀ id ∈ untyped, workspace.tree.edgeOf id = ⟨none, none⟩
  settled : ∀ placement ∈ placements, workspace.Settled engine.profile placement.node
  bound : placements ≠ [] → workspace.tree.profile = some engine.profile.identifier

theorem Standing.writePlacements_eq_self (standing : Standing engine placements untyped workspace) :
    engine.writePlacements placements untyped workspace = (.ok (), workspace) := by
  have typedAlready : placements.foldl writePlacement workspace.tree = workspace.tree :=
    foldl_eq_self fun placement member => modify_typedAs_eq_self (standing.typed placement member)
  have untypedAlready : untyped.foldl eraseType workspace.tree = workspace.tree :=
    foldl_eq_self fun id member => modify_typedAs_eq_self (standing.untyped id member)
  have synced : engine.syncObjects (placements.map Placement.node) workspace =
      (.ok (), workspace) := by
    apply syncObjects_eq_self
    · exact List.forall_mem_map.2 standing.live
    · exact List.forall_mem_map.2 standing.settled
  have boundAlready :
      (if placements.isEmpty then workspace else workspace.bindTo engine.profile.identifier) =
        workspace := by
    split
    · rfl
    next nonempty =>
        have isBound := standing.bound fun nothing => nonempty (by rw [nothing]; rfl)
        rw [Workspace.bindTo, ContentTree.bind, ← isBound]
  simp only [writePlacements, typedAlready, untypedAlready, synced, boundAlready]

theorem Standing.part (standing : Standing engine placements untyped workspace)
    {part : List Placement} (subset : part ⊆ placements) : Standing engine part [] workspace where
  live placement member := standing.live placement (subset member)
  typed placement member := standing.typed placement (subset member)
  untyped _ member := absurd member List.not_mem_nil
  settled placement member := standing.settled placement (subset member)
  bound nonempty := standing.bound fun nothing =>
    nonempty (List.eq_nil_of_subset_nil (nothing ▸ subset))

/-! ## After writing -/

section Written

variable (written : engine.writePlacements placements untyped workspace = (.ok (), last))

include written

theorem wellFormed_of_writePlacements (wellFormed : workspace.tree.WellFormed) :
    last.tree.WellFormed := by
  let tree := untyped.foldl eraseType (placements.foldl writePlacement workspace.tree)
  obtain ⟨next, synced, isLast⟩ := writePlacements_cases written
  have only := engine.syncObjects_objectsOnly (placements.map Placement.node)
    { workspace with tree := tree }
  rw [synced] at only
  have sameRoot : tree.root = workspace.tree.root :=
    (foldl_kept ContentTree.root (by intros; rfl) untyped _).trans
      (foldl_kept ContentTree.root (by intros; rfl) placements _)
  have sameIndex : tree.index = workspace.tree.index :=
    (foldl_kept ContentTree.index (by intros; rfl) untyped _).trans
      (foldl_kept ContentTree.index (by intros; rfl) placements _)
  refine wellFormed.of_agreeOn (writePlacements_agreeOn (fun _ => rfl) (fun _ _ => rfl) written)
    (writePlacements_agreeOn (fun _ => rfl) (fun _ _ => rfl) written) ?_ ?_
  · rcases isLast with ⟨rfl, _⟩ | rfl
    · exact only.root.trans sameRoot
    · exact only.root.trans sameRoot
  · rcases isLast with ⟨rfl, _⟩ | rfl
    · exact only.index.trans sameIndex
    · exact only.index.trans sameIndex

/-- The typing that has been written does not change what is planned. -/
theorem plan_eq_of_writePlacements (wellFormed : workspace.tree.WellFormed) {id : NodeId}
    (active : workspace.tree.isActive id = true) (parentType : Option NodeTypeId) :
    engine.profile.plan last.tree id parentType =
      engine.profile.plan workspace.tree id parentType := by
  have agree : AgreeOn Node.outline last.tree workspace.tree :=
    writePlacements_agreeOn (fun _ => rfl) (fun _ _ => rfl) written
  have same : SameOutline workspace.tree last.tree id := fun other _ => (agree.get other).symm
  exact (plan_eq_of_sameOutline wellFormed (wellFormed_of_writePlacements written wellFormed) same
    active parentType).symm

theorem searches_of_writePlacements (free : engine.checkBinding workspace.tree = .ok ())
    {id : NodeId} (live : workspace.tree.contains id = true)
    (included : workspace.tree.isExcluded id = false) {above : Option NodeTypeId}
    (aboveTyped : (last.tree.parent? id).map (fun parent => (last.tree.edgeOf parent).nodeType) =
      above.map some)
    (known : ∀ type ∈ above, engine.profile.defines type = true) :
    engine.Searches last.tree id above := by
  have links : AgreeOn Node.links last.tree workspace.tree :=
    writePlacements_agreeOn (fun _ => rfl) (fun _ _ => rfl) written
  exact ⟨checkBinding_of_writePlacements free written, (links.contains id).trans live,
    (links.isExcluded id).trans included, aboveTyped, known⟩

theorem settled_of_writePlacements
    (live : ∀ placement ∈ placements, workspace.tree.contains placement.node = true)
    (unshared : workspace.tree.ObjectsUnshared)
    (fresh : workspace.ObjectsFreshUpTo last.supply.used) {placement : Placement}
    (member : placement ∈ placements) : last.Settled engine.profile placement.node := by
  have sameObjects : AgreeOn Node.object
      (untyped.foldl eraseType (placements.foldl writePlacement workspace.tree)) workspace.tree :=
    agreeOn_written (fun _ _ => rfl) placements untyped workspace.tree
  obtain ⟨next, synced, isLast⟩ := writePlacements_cases written
  have sameSupply : next.supply = last.supply := by
    rcases isLast with ⟨rfl, _⟩ | rfl
    · rfl
    · rfl
  have settled : next.Settled engine.profile placement.node := by
    refine settled_of_syncObjects (List.forall_mem_map.2 fun other placed => ?_)
      (unshared.of_agreeOn sameObjects) (fresh.of_agreeOn sameObjects) synced
      (Nat.le_of_eq (congrArg Supply.used sameSupply)) (.inr (List.mem_map_of_mem member))
    rw [sameObjects.contains]
    exact live other placed
  rcases isLast with ⟨rfl, _⟩ | rfl
  · exact settled
  · exact ⟨settled.record, settled.noObject⟩

theorem standing_of_writePlacements
    (live : ∀ placement ∈ placements, workspace.tree.contains placement.node = true)
    (unshared : workspace.tree.ObjectsUnshared)
    (fresh : workspace.ObjectsFreshUpTo last.supply.used)
    (typed : ∀ placement ∈ placements,
      last.tree.edgeOf placement.node = ⟨some placement.nodeType, placement.relation⟩)
    (erased : ∀ id ∈ untyped, last.tree.edgeOf id = ⟨none, none⟩) :
    Standing engine placements untyped last where
  live placement member := by
    have links : AgreeOn Node.links last.tree workspace.tree :=
      writePlacements_agreeOn (fun _ => rfl) (fun _ _ => rfl) written
    rw [links.contains]
    exact live placement member
  typed := typed
  untyped := erased
  settled _ member := settled_of_writePlacements written live unshared fresh member
  bound nonempty := writePlacements_profile nonempty written

end Written

/-! ## Searching again -/

theorem defines_of_firstChoice {tree : ContentTree} (wellFormed : tree.WellFormed)
    {parentType : Option NodeTypeId} {choice : NodeId → Candidate}
    (isFirst : engine.profile.FirstChoice tree start parentType choice) {id : NodeId}
    (listed : id ∈ tree.activeSubtree start) :
    engine.profile.defines (choice id).nodeType = true := by
  have fits := ((viable_iff wellFormed).1 (isFirst.viable wellFormed listed)).1
  obtain ⟨definition, isDefined, _⟩ := mem_typesForKind_iff.1 fits
  exact defines_iff.2 ⟨definition, isDefined⟩

section Again

variable (wellFormed : workspace.tree.WellFormed)
  (unshared : workspace.tree.ObjectsUnshared)
  (fresh : workspace.ObjectsFreshUpTo last.supply.used)

include wellFormed unshared fresh

/-- After a successful assignment every node of the active subtree is given what it was given, with all
below it. -/
theorem exists_repeated_of_ok (included : workspace.tree.isExcluded start = false)
    {report : AssignmentReport}
    (done : engine.assignNodeTypes start workspace = (.ok report, last)) :
    ∃ choice, report.placements = placementsOf workspace.tree start choice ∧
      ∀ id ∈ workspace.tree.activeSubtree start, ∃ objects, engine.assignNodeTypes id last =
        (.ok ⟨placementsOf workspace.tree id choice, objects⟩, last) := by
  obtain ⟨parentType, choice, searches, assigned, written⟩ :=
    exists_written_of_ok wellFormed included done
  refine ⟨choice, assigned.placements, fun id listed => ?_⟩
  obtain ⟨above, first, aboveTyped, origin⟩ :=
    assigned.isFirst.exists_parentType wellFormed assigned.recorded assigned.parentTyped listed
  have aboveKnown : ∀ type ∈ above, engine.profile.defines type = true := by
    rcases origin with rfl | ⟨parent, parentListed, rfl⟩
    · exact searches.known
    · rintro type ⟨⟩
      exact defines_of_firstChoice wellFormed assigned.isFirst parentListed
  have again : engine.Searches last.tree id above :=
    searches_of_writePlacements written searches.free (contains_of_mem_activeSubtree listed)
      ((wellFormed.mem_activeSubtree_iff_not_isExcluded searches.live included).1 listed).2
      aboveTyped aboveKnown
  -- The node is planned below the type that the first plan has given to its parent.
  have isPlan : engine.profile.plan last.tree id above =
      .complete (placementsOf workspace.tree id choice) := by
    have active := isActive_of_mem_activeSubtree listed
    rw [plan_eq_of_writePlacements written wellFormed active]
    exact (plan_eq_complete_iff_firstChoice wellFormed active).2
      ⟨choice, assigned.isFirst.within wellFormed listed first, rfl⟩
  have placedLive : ∀ placement ∈ report.placements,
      workspace.tree.contains placement.node = true := by
    rw [assigned.placements]
    exact contains_of_mem_placementsOf
  have standing : Standing engine report.placements [] last :=
    standing_of_writePlacements written placedLive unshared fresh
      (fun placement member => assigned.edgeOf member) (List.forall_mem_nil _)
  have subset : placementsOf workspace.tree id choice ⊆ report.placements := by
    rw [assigned.placements]
    exact ((wellFormed.activeSubtree_infix listed).map _).subset
  rw [again.assignNodeTypes_eq, isPlan, carryOut, (standing.part subset).writePlacements_eq_self]
  exact ⟨_, rfl⟩

/-- An assignment that was given up is given up again, and leaves what it has left. -/
theorem repeated_of_noEligibleType {name : String} {obstacle : Obstacle}
    (failed : engine.assignNodeTypes start workspace =
      (.error (.noEligibleType name obstacle), last)) :
    engine.assignNodeTypes start last = (.error (.noEligibleType name obstacle), last) := by
  rcases assignNodeTypes_cases failed with ⟨rfl, _⟩ | ⟨parentType, searches⟩
  · exact failed
  have active := searches.isActive
  have placedLive : ∀ placement ∈ (engine.profile.plan workspace.tree start parentType).placements,
      workspace.tree.contains placement.node = true := contains_of_mem_plan searches.live parentType
  have carriedOut := failed
  rw [searches.assignNodeTypes_eq] at carriedOut
  obtain ⟨placements, untyped, ending, isBlocked, isName, ⟨_, rfl⟩ | ⟨keeps, written⟩⟩ :=
    exists_blocked_of_noEligibleType placedLive carriedOut
  · exact failed
  -- From here on the blocked plan has been written.
  rw [isBlocked] at placedLive
  obtain ⟨choice, isBest⟩ : ∃ choice,
      engine.profile.BestChoice workspace.tree start parentType choice :=
    exists_bestChoice wellFormed start parentType
  obtain ⟨rfl, rfl⟩ := eq_of_plan_eq_blocked wellFormed active isBest isBlocked
  have recorded := partlyRecorded_of_writePlacements written
  have assigned := partlyAssigned_of_recorded wellFormed isBest recorded searches.parentTyped
  have standing := standing_of_writePlacements written placedLive unshared fresh assigned.typed
    assigned.untyped
  have aboveTyped := BestChoice.parentTyped_start wellFormed recorded active
  have again : engine.Searches last.tree start parentType :=
    searches_of_writePlacements written searches.free searches.live searches.included
      (aboveTyped.trans searches.parentTyped) searches.known
  have names : AgreeOn Node.identifier last.tree workspace.tree :=
    writePlacements_agreeOn (fun _ => rfl) (fun _ _ => rfl) written
  obtain ⟨node, found, rfl⟩ := Option.map_eq_some_iff.1 ((names.get ending).trans isName)
  rw [again.assignNodeTypes_eq, plan_eq_of_writePlacements written wellFormed active, isBlocked,
    carryOut, node_eq_ok_iff.2 found]
  simp only [keeps, standing.writePlacements_eq_self, Bool.false_eq_true, if_false]

end Again

/-- An ignored node is left alone, and so is what lies below it. -/
theorem assignNodeTypes_of_isExcluded {report : AssignmentReport}
    (wellFormed : workspace.tree.WellFormed) (excluded : workspace.tree.isExcluded start = true)
    (done : engine.assignNodeTypes start workspace = (.ok report, last)) :
    last = workspace ∧ report = ⟨[], 0⟩ ∧ ∀ id ∈ workspace.tree.activeSubtree start,
      engine.assignNodeTypes id workspace = (.ok ⟨[], 0⟩, workspace) := by
  rcases assignNodeTypes_cases done with ⟨rfl, declined⟩ | ⟨_, searches⟩
  · cases declined with
    | excluded free _ =>
        refine ⟨rfl, rfl, fun id listed => ?_⟩
        have below := wellFormed.below_of_mem_activeSubtree
          (isActive_start_of_mem_activeSubtree listed) listed
        have idExcluded : last.tree.isExcluded id = true := by
          cases included : last.tree.isExcluded id with
          | true =>
              rfl
          | false =>
              rw [wellFormed.isExcluded_eq_false_of_below below included] at excluded
              exact absurd excluded (by simp)
        obtain ⟨node, found⟩ := contains_iff.1 (contains_of_mem_activeSubtree listed)
        rw [assignNodeTypes, free, node_eq_ok_iff.2 found]
        simp only [idExcluded, if_true]
  · rw [searches.included] at excluded
    exact absurd excluded (by simp)

/-- After a successful assignment, one to a node of the active subtree succeeds with the part of the
placements that is about this node and what is below it. After one that ended without an eligible
type, the same one ends so again. Either way it leaves everything as it is, when no two nodes share
an object and the names that the first one drew were new. -/
theorem assignNodeTypes_repeated (wellFormed : workspace.tree.WellFormed)
    (unshared : workspace.tree.ObjectsUnshared) {outcome : Except Error AssignmentReport}
    (called : engine.assignNodeTypes start workspace = (outcome, last))
    (fresh : workspace.ObjectsFreshUpTo last.supply.used) :
    (∀ report, outcome = .ok report → ∀ id ∈ workspace.tree.activeSubtree start,
      ∃ again, engine.assignNodeTypes id last = (.ok again, last) ∧
        again.placements <:+: report.placements ∧
        again.placements = report.placements.filter
          (fun placement => placement.node ∈ workspace.tree.activeSubtree id) ∧
        (workspace.tree.isExcluded start = false →
          again.placements.map Placement.node = workspace.tree.activeSubtree id)) ∧
    ∀ name obstacle, outcome = .error (.noEligibleType name obstacle) →
      engine.assignNodeTypes start last = (outcome, last) := by
  refine ⟨?_, ?_⟩
  · rintro report rfl id listed
    cases excluded : workspace.tree.isExcluded start with
    | true =>
        obtain ⟨rfl, rfl, again⟩ := assignNodeTypes_of_isExcluded wellFormed excluded called
        exact ⟨_, again id listed, List.infix_rfl, rfl, fun included => absurd included (by simp)⟩
    | false =>
        obtain ⟨choice, reported, again⟩ :=
          exists_repeated_of_ok wellFormed unshared fresh excluded called
        obtain ⟨objects, repeated⟩ := again id listed
        have block := wellFormed.activeSubtree_infix listed
        have nodup := wellFormed.activeSubtree_nodup start
        refine ⟨_, repeated, ?_, ?_, fun _ => placementsOf_nodes id choice⟩
        · rw [reported]
          exact block.map _
        · rw [reported, placementsOf, placementsOf, List.filter_map]
          exact congrArg (List.map _) (filter_mem_of_sublist block.sublist nodup).symm
  · rintro name obstacle rfl
    exact repeated_of_noEligibleType wellFormed unshared fresh called

/-- A workspace without objects, with names that never come back. -/
def unnamedWorkspace (tree : ContentTree) : Workspace MemoryStore :=
  { tree := tree, store := .empty, supply := ⟨Session.tally, 0⟩ }

theorem assignNodeTypes_repeated_archives :
    (∃ report again last, pcdmEngine.assignNodeTypes ⟨0⟩ (unnamedWorkspace smallArchive) =
        (.ok report, last) ∧
      pcdmEngine.assignNodeTypes ⟨1⟩ last = (.ok again, last) ∧
      again.placements <:+: report.placements ∧
      again.placements.map Placement.node = [⟨1⟩, ⟨2⟩]) ∧
    ∃ error last, pcdmEngine.assignNodeTypes ⟨0⟩ (unnamedWorkspace crowdedWorkspace.tree) =
        (.error error, last) ∧
      pcdmEngine.assignNodeTypes ⟨0⟩ last = (.error error, last) := by
  have unshared {tree : ContentTree} (noObject : ∀ id, tree.object? id = none) :
      tree.ObjectsUnshared := by
    intro first _ object held
    rw [noObject first] at held
    exact absurd held (by simp)
  have fresh {tree : ContentTree} (noObject : ∀ id, tree.object? id = none) (bound : Nat) :
      (unnamedWorkspace tree).ObjectsFreshUpTo bound := by
    refine ⟨Session.tally_injective.injOn, fun turn _ id held => ?_⟩
    have noneHeld : (unnamedWorkspace tree).tree.object? id = none := noObject id
    rw [noneHeld] at held
    exact absurd held (by simp)
  constructor
  · have noObjects : ∀ slot ∈ smallArchive.nodes, slot.bind Node.object = none := by decide
    have isFirst : Pcdm.profile.firstViable? smallArchive none ⟨0⟩ =
        some ⟨Pcdm.administrativeSet, none⟩ := by decide
    have objectsKnown : (unnamedWorkspace smallArchive).ObjectsKnown :=
      Workspace.objectsKnown_of_no_objects noObjects
    obtain ⟨report, done⟩ := exists_ok_of_firstViable? wellFormed_smallArchive rfl rfl rfl rfl
      isFirst (pcdmEngine.noStoreFault_assignNodeTypes objectsKnown ⟨0⟩)
    obtain ⟨succeeds, _⟩ := assignNodeTypes_repeated wellFormed_smallArchive
      (unshared (object?_eq_none noObjects)) (Prod.ext done rfl)
      (fresh (object?_eq_none noObjects) _)
    obtain ⟨again, repeated, block, _, nodes⟩ := succeeds report rfl ⟨1⟩ (by decide)
    exact ⟨report, again, _, Prod.ext done rfl, repeated, block, nodes rfl⟩
  · have noObjects : ∀ slot ∈ crowdedWorkspace.tree.nodes, slot.bind Node.object = none := by
      decide
    have notViable : Pcdm.profile.firstViable? crowdedWorkspace.tree none ⟨0⟩ = none := by decide
    have objectsKnown : (unnamedWorkspace crowdedWorkspace.tree).ObjectsKnown :=
      Workspace.objectsKnown_of_no_objects noObjects
    have searches : pcdmEngine.Searches (unnamedWorkspace crowdedWorkspace.tree).tree ⟨0⟩ none :=
      ⟨rfl, rfl, rfl, rfl, by simp⟩
    have wellFormed : (unnamedWorkspace crowdedWorkspace.tree).tree.WellFormed :=
      wellFormed_crowdedWorkspace
    obtain ⟨name, obstacle, failed⟩ := exists_noEligibleType_of_not_viable wellFormed searches
      notViable (pcdmEngine.noStoreFault_assignNodeTypes objectsKnown ⟨0⟩)
    obtain ⟨_, fails⟩ := assignNodeTypes_repeated wellFormed
      (unshared (object?_eq_none noObjects)) (Prod.ext failed rfl)
      (fresh (object?_eq_none noObjects) _)
    exact ⟨.noEligibleType name obstacle, _, Prod.ext failed rfl, fails name obstacle rfl⟩

end ProfileEngine

end ContentTyping

import ContentTyping.Proofs.Engine.Closure
import ContentTyping.Proofs.Engine.Transforms
import ContentTyping.Proofs.Plan.BestEffort
import ContentTyping.Proofs.Tree.Below
import ContentTyping.Proofs.Validation.Locality

/-!
# Ignored subtrees

What is ignored is found in two ways: a walk downwards stops at ignored nodes, a walk upwards looks for
them. From a start outside ignored subtrees both agree, so no operation sees anything inside. A walk
downwards does not look above its start, though: a report that is started inside an ignored subtree goes
on below the start.
-/

namespace ContentTyping

open ContentTree

namespace ContentTree

variable {tree : ContentTree} {id : NodeId}

/-- The node is ignored or lies below an ignored one. -/
def InIgnored (tree : ContentTree) (id : NodeId) : Prop :=
  ∃ above, Below tree above id ∧ ∃ node, tree.get? above = some node ∧ node.ignored = true

theorem InIgnored.contains (ignored : tree.InIgnored id) : tree.contains id = true := by
  obtain ⟨above, below, node, found, _⟩ := ignored
  exact contains_of_below (contains_iff.2 ⟨node, found⟩) below

/-- The walk upwards finds an ignored node exactly when there is one above. -/
theorem WellFormed.isExcluded_iff (wellFormed : tree.WellFormed)
    (live : tree.contains id = true) : tree.isExcluded id = true ↔ tree.InIgnored id := by
  rw [isExcluded, List.any_eq_true]
  constructor
  · rintro ⟨above, listed, skipped⟩
    obtain ⟨node, found, isIgnored⟩ := (Option.any_eq_true ..).1 skipped
    have below := (wellFormed.mem_ancestors_or_self_iff live).1 (List.mem_cons.1 listed)
    exact ⟨above, below, node, found, isIgnored⟩
  · rintro ⟨above, below, node, found, isIgnored⟩
    have listed := (wellFormed.mem_ancestors_or_self_iff live).2 below
    exact ⟨above, List.mem_cons.2 listed, (Option.any_eq_true ..).2 ⟨node, found, isIgnored⟩⟩

theorem WellFormed.isExcluded_of_inIgnored (wellFormed : tree.WellFormed)
    (ignored : tree.InIgnored id) : tree.isExcluded id = true :=
  (wellFormed.isExcluded_iff ignored.contains).2 ignored

/-- The walk downwards only meets an ignored subtree when it starts in one. -/
theorem WellFormed.inIgnored_start (wellFormed : tree.WellFormed) {start : NodeId}
    (ignored : tree.InIgnored id) (listed : id ∈ tree.activeSubtree start) :
    tree.InIgnored start := by
  have live := contains_of_isActive (isActive_start_of_mem_activeSubtree listed)
  cases included : tree.isExcluded start with
  | true =>
      exact (wellFormed.isExcluded_iff live).1 included
  | false =>
      have outside := ((wellFormed.mem_activeSubtree_iff_not_isExcluded live included).1 listed).2
      rw [wellFormed.isExcluded_of_inIgnored ignored] at outside
      exact absurd outside (by simp)

theorem get?_foldl_modify {α : Type} {items : List α} {place : α → NodeId}
    {change : α → Node → Node} (unlisted : id ∉ items.map place) :
    (items.foldl (fun next item => next.modify (place item) (change item)) tree).get? id =
      tree.get? id := by
  induction items generalizing tree with
  | nil =>
      rfl
  | cons item items inductionHypothesis =>
      rw [List.map_cons, List.mem_cons, not_or] at unlisted
      rw [List.foldl_cons, inductionHypothesis unlisted.2, get?_modify, if_neg unlisted.1]

end ContentTree

/-! ## Nodes of a plan -/

/-- A plan decides once on every node of the active subtree, and on no other. -/
theorem DomainProfile.plan_nodes_perm {profile : DomainProfile} {tree : ContentTree}
    (wellFormed : tree.WellFormed) {start : NodeId} (active : tree.isActive start = true)
    (parentType : Option NodeTypeId) :
    ((profile.plan tree start parentType).placements.map Placement.node ++
      (profile.plan tree start parentType).untyped).Perm (tree.activeSubtree start) := by
  cases isPlan : profile.plan tree start parentType with
  | complete placements =>
      obtain ⟨choice, _, rfl⟩ := (plan_eq_complete_iff_firstChoice wellFormed active).1 isPlan
      rw [Plan.placements, Plan.untyped, List.append_nil, placementsOf_nodes]
  | blocked placements untyped ending obstacle =>
      obtain ⟨choice, isBest⟩ := @exists_bestChoice profile _ wellFormed start parentType
      obtain ⟨rfl, rfl⟩ := eq_of_plan_eq_blocked wellFormed active isBest isPlan
      exact decided_append_undecided_perm tree start choice

namespace ProfileEngine

variable {engine : ProfileEngine} {S : Type} [ObjectStore S] {workspace : Workspace S}
  {id start : NodeId}

/-! ## Nodes that are left alone -/

theorem get?_recordTypes_of_ne {other : NodeId} (different : id ≠ other) (object : String)
    (types : List String) :
    (recordTypes other object types workspace).2.tree.get? id = workspace.tree.get? id := by
  rw [recordTypes]
  split
  · rfl
  · rw [Workspace.modifyNode, get?_modify, if_neg different]

theorem get?_syncObject_of_ne {other : NodeId} (different : id ≠ other) :
    (engine.syncObject other workspace).2.tree.get? id = workspace.tree.get? id := by
  rw [syncObject]
  split
  · rfl
  · split
    · rfl
    · split
      · rfl
      · split
        · exact get?_recordTypes_of_ne different _ _
        · split
          · rfl
          · split
            · rfl
            · exact get?_recordTypes_of_ne different _ _

theorem get?_syncObjects {ids : List NodeId} (unlisted : id ∉ ids) :
    (engine.syncObjects ids workspace).2.tree.get? id = workspace.tree.get? id := by
  induction ids generalizing workspace with
  | nil =>
      rfl
  | cons other ids inductionHypothesis =>
      rw [List.mem_cons, not_or] at unlisted
      have first := @get?_syncObject_of_ne engine S _ workspace id other unlisted.1
      rw [syncObjects]
      split
      next next synced =>
          rw [synced] at first
          exact (inductionHypothesis unlisted.2).trans first
      next synced =>
          rw [synced] at first
          exact first

theorem get?_writePlacements {placements : List Placement} {untyped : List NodeId}
    {outcome : Except Error Unit} {last : Workspace S}
    (written : engine.writePlacements placements untyped workspace = (outcome, last))
    (notPlaced : id ∉ placements.map Placement.node) (notErased : id ∉ untyped) :
    last.tree.get? id = workspace.tree.get? id := by
  obtain ⟨next, synced, isLast⟩ := writePlacements_cases written
  have sameAfterSync := @get?_syncObjects engine S _ { workspace with
    tree := untyped.foldl eraseType (placements.foldl writePlacement workspace.tree) } id _ notPlaced
  have sameAfterErasing : (untyped.foldl eraseType
      (placements.foldl writePlacement workspace.tree)).get? id =
        (placements.foldl writePlacement workspace.tree).get? id :=
    get?_foldl_modify (by rwa [List.map_id'])
  have sameAfterPlacing : (placements.foldl writePlacement workspace.tree).get? id =
      workspace.tree.get? id := get?_foldl_modify notPlaced
  rw [synced] at sameAfterSync
  have same : next.tree.get? id = workspace.tree.get? id :=
    sameAfterSync.trans (sameAfterErasing.trans sameAfterPlacing)
  rcases isLast with ⟨rfl, _⟩ | rfl
  · exact same
  · exact same

/-! ## Ignored nodes -/

/-- Whether it fails or not, an assignment leaves ignored subtrees as they are. -/
theorem get?_assignNodeTypes_of_inIgnored (wellFormed : workspace.tree.WellFormed)
    (ignored : workspace.tree.InIgnored id) (start : NodeId) :
    (engine.assignNodeTypes start workspace).2.tree.get? id = workspace.tree.get? id := by
  obtain ⟨outcome, last, called⟩ : ∃ outcome last,
      engine.assignNodeTypes start workspace = (outcome, last) := ⟨_, _, rfl⟩
  rw [called]
  rcases assignNodeTypes_cases called with ⟨rfl, _⟩ | ⟨parentType, searches⟩
  · rfl
  · have unlisted : id ∉ workspace.tree.activeSubtree start := by
      intro listed
      have startExcluded := wellFormed.isExcluded_of_inIgnored
        (wellFormed.inIgnored_start ignored listed)
      rw [searches.included] at startExcluded
      exact absurd startExcluded (by simp)
    have nodes := @DomainProfile.plan_nodes_perm engine.profile _ wellFormed _ searches.isActive
      parentType
    rw [← nodes.mem_iff, List.mem_append, not_or] at unlisted
    rw [searches.assignNodeTypes_eq] at called
    rcases carryOut_cases called with rfl | ⟨_, written, _⟩
    · rfl
    · exact get?_writePlacements written unlisted.1 unlisted.2

theorem legalTransforms_of_inIgnored {tree : ContentTree} (wellFormed : tree.WellFormed)
    (ignored : tree.InIgnored id) :
    engine.legalTransforms tree id = (engine.checkBinding tree).map fun _ => [] := by
  have noneLegal : engine.profile.legalTransforms tree id = [] := by
    refine List.eq_nil_iff_forall_not_mem.2 fun transform listed => ?_
    obtain ⟨definition, _, legal⟩ := DomainProfile.mem_legalTransforms_iff.1 listed
    obtain ⟨_, _, _, included, _⟩ := Transform.isLegal_iff.1 legal
    rw [wellFormed.isExcluded_of_inIgnored ignored] at included
    exact absurd included (by simp)
  obtain ⟨node, found⟩ := contains_iff.1 ignored.contains
  rw [legalTransforms, node_eq_ok_iff.2 found, noneLegal]
  cases engine.checkBinding tree with
  | error error => rfl
  | ok _ => rfl

theorem node_of_mem_checkNode {profile : DomainProfile} {tree : ContentTree}
    {violation : Violation} (reported : violation ∈ profile.checkNode tree id) :
    violation.node = id := by
  obtain ⟨_, _, rfl⟩ := List.mem_map.1 reported
  rfl

theorem not_reported_by_revalidateAround {tree : ContentTree} (wellFormed : tree.WellFormed)
    (ignored : tree.InIgnored id) {report : ValidationReport}
    (done : engine.revalidateAround tree start = .ok report) {violation : Violation}
    (reported : violation ∈ report.violations) : violation.node ≠ id := by
  obtain ⟨_, _, rfl⟩ := reading_eq_ok_iff.1 done
  obtain ⟨other, near, reportedThere⟩ := DomainProfile.mem_reportOn_iff.1 reported
  rw [node_of_mem_checkNode reportedThere]
  rintro rfl
  have included := (List.mem_filter.1 near).2
  rw [wellFormed.isExcluded_of_inIgnored ignored] at included
  exact absurd included (by simp)

theorem start_inIgnored_of_reported {tree : ContentTree} (wellFormed : tree.WellFormed)
    (ignored : tree.InIgnored id) {report : ValidationReport}
    (done : engine.validationReport tree start = .ok report) {violation : Violation}
    (reported : violation ∈ report.violations) (here : violation.node = id) :
    tree.InIgnored start ∧ tree.isActive start = true := by
  obtain ⟨_, _, rfl⟩ := validationReport_eq_ok_iff.1 done
  obtain ⟨other, listed, reportedThere⟩ := DomainProfile.mem_reportOn_iff.1 reported
  obtain rfl : other = id := (node_of_mem_checkNode reportedThere).symm.trans here
  exact ⟨wellFormed.inIgnored_start ignored listed, isActive_start_of_mem_activeSubtree listed⟩

/-- Nodes in ignored subtrees are never assigned, have no legal transforms and are not reported on,
unless a report is started at a node in an ignored subtree that is not ignored itself. -/
theorem ignored_left_out (wellFormed : workspace.tree.WellFormed)
    (ignored : workspace.tree.InIgnored id) (start : NodeId) :
    (engine.assignNodeTypes start workspace).2.tree.get? id = workspace.tree.get? id ∧
      engine.legalTransforms workspace.tree id =
        (engine.checkBinding workspace.tree).map (fun _ => []) ∧
      (∀ report, engine.revalidateAround workspace.tree start = .ok report →
        ∀ violation ∈ report.violations, violation.node ≠ id) ∧
      ∀ report, engine.validationReport workspace.tree start = .ok report →
        ∀ violation ∈ report.violations, violation.node = id →
          workspace.tree.InIgnored start ∧ workspace.tree.isActive start = true :=
  ⟨get?_assignNodeTypes_of_inIgnored wellFormed ignored start,
    legalTransforms_of_inIgnored wellFormed ignored,
    fun _ done _ reported => not_reported_by_revalidateAround wellFormed ignored done reported,
    fun _ done _ reported here => start_inIgnored_of_reported wellFormed ignored done reported here⟩

/-- An archive with an ignored item and a page in it. -/
def shelvedArchive : ContentTree :=
  let archive := (withRoot
    { identifier := "archive", name := "archive"
      file := some (.directory (.ofString "archive")) }).2
  let withItem := archive.withChild ⟨0⟩
    { identifier := "item", name := "item", ignored := true
      file := some (.directory (.ofString "archive/item")) }
  withItem.withChild ⟨1⟩
    { identifier := "page", name := "page.tif"
      file := some (.regularFile (.ofString "archive/item/page.tif") 4) }

theorem wellFormed_shelvedArchive : shelvedArchive.WellFormed := by
  refine WellFormed.withChild (WellFormed.withChild (wellFormed_withRoot _) rfl ?_) rfl ?_
  · simp [withRoot, ContentTree.insert, empty, Std.ExtTreeMap.contains_insert]
  · simp [index_withChild, withRoot, ContentTree.insert, empty, Std.ExtTreeMap.contains_insert]

theorem inIgnored_shelvedArchive : shelvedArchive.InIgnored ⟨2⟩ :=
  ⟨⟨1⟩, .child rfl .self, _, rfl, rfl⟩

/-- From the root the page in the ignored item is seen by no operation. -/
theorem ignored_left_out_shelvedArchive :
    (pcdmEngine.assignNodeTypes ⟨0⟩ { smallWorkspace with tree := shelvedArchive }).2.tree.get? ⟨2⟩ =
        shelvedArchive.get? ⟨2⟩ ∧
      pcdmEngine.legalTransforms shelvedArchive ⟨2⟩ = .ok [] ∧
      (∀ report, pcdmEngine.revalidateAround shelvedArchive ⟨0⟩ = .ok report →
        ∀ violation ∈ report.violations, violation.node ≠ ⟨2⟩) ∧
      ∀ report, pcdmEngine.validationReport shelvedArchive ⟨0⟩ = .ok report →
        ∀ violation ∈ report.violations, violation.node ≠ ⟨2⟩ := by
  obtain ⟨assigned, transforms, revalidated, validated⟩ := @ignored_left_out pcdmEngine MemoryStore _
    { smallWorkspace with tree := shelvedArchive } ⟨2⟩ wellFormed_shelvedArchive
    inIgnored_shelvedArchive ⟨0⟩
  have rootIncluded : shelvedArchive.isExcluded ⟨0⟩ = false := by decide
  refine ⟨assigned, transforms, revalidated, fun report done violation reported here => ?_⟩
  have rootIgnored := (validated report done violation reported here).1
  rw [wellFormed_shelvedArchive.isExcluded_of_inIgnored rootIgnored] at rootIncluded
  exact absurd rootIncluded (by simp)

/-- A report that starts at the page in the ignored item calls the page untyped. -/
theorem reported_shelvedArchive :
    shelvedArchive.WellFormed ∧ shelvedArchive.InIgnored ⟨2⟩ ∧
      pcdmEngine.validationReport shelvedArchive ⟨2⟩ =
        .ok ⟨1, [⟨⟨2⟩, "item/page.tif", .untyped⟩]⟩ := by
  refine ⟨wellFormed_shelvedArchive, inIgnored_shelvedArchive, ?_⟩
  rfl

end ProfileEngine

end ContentTyping

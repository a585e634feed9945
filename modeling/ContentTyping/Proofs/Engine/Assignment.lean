import ContentTyping.Proofs.Engine.Syncing
import ContentTyping.Proofs.Validation.RecordedChoice

/-!
# Outcomes of assignments

A successful assignment has carried out a complete plan: the first choice stands recorded on the
active subtree, the tree is bound to the profile, and besides these only objects have changed.
When there is a complete plan, only the store can keep it from being carried out.
-/

namespace ContentTyping

open ContentTree

namespace ProfileEngine

open DomainProfile

variable {engine : ProfileEngine} {tree : ContentTree}

/-! ## Guards -/

theorem checkBinding_eq_ok (free : ∀ bound, tree.profile = some bound →
    bound = engine.profile.identifier) : engine.checkBinding tree = .ok () := by
  rw [checkBinding]
  split
  · rfl
  next bound isBound =>
      rw [if_pos (free bound isBound)]

/-- What is read off a tree at a node is read when the engine does not refuse the tree and the node
is there. -/
theorem reading_eq_ok_iff {α : Type} {id : NodeId} {value result : α} :
    (do
      engine.checkBinding tree
      let _ ← tree.node id
      pure value : Except Error α) = .ok result ↔
      engine.checkBinding tree = .ok () ∧ tree.contains id = true ∧ value = result := by
  rw [bind_eq_ok_iff]
  simp only [bind_eq_ok_iff, node_eq_ok_iff, contains_iff, pure, Except.pure, Except.ok.injEq]
  constructor
  · rintro ⟨_, free, node, found, same⟩
    exact ⟨free, ⟨node, found⟩, same⟩
  · rintro ⟨free, ⟨node, found⟩, same⟩
    exact ⟨(), free, node, found, same⟩

theorem parentTypeOf_root {id : NodeId} {node : Node} (found : tree.get? id = some node)
    (noParent : tree.parent? id = none) : engine.parentTypeOf tree node = .ok none := by
  rw [parent?_of_get? found] at noParent
  rw [parentTypeOf, noParent]
  rfl

/-- The type handed to the planner is the type recorded for the parent, and the profile defines it. -/
theorem parentTypeOf_eq_ok_iff {id : NodeId} {node : Node} (found : tree.get? id = some node)
    {parentType : Option NodeTypeId} :
    engine.parentTypeOf tree node = .ok parentType ↔
      (tree.parent? id).map (fun parent => (tree.edgeOf parent).nodeType) =
          parentType.map some ∧
        ∀ type ∈ parentType, engine.profile.defines type = true := by
  rw [parent?_of_get? found, parentTypeOf]
  cases link : node.parent with
  | none =>
      cases parentType <;> simp [pure, Except.pure]
  | some parent =>
      rw [Option.map_some]
      cases aboveFound : tree.get? parent with
      | none =>
          cases parentType <;>
            simp [ContentTree.node, aboveFound, ContentTree.edgeOf, Bind.bind, Except.bind]
      | some above =>
          rw [edgeOf_of_get? aboveFound]
          cases typed : above.nodeType with
          | none =>
              cases parentType <;>
                simp [ContentTree.node, aboveFound, typed, Bind.bind, Except.bind]
          | some type =>
              simp only [ContentTree.node, aboveFound, typed, definition, Bind.bind, Except.bind,
                pure, Except.pure]
              cases parentType with
              | none =>
                  cases known : engine.profile.nodeType? type <;> simp
              | some other =>
                  by_cases same : type = other
                  · subst same
                    cases known : engine.profile.nodeType? type <;>
                      simp [DomainProfile.defines, known]
                  · cases known : engine.profile.nodeType? type <;> simp [same]

/-! ## Writing placements -/

theorem foldl_writePlacement_placementsOf (start : NodeId) (choice : NodeId → Candidate) :
    (placementsOf tree start choice).foldl writePlacement tree =
      tree.retype (tree.activeSubtree start) fun id => (choice id).edge := by
  rw [placementsOf, List.foldl_map]
  rfl

theorem agreeOn_writePlacement {α : Type} {view : Node → α}
    (kept : ∀ edge node, view (Node.typedAs edge node) = view node)
    (placements : List Placement) (tree : ContentTree) :
    AgreeOn view (placements.foldl writePlacement tree) tree := by
  refine AgreeOn.foldl (fun _ placement => ?_) placements tree
  exact .modify placement.node (kept ⟨some placement.nodeType, placement.relation⟩)

/-- Writing placements changes nothing but types and relations. -/
theorem agreeOn_written {α : Type} {view : Node → α}
    (kept : ∀ edge node, view (Node.typedAs edge node) = view node)
    (placements : List Placement) (untyped : List NodeId) (tree : ContentTree) :
    AgreeOn view (untyped.foldl eraseType (placements.foldl writePlacement tree)) tree := by
  refine AgreeOn.trans ?_ (agreeOn_writePlacement kept placements tree)
  refine AgreeOn.foldl (fun _ id => ?_) untyped _
  exact .modify id (kept ⟨none, none⟩)

section Writing

variable {S : Type} [ObjectStore S] {placements : List Placement} {untyped : List NodeId}
  {workspace last : Workspace S} {outcome : Except Error Unit}

/-- Types are written, then objects brought in line, and at the end the tree is bound when something
was placed. -/
theorem writePlacements_cases
    (called : engine.writePlacements placements untyped workspace = (outcome, last)) :
    ∃ next, engine.syncObjects (placements.map Placement.node)
        { workspace with
          tree := untyped.foldl eraseType (placements.foldl writePlacement workspace.tree) } =
        (outcome, next) ∧
      (last = next ∧ (outcome = .ok () → placements = []) ∨
        last = next.bindTo engine.profile.identifier) := by
  rw [writePlacements] at called
  split at called
  next error next refused =>
      obtain ⟨rfl, rfl⟩ := Prod.mk.inj called
      exact ⟨next, refused, .inl ⟨rfl, fun done => absurd done (by simp)⟩⟩
  next next synced =>
      obtain ⟨rfl, rfl⟩ := Prod.mk.inj called
      refine ⟨next, synced, ?_⟩
      split
      next nothing =>
          exact .inl ⟨rfl, fun _ => List.isEmpty_iff.1 nothing⟩
      · exact .inr rfl

/-- Whether writing fails or not, nothing but objects differs from what was to be written. -/
theorem writePlacements_nodes
    (called : engine.writePlacements placements untyped workspace = (outcome, last)) :
    AgreeOn Node.withoutObject last.tree
      (untyped.foldl eraseType (placements.foldl writePlacement workspace.tree)) := by
  obtain ⟨next, synced, isLast⟩ := writePlacements_cases called
  have nodes := (engine.syncObjects_objectsOnly (placements.map Placement.node)
    { workspace with
      tree := untyped.foldl eraseType (placements.foldl writePlacement workspace.tree) }).nodes
  rw [synced] at nodes
  rcases isLast with ⟨rfl, _⟩ | rfl
  · exact nodes
  · exact ⟨nodes.size, nodes.get⟩

/-- What shows neither types nor objects stays the same. -/
theorem writePlacements_agreeOn {α : Type} {view : Node → α}
    (isBlind : ∀ node : Node, view node.withoutObject = view node)
    (kept : ∀ edge node, view (Node.typedAs edge node) = view node)
    (called : engine.writePlacements placements untyped workspace = (outcome, last)) :
    AgreeOn view last.tree workspace.tree :=
  ((writePlacements_nodes called).ignoringObjects isBlind).trans
    (agreeOn_written kept placements untyped workspace.tree)

theorem writePlacements_profile (nonempty : placements ≠ [])
    (written : engine.writePlacements placements untyped workspace = (.ok (), last)) :
    last.tree.profile = some engine.profile.identifier := by
  obtain ⟨next, _, ⟨_, nothing⟩ | rfl⟩ := writePlacements_cases written
  · exact absurd (nothing rfl) nonempty
  · rfl

/-- When the placed nodes are there, only the store can keep placements from being written. -/
theorem writePlacements_error [LawfulObjectStore S] {error : Error}
    (live : ∀ placement ∈ placements, workspace.tree.contains placement.node = true)
    (failed : engine.writePlacements placements untyped workspace = (.error error, last)) :
    ∃ fault, error = .store fault := by
  obtain ⟨next, refused, _⟩ := writePlacements_cases failed
  refine engine.syncObjects_error (fun id member => ?_) (congrArg Prod.fst refused)
  obtain ⟨placement, placed, rfl⟩ := List.mem_map.1 member
  have links : AgreeOn Node.links
      (untyped.foldl eraseType (placements.foldl writePlacement workspace.tree)) workspace.tree :=
    agreeOn_written (fun _ _ => rfl) placements untyped workspace.tree
  rw [links.contains]
  exact live placement placed

end Writing

/-! ## Carrying out plans -/

section CarryOut

variable {S : Type} [ObjectStore S] {workspace last : Workspace S}

theorem carryOut_complete_cases {placements : List Placement}
    {outcome : Except Error AssignmentReport}
    (called : engine.carryOut (.complete placements) workspace = (outcome, last)) :
    (∃ error, outcome = .error error ∧
      engine.writePlacements placements [] workspace = (.error error, last)) ∨
    ∃ objects, outcome = .ok ⟨placements, objects⟩ ∧
      engine.writePlacements placements [] workspace = (.ok (), last) := by
  rw [carryOut] at called
  split at called
  next error next refused =>
      obtain ⟨rfl, rfl⟩ := Prod.mk.inj called
      exact .inl ⟨error, rfl, refused⟩
  next next written =>
      obtain ⟨rfl, rfl⟩ := Prod.mk.inj called
      exact .inr ⟨_, rfl, written⟩

theorem exists_complete_of_carryOut_ok {plan : Plan} {report : AssignmentReport}
    (done : (engine.carryOut plan workspace).1 = .ok report) :
    ∃ placements, plan = .complete placements := by
  cases plan with
  | complete placements => exact ⟨placements, rfl⟩
  | blocked placements untyped blocked obstacle =>
      -- With and without rollback the outcome is an error.
      rw [carryOut] at done
      split at done
      · exact absurd done (by simp)
      · split at done
        · exact absurd done (by simp)
        · split at done
          · exact absurd done (by simp)
          · exact absurd done (by simp)

end CarryOut

/-! ## Assigning types -/

section Assigning

variable {S : Type} [ObjectStore S] {workspace last : Workspace S} {start : NodeId}

theorem assignNodeTypes_eq_carryOut {node : Node}
    (free : engine.checkBinding workspace.tree = .ok ())
    (found : workspace.tree.get? start = some node)
    (included : workspace.tree.isExcluded start = false) {parentType : Option NodeTypeId}
    (isType : engine.parentTypeOf workspace.tree node = .ok parentType) :
    engine.assignNodeTypes start workspace =
      engine.carryOut (engine.profile.plan workspace.tree start parentType) workspace := by
  rw [assignNodeTypes, ContentTree.node, free, found]
  simp [included, isType]

/-- The engine gets as far as planning the types of the start below the parent's type. -/
structure Searches (engine : ProfileEngine) (tree : ContentTree) (start : NodeId)
    (parentType : Option NodeTypeId) : Prop where
  free : engine.checkBinding tree = .ok ()
  live : tree.contains start = true
  included : tree.isExcluded start = false
  parentTyped : (tree.parent? start).map (fun parent => (tree.edgeOf parent).nodeType) =
    parentType.map some
  known : ∀ type ∈ parentType, engine.profile.defines type = true

theorem Searches.of_parentTypeOf {node : Node} (free : engine.checkBinding tree = .ok ())
    (found : tree.get? start = some node) (included : tree.isExcluded start = false)
    {parentType : Option NodeTypeId} (isType : engine.parentTypeOf tree node = .ok parentType) :
    engine.Searches tree start parentType := by
  obtain ⟨parentTyped, known⟩ := (parentTypeOf_eq_ok_iff found).1 isType
  exact ⟨free, contains_iff.2 ⟨node, found⟩, included, parentTyped, known⟩

theorem Searches.isActive {parentType : Option NodeTypeId}
    (searches : engine.Searches tree start parentType) : tree.isActive start = true :=
  isActive_of_not_isExcluded searches.live searches.included

theorem Searches.assignNodeTypes_eq {parentType : Option NodeTypeId}
    (searches : engine.Searches workspace.tree start parentType) :
    engine.assignNodeTypes start workspace =
      engine.carryOut (engine.profile.plan workspace.tree start parentType) workspace := by
  obtain ⟨node, found⟩ := contains_iff.1 searches.live
  exact assignNodeTypes_eq_carryOut searches.free found searches.included
    ((parentTypeOf_eq_ok_iff found).2 ⟨searches.parentTyped, searches.known⟩)

/-- How a call can end before anything is planned. -/
inductive Declined (engine : ProfileEngine) (tree : ContentTree) (start : NodeId) :
    Except Error AssignmentReport → Prop
  | mismatch {error : Error} (refused : engine.checkBinding tree = .error error) :
      Declined engine tree start (.error error)
  | unknown {error : Error} (refused : tree.node start = .error error) :
      Declined engine tree start (.error error)
  | excluded (free : engine.checkBinding tree = .ok ())
      (excluded : tree.isExcluded start = true) : Declined engine tree start (.ok ⟨[], 0⟩)
  | parentUntyped {node : Node} {error : Error} (found : tree.get? start = some node)
      (refused : engine.parentTypeOf tree node = .error error) :
      Declined engine tree start (.error error)

/-- A call that does not get as far as planning changes nothing. -/
theorem assignNodeTypes_cases {outcome : Except Error AssignmentReport}
    (called : engine.assignNodeTypes start workspace = (outcome, last)) :
    last = workspace ∧ Declined engine workspace.tree start outcome ∨
      ∃ parentType, engine.Searches workspace.tree start parentType := by
  rw [assignNodeTypes] at called
  split at called
  next error _ refused =>
      obtain ⟨rfl, rfl⟩ := Prod.mk.inj called
      exact .inl ⟨rfl, .mismatch refused⟩
  next error _ refused =>
      obtain ⟨rfl, rfl⟩ := Prod.mk.inj called
      exact .inl ⟨rfl, .unknown refused⟩
  next node free isNode =>
      have found := node_eq_ok_iff.1 isNode
      split at called
      next excluded =>
          obtain ⟨rfl, rfl⟩ := Prod.mk.inj called
          exact .inl ⟨rfl, .excluded free excluded⟩
      next included =>
          split at called
          next error refused =>
              obtain ⟨rfl, rfl⟩ := Prod.mk.inj called
              exact .inl ⟨rfl, .parentUntyped found refused⟩
          next parentType isType =>
              exact .inr ⟨parentType, .of_parentTypeOf free found (Bool.eq_false_iff.2 included)
                isType⟩

theorem exists_searches_of_ok {report : AssignmentReport}
    (included : workspace.tree.isExcluded start = false)
    (done : engine.assignNodeTypes start workspace = (.ok report, last)) :
    ∃ parentType, engine.Searches workspace.tree start parentType := by
  rcases assignNodeTypes_cases done with ⟨_, declined⟩ | searches
  · cases declined with
    | excluded _ excluded =>
        rw [included] at excluded
        exact absurd excluded (by simp)
  · exact searches

theorem assignNodeTypes_ok {report : AssignmentReport}
    (included : workspace.tree.isExcluded start = false)
    (done : (engine.assignNodeTypes start workspace).1 = .ok report) :
    ∃ node parentType, engine.checkBinding workspace.tree = .ok () ∧
      workspace.tree.get? start = some node ∧
      engine.parentTypeOf workspace.tree node = .ok parentType := by
  obtain ⟨parentType, searches⟩ := exists_searches_of_ok included (Prod.ext done rfl)
  obtain ⟨node, found⟩ := contains_iff.1 searches.live
  exact ⟨node, parentType, searches.free, found,
    (parentTypeOf_eq_ok_iff found).2 ⟨searches.parentTyped, searches.known⟩⟩

/-- What a successful assignment leaves behind: the first choice below the parent's type is
reported and recorded, and the tree is bound to the profile. -/
structure Assigned (engine : ProfileEngine) (before after : ContentTree) (start : NodeId)
    (report : AssignmentReport) (parentType : Option NodeTypeId)
    (choice : NodeId → Candidate) : Prop where
  parentTyped : (before.parent? start).map (fun parent => (before.edgeOf parent).nodeType) =
    parentType.map some
  isFirst : engine.profile.FirstChoice before start parentType choice
  placements : report.placements = placementsOf before start choice
  recorded : Recorded before after start choice
  bound : after.profile = some engine.profile.identifier

theorem exists_written_of_ok (wellFormed : workspace.tree.WellFormed)
    (included : workspace.tree.isExcluded start = false) {report : AssignmentReport}
    (done : engine.assignNodeTypes start workspace = (.ok report, last)) :
    ∃ parentType choice, engine.Searches workspace.tree start parentType ∧
      Assigned engine workspace.tree last.tree start report parentType choice ∧
      engine.writePlacements report.placements [] workspace = (.ok (), last) := by
  obtain ⟨parentType, searches⟩ := exists_searches_of_ok included done
  rw [searches.assignNodeTypes_eq] at done
  obtain ⟨placements, complete⟩ := exists_complete_of_carryOut_ok (congrArg Prod.fst done)
  obtain ⟨choice, isFirst, rfl⟩ :=
    (plan_eq_complete_iff_firstChoice wellFormed searches.isActive).1 complete
  rw [complete] at done
  rcases carryOut_complete_cases done with ⟨_, isError, _⟩ | ⟨objects, isReport, written⟩
  · exact absurd isError (by simp)
  obtain rfl := Except.ok.inj isReport
  have nonempty : placementsOf workspace.tree start choice ≠ [] := by
    rw [placementsOf, wellFormed.activeSubtree_eq searches.isActive]
    exact List.cons_ne_nil _ _
  refine ⟨parentType, choice, searches, ⟨searches.parentTyped, isFirst, rfl, ⟨?_⟩,
    writePlacements_profile nonempty written⟩, written⟩
  rw [← foldl_writePlacement_placementsOf]
  exact writePlacements_nodes written

theorem exists_assigned_of_ok (wellFormed : workspace.tree.WellFormed)
    (included : workspace.tree.isExcluded start = false) {report : AssignmentReport}
    (done : (engine.assignNodeTypes start workspace).1 = .ok report) :
    ∃ parentType choice, Assigned engine workspace.tree
      (engine.assignNodeTypes start workspace).2.tree start report parentType choice := by
  obtain ⟨parentType, choice, _, assigned, _⟩ :=
    exists_written_of_ok wellFormed included (Prod.ext done rfl)
  exact ⟨parentType, choice, assigned⟩

/-- Where the start has a viable candidate, only the store can make an assignment fail. -/
theorem exists_ok_of_firstViable? [LawfulObjectStore S] (wellFormed : workspace.tree.WellFormed)
    {node : Node} (free : engine.checkBinding workspace.tree = .ok ())
    (found : workspace.tree.get? start = some node)
    (included : workspace.tree.isExcluded start = false) {parentType : Option NodeTypeId}
    (isType : engine.parentTypeOf workspace.tree node = .ok parentType) {candidate : Candidate}
    (first : engine.profile.firstViable? workspace.tree parentType start = some candidate)
    (noFault : NoStoreFault (engine.assignNodeTypes start workspace).1) :
    ∃ report, (engine.assignNodeTypes start workspace).1 = .ok report := by
  have active := isActive_of_not_isExcluded (contains_iff.2 ⟨node, found⟩) included
  obtain ⟨choice, isFirst⟩ := exists_firstChoice wellFormed active first
  have complete : engine.profile.plan workspace.tree start parentType =
      .complete (placementsOf workspace.tree start choice) :=
    (plan_eq_complete_iff_firstChoice wellFormed active).2 ⟨choice, isFirst, rfl⟩
  rw [assignNodeTypes_eq_carryOut free found included isType, complete] at noFault ⊢
  obtain ⟨outcome, last, called⟩ : ∃ outcome last, engine.carryOut
      (.complete (placementsOf workspace.tree start choice)) workspace = (outcome, last) :=
    ⟨_, _, rfl⟩
  rw [called] at noFault ⊢
  rcases carryOut_complete_cases called with ⟨error, rfl, refused⟩ | ⟨objects, rfl, _⟩
  · obtain ⟨fault, rfl⟩ := writePlacements_error contains_of_mem_placementsOf refused
    exact absurd rfl (noFault fault)
  · exact ⟨_, rfl⟩

theorem Assigned.edgeOf {before after : ContentTree} {report : AssignmentReport}
    {parentType : Option NodeTypeId} {choice : NodeId → Candidate}
    (assigned : Assigned engine before after start report parentType choice)
    {placement : Placement} (member : placement ∈ report.placements) :
    after.edgeOf placement.node = ⟨some placement.nodeType, placement.relation⟩ := by
  rw [assigned.placements, placementsOf] at member
  obtain ⟨id, listed, rfl⟩ := List.mem_map.1 member
  exact assigned.recorded.edgeOf listed

/-! ## Assigning types to the whole tree -/

theorem assignTree_eq_assignNodeTypes (isRoot : workspace.tree.root = some start) :
    engine.assignTree workspace = engine.assignNodeTypes start workspace := by
  rw [assignTree, isRoot]

theorem exists_assigned_of_assignTree_ok (wellFormed : workspace.tree.WellFormed)
    (isRoot : workspace.tree.root = some start) (active : workspace.tree.isActive start = true)
    {report : AssignmentReport} (done : (engine.assignTree workspace).1 = .ok report) :
    ∃ choice, Assigned engine workspace.tree (engine.assignTree workspace).2.tree start report
      none choice := by
  have noParent := wellFormed.root_parent start isRoot
  have included := isExcluded_eq_false_of_parent? noParent active
  rw [assignTree_eq_assignNodeTypes isRoot] at done ⊢
  obtain ⟨parentType, choice, assigned⟩ := exists_assigned_of_ok wellFormed included done
  have parentTyped := assigned.parentTyped
  rw [noParent, Option.map_none, eq_comm, Option.map_eq_none_iff] at parentTyped
  subst parentTyped
  exact ⟨choice, assigned⟩

theorem exists_ok_of_firstViable?_root [LawfulObjectStore S]
    (wellFormed : workspace.tree.WellFormed) (free : engine.checkBinding workspace.tree = .ok ())
    (isRoot : workspace.tree.root = some start) (active : workspace.tree.isActive start = true)
    {candidate : Candidate}
    (first : engine.profile.firstViable? workspace.tree none start = some candidate)
    (noFault : NoStoreFault (engine.assignTree workspace).1) :
    ∃ report, (engine.assignTree workspace).1 = .ok report := by
  have noParent := wellFormed.root_parent start isRoot
  have included := isExcluded_eq_false_of_parent? noParent active
  obtain ⟨node, found, _⟩ := isActive_iff.1 active
  rw [assignTree_eq_assignNodeTypes isRoot] at noFault ⊢
  exact exists_ok_of_firstViable? wellFormed free found included
    (engine.parentTypeOf_root found noParent) first noFault

end Assigning

end ProfileEngine

end ContentTyping

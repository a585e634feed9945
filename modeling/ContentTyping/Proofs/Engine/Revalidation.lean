import ContentTyping.Proofs.Engine.EditsInLine
import ContentTyping.Proofs.Engine.PcdmTransforms
import ContentTyping.Proofs.Tree.NodeOrigins
import ContentTyping.Proofs.Validation.Locality

/-!
# Revalidation after one edit

After one edit of a tree in order it is enough to look at the surroundings of the edited node: the
report on them has all violations of the full report. A removed node is no longer there to be looked
at, but its parent is; a moved node leaves two places to look at.
-/

namespace ContentTyping

open ContentTree

namespace ContentTree

variable {before after : ContentTree} {id : NodeId}

/-! ## Where edits change a tree -/

theorem ChangedAt.refl (tree : ContentTree) (id : NodeId) : ChangedAt tree tree id [] :=
  ⟨rfl, fun _ _ _ => rfl, fun _ _ _ _ => rfl⟩

theorem links_of_objectsOnly {change : Node → Node}
    (kept : ∀ node, (change node).links = node.links)
    (only : ObjectsOnly (before.modify id change) after) : AgreeOn Node.links after before :=
  (only.nodes.ignoringObjects fun _ => rfl).trans (.modify id kept)

theorem ChangedAt.of_objectsOnly {change : Node → Node}
    (kept : ∀ node, (change node).links = node.links)
    (only : ObjectsOnly (before.modify id change) after) : ChangedAt before after id [] where
  root := only.root
  nodes other different _ := by
    have alike : AgreeOn Node.alone after (before.modify id change) :=
      only.nodes.ignoringObjects fun _ => rfl
    have same := alike.get other
    rw [get?_modify, if_neg different] at same
    exact same
  children other _ _ _ := (links_of_objectsOnly kept only).children other

theorem changedAt_withChild {parent : NodeId} (live : before.contains parent = true)
    (node : Node) :
    ChangedAt before (before.withChild parent node) ⟨before.nodes.size⟩ [] where
  root := rfl
  nodes other different _ := by
    rw [get?_withChild live, if_neg different]
    by_cases isParent : other = parent
    · rw [if_pos isParent, isParent, Option.map_map]
      rfl
    · rw [if_neg isParent]
  children other _ distant _ := by
    rw [children_withChild live, if_neg]
    rintro rfl
    apply distant
    rw [mem_surroundings_iff, parent?_withChild live, if_pos rfl]
    exact .inl rfl

theorem agreeOn_dropChild (parent child : NodeId) :
    AgreeOn Node.alone (before.dropChild parent child) before :=
  .modify parent fun _ => rfl

theorem agreeOn_appendChild (parent child : NodeId) :
    AgreeOn Node.alone (before.appendChild parent child) before :=
  .modify parent fun _ => rfl

theorem LeftOver.changedAt {parent : NodeId} (leftOver : LeftOver before after id parent) :
    ChangedAt before after id [parent] where
  root := leftOver.root
  nodes other _ live := by
    have outside := (leftOver.contains_iff.1 live).2
    rw [leftOver.kept other outside]
    exact (agreeOn_dropChild parent id).get other
  children other live _ notParent := by
    rw [List.mem_singleton] at notParent
    rw [leftOver.children_eq (leftOver.contains_iff.1 live).2, children_dropChild,
      if_neg notParent]

theorem changedAt_reparent {oldParent newParent : NodeId}
    (live : before.contains id = true) (newLive : before.contains newParent = true) :
    ChangedAt before (before.reparent id oldParent newParent) id [oldParent] where
  root := rfl
  nodes other different _ := by
    rw [reparent, get?_modify, if_neg different]
    exact ((agreeOn_appendChild newParent id).trans (agreeOn_dropChild oldParent id)).get other
  children other _ distant notOld := by
    have notNew : other ≠ newParent := by
      rintro rfl
      apply distant
      rw [mem_surroundings_iff, parent?_reparent live, if_pos rfl]
      exact .inl rfl
    rw [List.mem_singleton] at notOld
    rw [children_reparent newLive, if_neg notNew, children_dropChild, if_neg notOld]

end ContentTree

namespace ProfileEngine

variable {engine : ProfileEngine} {id : NodeId}

/-! ## Edits at a node -/

/-- What the edits at a node have in common. -/
structure EditLeft (engine : ProfileEngine) (before : ContentTree) (id : NodeId)
    (after : ContentTree) : Prop where
  changed : ChangedAt before after id []
  wellFormed : after.WellFormed
  live : after.contains id = true
  /-- A node that was not there comes without children. -/
  kept : ∀ root, id ∈ after.activeSubtree root →
    id ∈ before.activeSubtree root ∨ after.children id = []
  free : engine.checkBinding after = .ok ()

namespace EditLeft

theorem refl {tree : ContentTree} (wellFormed : tree.WellFormed) (live : tree.contains id = true)
    (free : engine.checkBinding tree = .ok ()) : EditLeft engine tree id tree :=
  ⟨.refl tree id, wellFormed, live, fun _ listed => .inl listed, free⟩

theorem bind {before after : ContentTree} (left : EditLeft engine before id after) :
    EditLeft engine before id (after.bind engine.profile.identifier) := by
  have links : AgreeOn Node.links (after.bind engine.profile.identifier) after :=
    ⟨rfl, fun _ => rfl⟩
  refine ⟨⟨left.changed.root, left.changed.nodes, left.changed.children⟩,
    left.wellFormed.of_agreeOn links ⟨rfl, fun _ => rfl⟩ rfl rfl, left.live, ?_, ?_⟩
  · intro root listed
    rw [links.activeSubtree] at listed
    exact left.kept root listed
  · exact checkBinding_eq_ok fun bound isBound => (Option.some.inj isBound).symm

theorem withChild {tree : ContentTree} (wellFormed : tree.WellFormed)
    (free : engine.checkBinding tree = .ok ()) {parent : NodeId} {node : Node}
    {next : ContentTree} (added : tree.addChild parent node = .ok (id, next)) :
    EditLeft engine tree id next := by
  have wellFormedNext := wellFormed.addChild added
  obtain ⟨live, _, rfl, rfl⟩ := addChild_eq_ok_iff.1 added
  refine ⟨changedAt_withChild live node, wellFormedNext, ?_, ?_, free⟩
  · exact (contains_withChild live node _).2 (.inl rfl)
  · intro _ _
    right
    have parentOld := ne_size_of_contains live
    rw [children_withChild live, if_neg fun same => parentOld same.symm, children, get?_size]

variable {S : Type} [ObjectStore S] {workspace last : Workspace S}

theorem of_syncObject {change : Node → Node} (wellFormed : workspace.tree.WellFormed)
    (live : workspace.tree.contains id = true)
    (free : engine.checkBinding workspace.tree = .ok ()) {outcome : Except Error Unit}
    (synced : engine.syncObject id (workspace.modifyNode id change) = (outcome, last))
    (keptLinks : ∀ node, (change node).links = node.links)
    (keptNames : ∀ node, (change node).identifier = node.identifier) :
    EditLeft engine workspace.tree id last.tree := by
  have only := engine.syncObject_objectsOnly id (workspace.modifyNode id change)
  rw [synced] at only
  have links := links_of_objectsOnly keptLinks only
  have names : AgreeOn Node.identifier last.tree workspace.tree :=
    (only.nodes.ignoringObjects fun _ => rfl).trans (.modify id keptNames)
  have sameProfile : last.tree.profile = workspace.tree.profile := only.profile
  refine ⟨.of_objectsOnly keptLinks only,
    wellFormed.of_agreeOn links names only.root only.index, ?_, ?_, ?_⟩
  · rw [links.contains]
    exact live
  · intro root listed
    rw [links.activeSubtree] at listed
    exact .inl listed
  · rw [checkBinding, sameProfile]
    exact free

end EditLeft

section Edits

variable {S : Type} [ObjectStore S]

/-- One edit at a node that was not refused. A new leaf is edited by being added. -/
inductive EditedAt (engine : ProfileEngine) (before : Workspace S) (id : NodeId) :
    Workspace S → Prop
  | setNodeType {type : NodeTypeId} {after : Workspace S} :
      engine.setNodeType id type before = (.ok (), after) → EditedAt engine before id after
  | applyTransform {transform : TransformId} {after : Workspace S} :
      engine.applyTransform id transform before = (.ok (), after) → EditedAt engine before id after
  | addSubType {type : NodeTypeId} {after : Workspace S} :
      engine.addSubType id type before = (.ok (), after) → EditedAt engine before id after
  | removeSubType {type : NodeTypeId} {after : Workspace S} :
      engine.removeSubType id type before = (.ok (), after) → EditedAt engine before id after
  | addChild {parent : NodeId} {node : Node} {tree : ContentTree} :
      before.tree.addChild parent node = .ok (id, tree) →
        EditedAt engine before id { before with tree := tree }

theorem EditedAt.left {before after : Workspace S}
    (edited : engine.EditedAt before id after) (wellFormed : before.tree.WellFormed)
    (free : engine.checkBinding before.tree = .ok ()) :
    EditLeft engine before.tree id after.tree := by
  cases edited with
  | setNodeType done =>
      rw [ProfileEngine.setNodeType] at done
      split at done
      · exact absurd (congrArg Prod.fst done) (by simp)
      next node fits =>
          have live := contains_iff.2 ⟨node, (checkFit_ok fits).2⟩
          dsimp only at done
          split at done
          · exact absurd (congrArg Prod.fst done) (by simp)
          next last synced =>
              obtain rfl : last.bindTo engine.profile.identifier = after := congrArg Prod.snd done
              exact (EditLeft.of_syncObject wellFormed live free synced (fun _ => rfl)
                fun _ => rfl).bind
  | applyTransform done =>
      obtain ⟨_, definition, isDefined, legal⟩ :=
        exists_legal_of_applyTransform (congrArg Prod.fst done)
      obtain ⟨node, found, _⟩ := Transform.isLegal_iff.1 legal
      rw [applyTransform_eq_syncObject free found isDefined legal] at done
      exact .of_syncObject wellFormed (contains_iff.2 ⟨node, found⟩) free done (fun _ => rfl)
        fun _ => rfl
  | addSubType done =>
      rw [ProfileEngine.addSubType] at done
      split at done
      · exact absurd (congrArg Prod.fst done) (by simp)
      next node fits =>
          have live := contains_iff.2 ⟨node, (checkFit_ok fits).2⟩
          split at done
          · obtain rfl : before = after := congrArg Prod.snd done
            exact .refl wellFormed live free
          · exact .of_syncObject wellFormed live free done (fun _ => rfl) fun _ => rfl
  | removeSubType done =>
      rw [ProfileEngine.removeSubType] at done
      split at done
      · exact absurd (congrArg Prod.fst done) (by simp)
      · exact absurd (congrArg Prod.fst done) (by simp)
      next node _ isNode =>
          have live := contains_iff.2 ⟨node, node_eq_ok_iff.1 isNode⟩
          split at done
          · exact .of_syncObject wellFormed live free done (fun _ => rfl) fun _ => rfl
          · obtain rfl : before = after := congrArg Prod.snd done
            exact .refl wellFormed live free
  | addChild added =>
      exact .withChild wellFormed free added

end Edits

/-! ## Reports after edits -/

theorem revalidateAround_eq_ok_iff {tree : ContentTree} {report : ValidationReport} :
    engine.revalidateAround tree id = .ok report ↔ engine.checkBinding tree = .ok () ∧
      tree.contains id = true ∧ engine.profile.revalidateAround tree id = report :=
  reading_eq_ok_iff

/-- A look at the surroundings of a node gives the violations of the full report, in its order. -/
def SameViolations (engine : ProfileEngine) (tree : ContentTree) (root id : NodeId) : Prop :=
  ∃ full near, engine.validationReport tree root = .ok full ∧
    engine.revalidateAround tree id = .ok near ∧ full.violations = near.violations

/-- A violation is in the full report when a look at the surroundings of one of two nodes gives
it. -/
def ViolationsOfTwo (engine : ProfileEngine) (tree : ContentTree) (root first second : NodeId) :
    Prop :=
  ∃ full near other, engine.validationReport tree root = .ok full ∧
    engine.revalidateAround tree first = .ok near ∧
    engine.revalidateAround tree second = .ok other ∧
    ∀ violation, violation ∈ full.violations ↔
      violation ∈ near.violations ∨ violation ∈ other.violations

section Reports

variable {tree : ContentTree} {root : NodeId} (wellFormed : tree.WellFormed)
  (isRoot : tree.root = some root)
  (valid : (engine.profile.validationReport tree root).violations = [])
  (free : engine.checkBinding tree = .ok ())

include wellFormed isRoot valid

theorem sameViolations_of_editLeft {after : ContentTree} (left : EditLeft engine tree id after) :
    engine.SameViolations after root id := by
  have isRootAfter : after.root = some root := left.changed.root.trans isRoot
  refine ⟨_, _, validationReport_eq_ok_iff.2
    ⟨left.free, left.wellFormed.root_contained root isRootAfter, rfl⟩,
    revalidateAround_eq_ok_iff.2 ⟨left.free, left.live, rfl⟩, ?_⟩
  apply DomainProfile.violations_eq_revalidateAround left.wellFormed isRootAfter left.live
  intro other listed distant
  exact DomainProfile.defects_eq_nil_of_distant left.changed wellFormed left.wellFormed valid
    (left.kept root) listed distant List.not_mem_nil

include free

theorem sameViolations_of_removeSubtree {parent : NodeId} (link : tree.parent? id = some parent) :
    engine.SameViolations (tree.removeSubtree id).2 root parent := by
  have leftOver := wellFormed.leftOver_removeSubtree link
  have wellFormedAfter := wellFormed.removeSubtree id
  have freeAfter : engine.checkBinding (tree.removeSubtree id).2 = .ok () := by
    rw [checkBinding, profile_removeSubtree link]
    exact free
  generalize (tree.removeSubtree id).2 = after at *
  have isRootAfter : after.root = some root := leftOver.root.trans isRoot
  have parentLive : after.contains parent = true :=
    leftOver.contains_iff.2 ⟨wellFormed.contains_parent link, wellFormed.not_below_parent link⟩
  have gone : after.get? id = none := leftOver.removed id .self
  have surroundingsOfGone : after.surroundings id = [id] := by
    rw [surroundings, parent?, children, gone]
    rfl
  refine ⟨_, _, validationReport_eq_ok_iff.2
    ⟨freeAfter, wellFormedAfter.root_contained root isRootAfter, rfl⟩,
    revalidateAround_eq_ok_iff.2 ⟨freeAfter, parentLive, rfl⟩, ?_⟩
  apply DomainProfile.violations_eq_revalidateAround wellFormedAfter isRootAfter parentLive
  intro other listed distant
  refine DomainProfile.defects_eq_nil_of_distant leftOver.changedAt wellFormed wellFormedAfter valid
    ?_ listed ?_ ?_
  · intro _
    right
    rw [children, gone]
  · rw [surroundingsOfGone, List.mem_singleton]
    rintro rfl
    have stillLive := contains_of_mem_activeSubtree listed
    rw [contains, gone] at stillLive
    exact absurd stillLive (by simp)
  · rw [List.mem_singleton]
    rintro rfl
    exact distant (mem_surroundings_iff.2 (.inr (.inl rfl)))

theorem violationsOfTwo_of_reparent {oldParent newParent : NodeId}
    (link : tree.parent? id = some oldParent) (newLive : tree.contains newParent = true)
    (wellFormedAfter : (tree.reparent id oldParent newParent).WellFormed)
    (included : tree.isExcluded id = false) :
    engine.ViolationsOfTwo (tree.reparent id oldParent newParent) root id oldParent := by
  have live := contains_of_parent? link
  have changed : ChangedAt tree (tree.reparent id oldParent newParent) id [oldParent] :=
    changedAt_reparent live newLive
  have isRootAfter : (tree.reparent id oldParent newParent).root = some root := isRoot
  have liveAfter : (tree.reparent id oldParent newParent).contains id = true :=
    (contains_reparent id).trans live
  have oldLiveAfter : (tree.reparent id oldParent newParent).contains oldParent = true :=
    (contains_reparent oldParent).trans (wellFormed.contains_parent link)
  refine ⟨_, _, _, validationReport_eq_ok_iff.2
    ⟨free, wellFormedAfter.root_contained root isRootAfter, rfl⟩,
    revalidateAround_eq_ok_iff.2 ⟨free, liveAfter, rfl⟩,
    revalidateAround_eq_ok_iff.2 ⟨free, oldLiveAfter, rfl⟩, ?_⟩
  apply DomainProfile.mem_violations_iff_of_two wellFormedAfter isRootAfter liveAfter oldLiveAfter
  intro other listed distant farFromOld
  refine DomainProfile.defects_eq_nil_of_distant changed wellFormed wellFormedAfter valid ?_ listed
    distant ?_
  · intro _
    exact .inl (wellFormed.mem_activeSubtree_root isRoot live included)
  · rw [List.mem_singleton]
    rintro rfl
    exact farFromOld (mem_surroundings_iff.2 (.inr (.inl rfl)))

end Reports

variable {S : Type} [ObjectStore S]

/-- After one edit of a tree in order, a look around the edited node gives the violations of the full
report, in its order. After the removal of a node, a look around its parent does. After a move of a
node that was not excluded, looks around the node and around its old parent do, without the order. -/
theorem revalidateAround_finds_all {before : Workspace S} {root : NodeId}
    (wellFormed : before.tree.WellFormed) (isRoot : before.tree.root = some root)
    {report : ValidationReport} (checked : engine.validationReport before.tree root = .ok report)
    (valid : report.violations = []) :
    (∀ id (after : Workspace S), engine.EditedAt before id after →
      after.tree.root = some root ∧ engine.SameViolations after.tree root id) ∧
    (∀ id parent removed after, before.tree.parent? id = some parent →
      before.tree.removeSubtree id = (.ok removed, after) →
      after.root = some root ∧ engine.SameViolations after root parent) ∧
    (∀ id oldParent newParent after, before.tree.parent? id = some oldParent →
      before.tree.isExcluded id = false → before.tree.moveNode id newParent = .ok after →
      after.root = some root ∧ engine.ViolationsOfTwo after root id oldParent) := by
  obtain ⟨free, _, rfl⟩ := validationReport_eq_ok_iff.1 checked
  refine ⟨?_, ?_, ?_⟩
  · intro id after edited
    have left := edited.left wellFormed free
    exact ⟨left.changed.root.trans isRoot,
      sameViolations_of_editLeft wellFormed isRoot valid left⟩
  · intro id parent removed after link isRemoved
    have leftOver := wellFormed.leftOver_removeSubtree link
    have sameViolations := sameViolations_of_removeSubtree wellFormed isRoot valid free link
    rw [isRemoved] at leftOver sameViolations
    exact ⟨leftOver.root.trans isRoot, sameViolations⟩
  · intro id oldParent newParent after link included moved
    have wellFormedAfter := wellFormed.moveNode moved
    obtain ⟨parent, isParent, _, newLive, _, rfl⟩ := moveNode_eq_ok_iff.1 moved
    obtain rfl : oldParent = parent := Option.some.inj (link.symm.trans isParent)
    exact ⟨isRoot, violationsOfTwo_of_reparent wellFormed isRoot valid free link newLive
      wellFormedAfter included⟩

/-- The item becomes a collection with a page in it; the page is removed; it is moved out of the
item. -/
theorem revalidateAround_finds_all_collection :
    (∃ after, pcdmEngine.setNodeType ⟨1⟩ Pcdm.collection collectionWorkspace = (.ok (), after) ∧
      pcdmEngine.SameViolations after.tree ⟨0⟩ ⟨1⟩) ∧
    (∃ removed after, collectionWorkspace.tree.removeSubtree ⟨2⟩ = (.ok removed, after) ∧
      pcdmEngine.SameViolations after ⟨0⟩ ⟨1⟩) ∧
    (∃ after, collectionWorkspace.tree.moveNode ⟨2⟩ ⟨0⟩ = .ok after ∧
      pcdmEngine.ViolationsOfTwo after ⟨0⟩ ⟨2⟩ ⟨1⟩) := by
  have valid : pcdmEngine.validationReport collectionWorkspace.tree ⟨0⟩ = .ok ⟨3, []⟩ := by decide
  have typed : (pcdmEngine.setNodeType ⟨1⟩ Pcdm.collection collectionWorkspace).1 = .ok () := by
    decide +kernel
  obtain ⟨edits, removals, moves⟩ :=
    @revalidateAround_finds_all pcdmEngine MemoryStore _ collectionWorkspace ⟨0⟩
      wellFormed_collectionWorkspace rfl _ valid rfl
  refine ⟨⟨_, Prod.ext typed rfl, ?_⟩, ⟨_, _, rfl, ?_⟩, ⟨_, rfl, ?_⟩⟩
  · exact (edits ⟨1⟩ _ (.setNodeType (Prod.ext typed rfl))).2
  · exact (removals ⟨2⟩ ⟨1⟩ _ _ rfl rfl).2
  · exact (moves ⟨2⟩ ⟨1⟩ ⟨0⟩ _ rfl (by decide) rfl).2

end ProfileEngine

end ContentTyping

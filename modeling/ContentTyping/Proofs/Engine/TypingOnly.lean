import ContentTyping.Proofs.Engine.FileKinds

/-!
# What engines leave alone

An engine writes to the fields of nodes that clearing empties, and to the profile of the tree. So whatever
engines have done to a tree without types is undone by clearing it. In a store of records an engine adds
records and replaces classes; it takes nothing away.
-/

namespace ContentTyping

open ContentTree ProfileEngine

namespace ContentTree

variable {tree first second : ContentTree}

/-! ## Trees that are alike when cleared -/

/-- Nothing is recorded about the typing of any node. -/
def Untyped (tree : ContentTree) : Prop :=
  tree.profile = none ∧ ∀ id node, tree.get? id = some node → node.clearTyping = node

theorem ext_get? (sameSize : first.nodes.size = second.nodes.size)
    (sameNodes : ∀ id, first.get? id = second.get? id) (sameRoot : first.root = second.root)
    (sameProfile : first.profile = second.profile) (sameIndex : first.index = second.index) :
    first = second := by
  have sameSlots : first.nodes = second.nodes := by
    refine Array.ext sameSize fun slot inFirst inSecond => ?_
    have same := sameNodes ⟨slot⟩
    rwa [get?, get?, Array.getElem?_eq_getElem inFirst, Array.getElem?_eq_getElem inSecond,
      Option.join_some, Option.join_some] at same
  cases first
  cases second
  simp_all only

theorem clearTyping_eq_of_agreeOn (agree : AgreeOn Node.clearTyping first second)
    (sameRoot : first.root = second.root) (sameIndex : first.index = second.index) :
    first.clearTyping = second.clearTyping := by
  refine ext_get? ?_ (fun id => ?_) sameRoot rfl sameIndex
  · simpa [clearTyping] using agree.size
  · rw [get?_clearTyping, get?_clearTyping, agree.get]

theorem Untyped.clearTyping_eq (untyped : tree.Untyped) : tree.clearTyping = tree := by
  refine ext_get? (by simp [clearTyping]) (fun id => ?_) rfl untyped.1.symm rfl
  rw [get?_clearTyping]
  cases found : tree.get? id with
  | none =>
      rfl
  | some node =>
      rw [Option.map_some, untyped.2 id node found]

theorem clearTyping_modify (id : NodeId) {change : Node → Node}
    (typingOnly : ∀ node, (change node).clearTyping = node.clearTyping) :
    (tree.modify id change).clearTyping = tree.clearTyping :=
  clearTyping_eq_of_agreeOn (.modify id typingOnly) rfl rfl

theorem ObjectsOnly.clearTyping_eq (only : ObjectsOnly first second) :
    second.clearTyping = first.clearTyping :=
  clearTyping_eq_of_agreeOn (only.nodes.ignoringObjects fun _ => rfl) only.root only.index

end ContentTree

/-! ## Calls -/

section Calls

variable {engine : ProfileEngine} {S : Type} [ObjectStore S] {workspace last : Workspace S}
  {outcome : Except Error Unit}

theorem NodeCall.Writes.clearTyping_eq {tree : ContentTree} {before : Node} {call : NodeCall}
    {change : Node → Node} (writes : Writes engine tree before call change) (node : Node) :
    (change node).clearTyping = node.clearTyping := by
  cases writes with
  | setNodeType => rfl
  | addSubType => rfl
  | removeSubType => rfl
  | transform => rfl

theorem ProfileEngine.clearTyping_writePlacements {placements : List Placement}
    {untyped : List NodeId}
    (written : engine.writePlacements placements untyped workspace = (outcome, last)) :
    last.tree.clearTyping = workspace.tree.clearTyping := by
  obtain ⟨next, only, isLast⟩ := exists_objectsOnly_of_writePlacements written
  have writes (tree : ContentTree) (placement : Placement) :
      (writePlacement tree placement).clearTyping = tree.clearTyping :=
    clearTyping_modify placement.node fun _ => rfl
  have erases (tree : ContentTree) (id : NodeId) :
      (eraseType tree id).clearTyping = tree.clearTyping :=
    clearTyping_modify id fun _ => rfl
  have placed := foldl_kept ContentTree.clearTyping writes placements workspace.tree
  have erased := foldl_kept ContentTree.clearTyping erases untyped
    (placements.foldl writePlacement workspace.tree)
  have synced : next.tree.clearTyping = workspace.tree.clearTyping :=
    only.clearTyping_eq.trans (erased.trans placed)
  rcases isLast with ⟨rfl, _⟩ | rfl
  · exact synced
  · exact synced

/-- Whatever a call writes, and whether it fails or not, is undone by clearing the tree. -/
theorem EngineCall.Performed.clearTyping_eq {call : EngineCall}
    (performed : Performed engine workspace call outcome last) :
    last.tree.clearTyping = workspace.tree.clearTyping := by
  cases performed with
  | unchanged =>
      rfl
  | @atNode call _ _ performed =>
      obtain rfl | ⟨_, change, _, writes, next, only, isLast⟩ :=
        NodeCall.exists_objectsOnly_of_performed performed
      · rfl
      · have synced : next.tree.clearTyping = workspace.tree.clearTyping :=
          only.clearTyping_eq.trans (clearTyping_modify call.node writes.clearTyping_eq)
        rcases isLast with rfl | rfl
        · exact synced
        · exact synced
  | assigned _ done _ =>
      exact clearTyping_writePlacements done

end Calls

/-! ## Records -/

/-- Every record of the first store is in the second one, if need be with other classes. -/
def MemoryStore.KeepsRecords (before after : MemoryStore) : Prop :=
  ∀ object record, before.record? object = some record →
    ∃ types, after.record? object = some { record with types := types }

namespace MemoryStore.KeepsRecords

variable {store before between after : MemoryStore}

theorem refl (store : MemoryStore) : store.KeepsRecords store :=
  fun _ record found => ⟨record.types, found⟩

theorem trans (upper : before.KeepsRecords between) (lower : between.KeepsRecords after) :
    before.KeepsRecords after := by
  intro object record found
  obtain ⟨middle, middleFound⟩ := upper object record found
  obtain ⟨types, afterFound⟩ := lower object _ middleFound
  exact ⟨types, afterFound⟩

theorem register (store : MemoryStore) (object node : String) :
    store.KeepsRecords (store.register object node) := by
  intro other record found
  refine ⟨record.types, ?_⟩
  cases known : store.contains object with
  | true =>
      rw [MemoryStore.register, if_pos known]
      exact found
  | false =>
      have different : other ≠ object := by
        rintro rfl
        rw [contains_iff.2 ⟨record, found⟩] at known
        exact absurd known (by simp)
      rw [record?_register_of_ne different]
      exact found

theorem setTypes (store : MemoryStore) (object : String) (types : List String) :
    store.KeepsRecords (ObjectStore.setTypes store object types).2 := by
  cases isRecord : store.record? object with
  | none =>
      simp only [ObjectStore.setTypes, MemoryStore.setTypes, isRecord]
      exact .refl store
  | some known =>
      rw [setTypes_eq_put isRecord]
      intro other record found
      rw [record?_put]
      split
      next same =>
          rw [same, isRecord] at found
          obtain rfl := Option.some.inj found
          exact ⟨types, rfl⟩
      · exact ⟨record.types, found⟩

end MemoryStore.KeepsRecords

section Records

variable {engine : ProfileEngine} {workspace last : Workspace MemoryStore}
  {outcome : Except Error Unit}

theorem ProfileEngine.keepsRecords_recordTypes (id : NodeId) (object : String)
    (types : List String) (workspace : Workspace MemoryStore) :
    workspace.store.KeepsRecords (recordTypes id object types workspace).2.store := by
  have kept := MemoryStore.KeepsRecords.setTypes workspace.store object types
  rw [recordTypes]
  split
  next refused =>
      rw [refused] at kept
      exact kept
  next taken =>
      rw [taken] at kept
      exact kept

theorem ProfileEngine.keepsRecords_syncObject (id : NodeId) (workspace : Workspace MemoryStore) :
    workspace.store.KeepsRecords (engine.syncObject id workspace).2.store := by
  rw [syncObject]
  split
  · exact .refl _
  · split
    · exact .refl _
    · split
      · exact .refl _
      · split
        · exact keepsRecords_recordTypes id _ _ workspace
        · split
          · exact .refl _
          · have registered := MemoryStore.KeepsRecords.register workspace.store
            exact (registered _ _).trans (keepsRecords_recordTypes id _ _
              { workspace with store := workspace.store.register _ _, supply := _ })

theorem ProfileEngine.keepsRecords_syncObjects (ids : List NodeId)
    (workspace : Workspace MemoryStore) :
    workspace.store.KeepsRecords (engine.syncObjects ids workspace).2.store := by
  induction ids generalizing workspace with
  | nil =>
      exact .refl _
  | cons id ids inductionHypothesis =>
      have step := @keepsRecords_syncObject engine id workspace
      rw [syncObjects]
      split
      next next synced =>
          rw [synced] at step
          exact step.trans (inductionHypothesis next)
      next synced =>
          rw [synced] at step
          exact step

theorem EngineCall.Performed.keepsRecords {call : EngineCall}
    (performed : Performed engine workspace call outcome last) :
    workspace.store.KeepsRecords last.store := by
  cases performed with
  | unchanged =>
      exact .refl _
  | @atNode call _ _ performed =>
      have kept (change : Node → Node) :=
        @keepsRecords_syncObject engine call.node (workspace.modifyNode call.node change)
      cases performed with
      | unchanged =>
          exact .refl _
      | @written _ change _ _ _ _ _ synced _ =>
          have step := kept change
          rw [synced] at step
          exact step
      | @bound _ change _ _ _ _ synced =>
          have step := kept change
          rw [synced] at step
          exact step
  | @assigned _ start parentType _ _ _ _ done _ =>
      obtain ⟨next, synced, isLast⟩ := writePlacements_cases done
      have kept (ids : List NodeId) (tree : ContentTree) :=
        @keepsRecords_syncObjects engine ids { workspace with tree := tree }
      have steps := kept
        ((engine.profile.plan workspace.tree start parentType).placements.map Placement.node)
        ((engine.profile.plan workspace.tree start parentType).untyped.foldl eraseType
          ((engine.profile.plan workspace.tree start parentType).placements.foldl writePlacement
            workspace.tree))
      rw [synced] at steps
      rcases isLast with ⟨rfl, _⟩ | rfl
      · exact steps
      · exact steps

end Records

/-! ## Histories -/

namespace Turn

/-- The turn is not an edit of the tree. -/
def LeavesTree {S : Type} : Turn S → Prop
  | .edit _ => False
  | _ => True

theorem clearTyping_perform {S : Type} [ObjectStore S] {engines : Nat → ProfileEngine}
    {turn : Turn S} (leaves : turn.LeavesTree) (state : SharedTree S) :
    (turn.perform engines state).tree.clearTyping = state.tree.clearTyping := by
  cases turn with
  | edit change => exact absurd leaves id
  | operate engine call => exact (EngineCall.performed rfl).clearTyping_eq
  | restock engine store => rfl

/-- Clearing a tree undoes whatever engines have done to it, with whatever stores and whatever
outcomes: a tree that nothing was recorded on is back as it was, slot by slot. And no call takes a record
from a store of records or changes more of one than its classes. -/
theorem clearing_undoes_calls {S : Type} [ObjectStore S] (engines : Nat → ProfileEngine)
    {start : SharedTree S} (untyped : start.tree.Untyped) {turns : List (Turn S)}
    (leaves : ∀ turn ∈ turns, turn.LeavesTree) :
    (run engines turns start).tree.clearTyping = start.tree ∧
      ∀ (engine : ProfileEngine) (call : EngineCall) (workspace : Workspace MemoryStore),
        workspace.store.KeepsRecords (call.perform engine workspace).2.store := by
  constructor
  · have same : (run engines turns start).tree.clearTyping = start.tree.clearTyping :=
      run_induction (motive := fun state => state.tree.clearTyping = start.tree.clearTyping)
        (fun state _ leaves same => (clearTyping_perform leaves state).trans same)
        (throughout_of_forall_mem fun turn member _ => leaves turn member) rfl
    exact same.trans untyped.clearTyping_eq
  · intro engine call workspace
    exact (EngineCall.performed rfl).keepsRecords

/-- Calls of two engines on the archive; the store of the first one is emptied on the way, so that it does
not know the objects that it is asked for afterwards. -/
def archiveCalls : List (Turn MemoryStore) :=
  [.operate 0 .assignTree,
    .operate 1 (.atNode (.addSubType ⟨1⟩ Pcdm.collection)),
    .restock 0 .empty,
    .operate 0 (.atNode (.setNodeType ⟨1⟩ Pcdm.collection)),
    .operate 0 (.assignNodeTypes ⟨1⟩)]

theorem clearing_undoes_archiveCalls :
    sharedArchive.tree.Untyped ∧ (∀ turn ∈ archiveCalls, turn.LeavesTree) ∧
      (run (fun _ => pcdmEngine) archiveCalls sharedArchive).tree.clearTyping = smallArchive := by
  have untyped : sharedArchive.tree.Untyped := by
    have eachUntyped : ∀ slot ∈ smallArchive.nodes.toList, ∀ node ∈ slot,
        node.clearTyping = node := by decide
    refine ⟨rfl, fun id node found => ?_⟩
    rw [sharedArchive, get?, Option.join_eq_some_iff] at found
    exact eachUntyped (some node) (Array.mem_toList_iff.2 (Array.mem_of_getElem? found)) node rfl
  have leaves : ∀ turn ∈ archiveCalls, turn.LeavesTree := by
    simp [archiveCalls, LeavesTree]
  exact ⟨untyped, leaves, (clearing_undoes_calls (fun _ => pcdmEngine) untyped leaves).1⟩

end Turn

end ContentTyping

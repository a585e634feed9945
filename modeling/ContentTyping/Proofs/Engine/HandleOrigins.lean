import Mathlib.Data.List.Induction
import ContentTyping.Proofs.Engine.FileKinds

/-!
# Where handles come from

Types and relations are recorded as bare handles, which mean something in one profile only. That a tree is
bound to the profile of its handles is recorded apart from them, by some of the writers and after
they are done. In a history in which no handle is left in an unbound tree, an engine that accepts the
tree finds only handles of its own profile.
-/

namespace ContentTyping

open ContentTree ProfileEngine

/-! ## Handles on nodes -/

/-- A reference to a part of a profile, as a node records it. -/
inductive Handle where
  | nodeType (type : NodeTypeId)
  | subType (type : NodeTypeId)
  | relation (relation : RelationId)

namespace Node

/-- What the node records of a profile. -/
def handles (node : Node) : Option NodeTypeId × List NodeTypeId × Option RelationId :=
  (node.nodeType, node.subTypes, node.relation)

/-- The handle is recorded on the node. -/
def Carries (node : Node) : Handle → Prop
  | .nodeType type => node.nodeType = some type
  | .subType type => type ∈ node.subTypes
  | .relation relation => node.relation = some relation

/-- The node records nothing of any profile. -/
def Bare (node : Node) : Prop :=
  ∀ handle, ¬ node.Carries handle

variable {node other : Node} {handle : Handle}

theorem unlinked_handles : Unlinked handles :=
  fun _ _ _ _ _ => rfl

theorem Carries.of_handles (carried : node.Carries handle) (same : other.handles = node.handles) :
    other.Carries handle := by
  simp only [handles, Prod.mk.injEq] at same
  obtain ⟨sameType, sameSubTypes, sameRelation⟩ := same
  cases handle with
  | nodeType type => exact sameType.trans carried
  | subType type =>
      rw [Carries, sameSubTypes]
      exact carried
  | relation relation => exact sameRelation.trans carried

theorem Bare.of_handles (bare : node.Bare) (same : other.handles = node.handles) : other.Bare :=
  fun handle carried => bare handle (carried.of_handles same.symm)

theorem bare_of_handles_eq (nothing : node.handles = (none, [], none)) : node.Bare := by
  simp only [handles, Prod.mk.injEq] at nothing
  obtain ⟨noType, noSubTypes, noRelation⟩ := nothing
  intro handle carried
  cases handle with
  | nodeType type =>
      exact absurd (noType.symm.trans carried) (by simp)
  | subType type =>
      rw [Carries, noSubTypes] at carried
      exact absurd carried List.not_mem_nil
  | relation relation =>
      exact absurd (noRelation.symm.trans carried) (by simp)

end Node

namespace ContentTree

def Carries (tree : ContentTree) (id : NodeId) (handle : Handle) : Prop :=
  ∃ node, tree.get? id = some node ∧ node.Carries handle

/-- No node records anything of a profile. -/
def Bare (tree : ContentTree) : Prop :=
  ∀ id node, tree.get? id = some node → node.Bare

namespace Bare

variable {tree after : ContentTree}

theorem not_carries (bare : tree.Bare) (id : NodeId) (handle : Handle) :
    ¬ tree.Carries id handle := by
  rintro ⟨node, found, carried⟩
  exact bare id node found handle carried

theorem of_objectsOnly (bare : tree.Bare) (only : ObjectsOnly tree after) : after.Bare := by
  intro id node found
  have alike : AgreeOn Node.handles tree after := (only.nodes.ignoringObjects fun _ => rfl).symm
  obtain ⟨old, oldFound, same⟩ := alike.exists_get? found
  exact (bare id old oldFound).of_handles same.symm

theorem eraseType (bare : tree.Bare) (id : NodeId) : (ProfileEngine.eraseType tree id).Bare := by
  intro other node found
  rw [ProfileEngine.eraseType, get?_modify] at found
  split at found
  · obtain ⟨old, oldFound, rfl⟩ := Option.map_eq_some_iff.1 found
    intro handle carried
    cases handle with
    | nodeType type => exact absurd carried (by simp [Node.Carries])
    | subType type => exact bare other old oldFound (.subType type) carried
    | relation relation => exact absurd carried (by simp [Node.Carries])
  · exact bare other node found

theorem withRoot {node : Node} (bare : node.Bare) : (ContentTree.withRoot node).2.Bare := by
  intro id other found
  rw [get?_withRoot] at found
  split at found
  · obtain rfl := Option.some.inj found
    exact bare.of_handles rfl
  · exact absurd found (by simp)

theorem clearTyping (tree : ContentTree) : tree.clearTyping.Bare := by
  intro id node found
  rw [get?_clearTyping] at found
  obtain ⟨old, _, rfl⟩ := Option.map_eq_some_iff.1 found
  exact Node.bare_of_handles_eq rfl

theorem edit {edit : Edit} {state : Copying} (bare : state.tree.Bare)
    (added : edit.AddsOnly Node.Bare) (spares : edit.Spares Node.handles) :
    (edit.perform state).2.tree.Bare := by
  intro id node found
  exact Edit.kind_of_perform Node.unlinked_handles (fun _ _ before same => before.of_handles same)
    (fun _ => Node.bare_of_handles_eq rfl) added spares bare found

end Bare

end ContentTree

/-! ## Bindings -/

theorem ProfileEngine.eq_of_checkBinding {engine : ProfileEngine} {tree : ContentTree}
    (accepted : engine.checkBinding tree = .ok ()) {identifier : String}
    (isBound : tree.profile = some identifier) : identifier = engine.profile.identifier := by
  rw [checkBinding, isBound] at accepted
  by_contra different
  simp only [if_neg different] at accepted
  exact absurd accepted (by simp)

namespace EngineCall

variable {engine : ProfileEngine} {S : Type} [ObjectStore S] {workspace last : Workspace S}
  {call : EngineCall} {outcome : Except Error Unit}

/-- An engine that accepts a tree leaves it bound to no other profile. -/
theorem eq_of_bound (performed : Performed engine workspace call outcome last)
    (accepted : engine.checkBinding workspace.tree = .ok ()) {identifier : String}
    (isBound : last.tree.profile = some identifier) : identifier = engine.profile.identifier := by
  rcases profile_cases performed with same | bound
  · exact eq_of_checkBinding accepted (same.symm.trans isBound)
  · exact Option.some.inj (isBound.symm.trans bound)

theorem unbound_before (performed : Performed engine workspace call outcome last)
    (isUnbound : last.tree.profile = none) : workspace.tree.profile = none := by
  rcases profile_cases performed with same | bound
  · exact same.symm.trans isUnbound
  · rw [bound] at isUnbound
    exact absurd isUnbound (by simp)

end EngineCall

/-! ## Calls on a bare tree -/

section Calls

variable {engine : ProfileEngine} {S : Type} [ObjectStore S] [LawfulObjectStore S]
  {workspace last : Workspace S} {outcome : Except Error Unit}

/-- On a bare tree only types are set or added, and the tree is bound unless the type is a further one or
the store refuses the object. -/
theorem NodeCall.bound_or_bare {call : NodeCall}
    (performed : Performed engine workspace call outcome last) (bare : workspace.tree.Bare) :
    last.tree.profile = some engine.profile.identifier ∨ last.tree.Bare ∨
      (∃ fault, outcome = .error (.store fault)) ∨
      ∃ id type, call = .addSubType id type ∧ outcome = .ok () := by
  cases performed with
  | unchanged =>
      exact .inr (.inl bare)
  | bound =>
      exact .inl rfl
  | @written node change _ _ free found writes synced notBound =>
      cases outcome with
      | error error =>
          have refused : (engine.syncObject call.node (workspace.modifyNode call.node change)).1 =
              .error error := by
            rw [synced]
          obtain ⟨fault, rfl⟩ := engine.syncObject_error
            (NodeCall.contains_modifyNode found change) refused
          exact .inr (.inr (.inl ⟨fault, rfl⟩))
      | ok _ =>
          cases writes with
          | setNodeType =>
              exact absurd rfl (notBound rfl _ _)
          | addSubType =>
              exact .inr (.inr (.inr ⟨_, _, rfl, rfl⟩))
          | @removeSubType _ type carried =>
              exact absurd carried (bare _ node found (.subType type))
          | @transform _ definition _ legal =>
              obtain ⟨typed, typedFound, isSource, _⟩ := Transform.isLegal_iff.1 legal
              exact absurd isSource (bare _ typed typedFound (.nodeType definition.source))

theorem EngineCall.bound_or_bare {call : EngineCall}
    (performed : Performed engine workspace call outcome last) (bare : workspace.tree.Bare) :
    last.tree.profile = some engine.profile.identifier ∨ last.tree.Bare ∨
      (∃ fault, outcome = .error (.store fault)) ∨
      ∃ id type, call = .atNode (.addSubType id type) ∧ outcome = .ok () := by
  cases performed with
  | unchanged =>
      exact .inr (.inl bare)
  | atNode performed =>
      rcases NodeCall.bound_or_bare performed bare with isBound | stillBare | fault | ⟨id, type, rfl, done⟩
      · exact .inl isBound
      · exact .inr (.inl stillBare)
      · exact .inr (.inr (.inl fault))
      · exact .inr (.inr (.inr ⟨id, type, rfl, done⟩))
  | @assigned _ start parentType written _ _ searches done fails =>
      cases written with
      | error error =>
          have live := @DomainProfile.contains_of_mem_plan engine.profile workspace.tree start
            searches.live parentType
          obtain ⟨fault, rfl⟩ := writePlacements_error live done
          exact .inr (.inr (.inl ⟨fault, fails _ rfl⟩))
      | ok _ =>
          obtain ⟨next, only, ⟨rfl, nothing⟩ | rfl⟩ := exists_objectsOnly_of_writePlacements done
          · -- Without placements types are erased only.
            rw [nothing rfl, List.foldl_nil] at only
            have erased := List.foldlRecOn
              (engine.profile.plan workspace.tree start parentType).untyped ProfileEngine.eraseType
              (motive := ContentTree.Bare) bare fun _ stillBare id _ => stillBare.eraseType id
            exact .inr (.inl (erased.of_objectsOnly only))
          · exact .inl rfl

end Calls

namespace Turn

variable {S : Type} [ObjectStore S] {engines : Nat → ProfileEngine} {start : SharedTree S}
  {turns : List (Turn S)} {id : NodeId} {handle : Handle}

/-! ## Origins -/

/-- Who wrote a handle that a node carries at the end of a history. Copies carry the handles of what was
copied. -/
inductive HandleOrigin (engines : Nat → ProfileEngine) (start : SharedTree S) :
    List (Turn S) → NodeId → Handle → Nat → Prop
  | written {turns : List (Turn S)} {engine : Nat} {call : EngineCall} {id : NodeId}
      {handle : Handle} (isNew : ¬ (run engines turns start).tree.Carries id handle)
      (carried : (run engines (turns ++ [.operate engine call]) start).tree.Carries id handle) :
      HandleOrigin engines start (turns ++ [.operate engine call]) id handle engine
  | kept {turns : List (Turn S)} {turn : Turn S} {id : NodeId} {handle : Handle} {writer : Nat}
      (before : HandleOrigin engines start turns id handle writer)
      (carried : (run engines (turns ++ [turn]) start).tree.Carries id handle) :
      HandleOrigin engines start (turns ++ [turn]) id handle writer
  | copied {turns : List (Turn S)} {top target source id : NodeId} {old node : Node}
      {handle : Handle} {writer : Nat}
      (before : HandleOrigin engines start turns source handle writer)
      (isNew : (run engines turns start).tree.get? id = none)
      (sourceFound : (run engines turns start).tree.get? source = some old)
      (found : (run engines (turns ++ [.edit (.copySubtree top target)]) start).tree.get? id =
        some node)
      (same : node.handles = old.handles) :
      HandleOrigin engines start (turns ++ [.edit (.copySubtree top target)]) id handle writer

namespace HandleOrigin

theorem carried {writer : Nat} (origin : HandleOrigin engines start turns id handle writer) :
    (run engines turns start).tree.Carries id handle := by
  induction origin with
  | written _ carried =>
      exact carried
  | kept _ carried _ =>
      exact carried
  | @copied _ _ _ _ _ old node _ _ _ _ sourceFound found same inductionHypothesis =>
      obtain ⟨other, otherFound, otherCarries⟩ := inductionHypothesis
      obtain rfl : old = other := Option.some.inj (sourceFound.symm.trans otherFound)
      exact ⟨node, found, otherCarries.of_handles same⟩

theorem operated {writer : Nat} (origin : HandleOrigin engines start turns id handle writer) :
    ∃ call, .operate writer call ∈ turns := by
  induction origin with
  | @written _ _ call _ _ _ _ =>
      exact ⟨call, List.mem_append_right _ List.mem_cons_self⟩
  | kept _ _ inductionHypothesis =>
      obtain ⟨call, member⟩ := inductionHypothesis
      exact ⟨call, List.mem_append_left _ member⟩
  | copied _ _ _ _ _ inductionHypothesis =>
      obtain ⟨call, member⟩ := inductionHypothesis
      exact ⟨call, List.mem_append_left _ member⟩

end HandleOrigin

/-! ## Unbound trees -/

/-- How handles get into a tree that is bound to no profile, or stay in it. -/
inductive LeavesUnbound (engines : Nat → ProfileEngine) (state : SharedTree S) : Turn S → Prop
  | subType {engine : Nat} {id : NodeId} {type : NodeTypeId}
      (unbound : state.tree.profile = none)
      (added : ((engines engine).addSubType id type (state.workspace engine)).1 = .ok ()) :
      LeavesUnbound engines state (.operate engine (.atNode (.addSubType id type)))
  | storeFault {engine : Nat} {call : EngineCall} {fault : StoreFault}
      (unbound : state.tree.profile = none)
      (failed : (call.perform (engines engine) (state.workspace engine)).1 =
        .error (.store fault)) :
      LeavesUnbound engines state (.operate engine call)
  | removal {id : NodeId} (unbound : (state.tree.removeSubtree id).2.profile = none)
      (left : ¬ (state.tree.removeSubtree id).2.Bare) :
      LeavesUnbound engines state (.edit (.removeSubtree id))

/-- In a well-formed tree no removal does so: only with the root a tree gets free, and then no node is
left. -/
theorem not_leavesUnbound_of_removeSubtree {state : SharedTree S}
    (wellFormed : state.tree.WellFormed) (bare : state.tree.profile = none → state.tree.Bare) :
    ¬ LeavesUnbound engines state (.edit (.removeSubtree id)) := by
  rintro (_ | _ | ⟨unbound, left⟩)
  apply left
  intro other node found
  rcases profile_removeSubtree_cases state.tree id with same | ⟨_, top, topFound, noParent⟩
  · obtain ⟨old, oldFound, sameHandles⟩ :=
      OnlyKept.removeSubtree Node.unlinked_handles id other node found
    exact (bare (same.symm.trans unbound) other old oldFound).of_handles sameHandles
  · rw [wellFormed.get?_removeSubtree_of_root topFound noParent] at found
    exact absurd found (by simp)

/-- An unbound tree is bare, and in a bound one all handles were written by engines of that profile. -/
structure Traced (engines : Nat → ProfileEngine) (start : SharedTree S) (turns : List (Turn S)) :
    Prop where
  unbound : (run engines turns start).tree.profile = none → (run engines turns start).tree.Bare
  bound : ∀ identifier, (run engines turns start).tree.profile = some identifier →
    ∀ id handle, (run engines turns start).tree.Carries id handle →
      ∃ writer, HandleOrigin engines start turns id handle writer ∧
        (engines writer).profile.identifier = identifier

namespace Traced

/-- A turn that leaves the tree as it is leaves all origins. -/
theorem of_same_tree (traced : Traced engines start turns) {turn : Turn S}
    (same : (run engines (turns ++ [turn]) start).tree = (run engines turns start).tree) :
    Traced engines start (turns ++ [turn]) where
  unbound := by
    rw [same]
    exact traced.unbound
  bound identifier isBound id handle carried := by
    have before := carried
    rw [same] at isBound before
    obtain ⟨writer, origin, isWriter⟩ := traced.bound identifier isBound id handle before
    exact ⟨writer, .kept origin carried, isWriter⟩

theorem edit (traced : Traced engines start turns) {change : Edit}
    (respects : (Turn.edit change : Turn S).Respects Node.Bare Node.handles)
    (binds : ¬ LeavesUnbound engines (run engines turns start) (.edit change)) :
    Traced engines start (turns ++ [.edit change]) := by
  let state := run engines turns start
  have after : (run engines (turns ++ [.edit change]) start).tree =
      (change.perform ⟨state.tree, state.supply⟩).2.tree := by
    rw [run_concat]
    rfl
  constructor
  · intro isUnbound
    rw [after] at isUnbound ⊢
    rcases change.profile_perform ⟨state.tree, state.supply⟩ with
      same | ⟨_, ⟨node, rfl⟩ | rfl | ⟨id, rfl⟩⟩
    · exact Bare.edit (traced.unbound (same.symm.trans isUnbound)) respects.1 respects.2
    · exact Bare.withRoot respects.1
    · exact Bare.clearTyping state.tree
    · by_contra left
      exact binds (.removal isUnbound left)
  · intro identifier isBound id handle carried
    have carriedAfter := carried
    rw [after] at isBound carriedAfter
    have boundBefore : state.tree.profile = some identifier := by
      rcases change.profile_perform ⟨state.tree, state.supply⟩ with same | ⟨unbound, _⟩
      · exact same.symm.trans isBound
      · rw [unbound] at isBound
        exact absurd isBound (by simp)
    obtain ⟨node, found, nodeCarries⟩ := carriedAfter
    cases Edit.nodeOrigin Node.unlinked_handles respects.2 found with
    | kept oldFound same =>
        obtain ⟨writer, origin, isWriter⟩ := traced.bound identifier boundBefore id handle
          ⟨_, oldFound, nodeCarries.of_handles same.symm⟩
        exact ⟨writer, .kept origin carried, isWriter⟩
    | root same =>
        exact absurd (nodeCarries.of_handles same.symm) (respects.1 handle)
    | child same =>
        exact absurd (nodeCarries.of_handles same.symm) (respects.1 handle)
    | copy isNew oldFound same =>
        obtain ⟨writer, origin, isWriter⟩ := traced.bound identifier boundBefore _ handle
          ⟨_, oldFound, nodeCarries.of_handles same.symm⟩
        rw [← after] at found
        exact ⟨writer, .copied origin isNew oldFound found same, isWriter⟩
    | cleared _ isCleared =>
        rw [isCleared] at nodeCarries
        exact absurd nodeCarries (Node.bare_of_handles_eq rfl handle)

theorem operate [LawfulObjectStore S] (traced : Traced engines start turns) {engine : Nat}
    {call : EngineCall}
    (binds : ¬ LeavesUnbound engines (run engines turns start) (.operate engine call)) :
    Traced engines start (turns ++ [.operate engine call]) := by
  let state := run engines turns start
  let result := call.perform (engines engine) (state.workspace engine)
  have performed : EngineCall.Performed (engines engine) (state.workspace engine) call result.1
      result.2 := EngineCall.performed rfl
  have after : (run engines (turns ++ [.operate engine call]) start).tree = result.2.tree := by
    rw [run_concat]
    rfl
  by_cases accepted : (engines engine).checkBinding state.tree = .ok ()
  · constructor
    · intro isUnbound
      rw [after] at isUnbound ⊢
      have unboundBefore : state.tree.profile = none := EngineCall.unbound_before performed isUnbound
      rcases EngineCall.bound_or_bare performed (traced.unbound unboundBefore) with
        isBound | stillBare | ⟨fault, failed⟩ | ⟨id, type, rfl, added⟩
      · rw [isBound] at isUnbound
        exact absurd isUnbound (by simp)
      · exact stillBare
      · exact absurd (.storeFault unboundBefore failed) binds
      · exact absurd (.subType unboundBefore added) binds
    · intro identifier isBound id handle carried
      rw [after] at isBound
      have isOwn := EngineCall.eq_of_bound performed accepted isBound
      by_cases before : state.tree.Carries id handle
      · cases boundBefore : state.tree.profile with
        | none =>
            exact absurd before ((traced.unbound boundBefore).not_carries id handle)
        | some other =>
            obtain ⟨writer, origin, isWriter⟩ := traced.bound other boundBefore id handle before
            have otherIsOwn := eq_of_checkBinding accepted boundBefore
            exact ⟨writer, .kept origin carried, isWriter.trans (otherIsOwn.trans isOwn.symm)⟩
      · exact ⟨engine, .written before carried, isOwn.symm⟩
  · have same := EngineCall.unchanged_of_refused performed accepted
    refine traced.of_same_tree (after.trans ?_)
    rw [same]
    rfl

end Traced

theorem traced_run [LawfulObjectStore S] (unbound : start.tree.profile = none)
    (bare : start.tree.Bare)
    (respects : ∀ turn ∈ turns, turn.Respects Node.Bare Node.handles)
    (binds : Throughout engines (fun state turn => ¬ LeavesUnbound engines state turn) turns
      start) : Traced engines start turns := by
  induction turns using List.reverseRecOn with
  | nil =>
      refine ⟨fun _ => bare, fun identifier isBound => ?_⟩
      exact absurd (unbound.symm.trans isBound) (by simp)
  | append_singleton turns turn inductionHypothesis =>
      obtain ⟨bindsBefore, bindsLast⟩ := throughout_concat.1 binds
      have traced := inductionHypothesis
        (fun earlier member => respects earlier (List.mem_append_left _ member)) bindsBefore
      cases turn with
      | edit change =>
          exact traced.edit (respects _ (List.mem_append_right _ List.mem_cons_self)) bindsLast
      | operate engine call =>
          exact traced.operate bindsLast
      | restock engine store =>
          refine traced.of_same_tree ?_
          rw [run_concat]
          rfl

/-- Engines whose profiles differ in their identifiers work on one tree, which is edited in between.
Whenever an engine accepts the tree, every handle in it was written by an engine with the same profile,
unless handles were left in an unbound tree before. -/
theorem handles_keep_to_profile [LawfulObjectStore S]
    (distinct : ∀ first second, (engines first).profile.identifier =
      (engines second).profile.identifier → (engines first).profile = (engines second).profile)
    (unbound : start.tree.profile = none) (bare : start.tree.Bare)
    (respects : ∀ turn ∈ turns, turn.Respects Node.Bare Node.handles)
    (binds : Throughout engines (fun state turn => ¬ LeavesUnbound engines state turn) turns start)
    {engine : Nat}
    (accepted : (engines engine).checkBinding (run engines turns start).tree = .ok ())
    {id : NodeId} {handle : Handle} (carried : (run engines turns start).tree.Carries id handle) :
    ∃ writer, HandleOrigin engines start turns id handle writer ∧
      (engines writer).profile = (engines engine).profile := by
  have traced := traced_run unbound bare respects binds
  cases isBound : (run engines turns start).tree.profile with
  | none =>
      exact absurd carried ((traced.unbound isBound).not_carries id handle)
  | some identifier =>
      obtain ⟨writer, origin, isWriter⟩ := traced.bound identifier isBound id handle carried
      have isOwn := eq_of_checkBinding accepted isBound
      exact ⟨writer, origin, distinct writer engine (isWriter.trans isOwn)⟩

/-- An engine for the built-in profile and others for that of papers. -/
def mixedEngines : Nat → ProfileEngine
  | 0 => pcdmEngine
  | _ + 1 => { profile := paperProfile }

theorem mixedEngines_distinct {first second : Nat}
    (same : (mixedEngines first).profile.identifier = (mixedEngines second).profile.identifier) :
    (mixedEngines first).profile = (mixedEngines second).profile := by
  have different : Pcdm.profile.identifier ≠ paperProfile.identifier := by decide
  cases first with
  | zero =>
      cases second with
      | zero => rfl
      | succ => exact absurd same different
  | succ =>
      cases second with
      | zero => exact absurd same.symm different
      | succ => rfl

theorem bare_sharedFolder : sharedFolder.tree.Bare :=
  .withRoot (Node.bare_of_handles_eq rfl)

/-- The folder is typed, the other engine is refused, and the typed folder is copied. -/
def folderTurns : List (Turn MemoryStore) :=
  [.operate 0 (.atNode (.setNodeType ⟨0⟩ Pcdm.collection)),
    .operate 1 (.atNode (.setNodeType ⟨0⟩ ⟨0⟩)),
    .edit (.addChild ⟨0⟩ { identifier := "box", name := "box" }),
    .operate 0 (.atNode (.setNodeType ⟨1⟩ Pcdm.object)),
    .edit (.copySubtree ⟨1⟩ ⟨0⟩)]

theorem handles_keep_to_profile_folderTurns :
    mixedEngines 0 = pcdmEngine ∧
      pcdmEngine.checkBinding (run mixedEngines folderTurns sharedFolder).tree = .ok () ∧
      ∀ id handle, (run mixedEngines folderTurns sharedFolder).tree.Carries id handle →
        ∃ writer, HandleOrigin mixedEngines sharedFolder folderTurns id handle writer ∧
          (mixedEngines writer).profile = Pcdm.profile := by
  have respects : ∀ turn ∈ folderTurns, turn.Respects Node.Bare Node.handles := by
    have bareBox : ({ identifier := "box", name := "box" } : Node).Bare :=
      Node.bare_of_handles_eq rfl
    simp [folderTurns, Respects, Edit.AddsOnly, Edit.Spares, bareBox]
  have binds : Throughout mixedEngines
      (fun state turn => ¬ LeavesUnbound mixedEngines state turn) folderTurns sharedFolder := by
    -- Only the first turn finds the tree unbound, and it binds it.
    refine ⟨?_, ?_, ?_, ?_, ?_, trivial⟩
    · rintro (_ | ⟨_, failed⟩ | _)
      have done : (Except.ok () : Except Error Unit) = .error (.store _) := failed
      exact absurd done (by simp)
    · rintro (_ | ⟨unbound, _⟩ | _)
      have bound : some Pcdm.profile.identifier = none := unbound
      exact absurd bound (by simp)
    · rintro (_ | _ | _)
    · rintro (_ | ⟨unbound, _⟩ | _)
      have bound : some Pcdm.profile.identifier = none := unbound
      exact absurd bound (by simp)
    · rintro (_ | _ | _)
  have accepted : pcdmEngine.checkBinding (run mixedEngines folderTurns sharedFolder).tree =
      .ok () := rfl
  refine ⟨rfl, accepted, fun id handle carried => ?_⟩
  exact @handles_keep_to_profile MemoryStore _ mixedEngines sharedFolder folderTurns _
    (fun _ _ => mixedEngines_distinct) rfl bare_sharedFolder respects binds 0 accepted id handle carried

/-- A further type leaves the tree unbound. So the engine for papers accepts a tree with a handle that only
the engine for the built-in profile can have written. -/
theorem stray_sharedFolder :
    let turns : List (Turn MemoryStore) :=
      [.operate 0 (.atNode (.addSubType ⟨0⟩ Pcdm.collection))]
    sharedFolder.tree.profile = none ∧ sharedFolder.tree.Bare ∧
      (mixedEngines 1).checkBinding (run mixedEngines turns sharedFolder).tree = .ok () ∧
      (run mixedEngines turns sharedFolder).tree.Carries ⟨0⟩ (.subType Pcdm.collection) ∧
      ¬ ∃ writer, HandleOrigin mixedEngines sharedFolder turns ⟨0⟩ (.subType Pcdm.collection)
          writer ∧ (mixedEngines writer).profile = (mixedEngines 1).profile := by
  refine ⟨rfl, bare_sharedFolder, rfl, ⟨_, rfl, List.mem_cons_self⟩, ?_⟩
  rintro ⟨writer, origin, sameProfile⟩
  obtain ⟨call, member⟩ := origin.operated
  have isFirst : writer = 0 := (Turn.operate.inj (List.mem_singleton.1 member)).1
  rw [isFirst] at sameProfile
  have different : Pcdm.profile ≠ paperProfile := by decide
  exact different sameProfile

end Turn

end ContentTyping

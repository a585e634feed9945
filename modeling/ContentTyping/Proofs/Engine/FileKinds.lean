import ContentTyping.Proofs.Engine.Histories

/-!
# Types and file kinds

Four writers give types to nodes: the planner and the typing by hand look at the file of the node, but a
transform does not. When a profile is built, source and result of each transform are compared, and a type
for either kind of file passes as the source of any other. So types keep to the files of their nodes as
long as no transform leads from such a type to one that the node at hand does not fit.
-/

namespace ContentTyping

open ContentTree ProfileEngine

/-! ## Nodes that fit their files -/

namespace Node

/-- Each type of the node accepts the node's file, and none is listed twice as a further type. -/
structure FitsFile (profile : DomainProfile) (node : Node) : Prop where
  primary : ∀ type, node.nodeType = some type → type ∈ profile.typesForKind node.fileKind
  further : ∀ type ∈ node.subTypes, type ∈ profile.typesForKind node.fileKind
  nodup : node.subTypes.Nodup

/-- The kind of the node's file, and the types that have to go with it. -/
def kindAndTypes (node : Node) : Option FileKind × Option NodeTypeId × List NodeTypeId :=
  (node.fileKind, node.nodeType, node.subTypes)

structure Typeless (node : Node) : Prop where
  nodeType : node.nodeType = none
  subTypes : node.subTypes = []

variable {profile : DomainProfile} {node other : Node}

theorem unlinked_kindAndTypes : Unlinked kindAndTypes :=
  fun _ _ _ _ _ => rfl

theorem FitsFile.of_kindAndTypes (fits : node.FitsFile profile)
    (same : other.kindAndTypes = node.kindAndTypes) : other.FitsFile profile := by
  simp only [kindAndTypes, Prod.mk.injEq] at same
  obtain ⟨sameKind, sameType, sameSubTypes⟩ := same
  constructor
  · rw [sameType, sameKind]
    exact fits.primary
  · rw [sameSubTypes, sameKind]
    exact fits.further
  · rw [sameSubTypes]
    exact fits.nodup

theorem FitsFile.retyped (fits : node.FitsFile profile) {type : NodeTypeId}
    (accepted : type ∈ profile.typesForKind node.fileKind) (isType : other.nodeType = some type)
    (sameFile : other.file = node.file) (sameSubTypes : other.subTypes = node.subTypes) :
    other.FitsFile profile := by
  have sameKind : other.fileKind = node.fileKind := by
    rw [fileKind, fileKind, sameFile]
  constructor
  · intro carried isCarried
    obtain rfl : type = carried := Option.some.inj (isType.symm.trans isCarried)
    rwa [sameKind]
  · rw [sameSubTypes, sameKind]
    exact fits.further
  · rw [sameSubTypes]
    exact fits.nodup

theorem Typeless.fitsFile (typeless : node.Typeless) : node.FitsFile profile where
  primary type isType := by
    rw [typeless.nodeType] at isType
    exact absurd isType (by simp)
  further type member := by
    rw [typeless.subTypes] at member
    exact absurd member List.not_mem_nil
  nodup := by
    rw [typeless.subTypes]
    exact List.nodup_nil

end Node

/-- All nodes fit their files. -/
def ContentTree.FitsFiles (profile : DomainProfile) (tree : ContentTree) : Prop :=
  ∀ id node, tree.get? id = some node → node.FitsFile profile

namespace ContentTree.FitsFiles

variable {profile : DomainProfile} {tree after : ContentTree}

theorem modify (fits : tree.FitsFiles profile) {id : NodeId} {change : Node → Node}
    (changed : ∀ node, tree.get? id = some node → node.FitsFile profile →
      (change node).FitsFile profile) : (tree.modify id change).FitsFiles profile := by
  intro other node found
  rw [get?_modify] at found
  split at found
  next same =>
      subst same
      obtain ⟨old, oldFound, rfl⟩ := Option.map_eq_some_iff.1 found
      exact changed old oldFound (fits other old oldFound)
  · exact fits other node found

theorem of_objectsOnly (fits : tree.FitsFiles profile) (only : ObjectsOnly tree after) :
    after.FitsFiles profile := by
  intro id node found
  have alike : AgreeOn Node.kindAndTypes tree after := (only.nodes.ignoringObjects fun _ => rfl).symm
  obtain ⟨old, oldFound, same⟩ := alike.exists_get? found
  exact (fits id old oldFound).of_kindAndTypes same.symm

/-- An edit does not change types, it only takes them along. -/
theorem edit {edit : Edit} {state : Copying} (fits : state.tree.FitsFiles profile)
    (added : edit.AddsOnly Node.Typeless) (spares : edit.Spares Node.kindAndTypes) :
    (edit.perform state).2.tree.FitsFiles profile := by
  intro id node found
  exact Edit.kind_of_perform Node.unlinked_kindAndTypes
    (fun _ _ before same => before.of_kindAndTypes same)
    (fun _ => Node.Typeless.fitsFile ⟨rfl, rfl⟩)
    (added.mono fun _ typeless => typeless.fitsFile) spares fits found

end ContentTree.FitsFiles

/-! ## Transforms -/

theorem FileAssociation.accepts_of_compatibleWith {first second : FileAssociation}
    (compatible : first.compatibleWith second = true) (narrow : first ≠ .either)
    {kind : Option FileKind} (accepted : first.accepts kind = true) :
    second.accepts kind = true := by
  simp only [compatibleWith, Bool.or_eq_true, decide_eq_true_eq] at compatible
  rcases compatible with (rfl | isEither) | rfl
  · exact accepted
  · exact absurd isEither narrow
  · cases kind with
    | none => rfl
    | some kind => rfl

/-- The call is for a legal transform from a type for either kind of file to one that does not accept the
node's file. -/
def NodeCall.Misfiles (profile : DomainProfile) (tree : ContentTree) (call : NodeCall) : Prop :=
  ∃ node definition source, tree.get? call.node = some node ∧
    call.transform? profile = some definition ∧ definition.isLegal tree call.node = true ∧
    profile.nodeType? definition.source = some source ∧ source.fileAssociation = .either ∧
    definition.result ∉ profile.typesForKind node.fileKind

def EngineCall.Misfiles (profile : DomainProfile) (tree : ContentTree) : EngineCall → Prop
  | .atNode call => call.Misfiles profile tree
  | _ => False

/-- Any other transform leads to a type that fits too, since its source and its result are for the same
kind of file, or the result is for either kind. -/
theorem NodeCall.result_fits {profile : DomainProfile} {tree : ContentTree} {call : NodeCall}
    {node : Node} {definition : Transform} (supported : profile.Supports definition)
    (found : tree.get? call.node = some node) (fits : node.FitsFile profile)
    (isTransform : call.transform? profile = some definition)
    (legal : definition.isLegal tree call.node = true) (files : ¬ call.Misfiles profile tree) :
    definition.result ∈ profile.typesForKind node.fileKind := by
  obtain ⟨source, result, isSource, isResult, compatible⟩ := supported
  obtain ⟨typed, typedFound, hasSource, _⟩ := Transform.isLegal_iff.1 legal
  obtain rfl : node = typed := Option.some.inj (found.symm.trans typedFound)
  obtain ⟨_, isSourceToo, accepted⟩ :=
    DomainProfile.mem_typesForKind_iff.1 (fits.primary definition.source hasSource)
  obtain rfl := Option.some.inj (isSource.symm.trans isSourceToo)
  by_cases narrow : source.fileAssociation = .either
  · by_contra unfit
    exact files ⟨node, definition, source, found, isTransform, legal, isSource, narrow, unfit⟩
  · exact DomainProfile.mem_typesForKind_iff.2
      ⟨result, isResult, FileAssociation.accepts_of_compatibleWith compatible narrow accepted⟩

theorem NodeCall.exists_transform_of_transform? {profile : DomainProfile} {call : NodeCall}
    {definition : Transform} (isTransform : call.transform? profile = some definition) :
    ∃ transform, profile.transform? transform = some definition := by
  cases call with
  | applyTransform _ transform =>
      exact ⟨transform, isTransform⟩
  | applyTransformByLabel _ label =>
      obtain ⟨transform, _, isDefined⟩ := Option.bind_eq_some_iff.1 isTransform
      exact ⟨transform, isDefined⟩
  | setNodeType => exact absurd isTransform (by simp [transform?])
  | addSubType => exact absurd isTransform (by simp [transform?])
  | removeSubType => exact absurd isTransform (by simp [transform?])

/-! ## Calls -/

section Calls

variable {engine : ProfileEngine} {S : Type} [ObjectStore S] {workspace last : Workspace S}

/-- What is written to a node fits its file. -/
theorem NodeCall.Writes.fitsFile
    (supported : engine.profile.TransformsSupported)
    {call : NodeCall} {tree : ContentTree} {node : Node} {change : Node → Node}
    (writes : Writes engine tree node call change) (found : tree.get? call.node = some node)
    (files : ¬ call.Misfiles engine.profile tree) (fits : node.FitsFile engine.profile) :
    (change node).FitsFile engine.profile := by
  cases writes with
  | setNodeType accepted =>
      exact fits.retyped accepted rfl rfl rfl
  | @addSubType _ type accepted isNew =>
      refine ⟨fits.primary, fun other member => ?_, ?_⟩
      · rcases List.mem_append.1 member with old | new
        · exact fits.further other old
        · rw [List.mem_singleton.1 new]
          exact accepted
      · exact fits.nodup.append (List.nodup_singleton type) (List.disjoint_singleton.2 isNew)
  | removeSubType _ =>
      refine ⟨fits.primary, fun other member => ?_, fits.nodup.filter _⟩
      exact fits.further other (List.mem_filter.1 member).1
  | @transform _ definition isTransform legal =>
      obtain ⟨transform, isDefined⟩ := exists_transform_of_transform? isTransform
      have accepted : definition.result ∈ engine.profile.typesForKind node.fileKind :=
        result_fits (supported transform definition isDefined) found fits isTransform legal files
      exact fits.retyped accepted rfl rfl rfl

/-- Types that accept the files of their nodes may be written and erased. -/
theorem fitsFiles_written {profile : DomainProfile} {tree : ContentTree}
    (fits : tree.FitsFiles profile) {placements : List Placement}
    (accepted : ∀ placement ∈ placements,
      placement.nodeType ∈ profile.typesForKind (tree.fileKind placement.node))
    (untyped : List NodeId) :
    (untyped.foldl eraseType (placements.foldl writePlacement tree)).FitsFiles profile := by
  have placed : (placements.foldl writePlacement tree).FitsFiles profile ∧
      AgreeOn Node.fileKind (placements.foldl writePlacement tree) tree := by
    refine List.foldlRecOn placements writePlacement
      (motive := fun next => next.FitsFiles profile ∧ AgreeOn Node.fileKind next tree)
      ⟨fits, .refl tree⟩ ?_
    rintro next ⟨nextFits, sameKinds⟩ placement member
    refine ⟨nextFits.modify fun node found nodeFits => ?_,
      .trans (.modify placement.node fun _ => rfl) sameKinds⟩
    obtain ⟨old, oldFound, sameKind⟩ := sameKinds.symm.exists_get? found
    have kindThere : tree.fileKind placement.node = node.fileKind := by
      rw [ContentTree.fileKind, oldFound, Option.bind_some, sameKind]
    have nodeAccepts := accepted placement member
    rw [kindThere] at nodeAccepts
    exact nodeFits.retyped nodeAccepts rfl rfl rfl
  refine List.foldlRecOn untyped eraseType (motive := FitsFiles profile) placed.1 fun next nextFits id _ => ?_
  refine nextFits.modify fun node _ nodeFits => ⟨fun type isType => ?_, nodeFits.further, nodeFits.nodup⟩
  exact absurd isType (by simp)

/-- Whether it succeeds or fails, a call that does not misfile its node leaves all nodes with types that
fit. -/
theorem fitsFiles_of_performed
    (supported : engine.profile.TransformsSupported)
    {call : EngineCall} {outcome : Except Error Unit}
    (performed : EngineCall.Performed engine workspace call outcome last)
    (files : ¬ call.Misfiles engine.profile workspace.tree)
    (fits : workspace.tree.FitsFiles engine.profile) : last.tree.FitsFiles engine.profile := by
  cases performed with
  | unchanged =>
      exact fits
  | @atNode call _ _ performed =>
      obtain rfl | ⟨node, change, found, writes, next, only, isLast⟩ :=
        NodeCall.exists_objectsOnly_of_performed performed
      · exact fits
      · have written : (workspace.tree.modify call.node change).FitsFiles engine.profile := by
          refine fits.modify fun other otherFound otherFits => ?_
          obtain rfl : node = other := Option.some.inj (found.symm.trans otherFound)
          exact writes.fitsFile supported found files otherFits
        have synced := written.of_objectsOnly only
        rcases isLast with rfl | rfl
        · exact synced
        · exact synced
  | @assigned _ start parentType _ _ _ _ done _ =>
      obtain ⟨next, only, isLast⟩ := exists_objectsOnly_of_writePlacements done
      have accepted : ∀ placement ∈
          (engine.profile.plan workspace.tree start parentType).placements,
          placement.nodeType ∈
            engine.profile.typesForKind (workspace.tree.fileKind placement.node) :=
        fun _ => DomainProfile.fits_of_mem_plan
      have written := fitsFiles_written fits accepted
        (engine.profile.plan workspace.tree start parentType).untyped
      have synced := written.of_objectsOnly only
      rcases isLast with ⟨rfl, _⟩ | rfl
      · exact synced
      · exact synced

end Calls

/-! ## Histories -/

namespace Turn

variable {S : Type} {engines : Nat → ProfileEngine}

def Misfiles (engines : Nat → ProfileEngine) (state : SharedTree S) : Turn S → Prop
  | .operate engine call => call.Misfiles (engines engine).profile state.tree
  | _ => False

/-- Without types for either kind of file no turn misfiles a node. -/
theorem not_misfiles_of_narrow
    (narrow : ∀ engine, ∀ source ∈ (engines engine).profile.nodeTypes,
      source.fileAssociation ≠ .either) (turn : Turn S) (state : SharedTree S) :
    ¬ turn.Misfiles engines state := by
  intro misfiles
  cases turn with
  | operate engine call =>
      cases call with
      | atNode call =>
          obtain ⟨_, _, source, _, _, _, isSource, isEither, _⟩ := misfiles
          exact narrow engine source (List.mem_of_getElem? isSource) isEither
      | assignTree => exact misfiles
      | assignNodeTypes => exact misfiles
  | edit => exact misfiles
  | restock => exact misfiles

variable [ObjectStore S]

theorem fitsFiles_perform {profile : DomainProfile}
    (supported : profile.TransformsSupported)
    (sameProfile : ∀ engine, (engines engine).profile = profile) {state : SharedTree S}
    {turn : Turn S} (respects : turn.Respects Node.Typeless Node.kindAndTypes)
    (files : ¬ turn.Misfiles engines state) (fits : state.tree.FitsFiles profile) :
    (turn.perform engines state).tree.FitsFiles profile := by
  cases turn with
  | edit change =>
      exact @FitsFiles.edit profile change ⟨state.tree, state.supply⟩ fits respects.1 respects.2
  | operate engine call =>
      rw [← sameProfile engine] at supported fits ⊢
      exact fitsFiles_of_performed supported (EngineCall.performed rfl) files fits
  | restock engine store =>
      exact fits

/-- In every state that engines with a built profile reach from a tree without types, while edits add
only nodes without types, all types of all nodes are declared and accept the files of their nodes, and
no further type is listed twice. Turns that misfile a node are the only exception. -/
theorem types_fit_files {draft : ProfileDraft} {profile : DomainProfile}
    (built : draft.build = .ok profile)
    (sameProfile : ∀ engine, (engines engine).profile = profile) {start : SharedTree S}
    (typeless : ∀ id node, start.tree.get? id = some node → node.Typeless)
    {turns : List (Turn S)}
    (respects : ∀ turn ∈ turns, turn.Respects Node.Typeless Node.kindAndTypes)
    (files : Throughout engines (fun state turn => ¬ turn.Misfiles engines state) turns start)
    {id : NodeId} {node : Node} (found : (run engines turns start).tree.get? id = some node) :
    node.subTypes.Nodup ∧ ∀ type, node.nodeType = some type ∨ type ∈ node.subTypes →
      ∃ definition, profile.nodeType? type = some definition ∧
        definition.fileAssociation.accepts node.fileKind = true := by
  have reached : (run engines turns start).tree.FitsFiles profile := by
    refine run_induction (motive := fun state => state.tree.FitsFiles profile) ?_
      (throughout_and.2
        ⟨throughout_of_forall_mem fun turn member _ => respects turn member, files⟩)
      (fun other otherNode otherFound => (typeless other otherNode otherFound).fitsFile)
    rintro state turn ⟨turnRespects, turnFiles⟩ fits
    exact fitsFiles_perform (DomainProfile.transformsSupported_of_build built) sameProfile
      turnRespects turnFiles fits
  have fits := reached id node found
  refine ⟨fits.nodup, ?_⟩
  rintro type (isPrimary | member)
  · exact DomainProfile.mem_typesForKind_iff.1 (fits.primary type isPrimary)
  · exact DomainProfile.mem_typesForKind_iff.1 (fits.further type member)

/-- The small archive, shared by engines with empty stores. -/
def sharedArchive : SharedTree MemoryStore :=
  ⟨smallArchive, fun _ => .empty, smallWorkspace.supply⟩

/-- The archive is assigned, and types are changed by hand while it is edited. -/
def archiveTurns : List (Turn MemoryStore) :=
  [.operate 0 .assignTree,
    .edit (.addChild ⟨0⟩ { identifier := "box", name := "box" }),
    .operate 1 (.assignNodeTypes ⟨4⟩),
    .operate 0 (.atNode (.applyTransformByLabel ⟨4⟩ "collection_to_object")),
    .edit (.copySubtree ⟨1⟩ ⟨4⟩),
    .operate 1 (.atNode (.addSubType ⟨1⟩ Pcdm.collection)),
    .edit (.write ⟨1⟩ fun node => { node with ignored := true }),
    .restock 1 .empty,
    .operate 1 (.atNode (.setNodeType ⟨5⟩ Pcdm.collection)),
    .edit (.removeSubtree ⟨1⟩)]

theorem types_fit_files_archiveTurns :
    (ProfileDraft.mk Pcdm.profile).build = .ok Pcdm.profile ∧
      ∀ id node, (run (fun _ => pcdmEngine) archiveTurns sharedArchive).tree.get? id = some node →
        node.subTypes.Nodup ∧ ∀ type, node.nodeType = some type ∨ type ∈ node.subTypes →
          ∃ definition, Pcdm.profile.nodeType? type = some definition ∧
            definition.fileAssociation.accepts node.fileKind = true := by
  have built : (ProfileDraft.mk Pcdm.profile).build = .ok Pcdm.profile := rfl
  have typeless : ∀ id node, smallArchive.get? id = some node → node.Typeless := by
    have eachTypeless : ∀ slot ∈ smallArchive.nodes.toList, ∀ node ∈ slot,
        node.nodeType = none ∧ node.subTypes = [] := by decide
    intro id node found
    rw [get?, Option.join_eq_some_iff] at found
    obtain ⟨noType, noSubTypes⟩ :=
      eachTypeless (some node) (Array.mem_toList_iff.2 (Array.mem_of_getElem? found)) node rfl
    exact ⟨noType, noSubTypes⟩
  have respects : ∀ turn ∈ archiveTurns, turn.Respects Node.Typeless Node.kindAndTypes := by
    have typelessNode (name : String) : ({ identifier := name, name := name } : Node).Typeless :=
      ⟨rfl, rfl⟩
    simp [archiveTurns, Respects, Edit.AddsOnly, Edit.Spares, typelessNode, Node.kindAndTypes,
      Node.fileKind]
  have narrow : ∀ source ∈ Pcdm.profile.nodeTypes, source.fileAssociation ≠ .either := by decide
  refine ⟨built, fun id node found => ?_⟩
  exact types_fit_files built (fun _ => rfl) typeless respects
    (throughout_of_forall_mem fun turn _ =>
      not_misfiles_of_narrow (fun _ => narrow) turn) found

/-- Works may be anything, sheets are files. -/
def paperProfile : DomainProfile where
  identifier := "http://example.org/papers"
  domain := "http://example.org/papers/domain"
  label := "Papers"
  relations := []
  propertyTypes := []
  nodeTypes :=
    [⟨"http://example.org/papers#Work", "Work", "", [], .either, [.noEdge], [], [],
        "http://example.org/papers"⟩,
      ⟨"http://example.org/papers#Sheet", "Sheet", "", [], .regularFile, [.noEdge], [], [],
        "http://example.org/papers"⟩]
  transforms := [⟨"work_to_sheet", "", ⟨0⟩, none, [], ⟨1⟩⟩]

def sharedFolder : SharedTree MemoryStore :=
  { sharedArchive with
    tree := (withRoot
      { identifier := "folder", name := "folder"
        file := some (.directory (.ofString "folder")) }).2 }

/-- A directory that was made a work is turned into a sheet. -/
theorem sheet_sharedFolder :
    (ProfileDraft.mk paperProfile).build = .ok paperProfile ∧
      (∀ id node, sharedFolder.tree.get? id = some node → node.Typeless) ∧
      ∃ node sheet, (run (fun _ => { profile := paperProfile })
          [.operate 0 (.atNode (.setNodeType ⟨0⟩ ⟨0⟩)),
            .operate 0 (.atNode (.applyTransform ⟨0⟩ ⟨0⟩))] sharedFolder).tree.get? ⟨0⟩ =
          some node ∧
        node.nodeType = some ⟨1⟩ ∧ paperProfile.nodeType? ⟨1⟩ = some sheet ∧
        sheet.fileAssociation.accepts node.fileKind = false := by
  refine ⟨rfl, fun id node found => ?_, _, _, rfl, rfl, rfl, rfl⟩
  rw [sharedFolder, get?_withRoot] at found
  split at found
  · obtain rfl := Option.some.inj found
    exact ⟨rfl, rfl⟩
  · exact absurd found (by simp)

end Turn

end ContentTyping

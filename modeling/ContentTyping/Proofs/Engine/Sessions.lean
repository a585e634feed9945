import ContentTyping.Proofs.Engine.EditsInLine
import ContentTyping.Proofs.Engine.Operations

/-!
# Sessions

One engine works on several trees with one store, and between its operations the trees are edited.
What is done to one tree leaves the objects of the others as they are, since no object belongs to two
trees. So the objects of all trees are in line after every call.
-/

namespace ContentTyping

open ContentTree

/-! ## Calls -/

/-- An edit of a tree, or an operation of an engine on it. -/
inductive Call where
  | edit (change : Edit)
  | assignTree
  | assignNodeTypes (start : NodeId)
  | setNodeType (id : NodeId) (type : NodeTypeId)
  | addSubType (id : NodeId) (type : NodeTypeId)
  | removeSubType (id : NodeId) (type : NodeTypeId)
  | applyTransform (id : NodeId) (transform : TransformId)

namespace Call

/-- The outcome of a call, and the workspace afterwards. -/
def perform (engine : ProfileEngine) (call : Call) : Operation MemoryStore Unit := fun workspace =>
  match call with
  | .edit change =>
    let edited := change.perform ⟨workspace.tree, workspace.supply⟩
    (edited.1, ⟨edited.2.tree, workspace.store, edited.2.supply⟩)
  | .assignTree =>
    let assigned := engine.assignTree workspace
    (assigned.1.map fun _ => (), assigned.2)
  | .assignNodeTypes start =>
    let assigned := engine.assignNodeTypes start workspace
    (assigned.1.map fun _ => (), assigned.2)
  | .setNodeType id type => engine.setNodeType id type workspace
  | .addSubType id type => engine.addSubType id type workspace
  | .removeSubType id type => engine.removeSubType id type workspace
  | .applyTransform id transform => engine.applyTransform id transform workspace

/-- Types and objects are left to the engine. -/
def LeavesTyping : Call → Prop
  | .edit change => change.LeavesTyping
  | _ => True

variable {engine : ProfileEngine} {call : Call} {workspace : Workspace MemoryStore}

/-- A call is an edit or an operation that writes declared types. -/
theorem perform_cases (declared : engine.profile.TransformsDeclared) :
    (∃ change, call = .edit change) ∨ engine.Retypes workspace (call.perform engine workspace) := by
  cases call with
  | edit change =>
      exact .inl ⟨change, rfl⟩
  | assignTree =>
      have retypes := @ProfileEngine.retypes_assignTree engine workspace
      exact .inr (retypes.withOutcome fun noFault => noFault.map _)
  | assignNodeTypes start =>
      have retypes := @ProfileEngine.retypes_assignNodeTypes engine workspace start
      exact .inr (retypes.withOutcome fun noFault => noFault.map _)
  | setNodeType id type =>
      exact .inr (ProfileEngine.retypes_setNodeType id type)
  | addSubType id type =>
      exact .inr (ProfileEngine.retypes_addSubType id type)
  | removeSubType id type =>
      exact .inr (ProfileEngine.retypes_removeSubType id type)
  | applyTransform id transform =>
      exact .inr (ProfileEngine.retypes_applyTransform declared id transform)

theorem perform_grows (declared : engine.profile.TransformsDeclared) :
    workspace.supply.Grows (call.perform engine workspace).2.supply := by
  rcases @perform_cases engine call workspace declared with ⟨change, rfl⟩ | retypes
  · exact @Edit.perform_grows change ⟨workspace.tree, workspace.supply⟩
  · exact retypes.grows

theorem perform_inLineBut (declared : engine.profile.TransformsDeclared)
    (leavesTyping : call.LeavesTyping) (inLine : workspace.InLineBut engine.profile [])
    {limit : Nat} (distinct : Set.InjOn workspace.supply.name (Set.Iio limit))
    (within : (call.perform engine workspace).2.supply.used ≤ limit) :
    NoStoreFault (call.perform engine workspace).1 ∧
      (call.perform engine workspace).2.InLineBut engine.profile [] ∧
      workspace.Frame (call.perform engine workspace).2 := by
  rcases @perform_cases engine call workspace declared with ⟨change, rfl⟩ | retypes
  · have rewriting := @Edit.rewriting_perform change ⟨workspace.tree, workspace.supply⟩ _
      leavesTyping inLine.declared
    exact ⟨Edit.noStoreFault_perform, rewriting.inLineBut Edit.perform_grows inLine,
      rewriting.frame⟩
  · exact retypes.inLineBut inLine distinct within

end Call

/-- Trees that share a store and a supply of names. There is a place for a tree under every
number. -/
structure Session where
  trees : Nat → ContentTree
  store : MemoryStore
  supply : Supply

namespace Session

/-- All places are empty and so is the store. -/
def start (name : Nat → String) : Session :=
  ⟨fun _ => .empty, .empty, ⟨name, 0⟩⟩

/-- The tree in a place with what all trees share. -/
def workspace (session : Session) (place : Nat) : Workspace MemoryStore :=
  ⟨session.trees place, session.store, session.supply⟩

/-- The session after work on the tree in a place. -/
def settle (session : Session) (place : Nat) (workspace : Workspace MemoryStore) : Session :=
  ⟨Function.update session.trees place workspace.tree, workspace.store, workspace.supply⟩

/-- The outcomes of calls, each on the tree in some place, and the session afterwards. -/
def run (engine : ProfileEngine) : List (Nat × Call) → Session → List (Except Error Unit) × Session
  | [], session => ([], session)
  | (place, call) :: rest, session =>
    let result := call.perform engine (session.workspace place)
    let last := run engine rest (session.settle place result.2)
    (result.1 :: last.1, last.2)

/-! ## Sessions in line -/

/-- The objects of every tree are in line, and no object belongs to two trees. -/
structure InLine (profile : DomainProfile) (session : Session) : Prop where
  each : ∀ place, (session.workspace place).InLineBut profile []
  apart : ∀ place other first second object, (session.trees place).object? first = some object →
    (session.trees other).object? second = some object → place = other

theorem inLine_start (profile : DomainProfile) (name : Nat → String) :
    (start name).InLine profile where
  each place :=
    { declared := fun _ _ found => absurd found (by simp [start, workspace, get?, ContentTree.empty])
      recorded := fun _ _ found => absurd found (by simp [start, workspace, get?, ContentTree.empty])
      follow := fun _ _ found => absurd found (by simp [start, workspace, get?, ContentTree.empty])
      unshared := fun _ _ _ held => absurd held
        (by simp [start, workspace, ContentTree.object?, get?, ContentTree.empty])
      drawn := fun _ stored => absurd stored
        (by simp [start, workspace, MemoryStore.contains, MemoryStore.record?, MemoryStore.empty]) }
  apart _ _ _ _ _ held _ := absurd held
    (by simp [start, ContentTree.object?, get?, ContentTree.empty])

variable {profile : DomainProfile} {session : Session} {place other : Nat}
  {after : Workspace MemoryStore}

theorem trees_settle_self : (session.settle place after).trees place = after.tree :=
  Function.update_self ..

theorem trees_settle_of_ne (different : other ≠ place) :
    (session.settle place after).trees other = session.trees other :=
  Function.update_of_ne different ..

namespace InLine

/-- Work on one tree does not touch the objects of another. -/
theorem record?_eq (inLine : session.InLine profile)
    (frame : (session.workspace place).Frame after) (different : other ≠ place) {id : NodeId}
    {object : String} (held : (session.trees other).object? id = some object) :
    after.store.record? object = session.store.record? object := by
  obtain ⟨record, isRecord⟩ := MemoryStore.contains_iff.1 ((inLine.each other).contains held)
  have elsewhere : ∀ here, (session.trees place).object? here ≠ some object := by
    intro here heldHere
    exact different (inLine.apart other place id here object held heldHere)
  exact (frame.kept object record isRecord elsewhere).trans isRecord.symm

theorem inLineBut_of_ne (inLine : session.InLine profile)
    (frame : (session.workspace place).Frame after) (afterInLine : after.InLineBut profile [])
    (different : other ≠ place) :
    Workspace.InLineBut profile [] ⟨session.trees other, after.store, after.supply⟩ where
  declared := (inLine.each other).declared
  recorded id node found := by
    refine ((inLine.each other).recorded id node found).of_record? fun object isObject => ?_
    exact inLine.record?_eq frame different (object?_eq_some_iff.2 ⟨node, found, isObject⟩)
  follow id node found notPending := by
    refine ((inLine.each other).follow id node found notPending).of_record? fun object isObject => ?_
    exact inLine.record?_eq frame different (object?_eq_some_iff.2 ⟨node, found, isObject⟩)
  unshared := (inLine.each other).unshared
  drawn := afterInLine.drawn

/-- An object that a node has after the work belongs to no other tree. -/
theorem eq_of_held (inLine : session.InLine profile)
    (frame : (session.workspace place).Frame after) {first second : NodeId} {object : String}
    (held : after.tree.object? first = some object)
    (heldBefore : (session.trees other).object? second = some object) : other = place := by
  rcases frame.origin first object held with heldHere | notStored
  · exact inLine.apart other place second first object heldBefore heldHere
  · have stored := (inLine.each other).contains heldBefore
    exact absurd (notStored.symm.trans stored) (by simp)

theorem settle (inLine : session.InLine profile)
    (frame : (session.workspace place).Frame after) (afterInLine : after.InLineBut profile []) :
    (session.settle place after).InLine profile where
  each other := by
    rw [workspace]
    by_cases same : other = place
    · rw [same, trees_settle_self]
      exact afterInLine
    · rw [trees_settle_of_ne same]
      exact inLine.inLineBut_of_ne frame afterInLine same
  apart one other first second object oneHolds otherHolds := by
    by_cases isOne : one = place
    · by_cases isOther : other = place
      · rw [isOne, isOther]
      · rw [isOne, trees_settle_self] at oneHolds
        rw [trees_settle_of_ne isOther] at otherHolds
        exact absurd (inLine.eq_of_held frame oneHolds otherHolds) isOther
    · rw [trees_settle_of_ne isOne] at oneHolds
      by_cases isOther : other = place
      · rw [isOther, trees_settle_self] at otherHolds
        exact absurd (inLine.eq_of_held frame otherHolds oneHolds) isOne
      · rw [trees_settle_of_ne isOther] at otherHolds
        exact inLine.apart one other first second object oneHolds otherHolds

end InLine

/-! ## Runs -/

variable {engine : ProfileEngine}

theorem run_grows (declared : engine.profile.TransformsDeclared) (calls : List (Nat × Call))
    (session : Session) : session.supply.Grows (run engine calls session).2.supply := by
  induction calls generalizing session with
  | nil =>
      exact .refl _
  | cons entry rest inductionHypothesis =>
      obtain ⟨place, call⟩ := entry
      have step := @Call.perform_grows engine call (session.workspace place) declared
      exact step.trans (inductionHypothesis
        (session.settle place (call.perform engine (session.workspace place)).2))

theorem inLine_run (declared : engine.profile.TransformsDeclared) {calls : List (Nat × Call)}
    (leavesTyping : ∀ entry ∈ calls, entry.2.LeavesTyping)
    (inLine : session.InLine engine.profile) {limit : Nat}
    (distinct : Set.InjOn session.supply.name (Set.Iio limit))
    (within : (run engine calls session).2.supply.used ≤ limit) :
    (∀ outcome ∈ (run engine calls session).1, NoStoreFault outcome) ∧
      (run engine calls session).2.InLine engine.profile := by
  induction calls generalizing session with
  | nil =>
      exact ⟨List.forall_mem_nil _, inLine⟩
  | cons entry rest inductionHypothesis =>
      obtain ⟨place, call⟩ := entry
      let next := session.settle place (call.perform engine (session.workspace place)).2
      have grows : session.supply.Grows next.supply :=
        @Call.perform_grows engine call (session.workspace place) declared
      have restGrows : next.supply.Grows (run engine rest next).2.supply := run_grows declared rest next
      -- The names are told apart up to the end of the whole run, and no step draws beyond that.
      have stepWithin : (call.perform engine (session.workspace place)).2.supply.used ≤ limit :=
        Nat.le_trans restGrows.used within
      obtain ⟨noFault, nextInLine, frame⟩ := Call.perform_inLineBut declared
        (leavesTyping _ List.mem_cons_self) (inLine.each place) distinct stepWithin
      have nextDistinct : Set.InjOn next.supply.name (Set.Iio limit) := by
        rw [grows.name]
        exact distinct
      obtain ⟨restNoFault, lastInLine⟩ :=
        inductionHypothesis (fun later member => leavesTyping later (List.mem_cons_of_mem _ member))
          (inLine.settle frame nextInLine) nextDistinct within
      refine ⟨?_, lastInLine⟩
      intro outcome member
      rcases List.mem_cons.1 member with rfl | later
      · exact noFault
      · exact restNoFault outcome later

/-- The objects of the nodes in all trees of the session belong to their nodes alone, and have the
classes of their nodes' types. -/
structure ObjectsFollowTypes (profile : DomainProfile) (session : Session) : Prop where
  recorded : ∀ place id node object, (session.trees place).get? id = some node →
    node.object = some object →
    ∃ record, session.store.record? object = some record ∧ record.node = node.identifier
  unshared : ∀ place other first second object,
    (session.trees place).object? first = some object →
    (session.trees other).object? second = some object → place = other ∧ first = second
  classes : ∀ place id node primary object, (session.trees place).get? id = some node →
    node.nodeType = some primary → node.object = some object →
    ∃ record, session.store.record? object = some record ∧
      profile.domainTypes? primary node.subTypes = some record.types

theorem InLine.objectsFollowTypes (inLine : session.InLine profile) :
    session.ObjectsFollowTypes profile where
  recorded place id node object found isObject :=
    (inLine.each place).recorded id node found object isObject
  unshared place other first second object firstHolds secondHolds := by
    have samePlace := inLine.apart place other first second object firstHolds secondHolds
    subst samePlace
    exact ⟨rfl, (inLine.each place).unshared first second object firstHolds secondHolds⟩
  classes place id node primary object found isType isObject :=
    (inLine.each place).follow id node found List.not_mem_nil primary object isType isObject

/-- Whatever calls an engine and editors make, in whatever order and with whatever outcomes: as long
as the names that are drawn differ, no call is refused by the store, and the objects of all nodes
follow their types. -/
theorem objects_follow_types {draft : ProfileDraft} (built : draft.build = .ok engine.profile)
    {calls : List (Nat × Call)} (leavesTyping : ∀ entry ∈ calls, entry.2.LeavesTyping)
    {name : Nat → String}
    (distinct : Set.InjOn name (Set.Iio (run engine calls (start name)).2.supply.used)) :
    (∀ outcome ∈ (run engine calls (start name)).1, NoStoreFault outcome) ∧
      (run engine calls (start name)).2.ObjectsFollowTypes engine.profile := by
  have declared := DomainProfile.transformsDeclared_of_build built
  have started := inLine_start engine.profile name
  obtain ⟨noFaults, inLine⟩ := inLine_run declared leavesTyping started distinct (Nat.le_refl _)
  exact ⟨noFaults, inLine.objectsFollowTypes⟩

/-- Calls on two archives. An item of the first one is copied below itself, and the copy is typed,
given a further type, turned into an object and moved; then the item is ignored and removed. -/
def archiveCalls : List (Nat × Call) :=
  [(0, .edit (.withRoot { identifier := "archive", name := "archive" })),
    (0, .edit (.addChild ⟨0⟩ { identifier := "item", name := "item" })),
    (0, .assignTree),
    (1, .edit (.withRoot { identifier := "archive", name := "archive" })),
    (1, .setNodeType ⟨0⟩ Pcdm.object),
    (0, .edit (.copySubtree ⟨1⟩ ⟨1⟩)),
    (0, .assignNodeTypes ⟨2⟩),
    (0, .addSubType ⟨2⟩ Pcdm.object),
    (0, .applyTransform ⟨2⟩ ⟨2⟩),
    (0, .removeSubType ⟨2⟩ Pcdm.object),
    (0, .edit (.moveNode ⟨2⟩ ⟨0⟩)),
    (0, .edit (.write ⟨1⟩ fun node => { node with ignored := !node.ignored })),
    (0, .edit (.removeSubtree ⟨1⟩)),
    (1, .edit .clearTyping)]

/-- Names that are told apart by their lengths. -/
def tally (turn : Nat) : String :=
  String.ofList (List.replicate turn '+')

theorem tally_injective : Function.Injective tally := by
  intro first second sameName
  have sameMarks := congrArg String.toList sameName
  rw [tally, tally, String.toList_ofList, String.toList_ofList] at sameMarks
  have sameLength := congrArg List.length sameMarks
  rwa [List.length_replicate, List.length_replicate] at sameLength

theorem objects_follow_types_archiveCalls :
    (∀ outcome ∈ (run ProfileEngine.pcdmEngine archiveCalls (start tally)).1,
        NoStoreFault outcome) ∧
      (run ProfileEngine.pcdmEngine archiveCalls (start tally)).2.ObjectsFollowTypes
        Pcdm.profile := by
  have built : (ProfileDraft.mk Pcdm.profile).build = .ok Pcdm.profile := rfl
  have leavesTyping : ∀ entry ∈ archiveCalls, entry.2.LeavesTyping := by
    have untyped (name : String) : ({ identifier := name, name := name } : Node).Untyped :=
      ⟨rfl, rfl, rfl⟩
    simp [archiveCalls, Call.LeavesTyping, Edit.LeavesTyping, untyped, Node.typing]
  have distinct : Set.InjOn tally (Set.Iio
      (run ProfileEngine.pcdmEngine archiveCalls (start tally)).2.supply.used) :=
    tally_injective.injOn
  exact objects_follow_types built leavesTyping distinct

end Session

end ContentTyping

import Mathlib.Data.Set.Function
import Mathlib.Logic.Function.Basic
import ContentTyping.Proofs.Engine.Histories
import ContentTyping.Proofs.Engine.OperationsInStep
import ContentTyping.Proofs.Iri.Absolute

/-!
# One engine over two stores

The same requests are made of an engine with a store of records and of one with a store of statements,
each with new names of its own for objects. They give the same answers, and leave the same trees but for
the names of objects; corresponding objects have the same classes.
-/

namespace ContentTyping

open ContentTree

/-! ## Requests -/

/-- What a request gives back when it succeeds. -/
inductive Answer where
  | done
  | node (id : NodeId)
  | removed (nodes : List Node)
  | assigned (report : AssignmentReport)
  | validated (report : ValidationReport)
  | types (eligible : List NodeTypeId)
  | transforms (legal : List TransformId)

/-- Only nodes that have been removed show their objects. -/
def Answer.renameObjects (rename : String → String) : Answer → Answer
  | .removed nodes => .removed (nodes.map (Node.renameObject rename))
  | answer => answer

def ContentTree.Edit.answer (edit : Edit) (state : Copying) : Except Error Answer :=
  match edit with
  | .withRoot node => .ok (.node (ContentTree.withRoot node).1)
  | .addChild parent node => (state.tree.addChild parent node).map fun added => .node added.1
  | .removeSubtree id => (state.tree.removeSubtree id).1.map .removed
  | .moveNode id newParent => (state.tree.moveNode id newParent).map fun _ => .done
  | .copySubtree id newParent => (state.tree.copySubtree state.supply id newParent).1.map .node
  | .clearTyping => .ok .done
  | .write _ _ => .ok .done

def EngineCall.answer {S : Type} [ObjectStore S] (engine : ProfileEngine) (call : EngineCall)
    (workspace : Workspace S) : Except Error Answer :=
  match call with
  | .assignTree => (engine.assignTree workspace).1.map .assigned
  | .assignNodeTypes start => (engine.assignNodeTypes start workspace).1.map .assigned
  | .atNode call => (call.perform engine workspace).1.map fun _ => .done

/-- An edit of a tree, an operation of an engine on it, or a question to an engine about it. -/
inductive Request where
  | edit (change : Edit)
  | call (call : EngineCall)
  | validationReport (start : NodeId)
  | eligibleTypes (id : NodeId)
  | legalTransforms (id : NodeId)

def Request.LeavesObjects : Request → Prop
  | .edit change => change.LeavesObjects
  | _ => True

/-! ## Collections of trees -/

/-- Trees in numbered places that share a store and the names for objects. Copies of nodes take their
identifiers from a supply of their own. -/
structure TreeCollection (S : Type) where
  trees : Nat → ContentTree
  store : S
  supply : Supply
  identifiers : Supply

namespace TreeCollection

variable {S : Type}

def workspace (collection : TreeCollection S) (place : Nat) : Workspace S :=
  ⟨collection.trees place, collection.store, collection.supply⟩

/-- The names that have been given to objects. -/
def minted (collection : TreeCollection S) : Set String :=
  collection.supply.name '' Set.Iio collection.supply.used

/-- The collection after work on the tree in a place. -/
def settle (collection : TreeCollection S) (place : Nat) (last : Workspace S)
    (identifiers : Supply) : TreeCollection S :=
  ⟨Function.update collection.trees place last.tree, last.store, last.supply, identifiers⟩

variable [ObjectStore S]

/-- The answer to a request about the tree in a place, and the collection afterwards. -/
def perform (engine : ProfileEngine) (place : Nat) (request : Request)
    (collection : TreeCollection S) : Except Error Answer × TreeCollection S :=
  let workspace := collection.workspace place
  match request with
  | .edit change =>
    let state : Copying := ⟨workspace.tree, collection.identifiers⟩
    let edited := (change.perform state).2
    (change.answer state,
      collection.settle place { workspace with tree := edited.tree } edited.supply)
  | .call call =>
    (call.answer engine workspace,
      collection.settle place (call.perform engine workspace).2 collection.identifiers)
  | .validationReport start =>
    ((engine.validationReport workspace.tree start).map .validated, collection)
  | .eligibleTypes id => ((engine.eligibleTypes workspace.tree id).map .types, collection)
  | .legalTransforms id => ((engine.legalTransforms workspace.tree id).map .transforms, collection)

/-- The answers to requests, one after the other, and the collection afterwards. -/
def run (engine : ProfileEngine) :
    List (Nat × Request) → TreeCollection S → List (Except Error Answer) × TreeCollection S
  | [], collection => ([], collection)
  | (place, request) :: rest, collection =>
    let result := collection.perform engine place request
    let last := run engine rest result.2
    (result.1 :: last.1, last.2)

end TreeCollection

/-! ## Edits -/

theorem ContentTree.Edit.answer_renameObjects {rename : String → String} {edit : Edit}
    (leavesObjects : edit.LeavesObjects) (state : Copying) :
    edit.answer (state.renameObjects rename) =
      (edit.answer state).map (Answer.renameObjects rename) := by
  cases edit with
  | withRoot node =>
      rfl
  | addChild parent node =>
      simp only [answer, Copying.renameObjects, addChild_renameObjects parent leavesObjects]
      cases state.tree.addChild parent node <;> rfl
  | removeSubtree id =>
      simp only [answer, Copying.renameObjects, removeSubtree_renameObjects]
      cases (state.tree.removeSubtree id).1 <;> rfl
  | moveNode id newParent =>
      simp only [answer, Copying.renameObjects, moveNode_renameObjects]
      cases state.tree.moveNode id newParent <;> rfl
  | copySubtree id newParent =>
      simp only [answer, Copying.renameObjects, copySubtree_renameObjects]
      cases (state.tree.copySubtree state.supply id newParent).1 <;> rfl
  | clearTyping =>
      rfl
  | write id change =>
      rfl

/-! ## Calls -/

theorem NodeCall.inStep_perform {rename : String → String} {first second : Nat → String} {bound : Nat}
    {records : Workspace MemoryStore} {triples : Workspace TripleStore} {engine : ProfileEngine}
    (renames : Renames rename first second bound) (absolute : engine.profile.HasAbsoluteTypes)
    (twins : Twins rename first second records triples) (call : NodeCall)
    (within : (call.perform engine records).2.supply.used ≤ bound) :
    InStep rename first second (call.perform engine records) (call.perform engine triples) := by
  cases call with
  | setNodeType id type =>
      exact ProfileEngine.inStep_setNodeType renames absolute twins id type within
  | addSubType id type =>
      exact ProfileEngine.inStep_addSubType renames absolute twins id type within
  | removeSubType id type =>
      exact ProfileEngine.inStep_removeSubType renames absolute twins id type within
  | applyTransform id transform =>
      exact ProfileEngine.inStep_applyTransform renames absolute twins id transform within
  | applyTransformByLabel id label =>
      exact ProfileEngine.inStep_applyTransformByLabel renames absolute twins id label within

theorem ProfileEngine.writePlacements_grows (engine : ProfileEngine) (placements : List Placement)
    (untyped : List NodeId) (workspace : Workspace MemoryStore) :
    workspace.supply.Grows (engine.writePlacements placements untyped workspace).2.supply := by
  rw [writePlacements_supply]
  exact engine.syncObjects_grows (placements.map Placement.node)
    { workspace with
      tree := untyped.foldl eraseType (placements.foldl writePlacement workspace.tree) }

namespace EngineCall

variable {rename : String → String} {first second : Nat → String} {bound : Nat}
  {records : Workspace MemoryStore} {triples : Workspace TripleStore} {engine : ProfileEngine}

theorem Performed.grows {workspace last : Workspace MemoryStore} {call : EngineCall}
    {outcome : Except Error Unit} (performed : Performed engine workspace call outcome last) :
    workspace.supply.Grows last.supply := by
  cases performed with
  | unchanged =>
      exact .refl _
  | @atNode call _ _ performed =>
      have grows (change : Node → Node) :=
        engine.syncObject_grows call.node (workspace.modifyNode call.node change)
      cases performed with
      | unchanged =>
          exact .refl _
      | @written _ change _ _ _ _ _ synced _ =>
          have step := grows change
          rw [synced] at step
          exact step
      | @bound _ change _ _ _ _ synced =>
          have step := grows change
          rw [synced] at step
          exact step
  | @assigned _ start parentType _ _ _ _ done _ =>
      have step := engine.writePlacements_grows
        (engine.profile.plan workspace.tree start parentType).placements
        (engine.profile.plan workspace.tree start parentType).untyped workspace
      rw [done] at step
      exact step

theorem perform_grows (engine : ProfileEngine) (call : EngineCall) (workspace : Workspace MemoryStore) :
    workspace.supply.Grows (call.perform engine workspace).2.supply := by
  have performed : Performed engine workspace call (call.perform engine workspace).1
      (call.perform engine workspace).2 := EngineCall.performed rfl
  exact performed.grows

/-- Answers of an engine show no objects. -/
theorem answer_renameObjects {S : Type} [ObjectStore S] (rename : String → String)
    (engine : ProfileEngine) (call : EngineCall) (workspace : Workspace S) :
    (call.answer engine workspace).map (Answer.renameObjects rename) = call.answer engine workspace := by
  cases call with
  | assignTree =>
      rw [answer]
      cases (engine.assignTree workspace).1 <;> rfl
  | assignNodeTypes start =>
      rw [answer]
      cases (engine.assignNodeTypes start workspace).1 <;> rfl
  | atNode call =>
      rw [answer]
      cases (call.perform engine workspace).1 <;> rfl

theorem inStep_perform (renames : Renames rename first second bound)
    (absolute : engine.profile.HasAbsoluteTypes) (twins : Twins rename first second records triples)
    (call : EngineCall) (within : (call.perform engine records).2.supply.used ≤ bound) :
    call.answer engine triples = call.answer engine records ∧
      Twins rename first second (call.perform engine records).2 (call.perform engine triples).2 := by
  cases call with
  | assignTree =>
      obtain ⟨same, next⟩ := ProfileEngine.inStep_assignTree renames absolute twins within
      rw [answer, answer, same]
      exact ⟨rfl, next⟩
  | assignNodeTypes start =>
      obtain ⟨same, next⟩ :=
        ProfileEngine.inStep_assignNodeTypes renames absolute twins start within
      rw [answer, answer, same]
      exact ⟨rfl, next⟩
  | atNode call =>
      obtain ⟨same, next⟩ := NodeCall.inStep_perform renames absolute twins call within
      rw [answer, answer, same]
      exact ⟨rfl, next⟩

end EngineCall

/-! ## Steps -/

namespace TreeCollection

section Supplies

variable (engine : ProfileEngine)

theorem perform_grows (place : Nat) (request : Request) (collection : TreeCollection MemoryStore) :
    collection.supply.Grows (collection.perform engine place request).2.supply := by
  cases request with
  | call call =>
      exact call.perform_grows engine (collection.workspace place)
  | edit change =>
      exact .refl _
  | validationReport start =>
      exact .refl _
  | eligibleTypes id =>
      exact .refl _
  | legalTransforms id =>
      exact .refl _

theorem run_grows (requests : List (Nat × Request)) (collection : TreeCollection MemoryStore) :
    collection.supply.Grows (run engine requests collection).2.supply := by
  induction requests generalizing collection with
  | nil =>
      exact .refl _
  | cons entry rest inductionHypothesis =>
      obtain ⟨place, request⟩ := entry
      exact (perform_grows engine place request collection).trans (inductionHypothesis _)

end Supplies

/-- The trees in each place correspond, and copies get the same identifiers. -/
structure Corresponding (rename : String → String) (first second : Nat → String)
    (records : TreeCollection MemoryStore) (triples : TreeCollection TripleStore) : Prop where
  each : ∀ place, Twins rename first second (records.workspace place) (triples.workspace place)
  identifiers : triples.identifiers = records.identifiers

variable {rename : String → String} {first second : Nat → String} {bound : Nat}
  {records : TreeCollection MemoryStore} {triples : TreeCollection TripleStore}
  {engine : ProfileEngine}

section Places

variable {S : Type} {collection : TreeCollection S} {place here : Nat} {last : Workspace S}
  {identifiers : Supply}

theorem workspace_settle_self : (collection.settle place last identifiers).workspace place = last := by
  simp only [workspace, settle, Function.update_self]

theorem workspace_settle_of_ne (different : here ≠ place) :
    (collection.settle place last identifiers).workspace here =
      ⟨collection.trees here, last.store, last.supply⟩ := by
  simp only [workspace, settle, Function.update_of_ne different]

end Places

theorem Corresponding.settle (corresponding : Corresponding rename first second records triples)
    {last : Workspace MemoryStore} {other : Workspace TripleStore}
    (grows : records.supply.Grows last.supply) (twins : Twins rename first second last other)
    (place : Nat) (identifiers : Supply) :
    Corresponding rename first second (records.settle place last identifiers)
      (triples.settle place other identifiers) where
  each here := by
    by_cases same : here = place
    · subst same
      rw [workspace_settle_self, workspace_settle_self]
      exact twins
    · rw [workspace_settle_of_ne same, workspace_settle_of_ne same]
      exact
        { twins with
          tree := (corresponding.each here).tree
          drawn := (corresponding.each here).drawn.mono
            (Set.image_mono (Set.Iio_subset_Iio grows.used)) }
  identifiers := rfl

theorem Corresponding.perform (renames : Renames rename first second bound)
    (absolute : engine.profile.HasAbsoluteTypes) {request : Request}
    (leavesObjects : request.LeavesObjects)
    (corresponding : Corresponding rename first second records triples) (place : Nat)
    (within : (records.perform engine place request).2.supply.used ≤ bound) :
    (triples.perform engine place request).1 =
        (records.perform engine place request).1.map (Answer.renameObjects rename) ∧
      Corresponding rename first second (records.perform engine place request).2
        (triples.perform engine place request).2 := by
  have twins := corresponding.each place
  cases request with
  | edit change =>
      let state : Copying := ⟨(records.workspace place).tree, records.identifiers⟩
      have other : (⟨(triples.workspace place).tree, triples.identifiers⟩ : Copying) =
          state.renameObjects rename := by
        rw [twins.tree, corresponding.identifiers]
        rfl
      have drawn := @Edit.holdsOnly_perform change leavesObjects state _ twins.drawn
      simp only [TreeCollection.perform, other, Edit.answer_renameObjects leavesObjects,
        Edit.perform_renameObjects leavesObjects]
      exact ⟨rfl, corresponding.settle (.refl _) (twins.withTree drawn) place _⟩
  | call call =>
      obtain ⟨same, next⟩ := EngineCall.inStep_perform renames absolute twins call within
      have grows := call.perform_grows engine (records.workspace place)
      simp only [TreeCollection.perform, same, EngineCall.answer_renameObjects,
        corresponding.identifiers]
      exact ⟨trivial, corresponding.settle grows next place _⟩
  | validationReport start =>
      have same := engine.validationReport_eq_of_objectsOnly twins.only start
      simp only [TreeCollection.perform, same]
      cases engine.validationReport (records.workspace place).tree start <;> exact ⟨rfl, corresponding⟩
  | eligibleTypes id =>
      have same := engine.eligibleTypes_eq_of_objectsOnly twins.only id
      simp only [TreeCollection.perform, same]
      cases engine.eligibleTypes (records.workspace place).tree id <;> exact ⟨rfl, corresponding⟩
  | legalTransforms id =>
      have same := engine.legalTransforms_eq_of_objectsOnly twins.only id
      simp only [TreeCollection.perform, same]
      cases engine.legalTransforms (records.workspace place).tree id <;> exact ⟨rfl, corresponding⟩

/-! ## Runs -/

theorem Corresponding.run (renames : Renames rename first second bound)
    (absolute : engine.profile.HasAbsoluteTypes) {requests : List (Nat × Request)}
    (leavesObjects : ∀ entry ∈ requests, entry.2.LeavesObjects)
    (corresponding : Corresponding rename first second records triples)
    (within : (run engine requests records).2.supply.used ≤ bound) :
    (run engine requests triples).1 =
        (run engine requests records).1.map (Except.map (Answer.renameObjects rename)) ∧
      Corresponding rename first second (run engine requests records).2
        (run engine requests triples).2 := by
  induction requests generalizing records triples with
  | nil =>
      exact ⟨rfl, corresponding⟩
  | cons entry rest inductionHypothesis =>
      obtain ⟨place, request⟩ := entry
      -- The names are told apart up to the end of the whole run, and no step draws beyond that.
      have restGrows := run_grows engine rest (records.perform engine place request).2
      obtain ⟨same, next⟩ := corresponding.perform renames absolute
        (leavesObjects _ List.mem_cons_self) place (Nat.le_trans restGrows.used within)
      obtain ⟨sameRest, last⟩ := inductionHypothesis
        (fun later member => leavesObjects later (List.mem_cons_of_mem _ member)) next within
      exact ⟨List.cons_eq_cons.2 ⟨same, sameRest⟩, last⟩

/-- Trees, objects and classes are the same up to the names of objects. -/
structure SameUpTo (rename : String → String) (records : TreeCollection MemoryStore)
    (triples : TreeCollection TripleStore) : Prop where
  trees : ∀ place, triples.trees place = (records.trees place).renameObjects rename
  minted : Set.BijOn rename records.minted triples.minted
  holdsOnly : ∀ place, (records.trees place).HoldsOnly records.minted
  classes : ∀ object ∈ records.minted, ∃ types others,
    ObjectStore.types records.store object = .ok types ∧
      ObjectStore.types triples.store (rename object) = .ok others ∧
      ∀ type, type ∈ others ↔ type ∈ types

theorem Corresponding.sameUpTo (renames : Renames rename first second bound)
    (corresponding : Corresponding rename first second records triples)
    (within : records.supply.used ≤ bound) : SameUpTo rename records triples := by
  have twins := corresponding.each 0
  have recordsMinted : records.minted = first '' Set.Iio records.supply.used :=
    congrArg (· '' _) twins.recordsName
  have triplesMinted : triples.minted = second '' Set.Iio records.supply.used :=
    congrArg (fun supply : Supply => supply.name '' Set.Iio supply.used) twins.triplesSupply
  have subset : Set.Iio records.supply.used ⊆ Set.Iio bound := Set.Iio_subset_Iio within
  have renamed : Set.EqOn (rename ∘ first) second (Set.Iio records.supply.used) :=
    fun turn before => renames.rename_first turn (subset before)
  constructor
  · exact fun place => (corresponding.each place).tree
  · have injective : Set.InjOn rename (first '' Set.Iio records.supply.used) :=
      ((renames.second_injOn.mono subset).congr renamed.symm).image_of_comp
    rw [recordsMinted, triplesMinted, ← renamed.image_eq, Set.image_comp]
    exact injective.bijOn_image
  · intro place
    rw [recordsMinted]
    exact (corresponding.each place).drawn
  · intro object isMinted
    rw [recordsMinted] at isMinted
    obtain ⟨turn, before, rfl⟩ := isMinted
    obtain ⟨others, known, isStated⟩ :=
      @TripleStore.types_ok triples.store (second turn) (renames.absolute turn (subset before))
    refine ⟨records.store.types (first turn), others, rfl, ?_, fun type => ?_⟩
    · rw [renames.rename_first turn (subset before)]
      exact known
    · rw [isStated]
      exact twins.classes.classes turn before type

/-- No request has been made yet, so nothing has been named. Objects are going to be named by random
identifiers. -/
def start {S : Type} (trees : Nat → ContentTree) (store : S) (bits : Nat → Nat)
    (identifiers : Supply) : TreeCollection S :=
  ⟨trees, store, ⟨RandomName.ofNat ∘ bits, 0⟩, identifiers⟩

theorem corresponding_start (rename : String → String) {trees : Nat → ContentTree}
    (withoutObjects : ∀ place, (trees place).WithoutObjects) (first second : Nat → Nat)
    (identifiers : Supply) :
    Corresponding rename (RandomName.ofNat ∘ first) (RandomName.ofNat ∘ second)
      (start trees MemoryStore.empty first identifiers)
      (start trees TripleStore.empty second identifiers) where
  each place :=
    { tree := ((withoutObjects place).renameObjects_eq rename).symm
      recordsName := rfl
      triplesSupply := rfl
      drawn := (withoutObjects place).holdsOnly
      classes := SameClasses.empty }
  identifiers := rfl

/-- Whatever is asked of an engine and whatever is edited, a store of records and a store of statements
can be told apart by nothing but the names of objects. All answers are the same, and trees, objects and
classes correspond under a bijection of the names that were drawn. -/
theorem same_answers_from_two_stores (absolute : engine.profile.HasAbsoluteTypes)
    {requests : List (Nat × Request)} (leavesObjects : ∀ entry ∈ requests, entry.2.LeavesObjects)
    {trees : Nat → ContentTree} (withoutObjects : ∀ place, (trees place).WithoutObjects)
    {identifiers : Supply} {first second : Nat → Nat} {used : Nat}
    (draws : (run engine requests (start trees MemoryStore.empty first identifiers)).2.supply.used = used)
    (firstDistinct : Set.InjOn (RandomName.ofNat ∘ first) (Set.Iio used))
    (secondDistinct : Set.InjOn (RandomName.ofNat ∘ second) (Set.Iio used)) :
    ∃ rename : String → String,
      (run engine requests (start trees TripleStore.empty second identifiers)).1 =
          (run engine requests (start trees MemoryStore.empty first identifiers)).1.map
            (Except.map (Answer.renameObjects rename)) ∧
        SameUpTo rename (run engine requests (start trees MemoryStore.empty first identifiers)).2
          (run engine requests (start trees TripleStore.empty second identifiers)).2 := by
  have apart : NamesApart (RandomName.ofNat ∘ first) (RandomName.ofNat ∘ second) used :=
    ⟨firstDistinct, secondDistinct, fun turn _ => RandomName.isAbsolute_ofNat (second turn)⟩
  obtain ⟨rename, renames⟩ := apart.exists_renames
  have started := corresponding_start rename withoutObjects first second identifiers
  obtain ⟨same, last⟩ := started.run renames absolute leavesObjects (Nat.le_of_eq draws)
  exact ⟨rename, same, last.sameUpTo renames (Nat.le_of_eq draws)⟩

/-- Requests about an archive with one item. The item is typed, copied with its type, turned into an object
and removed; its copy gets a further type. Another tree is empty, and cannot be typed. -/
def archiveRequests : List (Nat × Request) :=
  [(0, .edit (.withRoot { identifier := "archive", name := "archive" })),
    (0, .edit (.addChild ⟨0⟩ { identifier := "item", name := "item" })),
    (0, .call (.atNode (.setNodeType ⟨0⟩ Pcdm.collection))),
    (0, .eligibleTypes ⟨1⟩),
    (0, .call (.atNode (.setNodeType ⟨1⟩ Pcdm.collection))),
    (0, .validationReport ⟨0⟩),
    (0, .edit (.copySubtree ⟨1⟩ ⟨0⟩)),
    (0, .legalTransforms ⟨1⟩),
    (0, .call (.atNode (.applyTransform ⟨1⟩ ⟨2⟩))),
    (0, .call (.atNode (.addSubType ⟨2⟩ Pcdm.object))),
    (0, .edit (.write ⟨1⟩ fun node => { node with ignored := !node.ignored })),
    (0, .call (.assignNodeTypes ⟨1⟩)),
    (0, .edit (.removeSubtree ⟨1⟩)),
    (1, .call .assignTree)]

/-- All places are empty. -/
def archiveStart {S : Type} (store : S) (bits : Nat → Nat) : TreeCollection S :=
  start (fun _ => .empty) store bits ⟨RandomName.ofNat, 64⟩

theorem same_answers_archiveRequests :
    (run ProfileEngine.pcdmEngine archiveRequests (archiveStart MemoryStore.empty id)).2.supply.used =
        3 ∧
      ∃ rename : String → String,
        (run ProfileEngine.pcdmEngine archiveRequests (archiveStart TripleStore.empty (· + 16))).1 =
            (run ProfileEngine.pcdmEngine archiveRequests (archiveStart MemoryStore.empty id)).1.map
              (Except.map (Answer.renameObjects rename)) ∧
          SameUpTo rename
            (run ProfileEngine.pcdmEngine archiveRequests (archiveStart MemoryStore.empty id)).2
            (run ProfileEngine.pcdmEngine archiveRequests
              (archiveStart TripleStore.empty (· + 16))).2 := by
  have absoluteTypes : ∀ type ∈ Pcdm.profile.nodeTypes, ∀ uri ∈ type.domainTypes,
      Iri.isAbsolute uri = true := by decide +kernel
  have absolute : ProfileEngine.pcdmEngine.profile.HasAbsoluteTypes := absoluteTypes
  have leavesObjects : ∀ entry ∈ archiveRequests, entry.2.LeavesObjects := by
    simp [archiveRequests, Request.LeavesObjects, Edit.LeavesObjects, Node.renameObject]
  have withoutObjects : ContentTree.empty.WithoutObjects :=
    fun id node found => absurd found (by simp [get?, ContentTree.empty])
  have draws : (run ProfileEngine.pcdmEngine archiveRequests
      (archiveStart MemoryStore.empty id)).2.supply.used = 3 := by decide +kernel
  have firstDistinct : ∀ one < 3, ∀ other < 3,
      RandomName.ofNat one = RandomName.ofNat other → one = other := by decide +kernel
  have secondDistinct : ∀ one < 3, ∀ other < 3,
      RandomName.ofNat (one + 16) = RandomName.ofNat (other + 16) → one = other := by decide +kernel
  exact ⟨draws, same_answers_from_two_stores absolute leavesObjects (fun _ => withoutObjects) draws
    (fun one before other otherBefore => firstDistinct one before other otherBefore)
    (fun one before other otherBefore => secondDistinct one before other otherBefore)⟩

end TreeCollection

end ContentTyping

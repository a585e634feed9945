import ContentTyping.Proofs.Engine.BlindToObjects
import ContentTyping.Proofs.Engine.SyncingInLine
import ContentTyping.Proofs.Store.SameClasses
import ContentTyping.Proofs.Tree.Renaming

/-!
# Two workspaces in step

One workspace has a store of records and the other one a store of statements. They correspond when their
trees differ in the names of objects only and their stores have the same classes for corresponding
objects. An engine that brings the object of a node in line in both of them has the same outcome twice,
and they correspond afterwards.
-/

namespace ContentTyping

open ContentTree

/-! ## Classes of a profile -/

/-- The domain types of all node types are absolute IRIs. -/
def DomainProfile.HasAbsoluteTypes (profile : DomainProfile) : Prop :=
  ∀ type ∈ profile.nodeTypes, ∀ uri ∈ type.domainTypes, Iri.isAbsolute uri = true

namespace DomainProfile

theorem mem_of_mem_firstOccurrences {texts : List String} {text : String}
    (member : text ∈ firstOccurrences texts) : text ∈ texts := by
  induction texts with
  | nil =>
      exact member
  | cons first texts inductionHypothesis =>
      rcases List.mem_cons.1 member with rfl | later
      · exact List.mem_cons_self
      · exact List.mem_cons_of_mem first (inductionHypothesis (List.mem_of_mem_filter later))

theorem HasAbsoluteTypes.domainTypes {profile : DomainProfile} (absolute : profile.HasAbsoluteTypes)
    {primary : NodeTypeId} {secondary : List NodeTypeId} {types : List String}
    (isTypes : profile.domainTypes? primary secondary = some types) :
    ∀ uri ∈ types, Iri.isAbsolute uri = true := by
  rw [domainTypes?, mapM_option_eq_ite] at isTypes
  obtain ⟨found, isFound, rfl⟩ := Option.map_eq_some_iff.1 isTypes
  split at isFound
  · obtain rfl := Option.some.inj isFound
    intro uri member
    obtain ⟨type, listed, isDomainType⟩ :=
      List.mem_flatMap.1 (mem_of_mem_firstOccurrences member)
    obtain ⟨id, _, isType⟩ := List.mem_filterMap.1 listed
    exact absolute type (List.mem_of_getElem? isType) uri isDomainType
  · exact absurd isFound (by simp)

end DomainProfile

/-! ## Corresponding workspaces -/

/-- A renaming that takes the names of one supply to those of another, both told apart up to a bound. -/
structure Renames (rename : String → String) (first second : Nat → String) (bound : Nat) : Prop
    extends NamesApart first second bound where
  rename_first : ∀ turn < bound, rename (first turn) = second turn

theorem NamesApart.exists_renames {first second : Nat → String} {bound : Nat}
    (apart : NamesApart first second bound) : ∃ rename, Renames rename first second bound := by
  refine ⟨second ∘ Function.invFunOn first (Set.Iio bound),
    { apart with rename_first := fun turn before => ?_ }⟩
  have inverse := apart.first_injOn.leftInvOn_invFunOn before
  exact congrArg second inverse

/-- The trees are the same up to the names of objects, as many names have been drawn on both sides, and
corresponding objects have the same classes. -/
structure Twins (rename : String → String) (first second : Nat → String)
    (records : Workspace MemoryStore) (triples : Workspace TripleStore) : Prop where
  tree : triples.tree = records.tree.renameObjects rename
  recordsName : records.supply.name = first
  triplesSupply : triples.supply = ⟨second, records.supply.used⟩
  drawn : records.tree.HoldsOnly (first '' Set.Iio records.supply.used)
  classes : SameClasses first second records.supply.used records.store triples.store

/-- The outcomes are the same, and the workspaces correspond. -/
def InStep {α : Type} (rename : String → String) (first second : Nat → String)
    (records : Except Error α × Workspace MemoryStore)
    (triples : Except Error α × Workspace TripleStore) : Prop :=
  triples.1 = records.1 ∧ Twins rename first second records.2 triples.2

theorem InStep.cases {α : Type} {rename : String → String} {first second : Nat → String}
    {records : Except Error α × Workspace MemoryStore}
    {triples : Except Error α × Workspace TripleStore}
    (inStep : InStep rename first second records triples) :
    (∃ error next other, records = (.error error, next) ∧ triples = (.error error, other) ∧
        Twins rename first second next other) ∨
      ∃ value next other, records = (.ok value, next) ∧ triples = (.ok value, other) ∧
        Twins rename first second next other := by
  obtain ⟨outcome, next⟩ := records
  obtain ⟨other, otherNext⟩ := triples
  obtain ⟨sameOutcome, twins⟩ := inStep
  obtain rfl : other = outcome := sameOutcome
  cases other with
  | error error => exact .inl ⟨error, next, otherNext, rfl, rfl, twins⟩
  | ok value => exact .inr ⟨value, next, otherNext, rfl, rfl, twins⟩

variable {rename : String → String} {first second : Nat → String} {bound : Nat}
  {records : Workspace MemoryStore} {triples : Workspace TripleStore} {engine : ProfileEngine}

namespace Twins

variable (twins : Twins rename first second records triples)

include twins

theorem recordsSupply : records.supply = ⟨first, records.supply.used⟩ := by
  rw [← twins.recordsName]

theorem withTree {tree : ContentTree}
    (drawn : tree.HoldsOnly (first '' Set.Iio records.supply.used)) :
    Twins rename first second { records with tree := tree }
      { triples with tree := tree.renameObjects rename } :=
  { twins with tree := rfl, drawn := drawn }

theorem modifyNode (id : NodeId) {change other : Node → Node}
    (natural : ∀ node, other (node.renameObject rename) = (change node).renameObject rename)
    (drawn : ∀ node object, (change node).object = some object →
      node.object = some object ∨ object ∈ first '' Set.Iio records.supply.used) :
    Twins rename first second (records.modifyNode id change) (triples.modifyNode id other) := by
  have drawnAfter :
      (records.tree.modify id change).HoldsOnly (first '' Set.Iio records.supply.used) := by
    intro here node object found isObject
    rw [get?_modify] at found
    split at found
    · obtain ⟨before, wasFound, rfl⟩ := Option.map_eq_some_iff.1 found
      rcases drawn before object isObject with kept | isDrawn
      · exact twins.drawn here before object wasFound kept
      · exact isDrawn
    · exact twins.drawn here node object found isObject
  have next := twins.withTree drawnAfter
  rw [← renameObjects_modify id natural, ← twins.tree] at next
  exact next

theorem bindTo (identifier : String) :
    Twins rename first second (records.bindTo identifier) (triples.bindTo identifier) := by
  have drawn : (records.tree.bind identifier).HoldsOnly (first '' Set.Iio records.supply.used) :=
    twins.drawn
  have next := twins.withTree drawn
  have renamed : (records.tree.bind identifier).renameObjects rename =
      triples.tree.bind identifier := by
    rw [twins.tree]
    rfl
  rw [renamed] at next
  exact next

theorem only : ObjectsOnly records.tree triples.tree := by
  rw [twins.tree]
  exact objectsOnly_renameObjects rename records.tree

theorem node (id : NodeId) :
    triples.tree.node id = (records.tree.node id).map (Node.renameObject rename) := by
  rw [twins.tree, node_renameObjects]

/-! ### Questions about a node -/

theorem parentTypeOf (node : Node) :
    engine.parentTypeOf triples.tree (node.renameObject rename) =
      engine.parentTypeOf records.tree node := by
  have sameParent : (node.renameObject rename).parent = node.parent := rfl
  rw [ProfileEngine.parentTypeOf, ProfileEngine.parentTypeOf, sameParent]
  cases node.parent with
  | none =>
      rfl
  | some parent =>
      simp only [twins.node]
      cases records.tree.node parent with
      | error error => rfl
      | ok above => rfl

theorem relationFor (node : Node) (type : NodeTypeId) :
    engine.relationFor triples.tree (node.renameObject rename) type =
      engine.relationFor records.tree node type := by
  have sameParent : (node.renameObject rename).parent = node.parent := rfl
  have types (id : NodeId) :
      (triples.tree.get? id).bind Node.nodeType = (records.tree.get? id).bind Node.nodeType :=
    twins.only.nodes.bind (fun _ => rfl) id
  simp only [ProfileEngine.relationFor, sameParent, types]

theorem checkFit (id : NodeId) (type : NodeTypeId) (breach : NodeType → Breach) :
    engine.checkFit triples.tree id type breach =
      (engine.checkFit records.tree id type breach).map (Node.renameObject rename) := by
  rw [ProfileEngine.checkFit, ProfileEngine.checkFit,
    engine.checkBinding_eq_of_objectsOnly twins.only, twins.node]
  cases engine.checkBinding records.tree with
  | error error =>
      rfl
  | ok _ =>
      cases engine.definition type with
      | error error =>
          rfl
      | ok definition =>
          cases records.tree.node id with
          | error error =>
              rfl
          | ok node =>
              have sameKind : (node.renameObject rename).fileKind = node.fileKind := rfl
              simp only [Bind.bind, Except.bind, Except.map, sameKind]
              split
              · rfl
              · rfl

theorem nodeName (id : NodeId) :
    ProfileEngine.nodeName triples.tree id = ProfileEngine.nodeName records.tree id := by
  rw [ProfileEngine.nodeName, ProfileEngine.nodeName, twins.tree, get?_renameObjects]
  cases records.tree.get? id with
  | none => rfl
  | some node => rfl

end Twins

/-! ## Bringing objects in line -/

namespace ProfileEngine

section Syncing

variable (renames : Renames rename first second bound)

include renames

theorem inStep_recordTypes (twins : Twins rename first second records triples)
    (within : records.supply.used ≤ bound) (id : NodeId) {turn : Nat}
    (before : turn < records.supply.used) {types : List String}
    (absolute : ∀ type ∈ types, Iri.isAbsolute type = true) :
    InStep rename first second (recordTypes id (first turn) types records)
      (recordTypes id (second turn) types triples) := by
  obtain ⟨nextRecords, nextTriples, recordsTake, triplesTake, classes⟩ :=
    twins.classes.setTypes renames.toNamesApart within before absolute
  have next : Twins rename first second { records with store := nextRecords }
      { triples with store := nextTriples } := { twins with classes := classes }
  rw [recordTypes, recordTypes, recordsTake, triplesTake]
  refine ⟨rfl, next.modifyNode id ?_ ?_⟩
  · intro node
    have renamed := renames.rename_first turn (Nat.lt_of_lt_of_le before within)
    rw [Node.renameObject, Node.renameObject, Option.map_some, renamed]
  · rintro node object isObject
    exact .inr ⟨turn, before, Option.some.inj isObject⟩

theorem inStep_syncObject (absolute : engine.profile.HasAbsoluteTypes)
    (twins : Twins rename first second records triples) (id : NodeId)
    (within : (engine.syncObject id records).2.supply.used ≤ bound) :
    InStep rename first second (engine.syncObject id records) (engine.syncObject id triples) := by
  have renamed := @get?_renameObjects rename records.tree id
  rw [← twins.tree] at renamed
  cases found : records.tree.get? id with
  | none =>
      rw [found] at renamed
      rw [syncObject, syncObject, found, renamed]
      exact ⟨rfl, twins⟩
  | some node =>
      rw [found] at renamed
      rw [syncObject, found] at within ⊢
      rw [syncObject, renamed]
      have sameType : (node.renameObject rename).nodeType = node.nodeType := rfl
      have sameSubTypes : (node.renameObject rename).subTypes = node.subTypes := rfl
      simp only [Option.map_some, sameType, sameSubTypes] at within ⊢
      cases isPrimary : node.nodeType.filter engine.profile.defines with
      | none =>
          exact ⟨rfl, twins⟩
      | some primary =>
          simp only [isPrimary] at within ⊢
          cases isTypes : engine.profile.domainTypes? primary
              (node.subTypes.filter engine.profile.defines) with
          | none =>
              exact ⟨rfl, twins⟩
          | some types =>
              have typesAbsolute := absolute.domainTypes isTypes
              simp only [isTypes] at within ⊢
              cases isObject : node.object with
              | some object =>
                  obtain ⟨turn, before, rfl⟩ := twins.drawn id node object found isObject
                  simp only [isObject, recordTypes_supply] at within
                  have sameObject : (node.renameObject rename).object = some (second turn) := by
                    rw [Node.renameObject, isObject, Option.map_some,
                      renames.rename_first turn (Nat.lt_of_lt_of_le before within)]
                  simp only [sameObject]
                  exact inStep_recordTypes renames twins within id before typesAbsolute
              | none =>
                  rw [Node.renameObject_eq_self isObject]
                  simp only [isObject] at within ⊢
                  split
                  · exact ⟨rfl, twins⟩
                  next nonempty =>
                      rw [if_neg nonempty] at within
                      have enough : records.supply.used + 1 ≤ bound := by
                        simpa only [ObjectStore.createOrReuse, objectName, isObject, Supply.draw,
                          recordTypes_supply] using within
                      obtain ⟨nextRecords, nextTriples, made, madeTriples, classes⟩ :=
                        twins.classes.createOrReuse renames.toNamesApart enough isObject
                      have next : Twins rename first second
                          ⟨records.tree, nextRecords, ⟨first, records.supply.used + 1⟩⟩
                          ⟨triples.tree, nextTriples, ⟨second, records.supply.used + 1⟩⟩ :=
                        { tree := twins.tree
                          recordsName := rfl
                          triplesSupply := rfl
                          drawn := twins.drawn.mono (Set.image_mono (Set.Iio_subset_Iio (Nat.le_succ _)))
                          classes := classes }
                      rw [← twins.recordsSupply] at made
                      rw [← twins.triplesSupply] at madeTriples
                      rw [made, madeTriples]
                      exact inStep_recordTypes renames next enough id (Nat.lt_succ_self _)
                        typesAbsolute

theorem inStep_syncObjects (absolute : engine.profile.HasAbsoluteTypes)
    (twins : Twins rename first second records triples) (ids : List NodeId)
    (within : (engine.syncObjects ids records).2.supply.used ≤ bound) :
    InStep rename first second (engine.syncObjects ids records)
      (engine.syncObjects ids triples) := by
  induction ids generalizing records triples with
  | nil =>
      exact ⟨rfl, twins⟩
  | cons id ids inductionHypothesis =>
      rw [syncObjects] at within ⊢
      rw [syncObjects]
      cases recordsSynced : engine.syncObject id records with
      | mk outcome next =>
          have firstWithin : (engine.syncObject id records).2.supply.used ≤ bound := by
            rw [recordsSynced] at within ⊢
            cases outcome with
            | error error => exact within
            | ok _ => exact Nat.le_trans (engine.syncObjects_grows ids next).used within
          obtain ⟨sameOutcome, nextTwins⟩ := inStep_syncObject renames absolute twins id firstWithin
          rw [recordsSynced] at within sameOutcome nextTwins
          cases triplesSynced : engine.syncObject id triples with
          | mk other otherNext =>
              rw [triplesSynced] at sameOutcome nextTwins
              obtain rfl : other = outcome := sameOutcome
              cases other with
              | error error => exact ⟨rfl, nextTwins⟩
              | ok _ => exact inductionHypothesis nextTwins within

end Syncing

end ProfileEngine

end ContentTyping

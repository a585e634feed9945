import Mathlib.Data.Set.Function
import Mathlib.Order.Interval.Set.Basic
import ContentTyping.Proofs.Engine.DeclaredTypes
import ContentTyping.Proofs.Store.Records
import ContentTyping.Proofs.Tree.Links

/-!
# Objects in line with types

The object of a node is in line when the store has a record that was made for the node and whose
classes are those of the node's types. Bringing one object in line leaves the others so, since no
two nodes share an object and a new object gets a name that was not drawn before.
-/

namespace ContentTyping

/-! ## Supplies -/

/-- Names have been drawn from the first supply and the second one is left. -/
structure Supply.Grows (before after : Supply) : Prop where
  name : after.name = before.name
  used : before.used ≤ after.used

namespace Supply.Grows

variable {first second third : Supply}

theorem refl (supply : Supply) : supply.Grows supply :=
  ⟨rfl, Nat.le_refl _⟩

theorem trans (upper : first.Grows second) (lower : second.Grows third) : first.Grows third :=
  ⟨lower.name.trans upper.name, Nat.le_trans upper.used lower.used⟩

theorem draw (supply : Supply) : supply.Grows supply.draw.2 :=
  ⟨rfl, Nat.le_succ _⟩

theorem drawn (grows : first.Grows second) {object : String}
    (earlier : ∃ turn < first.used, first.name turn = object) :
    ∃ turn < second.used, second.name turn = object := by
  obtain ⟨turn, before, isName⟩ := earlier
  refine ⟨turn, Nat.lt_of_lt_of_le before grows.used, ?_⟩
  rw [grows.name]
  exact isName

end Supply.Grows

/-! ## Nodes and records -/

namespace Node

/-- The profile declares the types of the node. -/
structure TypesDeclared (profile : DomainProfile) (node : Node) : Prop where
  primary : ∀ type, node.nodeType = some type → profile.defines type = true
  further : ∀ type ∈ node.subTypes, profile.defines type = true

/-- The record under the name of the node's object was made for the node. -/
def Recorded (store : MemoryStore) (node : Node) : Prop :=
  ∀ object, node.object = some object →
    ∃ record, store.record? object = some record ∧ record.node = node.identifier

/-- The classes of the node's object are those of its types. -/
def ClassesFollow (profile : DomainProfile) (store : MemoryStore) (node : Node) : Prop :=
  ∀ primary object, node.nodeType = some primary → node.object = some object →
    ∃ record, store.record? object = some record ∧
      profile.domainTypes? primary node.subTypes = some record.types

variable {profile : DomainProfile} {before after : MemoryStore} {node : Node}

theorem TypesDeclared.filter_nodeType (declared : node.TypesDeclared profile) :
    node.nodeType.filter profile.defines = node.nodeType := by
  cases isType : node.nodeType with
  | none =>
      rfl
  | some type =>
      exact Option.filter_some_pos (declared.primary type isType)

theorem TypesDeclared.filter_subTypes (declared : node.TypesDeclared profile) :
    node.subTypes.filter profile.defines = node.subTypes :=
  List.filter_eq_self.2 declared.further

theorem TypesDeclared.exists_domainTypes? (declared : node.TypesDeclared profile)
    {primary : NodeTypeId} (isType : node.nodeType = some primary) :
    ∃ types, profile.domainTypes? primary node.subTypes = some types := by
  refine ProfileEngine.exists_domainTypes? fun type member => ?_
  rcases List.mem_cons.1 member with rfl | further
  · exact declared.primary type isType
  · exact declared.further type further

/-- A declared type may take the place of the primary one. -/
theorem TypesDeclared.retyped (declared : node.TypesDeclared profile) {type : NodeTypeId}
    (defined : profile.defines type = true) {last : Node} (isType : last.nodeType = some type)
    (sameSubTypes : last.subTypes = node.subTypes) : last.TypesDeclared profile where
  primary other isOther := by
    obtain rfl : type = other := Option.some.inj (isType.symm.trans isOther)
    exact defined
  further := by
    rw [sameSubTypes]
    exact declared.further

theorem Recorded.of_record? (recorded : node.Recorded before)
    (same : ∀ object, node.object = some object → after.record? object = before.record? object) :
    node.Recorded after := by
  intro object isObject
  rw [same object isObject]
  exact recorded object isObject

theorem ClassesFollow.of_record? (follow : node.ClassesFollow profile before)
    (same : ∀ object, node.object = some object → after.record? object = before.record? object) :
    node.ClassesFollow profile after := by
  intro primary object isType isObject
  rw [same object isObject]
  exact follow primary object isType isObject

end Node

/-- The profile declares the types of all nodes. -/
def ContentTree.TypesDeclared (profile : DomainProfile) (tree : ContentTree) : Prop :=
  ∀ id node, tree.get? id = some node → node.TypesDeclared profile

/-- The object recorded for a node. -/
def ContentTree.object? (tree : ContentTree) (id : NodeId) : Option String :=
  (tree.get? id).bind Node.object

theorem ContentTree.object?_eq_some_iff {tree : ContentTree} {id : NodeId} {object : String} :
    tree.object? id = some object ↔
      ∃ node, tree.get? id = some node ∧ node.object = some object := by
  rw [ContentTree.object?, Option.bind_eq_some_iff]

namespace Workspace

/-! ## Workspaces in line -/

/-- The objects of the nodes have records of their own, and the classes of all but the pending nodes
follow the types. -/
structure InLineBut (profile : DomainProfile) (pending : List NodeId)
    (workspace : Workspace MemoryStore) : Prop where
  declared : workspace.tree.TypesDeclared profile
  recorded : ∀ id node, workspace.tree.get? id = some node → node.Recorded workspace.store
  follow : ∀ id node, workspace.tree.get? id = some node → id ∉ pending →
    node.ClassesFollow profile workspace.store
  unshared : ∀ first second object, workspace.tree.object? first = some object →
    workspace.tree.object? second = some object → first = second
  drawn : ∀ object, workspace.store.contains object = true →
    ∃ turn < workspace.supply.used, workspace.supply.name turn = object

/-- What the nodes of other trees may rely on: their objects, which are in the store but on no node
here, keep their records and are given to no node here. -/
structure Frame (before after : Workspace MemoryStore) : Prop where
  origin : ∀ id object, after.tree.object? id = some object →
    before.tree.object? id = some object ∨ before.store.contains object = false
  kept : ∀ object record, before.store.record? object = some record →
    (∀ id, before.tree.object? id ≠ some object) → after.store.record? object = some record
  stays : ∀ object, before.store.contains object = true → after.store.contains object = true

variable {profile : DomainProfile} {pending : List NodeId}
  {before after last : Workspace MemoryStore}

theorem Frame.refl (workspace : Workspace MemoryStore) : workspace.Frame workspace where
  origin _ _ held := .inl held
  kept _ _ found _ := found
  stays _ stored := stored

theorem Frame.trans (upper : before.Frame after) (lower : after.Frame last) :
    before.Frame last where
  origin id object held := by
    rcases lower.origin id object held with heldBetween | notStored
    · exact upper.origin id object heldBetween
    · right
      cases stored : before.store.contains object with
      | false =>
          rfl
      | true =>
          rw [upper.stays object stored] at notStored
          exact absurd notStored (by simp)
  kept object record found elsewhere := by
    apply lower.kept object record (upper.kept object record found elsewhere)
    intro id held
    rcases upper.origin id object held with heldBefore | notStored
    · exact elsewhere id heldBefore
    · rw [MemoryStore.contains_iff.2 ⟨record, found⟩] at notStored
      exact absurd notStored (by simp)
  stays object stored := lower.stays object (upper.stays object stored)

theorem InLineBut.contains (inLine : before.InLineBut profile pending) {id : NodeId}
    {object : String} (held : before.tree.object? id = some object) :
    before.store.contains object = true := by
  obtain ⟨node, found, isObject⟩ := ContentTree.object?_eq_some_iff.1 held
  obtain ⟨record, isRecord, _⟩ := inLine.recorded id node found object isObject
  exact MemoryStore.contains_iff.2 ⟨record, isRecord⟩

theorem InLineBut.bindTo (inLine : before.InLineBut profile pending) (identifier : String) :
    (before.bindTo identifier).InLineBut profile pending :=
  ⟨inLine.declared, inLine.recorded, inLine.follow, inLine.unshared, inLine.drawn⟩

theorem Frame.bindTo (frame : before.Frame after) (identifier : String) :
    before.Frame (after.bindTo identifier) :=
  ⟨frame.origin, frame.kept, frame.stays⟩

/-- A name that has its turn still to come is not in the store. -/
theorem InLineBut.not_contains_draw (inLine : before.InLineBut profile pending) {bound : Nat}
    (distinct : Set.InjOn before.supply.name (Set.Iio bound))
    (within : before.supply.used < bound) :
    before.store.contains before.supply.draw.1 = false := by
  cases stored : before.store.contains before.supply.draw.1 with
  | false =>
      rfl
  | true =>
      obtain ⟨turn, earlier, sameName⟩ := inLine.drawn _ stored
      have sameTurn : turn = before.supply.used :=
        distinct (Nat.lt_trans earlier within) within sameName
      omega

/-! ## One object -/

/-- The object of a node has been given the classes of the node's types. The object is the one that
the node had, or a new one. -/
structure Synced (profile : DomainProfile) (id : NodeId) (node : Node) (object : String)
    (before after : Workspace MemoryStore) : Prop where
  tree : after.tree = before.tree.modify id fun node => { node with object := some object }
  record : ∃ record, after.store.record? object = some record ∧ record.node = node.identifier ∧
    ∀ primary, node.nodeType = some primary →
      profile.domainTypes? primary node.subTypes = some record.types
  others : ∀ other, other ≠ object → after.store.record? other = before.store.record? other
  origin : (node.object = some object ∧ after.supply = before.supply) ∨
    (node.object = none ∧ before.store.contains object = false ∧
      object = before.supply.draw.1 ∧ after.supply = before.supply.draw.2)

namespace Synced

variable {id : NodeId} {node : Node} {object : String}

/-- The node got its object, and the others are as they were. -/
theorem node_cases (synced : Synced profile id node object before after)
    (found : before.tree.get? id = some node) {other : NodeId} {otherNode : Node}
    (otherFound : after.tree.get? other = some otherNode) :
    (other = id ∧ otherNode = { node with object := some object }) ∨
      (other ≠ id ∧ before.tree.get? other = some otherNode) := by
  rw [synced.tree, ContentTree.get?_modify] at otherFound
  by_cases same : other = id
  · rw [if_pos same, same, found] at otherFound
    exact .inl ⟨same, (Option.some.inj otherFound).symm⟩
  · rw [if_neg same] at otherFound
    exact .inr ⟨same, otherFound⟩

theorem object_cases (synced : Synced profile id node object before after)
    (found : before.tree.get? id = some node) {other : NodeId} {held : String}
    (isHeld : after.tree.object? other = some held) :
    (other = id ∧ held = object) ∨ (other ≠ id ∧ before.tree.object? other = some held) := by
  obtain ⟨otherNode, otherFound, isObject⟩ := ContentTree.object?_eq_some_iff.1 isHeld
  rcases synced.node_cases found otherFound with ⟨same, rfl⟩ | ⟨different, heldBefore⟩
  · exact .inl ⟨same, (Option.some.inj isObject).symm⟩
  · exact .inr ⟨different, ContentTree.object?_eq_some_iff.2 ⟨otherNode, heldBefore, isObject⟩⟩

theorem grows (synced : Synced profile id node object before after) :
    before.supply.Grows after.supply := by
  rcases synced.origin with ⟨_, sameSupply⟩ | ⟨_, _, _, drawn⟩
  · rw [sameSupply]
    exact .refl _
  · rw [drawn]
    exact .draw _

/-- No other node has the object. -/
theorem ne_of_ne (synced : Synced profile id node object before after)
    (inLine : before.InLineBut profile pending) (found : before.tree.get? id = some node)
    {other : NodeId} (different : other ≠ id) {held : String}
    (isHeld : before.tree.object? other = some held) : held ≠ object := by
  rintro rfl
  rcases synced.origin with ⟨isObject, _⟩ | ⟨_, notStored, _⟩
  · have same := inLine.unshared other id held isHeld
      (ContentTree.object?_eq_some_iff.2 ⟨node, found, isObject⟩)
    exact different same
  · rw [inLine.contains isHeld] at notStored
    exact absurd notStored (by simp)

theorem record?_eq (synced : Synced profile id node object before after)
    (inLine : before.InLineBut profile pending) (found : before.tree.get? id = some node)
    {other : NodeId} {otherNode : Node} (different : other ≠ id)
    (otherFound : before.tree.get? other = some otherNode) :
    ∀ held, otherNode.object = some held →
      after.store.record? held = before.store.record? held := by
  intro held isObject
  have isHeld := ContentTree.object?_eq_some_iff.2 ⟨otherNode, otherFound, isObject⟩
  exact synced.others held (synced.ne_of_ne inLine found different isHeld)

theorem inLineBut (synced : Synced profile id node object before after)
    (inLine : before.InLineBut profile (id :: pending))
    (found : before.tree.get? id = some node) : after.InLineBut profile pending where
  declared other otherNode otherFound := by
    rcases synced.node_cases found otherFound with ⟨_, rfl⟩ | ⟨_, foundBefore⟩
    · have declared := inLine.declared id node found
      exact ⟨declared.primary, declared.further⟩
    · exact inLine.declared other otherNode foundBefore
  recorded other otherNode otherFound := by
    rcases synced.node_cases found otherFound with ⟨_, rfl⟩ | ⟨different, foundBefore⟩
    · intro held isObject
      obtain rfl : object = held := Option.some.inj isObject
      obtain ⟨record, isRecord, sameNode, _⟩ := synced.record
      exact ⟨record, isRecord, sameNode⟩
    · exact (inLine.recorded other otherNode foundBefore).of_record?
        (synced.record?_eq inLine found different foundBefore)
  follow other otherNode otherFound notPending := by
    rcases synced.node_cases found otherFound with ⟨_, rfl⟩ | ⟨different, foundBefore⟩
    · intro primary held isType isObject
      obtain rfl : object = held := Option.some.inj isObject
      obtain ⟨record, isRecord, _, haveTypes⟩ := synced.record
      exact ⟨record, isRecord, haveTypes primary isType⟩
    · have follow := inLine.follow other otherNode foundBefore
        (List.not_mem_cons_of_ne_of_not_mem different notPending)
      exact follow.of_record? (synced.record?_eq inLine found different foundBefore)
  unshared first second held firstHolds secondHolds := by
    rcases synced.object_cases found firstHolds with ⟨isFirst, isObject⟩ | ⟨notFirst, firstHeld⟩
    · rcases synced.object_cases found secondHolds with ⟨isSecond, _⟩ | ⟨notSecond, secondHeld⟩
      · rw [isFirst, isSecond]
      · exact absurd isObject (synced.ne_of_ne inLine found notSecond secondHeld)
    · rcases synced.object_cases found secondHolds with ⟨_, isObject⟩ | ⟨_, secondHeld⟩
      · exact absurd isObject (synced.ne_of_ne inLine found notFirst firstHeld)
      · exact inLine.unshared first second held firstHeld secondHeld
  drawn held stored := by
    by_cases isObject : held = object
    · subst isObject
      rcases synced.origin with ⟨isObject, _⟩ | ⟨_, _, isName, drawn⟩
      · have isHeld := ContentTree.object?_eq_some_iff.2 ⟨node, found, isObject⟩
        exact synced.grows.drawn (inLine.drawn held (inLine.contains isHeld))
      · rw [drawn]
        exact ⟨before.supply.used, Nat.lt_succ_self _, isName.symm⟩
    · rw [MemoryStore.contains, synced.others held isObject] at stored
      exact synced.grows.drawn (inLine.drawn held stored)

theorem frame (synced : Synced profile id node object before after)
    (found : before.tree.get? id = some node) : before.Frame after where
  origin other held isHeld := by
    rcases synced.object_cases found isHeld with ⟨rfl, rfl⟩ | ⟨_, heldBefore⟩
    · rcases synced.origin with ⟨isObject, _⟩ | ⟨_, notStored, _⟩
      · exact .inl (ContentTree.object?_eq_some_iff.2 ⟨node, found, isObject⟩)
      · exact .inr notStored
    · exact .inl heldBefore
  kept held record isRecord elsewhere := by
    rw [synced.others held, isRecord]
    rintro rfl
    rcases synced.origin with ⟨isObject, _⟩ | ⟨_, notStored, _⟩
    · exact elsewhere id (ContentTree.object?_eq_some_iff.2 ⟨node, found, isObject⟩)
    · rw [MemoryStore.contains_iff.2 ⟨record, isRecord⟩] at notStored
      exact absurd notStored (by simp)
  stays held stored := by
    by_cases isObject : held = object
    · subst isObject
      obtain ⟨record, isRecord, _⟩ := synced.record
      exact MemoryStore.contains_iff.2 ⟨record, isRecord⟩
    · rw [MemoryStore.contains, synced.others held isObject]
      exact stored

end Synced

end Workspace

end ContentTyping

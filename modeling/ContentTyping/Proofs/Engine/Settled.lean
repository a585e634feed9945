import ContentTyping.Proofs.Engine.SyncingInLine
import ContentTyping.Proofs.Engine.KnownObjects

/-!
# Settled objects

The object of a node is settled when it has the classes that the known types of the node give it. To
bring a settled object in line once more changes nothing, and bringing one object in line leaves
those of other nodes settled, as long as no two nodes share an object and new names are new. Nothing
is asked of what the store holds.
-/

namespace ContentTyping

open ContentTree

/-- The classes that the known types of a node give its object; nothing for a node without a known
primary type. -/
def Node.classes? (profile : DomainProfile) (node : Node) : Option (List String) :=
  (node.nodeType.filter profile.defines).bind fun primary =>
    profile.domainTypes? primary (node.subTypes.filter profile.defines)

/-- No two nodes have the same object. -/
def ContentTree.ObjectsUnshared (tree : ContentTree) : Prop :=
  ∀ first second object, tree.object? first = some object → tree.object? second = some object →
    first = second

theorem ContentTree.object?_eq_none {tree : ContentTree}
    (noObjects : ∀ slot ∈ tree.nodes, slot.bind Node.object = none) (id : NodeId) :
    tree.object? id = none := by
  rw [ContentTree.object?, get?]
  cases found : tree.nodes[id.index]? with
  | none =>
      rfl
  | some slot =>
      exact noObjects slot (Array.mem_of_getElem? found)

theorem ContentTree.AgreeOn.object? {first second : ContentTree}
    (agree : AgreeOn Node.object first second) (id : NodeId) :
    first.object? id = second.object? id := by
  have same := agree.get id
  rw [ContentTree.object?, ContentTree.object?]
  cases found : first.get? id <;> cases otherFound : second.get? id <;> simp_all

theorem ContentTree.ObjectsUnshared.of_agreeOn {first second : ContentTree}
    (unshared : first.ObjectsUnshared) (agree : AgreeOn Node.object second first) :
    second.ObjectsUnshared := by
  intro one other object oneHolds otherHolds
  rw [agree.object?] at oneHolds otherHolds
  exact unshared one other object oneHolds otherHolds

theorem ContentTree.object?_modify {tree : ContentTree} {id : NodeId} {object : String}
    (live : tree.contains id = true) (other : NodeId) :
    (tree.modify id fun node => { node with object := some object }).object? other =
      if other = id then some object else tree.object? other := by
  obtain ⟨node, found⟩ := contains_iff.1 live
  rw [ContentTree.object?, get?_modify]
  by_cases same : other = id
  · rw [if_pos same, if_pos same, same, found]
    rfl
  · rw [if_neg same, if_neg same, ContentTree.object?]

namespace Workspace

/-- The names that are handed out before the bound is reached differ from each other, and none of
them is the object of a node. -/
structure ObjectsFreshUpTo (workspace : Workspace MemoryStore) (bound : Nat) : Prop where
  distinct : Set.InjOn workspace.supply.name (Set.Ico workspace.supply.used bound)
  unheld : ∀ turn ∈ Set.Ico workspace.supply.used bound, ∀ id,
    workspace.tree.object? id ≠ some (workspace.supply.name turn)

theorem ObjectsFreshUpTo.of_agreeOn {workspace : Workspace MemoryStore} {bound : Nat}
    (fresh : workspace.ObjectsFreshUpTo bound) {tree : ContentTree}
    (agree : AgreeOn Node.object tree workspace.tree) :
    { workspace with tree := tree }.ObjectsFreshUpTo bound where
  distinct := fresh.distinct
  unheld turn range id held := by
    rw [agree.object?] at held
    exact fresh.unheld turn range id held

/-- The object of the node has the classes of the node's types; without classes there need not be
one. -/
structure Settled (profile : DomainProfile) (workspace : Workspace MemoryStore) (id : NodeId) :
    Prop where
  record : ∀ node types object, workspace.tree.get? id = some node →
    node.classes? profile = some types → node.object = some object →
    ∃ record, workspace.store.record? object = some record ∧ record.types = types
  noObject : ∀ node types, workspace.tree.get? id = some node →
    node.classes? profile = some types → node.object = none → types = []

/-- An object was given to a node, with the classes that settle it. It is the one that the node had,
or one under a new name. -/
structure Given (profile : DomainProfile) (id : NodeId) (object : String)
    (before after : Workspace MemoryStore) : Prop where
  tree : after.tree = before.tree.modify id fun node => { node with object := some object }
  stored : after.store.contains object = true
  others : ∀ other, other ≠ object → after.store.record? other = before.store.record? other
  origin : (before.tree.object? id = some object ∧ after.supply = before.supply) ∨
    (object = before.supply.draw.1 ∧ after.supply = before.supply.draw.2)
  settled : after.Settled profile id

end Workspace

namespace ProfileEngine

variable {engine : ProfileEngine} {workspace last : Workspace MemoryStore} {id : NodeId}
  {node : Node}

/-! ## One object -/

/-- Bringing an object in line, with the classes of the node worked out beforehand. -/
theorem syncObject_eq (found : workspace.tree.get? id = some node) :
    engine.syncObject id workspace =
      match node.classes? engine.profile with
      | none => (.ok (), workspace)
      | some types =>
        match node.object with
        | some object => recordTypes id object types workspace
        | none =>
          if types.isEmpty then (.ok (), workspace)
          else
            recordTypes id workspace.supply.draw.1 types
              { workspace with
                store := workspace.store.register workspace.supply.draw.1 node.identifier
                supply := workspace.supply.draw.2 } := by
  simp only [syncObject, found, Node.classes?]
  cases isPrimary : node.nodeType.filter engine.profile.defines with
  | none =>
      rfl
  | some primary =>
      obtain ⟨types, haveTypes⟩ := exists_domainTypes?_of_filter isPrimary node.subTypes
      simp only [Option.bind_some, haveTypes]
      cases isObject : node.object with
      | some object => rfl
      | none => simp only [ObjectStore.createOrReuse, objectName, isObject]

theorem syncObject_eq_self (settled : workspace.Settled engine.profile id)
    (live : workspace.tree.contains id = true) :
    engine.syncObject id workspace = (.ok (), workspace) := by
  obtain ⟨node, found⟩ := contains_iff.1 live
  rw [syncObject_eq found]
  cases haveTypes : node.classes? engine.profile with
  | none =>
      rfl
  | some types =>
      cases isObject : node.object with
      | none =>
          obtain rfl := settled.noObject node types found haveTypes isObject
          rfl
      | some object =>
          obtain ⟨record, isRecord, rfl⟩ :=
            settled.record node types object found haveTypes isObject
          have sameTree : workspace.tree.modify id
              (fun node => { node with object := some object }) = workspace.tree := by
            apply modify_eq_self
            intro other otherFound
            obtain rfl : node = other := Option.some.inj (found.symm.trans otherFound)
            rw [← isObject]
          simp only [recordTypes_eq isRecord, sameTree, MemoryStore.put_eq_self isRecord]

/-- Recording classes of an object settles it, when the store knows the object. -/
theorem given_of_recordTypes {object : String} {types : List String}
    (found : workspace.tree.get? id = some node)
    (haveTypes : node.classes? engine.profile = some types)
    (done : recordTypes id object types workspace = (.ok (), last)) :
    last.tree = workspace.tree.modify id (fun node => { node with object := some object }) ∧
      last.store.contains object = true ∧
      (∀ other, other ≠ object → last.store.record? other = workspace.store.record? other) ∧
      last.supply = workspace.supply ∧ last.Settled engine.profile id := by
  cases isRecord : workspace.store.record? object with
  | none =>
      simp [recordTypes, ObjectStore.setTypes, MemoryStore.setTypes, isRecord] at done
  | some record =>
      rw [recordTypes_eq isRecord] at done
      obtain rfl := congrArg Prod.snd done
      refine ⟨rfl, (MemoryStore.contains_put _ object object _).2 (.inl rfl), ?_, rfl, ?_, ?_⟩
      · intro other different
        rw [MemoryStore.record?_put, if_neg different]
      · intro other otherTypes held otherFound haveOtherTypes isHeld
        rw [get?_modify, if_pos rfl, found] at otherFound
        obtain rfl := Option.some.inj otherFound
        obtain rfl : object = held := Option.some.inj isHeld
        obtain rfl : types = otherTypes := Option.some.inj (haveTypes.symm.trans haveOtherTypes)
        refine ⟨{ record with types := types }, ?_, rfl⟩
        rw [MemoryStore.record?_put, if_pos rfl]
      · intro other _ otherFound _ noObject
        rw [get?_modify, if_pos rfl, found] at otherFound
        obtain rfl := Option.some.inj otherFound
        exact absurd noObject (by simp)

/-- What a successful call has done: nothing to an object that is settled already, or it has given the
node its object. -/
theorem settled_or_given (live : workspace.tree.contains id = true)
    (done : engine.syncObject id workspace = (.ok (), last)) :
    last = workspace ∧ workspace.Settled engine.profile id ∨
      ∃ object, workspace.Given engine.profile id object last := by
  obtain ⟨node, found⟩ := contains_iff.1 live
  rw [syncObject_eq found] at done
  cases haveTypes : node.classes? engine.profile with
  | none =>
      rw [haveTypes] at done
      have unclassed : ∀ other types, workspace.tree.get? id = some other →
          other.classes? engine.profile ≠ some types := by
        intro other types otherFound haveOtherTypes
        obtain rfl : node = other := Option.some.inj (found.symm.trans otherFound)
        rw [haveTypes] at haveOtherTypes
        exact absurd haveOtherTypes (by simp)
      exact .inl ⟨(congrArg Prod.snd done).symm,
        fun other types _ otherFound haveOtherTypes _ =>
          absurd haveOtherTypes (unclassed other types otherFound),
        fun other types otherFound haveOtherTypes _ =>
          absurd haveOtherTypes (unclassed other types otherFound)⟩
  | some types =>
      rw [haveTypes] at done
      cases isObject : node.object with
      | some object =>
          simp only [isObject] at done
          obtain ⟨isTree, stored, others, sameSupply, settled⟩ :=
            given_of_recordTypes found haveTypes done
          have isHeld := object?_eq_some_iff.2 ⟨node, found, isObject⟩
          exact .inr ⟨object, isTree, stored, others, .inl ⟨isHeld, sameSupply⟩, settled⟩
      | none =>
          simp only [isObject] at done
          cases nothing : types.isEmpty with
          | true =>
              rw [nothing, if_pos rfl] at done
              refine .inl ⟨(congrArg Prod.snd done).symm, ?_, ?_⟩
              · intro other _ object otherFound _ isHeld
                obtain rfl : node = other := Option.some.inj (found.symm.trans otherFound)
                rw [isObject] at isHeld
                exact absurd isHeld (by simp)
              · intro other otherTypes otherFound haveOtherTypes _
                obtain rfl : node = other := Option.some.inj (found.symm.trans otherFound)
                obtain rfl : types = otherTypes :=
                  Option.some.inj (haveTypes.symm.trans haveOtherTypes)
                exact List.isEmpty_iff.1 nothing
          | false =>
              rw [nothing, if_neg (by simp)] at done
              let registered : Workspace MemoryStore :=
                { workspace with
                  store := workspace.store.register workspace.supply.draw.1 node.identifier
                  supply := workspace.supply.draw.2 }
              have foundThere : registered.tree.get? id = some node := found
              obtain ⟨isTree, stored, others, sameSupply, settled⟩ :=
                given_of_recordTypes foundThere haveTypes done
              refine .inr ⟨workspace.supply.draw.1, isTree, stored, ?_, .inr ⟨rfl, sameSupply⟩, settled⟩
              intro other different
              exact (others other different).trans
                (MemoryStore.record?_register_of_ne different node.identifier)

end ProfileEngine

/-! ## Other objects -/

namespace Workspace.Given

open ProfileEngine

variable {profile : DomainProfile} {id : NodeId} {object : String}
  {before after : Workspace MemoryStore} {bound : Nat}
  (given : before.Given profile id object after)

include given

theorem ne_of_ne (unshared : before.tree.ObjectsUnshared) (fresh : before.ObjectsFreshUpTo bound)
    (within : after.supply.used ≤ bound) {other : NodeId} (different : other ≠ id)
    {held : String} (isHeld : before.tree.object? other = some held) : held ≠ object := by
  rintro rfl
  rcases given.origin with ⟨ownHeld, _⟩ | ⟨isName, drawn⟩
  · exact different (unshared other id held isHeld ownHeld)
  · rw [drawn] at within
    rw [isName] at isHeld
    exact fresh.unheld before.supply.used ⟨Nat.le_refl _, within⟩ other isHeld

theorem object?_cases (live : before.tree.contains id = true) {other : NodeId} {held : String}
    (isHeld : after.tree.object? other = some held) :
    (other = id ∧ held = object) ∨ (other ≠ id ∧ before.tree.object? other = some held) := by
  rw [given.tree, object?_modify live] at isHeld
  by_cases same : other = id
  · rw [if_pos same] at isHeld
    exact .inl ⟨same, (Option.some.inj isHeld).symm⟩
  · rw [if_neg same] at isHeld
    exact .inr ⟨same, isHeld⟩

theorem unshared (live : before.tree.contains id = true)
    (unshared : before.tree.ObjectsUnshared) (fresh : before.ObjectsFreshUpTo bound)
    (within : after.supply.used ≤ bound) : after.tree.ObjectsUnshared := by
  intro first second held firstHolds secondHolds
  rcases given.object?_cases live firstHolds with ⟨isFirst, isObject⟩ | ⟨notFirst, firstHeld⟩
  · rcases given.object?_cases live secondHolds with ⟨isSecond, _⟩ | ⟨notSecond, secondHeld⟩
    · rw [isFirst, isSecond]
    · exact absurd isObject (given.ne_of_ne unshared fresh within notSecond secondHeld)
  · rcases given.object?_cases live secondHolds with ⟨_, isObject⟩ | ⟨_, secondHeld⟩
    · exact absurd isObject (given.ne_of_ne unshared fresh within notFirst firstHeld)
    · exact unshared first second held firstHeld secondHeld

theorem fresh (live : before.tree.contains id = true) (fresh : before.ObjectsFreshUpTo bound) :
    after.ObjectsFreshUpTo bound := by
  rcases given.origin with ⟨ownHeld, sameSupply⟩ | ⟨isName, drawn⟩
  · refine ⟨by rw [sameSupply]; exact fresh.distinct, ?_⟩
    rw [sameSupply]
    intro turn later other isHeld
    rcases given.object?_cases live isHeld with ⟨_, isObject⟩ | ⟨_, heldBefore⟩
    · rw [← isObject] at ownHeld
      exact fresh.unheld turn later id ownHeld
    · exact fresh.unheld turn later other heldBefore
  · rw [Supply.draw] at isName drawn
    have later {turn : Nat} (range : turn ∈ Set.Ico after.supply.used bound) :
        before.supply.used < turn ∧ turn ∈ Set.Ico before.supply.used bound := by
      rw [drawn] at range
      exact ⟨range.1, Nat.le_of_succ_le range.1, range.2⟩
    have sameName : after.supply.name = before.supply.name := by rw [drawn]
    constructor
    · rw [sameName]
      exact fresh.distinct.mono fun turn range => (later range).2
    · rw [sameName]
      intro turn range other isHeld
      obtain ⟨after, inRange⟩ := later range
      rcases given.object?_cases live isHeld with ⟨_, isObject⟩ | ⟨_, heldBefore⟩
      · rw [isName] at isObject
        have sameTurn := fresh.distinct inRange ⟨Nat.le_refl _, by have := inRange.2; omega⟩ isObject
        omega
      · exact fresh.unheld turn inRange other heldBefore

/-- The objects of other nodes stay settled. -/
theorem settled_of_ne (unshared : before.tree.ObjectsUnshared)
    (fresh : before.ObjectsFreshUpTo bound) (within : after.supply.used ≤ bound) {other : NodeId}
    (different : other ≠ id) (settled : before.Settled profile other) :
    after.Settled profile other := by
  have sameNode : after.tree.get? other = before.tree.get? other := by
    rw [given.tree, get?_modify, if_neg different]
  constructor
  · intro node types held found haveTypes isHeld
    rw [sameNode] at found
    have notObject := given.ne_of_ne unshared fresh within different
      (object?_eq_some_iff.2 ⟨node, found, isHeld⟩)
    rw [given.others held notObject]
    exact settled.record node types held found haveTypes isHeld
  · intro node types found
    rw [sameNode] at found
    exact settled.noObject node types found

end Workspace.Given

/-! ## Several objects -/

namespace ProfileEngine

variable {engine : ProfileEngine} {workspace last : Workspace MemoryStore} {bound : Nat}

/-- After bringing the objects of several nodes in line all of them are settled, and so are those that
were before. -/
theorem settled_of_syncObjects {ids : List NodeId}
    (live : ∀ id ∈ ids, workspace.tree.contains id = true)
    (unshared : workspace.tree.ObjectsUnshared) (fresh : workspace.ObjectsFreshUpTo bound)
    (done : engine.syncObjects ids workspace = (.ok (), last))
    (within : last.supply.used ≤ bound) {id : NodeId}
    (settledOrListed : workspace.Settled engine.profile id ∨ id ∈ ids) :
    last.Settled engine.profile id := by
  induction ids generalizing workspace with
  | nil =>
      obtain rfl : workspace = last := congrArg Prod.snd done
      rcases settledOrListed with settled | listed
      · exact settled
      · exact absurd listed List.not_mem_nil
  | cons head ids inductionHypothesis =>
      have headLive := live head List.mem_cons_self
      have only := engine.syncObject_objectsOnly head workspace
      rw [syncObjects] at done
      split at done
      next next synced =>
          rw [synced] at only
          have nextLive : ∀ later ∈ ids, next.tree.contains later = true := by
            intro later member
            rw [only.contains]
            exact live later (List.mem_cons_of_mem head member)
          have nextWithin : next.supply.used ≤ bound := by
            have grows := engine.syncObjects_grows ids next
            rw [done] at grows
            exact Nat.le_trans grows.used within
          rcases settled_or_given headLive synced with ⟨rfl, headSettled⟩ | ⟨object, given⟩
          · refine inductionHypothesis nextLive unshared fresh done ?_
            rcases settledOrListed with settled | listed
            · exact .inl settled
            · rcases List.mem_cons.1 listed with rfl | further
              · exact .inl headSettled
              · exact .inr further
          · -- No other node has the object that the head was given, so what was settled stays so.
            refine inductionHypothesis nextLive
              (given.unshared headLive unshared fresh nextWithin) (given.fresh headLive fresh) done ?_
            by_cases isHead : id = head
            · exact .inl (isHead ▸ given.settled)
            · rcases settledOrListed with settled | listed
              · exact .inl (given.settled_of_ne unshared fresh nextWithin isHead settled)
              · exact .inr (List.mem_of_ne_of_mem isHead listed)
      next =>
          exact absurd (congrArg Prod.fst done) (by simp)

theorem syncObjects_eq_self {ids : List NodeId}
    (live : ∀ id ∈ ids, workspace.tree.contains id = true)
    (settled : ∀ id ∈ ids, workspace.Settled engine.profile id) :
    engine.syncObjects ids workspace = (.ok (), workspace) := by
  induction ids with
  | nil =>
      rfl
  | cons id ids inductionHypothesis =>
      rw [syncObjects, syncObject_eq_self (settled id List.mem_cons_self)
        (live id List.mem_cons_self)]
      exact inductionHypothesis (fun later member => live later (List.mem_cons_of_mem id member))
        fun later member => settled later (List.mem_cons_of_mem id member)

end ProfileEngine

end ContentTyping

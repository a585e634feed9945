import ContentTyping.Engine.Assignment
import ContentTyping.Proofs.Decisions
import ContentTyping.Proofs.Store.Faults
import ContentTyping.Proofs.Tree.Agreement

/-!
# Keeping objects in line

Bringing the objects of nodes in line with their types changes nothing in the tree but the object
fields of the nodes, and it only fails when the store refuses a call.
-/

namespace ContentTyping

namespace ContentTree

/-- The second tree is the first one with other objects recorded. -/
structure ObjectsOnly (before after : ContentTree) : Prop where
  nodes : AgreeOn Node.withoutObject after before
  root : after.root = before.root
  profile : after.profile = before.profile
  index : after.index = before.index

namespace ObjectsOnly

variable {first second third : ContentTree}

theorem refl (tree : ContentTree) : ObjectsOnly tree tree :=
  ⟨.refl tree, rfl, rfl, rfl⟩

theorem trans (upper : ObjectsOnly first second) (lower : ObjectsOnly second third) :
    ObjectsOnly first third where
  nodes := lower.nodes.trans upper.nodes
  root := lower.root.trans upper.root
  profile := lower.profile.trans upper.profile
  index := lower.index.trans upper.index

theorem record (tree : ContentTree) (id : NodeId) (object : Option String) :
    ObjectsOnly tree (tree.modify id fun node => { node with object := object }) where
  nodes := .modify id fun _ => rfl
  root := rfl
  profile := rfl
  index := rfl

theorem contains (only : ObjectsOnly first second) (id : NodeId) :
    second.contains id = first.contains id :=
  only.nodes.contains id

end ObjectsOnly

end ContentTree

namespace ProfileEngine

open ContentTree

variable (engine : ProfileEngine) {S : Type} [ObjectStore S]

/-! ## What is changed -/

theorem recordTypes_objectsOnly (id : NodeId) (object : String) (types : List String)
    (workspace : Workspace S) :
    ObjectsOnly workspace.tree (recordTypes id object types workspace).2.tree := by
  rw [recordTypes]
  split
  · exact .refl _
  · exact .record _ id (some object)

theorem syncObject_objectsOnly (id : NodeId) (workspace : Workspace S) :
    ObjectsOnly workspace.tree (engine.syncObject id workspace).2.tree := by
  rw [syncObject]
  split
  · exact .refl _
  · split
    · exact .refl _
    · split
      · exact .refl _
      · split
        · exact recordTypes_objectsOnly id _ _ workspace
        · split
          · exact .refl _
          · split
            · exact .refl _
            next store supply _ =>
                exact recordTypes_objectsOnly id _ _
                  { workspace with store := store, supply := supply }

theorem syncObjects_objectsOnly (ids : List NodeId) (workspace : Workspace S) :
    ObjectsOnly workspace.tree (engine.syncObjects ids workspace).2.tree := by
  induction ids generalizing workspace with
  | nil =>
      exact .refl _
  | cons id ids inductionHypothesis =>
      have step := engine.syncObject_objectsOnly id workspace
      rw [syncObjects]
      split
      next next synced =>
          rw [synced] at step
          exact step.trans (inductionHypothesis next)
      next next synced =>
          rw [synced] at step
          exact step

/-! ## What can fail -/

theorem exists_domainTypes? {profile : DomainProfile} {primary : NodeTypeId}
    {secondary : List NodeTypeId}
    (declared : ∀ type ∈ primary :: secondary, profile.defines type = true) :
    ∃ types, profile.domainTypes? primary secondary = some types := by
  have all : ((primary :: secondary).all fun type => (profile.nodeType? type).isSome) = true :=
    List.all_eq_true.2 declared
  rw [DomainProfile.domainTypes?, mapM_option_eq_ite, if_pos all]
  exact ⟨_, rfl⟩

theorem exists_domainTypes?_of_filter {profile : DomainProfile} {nodeType : Option NodeTypeId}
    {primary : NodeTypeId} (isPrimary : nodeType.filter profile.defines = some primary)
    (subTypes : List NodeTypeId) :
    ∃ types, profile.domainTypes? primary (subTypes.filter profile.defines) = some types := by
  refine exists_domainTypes? fun type member => ?_
  rcases List.mem_cons.1 member with rfl | further
  · exact (Option.filter_eq_some_iff.1 isPrimary).2
  · exact (List.mem_filter.1 further).2

variable [LawfulObjectStore S]

theorem recordTypes_error {id : NodeId} {object : String} {types : List String}
    {workspace : Workspace S} {error : Error}
    (failed : (recordTypes id object types workspace).1 = .error error) :
    ∃ fault, error = .store fault := by
  rw [recordTypes] at failed
  split at failed
  next setError store refused =>
      have same : setError = error := Except.error.inj failed
      subst same
      exact LawfulObjectStore.setTypes_error workspace.store object types setError
        (by rw [refused])
  next =>
      exact absurd failed (by simp)

theorem syncObject_error {id : NodeId} {workspace : Workspace S} {error : Error}
    (live : workspace.tree.contains id = true)
    (failed : (engine.syncObject id workspace).1 = .error error) :
    ∃ fault, error = .store fault := by
  obtain ⟨node, found⟩ := contains_iff.1 live
  rw [syncObject, found] at failed
  simp only at failed
  split at failed
  · exact absurd failed (by simp)
  next primary isPrimary =>
      obtain ⟨types, known⟩ := exists_domainTypes?_of_filter isPrimary node.subTypes
      rw [known] at failed
      simp only at failed
      split at failed
      · exact recordTypes_error failed
      · split at failed
        · exact absurd failed (by simp)
        · split at failed
          next createError store supply refused =>
              have same : createError = error := Except.error.inj failed
              subst same
              exact LawfulObjectStore.createOrReuse_error workspace.store workspace.supply node
                createError (by rw [refused])
          next =>
              exact recordTypes_error failed

theorem syncObjects_error {ids : List NodeId} {workspace : Workspace S} {error : Error}
    (live : ∀ id ∈ ids, workspace.tree.contains id = true)
    (failed : (engine.syncObjects ids workspace).1 = .error error) :
    ∃ fault, error = .store fault := by
  induction ids generalizing workspace with
  | nil =>
      exact absurd failed (by simp [syncObjects])
  | cons id ids inductionHypothesis =>
      have step := engine.syncObject_objectsOnly id workspace
      rw [syncObjects] at failed
      split at failed
      next next synced =>
          rw [synced] at step
          refine inductionHypothesis (fun later member => ?_) failed
          rw [step.contains]
          exact live later (List.mem_cons_of_mem id member)
      next syncError next synced =>
          have same : syncError = error := Except.error.inj failed
          subst same
          exact engine.syncObject_error (live id List.mem_cons_self) (by rw [synced])

end ProfileEngine

end ContentTyping

import ContentTyping.Proofs.Engine.SyncingInLine

/-!
# Rewriting of trees

Engines and edits change trees in the same way, as far as objects are concerned: a node keeps its
identifier and its object, or it has no object. Only the nodes that got other types are then out of
line with their objects.
-/

namespace ContentTyping

open ContentTree

/-- The second node is the first one with other types, which the profile declares. A node that is not
listed kept its types or lost its primary one. -/
structure Node.RewrittenFrom (profile : DomainProfile) (listed : Prop) (before after : Node) :
    Prop where
  identifier : after.identifier = before.identifier
  object : after.object = before.object
  declared : before.TypesDeclared profile → after.TypesDeclared profile
  types : listed ∨ after.nodeType = none ∨
    (after.nodeType = before.nodeType ∧ after.subTypes = before.subTypes)

namespace Node.RewrittenFrom

variable {profile : DomainProfile} {listed : Prop} {first second third : Node}

theorem refl (node : Node) : node.RewrittenFrom profile listed node :=
  ⟨rfl, rfl, id, .inr (.inr ⟨rfl, rfl⟩)⟩

theorem trans (upper : first.RewrittenFrom profile listed second)
    (lower : second.RewrittenFrom profile listed third) :
    first.RewrittenFrom profile listed third where
  identifier := lower.identifier.trans upper.identifier
  object := lower.object.trans upper.object
  declared := lower.declared ∘ upper.declared
  types := by
    rcases lower.types with isListed | untyped | ⟨sameType, sameSubTypes⟩
    · exact .inl isListed
    · exact .inr (.inl untyped)
    · rw [sameType, sameSubTypes]
      exact upper.types

end Node.RewrittenFrom

/-- Every node of the second tree is the one in its slot in the first tree, as far as objects are
concerned, or it has declared types and no object. -/
def Rewriting (profile : DomainProfile) (ids : List NodeId) (before after : ContentTree) : Prop :=
  ∀ id node, after.get? id = some node →
    (node.object = none ∧ node.TypesDeclared profile) ∨
      ∃ old, before.get? id = some old ∧ old.RewrittenFrom profile (id ∈ ids) node

namespace Rewriting

variable {profile : DomainProfile} {ids : List NodeId} {first second third : ContentTree}

theorem refl (tree : ContentTree) : Rewriting profile ids tree tree :=
  fun _ node found => .inr ⟨node, found, .refl node⟩

theorem trans (upper : Rewriting profile ids first second)
    (lower : Rewriting profile ids second third) : Rewriting profile ids first third := by
  intro id node found
  rcases lower id node found with objectless | ⟨between, betweenFound, rest⟩
  · exact .inl objectless
  · rcases upper id between betweenFound with ⟨noObject, declared⟩ | ⟨old, oldFound, start⟩
    · exact .inl ⟨rest.object.trans noObject, rest.declared declared⟩
    · exact .inr ⟨old, oldFound, start.trans rest⟩

theorem modify {tree : ContentTree} {id : NodeId} {change : Node → Node}
    (rewritten : ∀ node, tree.get? id = some node →
      node.RewrittenFrom profile (id ∈ ids) (change node)) :
    Rewriting profile ids tree (tree.modify id change) := by
  intro other node found
  right
  rw [get?_modify] at found
  by_cases same : other = id
  · rw [if_pos same, Option.map_eq_some_iff] at found
    obtain ⟨old, oldFound, rfl⟩ := found
    rw [same] at oldFound ⊢
    exact ⟨old, oldFound, rewritten old oldFound⟩
  · rw [if_neg same] at found
    exact ⟨node, found, .refl node⟩

theorem foldl {α : Type} {change : ContentTree → α → ContentTree} {items : List α}
    (step : ∀ item ∈ items, ∀ tree, Rewriting profile ids tree (change tree item))
    (tree : ContentTree) : Rewriting profile ids tree (items.foldl change tree) := by
  induction items generalizing tree with
  | nil =>
      exact .refl tree
  | cons item items inductionHypothesis =>
      have start := step item List.mem_cons_self tree
      have rest := inductionHypothesis fun later member => step later (List.mem_cons_of_mem _ member)
      exact start.trans (rest (change tree item))

theorem typesDeclared (rewriting : Rewriting profile ids first second)
    (declared : first.TypesDeclared profile) : second.TypesDeclared profile := by
  intro id node found
  rcases rewriting id node found with ⟨_, nodeDeclared⟩ | ⟨old, oldFound, rewritten⟩
  · exact nodeDeclared
  · exact rewritten.declared (declared id old oldFound)

/-- A node with an object had it before. -/
theorem exists_old (rewriting : Rewriting profile ids first second) {id : NodeId} {node : Node}
    (found : second.get? id = some node) {object : String} (isObject : node.object = some object) :
    ∃ old, first.get? id = some old ∧ old.object = some object ∧
      old.RewrittenFrom profile (id ∈ ids) node := by
  rcases rewriting id node found with ⟨noObject, _⟩ | ⟨old, oldFound, rewritten⟩
  · rw [noObject] at isObject
    exact absurd isObject (by simp)
  · exact ⟨old, oldFound, rewritten.object.symm.trans isObject, rewritten⟩

theorem object? (rewriting : Rewriting profile ids first second) {id : NodeId} {object : String}
    (held : second.object? id = some object) : first.object? id = some object := by
  obtain ⟨node, found, isObject⟩ := object?_eq_some_iff.1 held
  obtain ⟨old, oldFound, oldObject, _⟩ := rewriting.exists_old found isObject
  exact object?_eq_some_iff.2 ⟨old, oldFound, oldObject⟩

variable {store : MemoryStore} {supply rest : Supply}

/-- The objects of the listed nodes are the ones that wait to be brought in line. -/
theorem inLineBut (rewriting : Rewriting profile ids first second) (grows : supply.Grows rest)
    (inLine : Workspace.InLineBut profile [] ⟨first, store, supply⟩) :
    Workspace.InLineBut profile ids ⟨second, store, rest⟩ where
  declared := rewriting.typesDeclared inLine.declared
  recorded id node found := by
    intro object isObject
    obtain ⟨old, oldFound, oldObject, rewritten⟩ := rewriting.exists_old found isObject
    rw [rewritten.identifier]
    exact inLine.recorded id old oldFound object oldObject
  follow id node found notListed := by
    intro primary object isType isObject
    obtain ⟨old, oldFound, oldObject, rewritten⟩ := rewriting.exists_old found isObject
    rcases rewritten.types with isListed | untyped | ⟨sameType, sameSubTypes⟩
    · exact absurd isListed notListed
    · rw [untyped] at isType
      exact absurd isType (by simp)
    · rw [sameType] at isType
      rw [sameSubTypes]
      exact inLine.follow id old oldFound List.not_mem_nil primary object isType oldObject
  unshared _ _ object firstHolds secondHolds :=
    inLine.unshared _ _ object (rewriting.object? firstHolds) (rewriting.object? secondHolds)
  drawn object stored := grows.drawn (inLine.drawn object stored)

theorem frame (rewriting : Rewriting profile ids first second) :
    Workspace.Frame ⟨first, store, supply⟩ ⟨second, store, rest⟩ where
  origin _ _ held := .inl (rewriting.object? held)
  kept _ _ found _ := found
  stays _ stored := stored

end Rewriting

end ContentTyping

import Mathlib.Data.List.Nodup
import ContentTyping.Proofs.Tree.Copying
import ContentTyping.Proofs.Tree.Moving
import ContentTyping.Proofs.Tree.Removal

/-!
# Runs of edits

Parents, children, the root and the index are written by each edit on its own. They agree after
every edit, also after one that was refused, and so in every tree that edits lead to.
-/

namespace ContentTyping.ContentTree

variable {tree : ContentTree}

/-! ## Edits -/

/-- A call that changes a tree. -/
inductive Edit where
  /-- Start over with a tree of one node. -/
  | withRoot (node : Node)
  | addChild (parent : NodeId) (node : Node)
  | removeSubtree (id : NodeId)
  | moveNode (id newParent : NodeId)
  | copySubtree (id newParent : NodeId)
  | clearTyping
  /-- Write fields of a node in its place. -/
  | write (id : NodeId) (change : Node → Node)

namespace Edit

/-- The outcome of an edit, and the tree and the supply of names afterwards. -/
def perform : Edit → Copying → Except Error Unit × Copying
  | .withRoot node, state => (.ok (), { state with tree := (ContentTree.withRoot node).2 })
  | .addChild parent node, state =>
    match state.tree.addChild parent node with
    | .ok (_, next) => (.ok (), { state with tree := next })
    | .error error => (.error error, state)
  | .removeSubtree id, state =>
    let removed := state.tree.removeSubtree id
    (removed.1.map fun _ => (), { state with tree := removed.2 })
  | .moveNode id newParent, state =>
    match state.tree.moveNode id newParent with
    | .ok next => (.ok (), { state with tree := next })
    | .error error => (.error error, state)
  | .copySubtree id newParent, state =>
    let copied := state.tree.copySubtree state.supply id newParent
    (copied.1.map fun _ => (), copied.2)
  | .clearTyping, state => (.ok (), { state with tree := state.tree.clearTyping })
  | .write id change, state => (.ok (), { state with tree := state.tree.modify id change })

/-- What is asked of an edit: the names that a copying draws are new, and what is written in place
are not the links. -/
def Admissible (edit : Edit) (state : Copying) : Prop :=
  match edit with
  | .copySubtree _ _ => state.FreshUpTo (edit.perform state).2.supply.used
  | .write _ change => KeepsLinks change
  | _ => True

/-- Carry out edits one after the other, whatever their outcomes. -/
def run : List Edit → Copying → Copying
  | [], state => state
  | edit :: rest, state => run rest (edit.perform state).2

/-- Each edit is admissible when its turn comes. -/
def AdmissibleRun : List Edit → Copying → Prop
  | [], _ => True
  | edit :: rest, state => edit.Admissible state ∧ AdmissibleRun rest (edit.perform state).2

/-- Whether it is refused or not, an edit leaves the links in order. -/
theorem wellFormed_perform {edit : Edit} {state : Copying} (admissible : edit.Admissible state)
    (wellFormed : state.tree.WellFormed) : (edit.perform state).2.tree.WellFormed := by
  cases edit with
  | withRoot node =>
      exact wellFormed_withRoot node
  | addChild parent node =>
      rw [perform]
      split
      next id next added =>
          exact wellFormed.addChild added
      next =>
          exact wellFormed
  | removeSubtree id =>
      exact wellFormed.removeSubtree id
  | moveNode id newParent =>
      rw [perform]
      split
      next next moved =>
          exact wellFormed.moveNode moved
      next =>
          exact wellFormed
  | copySubtree id newParent =>
      exact wellFormed.copySubtree admissible
  | clearTyping =>
      exact wellFormed.clearTyping
  | write id change =>
      exact wellFormed.modify id admissible

theorem wellFormed_run {edits : List Edit} {state : Copying}
    (admissible : AdmissibleRun edits state) (wellFormed : state.tree.WellFormed) :
    (run edits state).tree.WellFormed := by
  induction edits generalizing state with
  | nil =>
      exact wellFormed
  | cons edit rest inductionHypothesis =>
      exact inductionHypothesis admissible.2 (wellFormed_perform admissible.1 wellFormed)

end Edit

/-! ## Live nodes -/

theorem mem_liveIds_iff {id : NodeId} : id ∈ tree.liveIds ↔ tree.contains id = true := by
  rw [liveIds, List.mem_filter, List.mem_map]
  constructor
  · intro listed
    exact listed.2
  · intro live
    exact ⟨⟨id.index, List.mem_range.2 (index_lt_of_contains live), rfl⟩, live⟩

theorem liveIds_nodup : tree.liveIds.Nodup := by
  apply List.Nodup.filter
  apply List.nodup_range.map
  intro first second same
  exact congrArg NodeId.index same

/-- The identifier of a node, and the empty text for an empty slot. -/
def identifierOf (tree : ContentTree) (id : NodeId) : String :=
  match tree.get? id with
  | some node => node.identifier
  | none => ""

theorem nodup_keys (index : Std.ExtTreeMap String NodeId) : index.keys.Nodup := by
  apply Std.ExtTreeMap.distinct_keys.imp
  intro first second different same
  subst same
  exact different Std.ReflCmp.compare_self

namespace WellFormed

variable (wellFormed : tree.WellFormed)

include wellFormed

theorem getElem?_index_iff {identifier : String} {id : NodeId} :
    tree.index[identifier]? = some id ↔
      tree.contains id = true ∧ tree.identifierOf id = identifier := by
  rw [wellFormed.indexed, contains, identifierOf]
  cases tree.get? id with
  | none => simp
  | some node => simp

/-- Two live nodes do not share an identifier. -/
theorem eq_of_identifierOf_eq {first second : NodeId} (firstLive : tree.contains first = true)
    (secondLive : tree.contains second = true)
    (same : tree.identifierOf first = tree.identifierOf second) : first = second := by
  have firstEntry := wellFormed.getElem?_index_iff.2 ⟨firstLive, rfl⟩
  have secondEntry := wellFormed.getElem?_index_iff.2 ⟨secondLive, rfl⟩
  rw [same, secondEntry] at firstEntry
  exact (Option.some.inj firstEntry).symm

theorem keys_index_perm : (tree.liveIds.map tree.identifierOf).Perm tree.index.keys := by
  have names : (tree.liveIds.map tree.identifierOf).Nodup := by
    apply List.Nodup.map_on _ liveIds_nodup
    intro first firstListed second secondListed same
    exact wellFormed.eq_of_identifierOf_eq (mem_liveIds_iff.1 firstListed)
      (mem_liveIds_iff.1 secondListed) same
  apply (List.perm_ext_iff_of_nodup names (nodup_keys _)).2
  intro identifier
  rw [Std.ExtTreeMap.mem_keys, Std.ExtTreeMap.mem_iff_isSome_getElem?, Option.isSome_iff_exists,
    List.mem_map]
  refine exists_congr fun id => ?_
  rw [mem_liveIds_iff, wellFormed.getElem?_index_iff]

theorem size_eq_length_liveIds : tree.size = tree.liveIds.length := by
  have sameLength := wellFormed.keys_index_perm.length_eq
  rw [List.length_map, Std.ExtTreeMap.length_keys] at sameLength
  exact sameLength.symm

theorem getLast?_lineage {id : NodeId} {above : List NodeId} (live : tree.contains id = true)
    (line : Lineage tree id above) : (id :: above).getLast? = tree.root := by
  induction line with
  | top noParent =>
      rw [wellFormed.eq_root_of_parent?_eq_none live noParent]
      rfl
  | child link _ inductionHypothesis =>
      rw [List.getLast?_cons_cons]
      exact inductionHypothesis (wellFormed.contains_parent link)

end WellFormed

/-! ## Reached trees -/

/-- All that a tree records about its shape agrees: the root, parents, children and the index. -/
structure Consistent (tree : ContentTree) : Prop where
  root : ∀ root, tree.root = some root →
    tree.contains root = true ∧ tree.parent? root = none
  /-- Every other node is listed once by its parent. -/
  parent : ∀ id, tree.contains id = true → tree.root ≠ some id →
    ∃ parent, tree.parent? id = some parent ∧ tree.contains parent = true ∧
      (tree.children parent).count id = 1
  child : ∀ id child, child ∈ tree.children id →
    tree.contains child = true ∧ tree.parent? child = some id
  children_nodup : ∀ id, (tree.children id).Nodup
  /-- From parent to parent one comes to the root, without meeting a node twice. -/
  ancestors : ∀ id, tree.contains id = true →
    Lineage tree id (tree.ancestors id) ∧ (id :: tree.ancestors id).Nodup ∧
      (id :: tree.ancestors id).getLast? = tree.root
  index : ∀ (identifier : String) (id : NodeId), tree.index[identifier]? = some id ↔
    tree.contains id = true ∧ tree.identifierOf id = identifier
  index_injective : ∀ (first second : String) (id : NodeId), tree.index[first]? = some id →
    tree.index[second]? = some id → first = second
  identifier_injective : ∀ first second, tree.contains first = true →
    tree.contains second = true → tree.identifierOf first = tree.identifierOf second →
    first = second
  size : tree.size = tree.liveIds.length
  isEmpty : tree.isEmpty = true ↔ tree.liveIds = []

theorem WellFormed.consistent (wellFormed : tree.WellFormed) : tree.Consistent where
  root root isRoot :=
    ⟨wellFormed.root_contained root isRoot, wellFormed.root_parent root isRoot⟩
  parent id live notRoot := by
    cases link : tree.parent? id with
    | none =>
        exact absurd (wellFormed.eq_root_of_parent?_eq_none live link) notRoot
    | some parent =>
        have listed := wellFormed.child_of_parent id parent link
        refine ⟨parent, rfl, wellFormed.contains_parent link, ?_⟩
        exact List.count_eq_one_of_mem (wellFormed.children_nodup parent) listed
  child id child member :=
    ⟨wellFormed.contains_child member, wellFormed.parent_of_child id child member⟩
  children_nodup := wellFormed.children_nodup
  ancestors id live := by
    have line := wellFormed.lineage_ancestors live
    exact ⟨line, line.nodup, wellFormed.getLast?_lineage live line⟩
  index _ _ := wellFormed.getElem?_index_iff
  index_injective first second id firstEntry secondEntry := by
    have firstName := (wellFormed.getElem?_index_iff.1 firstEntry).2
    have secondName := (wellFormed.getElem?_index_iff.1 secondEntry).2
    exact firstName.symm.trans secondName
  identifier_injective _ _ firstLive secondLive same :=
    wellFormed.eq_of_identifierOf_eq firstLive secondLive same
  size := wellFormed.size_eq_length_liveIds
  isEmpty := by
    rw [isEmpty, Option.isNone_iff_eq_none, List.eq_nil_iff_forall_not_mem]
    constructor
    · intro noRoot id listed
      obtain ⟨root, isRoot, _⟩ := wellFormed.rooted id (mem_liveIds_iff.1 listed)
      rw [noRoot] at isRoot
      exact absurd isRoot (by simp)
    · intro noNodes
      cases isRoot : tree.root with
      | none =>
          rfl
      | some root =>
          have live := wellFormed.root_contained root isRoot
          exact absurd (mem_liveIds_iff.2 live) (noNodes root)

/-- After any edits, refused or not, that start from the empty tree, all that the tree records
about its shape agrees. -/
theorem consistent_of_edits {edits : List Edit} {supply : Supply}
    (admissible : Edit.AdmissibleRun edits ⟨empty, supply⟩) :
    (Edit.run edits ⟨empty, supply⟩).tree.Consistent :=
  (Edit.wellFormed_run admissible wellFormed_empty).consistent

/-- Edits of an archive that holds one item: the archive is copied into its item, the copy of the
item is moved to the top, and what is left of the item is removed. Moving the archive and removing
the item once more are refused. -/
def archiveEdits : List Edit :=
  [.withRoot { identifier := "archive", name := "archive" },
    .addChild ⟨0⟩ { identifier := "item", name := "item" },
    .copySubtree ⟨0⟩ ⟨1⟩,
    .moveNode ⟨0⟩ ⟨1⟩,
    .moveNode ⟨3⟩ ⟨0⟩,
    .removeSubtree ⟨1⟩,
    .removeSubtree ⟨1⟩,
    .write ⟨3⟩ fun node => { node with ignored := true },
    .clearTyping]

theorem consistent_archiveEdits :
    Edit.AdmissibleRun archiveEdits ⟨empty, RandomName.ofNat, 0⟩ ∧
      (Edit.run archiveEdits ⟨empty, RandomName.ofNat, 0⟩).tree.liveIds = [⟨0⟩, ⟨3⟩] ∧
      (Edit.run archiveEdits ⟨empty, RandomName.ofNat, 0⟩).tree.Consistent := by
  have fresh : (⟨(Edit.run (archiveEdits.take 2) ⟨empty, RandomName.ofNat, 0⟩).tree,
      RandomName.ofNat, 0⟩ : Copying).FreshUpTo 2 := by
    decide +kernel
  have admissible : Edit.AdmissibleRun archiveEdits ⟨empty, RandomName.ofNat, 0⟩ :=
    ⟨trivial, trivial, fresh, trivial, trivial, trivial, trivial, fun _ => ⟨rfl, rfl, rfl⟩,
      trivial, trivial⟩
  exact ⟨admissible, by decide +kernel, consistent_of_edits admissible⟩

end ContentTyping.ContentTree

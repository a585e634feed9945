import Mathlib.Data.List.Basic
import ContentTyping.Proofs.Tree.ActiveSubtree
import ContentTyping.Proofs.Tree.Growth
import ContentTyping.Proofs.Tree.Links
import ContentTyping.Proofs.Tree.Preorder

/-!
# Walks in turns

A walk can be made with a row of nodes that wait for their turn, until none waits. In a well-formed tree the walks
downwards and upwards come to an end, and what they have listed then are the descendants, the active subtree and
the ancestors. The walks downwards and upwards are inverse to each other, and the active subtree is what is left
of the descendants without the excluded nodes.
-/

namespace ContentTyping.ContentTree

variable {tree : ContentTree}

/-! ## Turns -/

/-- Go on with a walk for a number of turns. In a turn the first node that waits is passed over, or it is
listed and the nodes to go on to wait in its place. There is no answer as long as nodes wait. -/
def walkOn (goesOnTo : NodeId → Option (List NodeId)) :
    Nat → List NodeId → List NodeId → Option (List NodeId)
  | _, [], listed => some listed
  | 0, _ :: _, _ => none
  | turns + 1, id :: waiting, listed =>
    match goesOnTo id with
    | none => walkOn goesOnTo turns waiting listed
    | some next => walkOn goesOnTo turns (next ++ waiting) (listed ++ [id])

/-- The walk from some nodes comes to an end, and by then it has listed the items. More turns do not change
this. -/
def WalkEnds (goesOnTo : NodeId → Option (List NodeId)) (start items : List NodeId) : Prop :=
  ∃ turns, ∀ more, walkOn goesOnTo (turns + more) start [] = some items

/-- After some turns the nodes do not wait any longer, and the items are listed in their place. Whatever waits
behind them still waits. -/
def Clears (goesOnTo : NodeId → Option (List NodeId)) (ids items : List NodeId) : Prop :=
  ∃ turns, ∀ more waiting listed,
    walkOn goesOnTo (turns + more) (ids ++ waiting) listed =
      walkOn goesOnTo more waiting (listed ++ items)

namespace Clears

variable {goesOnTo : NodeId → Option (List NodeId)}

theorem nil : Clears goesOnTo [] [] := by
  refine ⟨0, fun more waiting listed => ?_⟩
  rw [Nat.zero_add, List.nil_append, List.append_nil]

theorem append {first second firstItems secondItems : List NodeId}
    (firstCleared : Clears goesOnTo first firstItems)
    (secondCleared : Clears goesOnTo second secondItems) :
    Clears goesOnTo (first ++ second) (firstItems ++ secondItems) := by
  obtain ⟨firstTurns, clearFirst⟩ := firstCleared
  obtain ⟨secondTurns, clearSecond⟩ := secondCleared
  refine ⟨firstTurns + secondTurns, fun more waiting listed => ?_⟩
  rw [Nat.add_assoc, List.append_assoc, clearFirst, clearSecond, List.append_assoc]

theorem passedOver {id : NodeId} (passes : goesOnTo id = none) : Clears goesOnTo [id] [] := by
  refine ⟨1, fun more waiting listed => ?_⟩
  rw [Nat.add_comm, List.singleton_append, walkOn, passes, List.append_nil]

theorem listed {id : NodeId} {next items : List NodeId} (lists : goesOnTo id = some next)
    (cleared : Clears goesOnTo next items) : Clears goesOnTo [id] (id :: items) := by
  obtain ⟨turns, clear⟩ := cleared
  refine ⟨turns + 1, fun more waiting listed => ?_⟩
  have turn : walkOn goesOnTo (turns + more + 1) (id :: waiting) listed =
      walkOn goesOnTo (turns + more) (next ++ waiting) (listed ++ [id]) := by
    rw [walkOn, lists]
  rw [Nat.add_right_comm, List.singleton_append, turn, clear, List.append_assoc, List.singleton_append]

/-- Nodes that can be cleared each on its own can be cleared one after the other. -/
theorem flatMap {items : NodeId → List NodeId} {ids : List NodeId}
    (each : ∀ id ∈ ids, Clears goesOnTo [id] (items id)) :
    Clears goesOnTo ids (ids.flatMap items) := by
  induction ids with
  | nil =>
      exact nil
  | cons id ids inductionHypothesis =>
      have others : ∀ other ∈ ids, Clears goesOnTo [other] (items other) :=
        fun other member => each other (List.mem_cons_of_mem id member)
      exact (each id List.mem_cons_self).append (inductionHypothesis others)

theorem walkEnds {ids items : List NodeId} (cleared : Clears goesOnTo ids items) :
    WalkEnds goesOnTo ids items := by
  obtain ⟨turns, clear⟩ := cleared
  refine ⟨turns, fun more => ?_⟩
  have done := clear more [] []
  rw [List.append_nil, List.nil_append] at done
  rw [done]
  cases more <;> rfl

end Clears

/-- On the way down one goes on to the children. -/
def goesDown (tree : ContentTree) (id : NodeId) : Option (List NodeId) :=
  some (tree.children id)

/-- On the way down to active nodes one goes on to the children of active nodes and passes over the others. -/
def goesDownActive (tree : ContentTree) (id : NodeId) : Option (List NodeId) :=
  if tree.isActive id then some (tree.children id) else none

/-- On the way up one goes on to the parent. -/
def goesUp (tree : ContentTree) (id : NodeId) : Option (List NodeId) :=
  some (tree.parent? id).toList

/-! ## The walks come to an end -/

theorem Lineage.clears {id : NodeId} {above : List NodeId} (line : Lineage tree id above) :
    Clears tree.goesUp (tree.parent? id).toList above := by
  induction line with
  | top noParent =>
      rw [noParent]
      exact .nil
  | child link _ inductionHypothesis =>
      rw [link]
      exact .listed rfl inductionHypothesis

namespace WellFormed

variable (wellFormed : tree.WellFormed)

include wellFormed

theorem walkEnds_descendants {id : NodeId} (live : tree.contains id = true) :
    WalkEnds tree.goesDown [id] (tree.descendants id) := by
  refine Clears.walkEnds ?_
  refine wellFormed.induction_from_leaves
    (motive := fun id => Clears tree.goesDown [id] (tree.descendants id)) ?_ live
  intro id idLive inductionHypothesis
  rw [wellFormed.descendants_eq idLive]
  exact .listed rfl (.flatMap inductionHypothesis)

theorem walkEnds_ancestors {id : NodeId} (live : tree.contains id = true) :
    WalkEnds tree.goesUp (tree.parent? id).toList (tree.ancestors id) :=
  (wellFormed.lineage_ancestors live).clears.walkEnds

/-- The active subtree of an active node by all its children: for an inactive one nothing is listed. -/
theorem activeSubtree_eq_children {id : NodeId} (active : tree.isActive id = true) :
    tree.activeSubtree id = id :: (tree.children id).flatMap tree.activeSubtree := by
  rw [activeSubtree, descendActive, if_pos active]
  refine congrArg (List.cons id) (List.flatMap_congr fun child member => ?_)
  cases childActive : tree.isActive child with
  | false =>
      rw [descendActive_of_not_isActive childActive, activeSubtree_of_not_isActive childActive]
  | true =>
      have childDepth := wellFormed.depth_child member
      exact wellFormed.descendActive_eq childActive (by omega) (by omega)

theorem walkEnds_activeSubtree (id : NodeId) :
    WalkEnds tree.goesDownActive [id] (tree.activeSubtree id) := by
  have passed {id : NodeId} (inactive : tree.isActive id = false) :
      Clears tree.goesDownActive [id] (tree.activeSubtree id) := by
    rw [activeSubtree_of_not_isActive inactive]
    exact .passedOver (by rw [goesDownActive, inactive]; rfl)
  refine Clears.walkEnds ?_
  cases active : tree.isActive id with
  | false =>
      exact passed active
  | true =>
      refine wellFormed.induction_from_leaves
        (motive := fun id => Clears tree.goesDownActive [id] (tree.activeSubtree id)) ?_
        (contains_of_isActive active)
      intro id _ inductionHypothesis
      cases idActive : tree.isActive id with
      | false =>
          exact passed idActive
      | true =>
          rw [wellFormed.activeSubtree_eq_children idActive]
          exact .listed (if_pos idActive) (.flatMap inductionHypothesis)

/-! ## Downwards and upwards -/

/-- From the root one comes to every node. -/
theorem mem_descendants_root_iff {root id : NodeId} (isRoot : tree.root = some root) :
    id ∈ tree.descendants root ↔ tree.contains id = true := by
  constructor
  · exact wellFormed.contains_of_listed
  · intro live
    obtain ⟨top, isTop, below⟩ := wellFormed.rooted id live
    obtain rfl := Option.some.inj (isRoot.symm.trans isTop)
    exact (wellFormed.mem_descendants_iff (wellFormed.root_contained root isRoot)).2 below

/-- The walks between two nodes of a tree come to an end. Walking down from the first one lists the second one
if and only if walking up from the second one finds the first one. On the way down nodes come before their
children, and each comes once. -/
theorem walks_inverse {upper lower : NodeId} (upperLive : tree.contains upper = true)
    (lowerLive : tree.contains lower = true) :
    WalkEnds tree.goesDown [upper] (tree.descendants upper) ∧
      WalkEnds tree.goesUp (tree.parent? lower).toList (tree.ancestors lower) ∧
      (lower ∈ tree.descendants upper ↔ tree.isAncestorOrSelf upper lower = true) ∧
      (tree.descendants upper).Nodup ∧
      tree.descendants upper = upper :: (tree.children upper).flatMap tree.descendants ∧
      (∀ root, tree.root = some root →
        ∀ id, id ∈ tree.descendants root ↔ tree.contains id = true) ∧
      ∀ parent, tree.parent? lower = some parent → tree.depth lower = tree.depth parent + 1 := by
  refine ⟨wellFormed.walkEnds_descendants upperLive, wellFormed.walkEnds_ancestors lowerLive, ?_,
    wellFormed.descendants_nodup upper, wellFormed.descendants_eq upperLive, ?_, ?_⟩
  · rw [wellFormed.mem_descendants_iff upperLive, wellFormed.isAncestorOrSelf_iff lowerLive]
  · intro root isRoot id
    exact wellFormed.mem_descendants_root_iff isRoot
  · intro parent link
    exact wellFormed.depth_of_parent? link

end WellFormed

/-- The page in the item of the small archive. -/
theorem walks_inverse_smallArchive :
    smallArchive.WellFormed ∧ smallArchive.contains ⟨1⟩ = true ∧ smallArchive.contains ⟨2⟩ = true ∧
      ⟨2⟩ ∈ smallArchive.descendants ⟨1⟩ ∧ ⟨2⟩ ∈ smallArchive.descendants ⟨0⟩ ∧
      smallArchive.depth ⟨2⟩ = smallArchive.depth ⟨1⟩ + 1 := by
  obtain ⟨_, _, inverse, _, _, everyNode, depth⟩ :=
    @WellFormed.walks_inverse smallArchive wellFormed_smallArchive ⟨1⟩ ⟨2⟩ rfl rfl
  exact ⟨wellFormed_smallArchive, rfl, rfl, inverse.2 (by decide), (everyNode ⟨0⟩ rfl ⟨2⟩).2 rfl,
    depth ⟨1⟩ rfl⟩

/-! ## Active and included nodes -/

namespace WellFormed

variable (wellFormed : tree.WellFormed)

include wellFormed

/-- What lies below an excluded node is excluded. -/
theorem isExcluded_of_below {top id : NodeId} (below : Below tree top id)
    (excluded : tree.isExcluded top = true) : tree.isExcluded id = true := by
  refine Bool.of_not_eq_false fun included => ?_
  rw [wellFormed.isExcluded_eq_false_of_below below included] at excluded
  exact absurd excluded (by decide)

/-- An active node is included with its parent. -/
theorem isExcluded_eq_false_of_isActive {id : NodeId} (active : tree.isActive id = true)
    (parentIncluded : ∀ parent, tree.parent? id = some parent → tree.isExcluded parent = false) :
    tree.isExcluded id = false := by
  cases link : tree.parent? id with
  | none =>
      exact isExcluded_eq_false_of_parent? link active
  | some parent =>
      obtain ⟨node, found, notIgnored⟩ := isActive_iff.1 active
      rw [wellFormed.isExcluded_of_parent? link, found, Option.any_some, notIgnored,
        parentIncluded parent link]
      rfl

/-- The active subtree of a node whose parent is included. -/
theorem activeSubtree_eq_filter {id : NodeId} (live : tree.contains id = true)
    (parentIncluded : ∀ parent, tree.parent? id = some parent → tree.isExcluded parent = false) :
    tree.activeSubtree id = (tree.descendants id).filter fun member => !tree.isExcluded member := by
  revert parentIncluded
  refine wellFormed.induction_from_leaves (motive := fun id =>
    (∀ parent, tree.parent? id = some parent → tree.isExcluded parent = false) →
      tree.activeSubtree id = (tree.descendants id).filter fun member => !tree.isExcluded member)
    ?_ live
  intro id idLive inductionHypothesis parentIncluded
  cases active : tree.isActive id with
  | true =>
      have included := wellFormed.isExcluded_eq_false_of_isActive active parentIncluded
      rw [wellFormed.activeSubtree_eq_children active, wellFormed.descendants_eq idLive,
        List.filter_cons_of_pos (by rw [included]; rfl), List.filter_flatMap]
      refine congrArg (List.cons id) (List.flatMap_congr fun child member => ?_)
      refine inductionHypothesis child member fun parent link => ?_
      obtain rfl := Option.some.inj (link.symm.trans (wellFormed.parent_of_child id child member))
      exact included
  | false =>
      -- The node itself is ignored, and with it all below it is excluded.
      have excluded : tree.isExcluded id = true := by
        refine Bool.of_not_eq_false fun included => ?_
        rw [isActive_of_not_isExcluded idLive included] at active
        exact absurd active (by decide)
      rw [activeSubtree_of_not_isActive active, eq_comm, List.filter_eq_nil_iff]
      intro member listed
      rw [wellFormed.isExcluded_of_below (wellFormed.below_of_mem_descendants listed) excluded]
      decide

/-- The walk over active nodes comes to an end. From a node that is not excluded it lists the nodes below it
that are not excluded, in the order of the walk over all nodes and each once. From an ignored node it lists
nothing. -/
theorem activeSubtree_eq_included_descendants (start : NodeId) :
    WalkEnds tree.goesDownActive [start] (tree.activeSubtree start) ∧
      (tree.isExcluded start = false →
        tree.activeSubtree start =
            ((tree.descendants start).filter fun member => !tree.isExcluded member) ∧
          (tree.activeSubtree start).Nodup) ∧
      ((tree.get? start).any Node.ignored = true → tree.activeSubtree start = []) := by
  refine ⟨wellFormed.walkEnds_activeSubtree start, fun included => ?_, fun ignored => ?_⟩
  · refine ⟨?_, wellFormed.activeSubtree_nodup start⟩
    by_cases live : tree.contains start = true
    · refine wellFormed.activeSubtree_eq_filter live fun parent link => ?_
      exact wellFormed.isExcluded_eq_false_of_below (.child link .self) included
    · have dead := Bool.eq_false_iff.2 live
      have inactive : tree.isActive start = false :=
        Bool.eq_false_iff.2 fun active => live (contains_of_isActive active)
      rw [activeSubtree_of_not_isActive inactive, descendants_of_not_contains dead]
      rfl
  · refine activeSubtree_of_not_isActive (Bool.eq_false_iff.2 fun active => ?_)
    obtain ⟨node, found, notIgnored⟩ := isActive_iff.1 active
    rw [found, Option.any_some, notIgnored] at ignored
    exact absurd ignored (by decide)

end WellFormed

/-- The small archive with its item ignored, so that the page in it is excluded without being ignored. -/
def archiveWithIgnoredItem : ContentTree :=
  smallArchive.modify ⟨1⟩ fun node => { node with ignored := true }

theorem wellFormed_archiveWithIgnoredItem : archiveWithIgnoredItem.WellFormed :=
  wellFormed_smallArchive.modify ⟨1⟩ fun _ => ⟨rfl, rfl, rfl⟩

theorem activeSubtree_archiveWithIgnoredItem :
    archiveWithIgnoredItem.WellFormed ∧ archiveWithIgnoredItem.isExcluded ⟨0⟩ = false ∧
      archiveWithIgnoredItem.isActive ⟨2⟩ = true ∧
      archiveWithIgnoredItem.descendants ⟨0⟩ = [⟨0⟩, ⟨1⟩, ⟨2⟩, ⟨3⟩] ∧
      archiveWithIgnoredItem.activeSubtree ⟨0⟩ = [⟨0⟩] ∧
      archiveWithIgnoredItem.activeSubtree ⟨1⟩ = [] := by
  have wellFormed := wellFormed_archiveWithIgnoredItem
  have included : archiveWithIgnoredItem.isExcluded ⟨0⟩ = false := by decide
  have listed := ((wellFormed.activeSubtree_eq_included_descendants ⟨0⟩).2.1 included).1
  have nothing := (wellFormed.activeSubtree_eq_included_descendants ⟨1⟩).2.2 rfl
  exact ⟨wellFormed, included, rfl, rfl, listed.trans (by decide), nothing⟩

end ContentTyping.ContentTree

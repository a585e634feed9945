import Mathlib.Data.List.Basic
import Mathlib.Data.List.Nodup
import ContentTyping.Proofs.Tree.WellFormed

/-!
# Active subtrees

In a well-formed tree the walk over the active nodes below a node is never cut short: it lists the
node and then, child by child, the active subtrees of its active children. No node is listed
twice, and whatever a listed node hands on to its active children holds of all listed nodes.
-/

namespace ContentTyping.ContentTree

variable {tree : ContentTree}

/-! ## Active nodes -/

theorem isActive_iff {id : NodeId} :
    tree.isActive id = true ↔
      ∃ node, tree.get? id = some node ∧ node.ignored = false := by
  cases found : tree.get? id with
  | none =>
      simp [isActive, found]
  | some node =>
      simp [isActive, found]

theorem contains_of_isActive {id : NodeId} (active : tree.isActive id = true) :
    tree.contains id = true := by
  obtain ⟨node, found, _⟩ := isActive_iff.1 active
  exact contains_iff.2 ⟨node, found⟩

theorem isActive_of_not_isExcluded {id : NodeId} (live : tree.contains id = true)
    (included : tree.isExcluded id = false) : tree.isActive id = true := by
  obtain ⟨node, found⟩ := contains_iff.1 live
  rw [isExcluded, List.any_cons, Bool.or_eq_false_iff, found] at included
  exact isActive_iff.2 ⟨node, found, included.1⟩

theorem isExcluded_eq_false_of_parent? {id : NodeId} (noParent : tree.parent? id = none)
    (active : tree.isActive id = true) : tree.isExcluded id = false := by
  obtain ⟨node, found, notIgnored⟩ := isActive_iff.1 active
  rw [isExcluded, ancestors, ascend, noParent, List.any_cons, found]
  simp [notIgnored]

theorem mem_activeChildren_iff {id child : NodeId} :
    child ∈ tree.activeChildren id ↔
      child ∈ tree.children id ∧ tree.isActive child = true := by
  rw [activeChildren, List.mem_filter]

theorem mem_children_of_mem_activeChildren {id child : NodeId}
    (member : child ∈ tree.activeChildren id) : child ∈ tree.children id :=
  (mem_activeChildren_iff.1 member).1

theorem isActive_of_mem_activeChildren {id child : NodeId}
    (member : child ∈ tree.activeChildren id) : tree.isActive child = true :=
  (mem_activeChildren_iff.1 member).2

theorem contains_of_mem_activeChildren {id child : NodeId}
    (member : child ∈ tree.activeChildren id) : tree.contains child = true :=
  contains_of_isActive (isActive_of_mem_activeChildren member)

theorem WellFormed.parent?_of_mem_activeChildren (wellFormed : tree.WellFormed)
    {id child : NodeId} (member : child ∈ tree.activeChildren id) :
    tree.parent? child = some id :=
  wellFormed.parent_of_child id child (mem_children_of_mem_activeChildren member)

private theorem flatMap_filter_of_eq_nil {α β : Type} (keep : α → Bool) (lists : α → List β)
    (emptyElsewhere : ∀ item, keep item = false → lists item = []) (items : List α) :
    (items.filter keep).flatMap lists = items.flatMap lists := by
  induction items with
  | nil =>
      rfl
  | cons item items inductionHypothesis =>
      cases kept : keep item with
      | false =>
          simp [kept, emptyElsewhere item kept, inductionHypothesis]
      | true =>
          simp [kept, inductionHypothesis]

theorem descendActive_of_not_isActive {id : NodeId} (inactive : tree.isActive id = false)
    (steps : Nat) : tree.descendActive steps id = [] := by
  cases steps with
  | zero => rfl
  | succ steps => simp [descendActive, inactive]

/-- One step of the walk, with the inactive children left out. -/
theorem descendActive_succ {id : NodeId} (active : tree.isActive id = true) (steps : Nat) :
    tree.descendActive (steps + 1) id =
      id :: (tree.activeChildren id).flatMap (tree.descendActive steps) := by
  rw [descendActive, if_pos active, activeChildren,
    flatMap_filter_of_eq_nil tree.isActive (tree.descendActive steps)
      fun _ inactive => descendActive_of_not_isActive inactive steps]

theorem activeSubtree_of_not_isActive {id : NodeId} (inactive : tree.isActive id = false) :
    tree.activeSubtree id = [] :=
  descendActive_of_not_isActive inactive _

theorem isActive_of_mem_descendActive {steps : Nat} {id member : NodeId}
    (listed : member ∈ tree.descendActive steps id) : tree.isActive member = true := by
  induction steps generalizing id with
  | zero =>
      exact absurd listed List.not_mem_nil
  | succ steps inductionHypothesis =>
      cases active : tree.isActive id with
      | false =>
          rw [descendActive_of_not_isActive active] at listed
          exact absurd listed List.not_mem_nil
      | true =>
          rw [descendActive_succ active] at listed
          rcases List.mem_cons.1 listed with rfl | further
          · exact active
          · obtain ⟨child, _, below⟩ := List.mem_flatMap.1 further
            exact inductionHypothesis below

theorem isActive_of_mem_activeSubtree {start id : NodeId}
    (listed : id ∈ tree.activeSubtree start) : tree.isActive id = true :=
  isActive_of_mem_descendActive listed

theorem contains_of_mem_activeSubtree {start id : NodeId}
    (listed : id ∈ tree.activeSubtree start) : tree.contains id = true :=
  contains_of_isActive (isActive_of_mem_activeSubtree listed)

theorem isActive_start_of_mem_activeSubtree {start id : NodeId}
    (listed : id ∈ tree.activeSubtree start) : tree.isActive start = true := by
  cases active : tree.isActive start with
  | false =>
      rw [activeSubtree_of_not_isActive active] at listed
      exact absurd listed List.not_mem_nil
  | true =>
      rfl

namespace WellFormed

variable (wellFormed : tree.WellFormed)

include wellFormed

theorem depth_activeChild {id child : NodeId} (member : child ∈ tree.activeChildren id) :
    tree.depth child = tree.depth id + 1 :=
  wellFormed.depth_child (mem_children_of_mem_activeChildren member)

/-- Two walks that may both go down to the last slot list the same nodes. -/
theorem descendActive_eq {first second : Nat} {id : NodeId}
    (active : tree.isActive id = true)
    (firstEnough : tree.nodes.size ≤ first + tree.depth id)
    (secondEnough : tree.nodes.size ≤ second + tree.depth id) :
    tree.descendActive first id = tree.descendActive second id := by
  induction first generalizing second id with
  | zero =>
      have bound := wellFormed.depth_lt (contains_of_isActive active)
      omega
  | succ first inductionHypothesis =>
      cases second with
      | zero =>
          have bound := wellFormed.depth_lt (contains_of_isActive active)
          omega
      | succ second =>
          rw [descendActive_succ active, descendActive_succ active]
          refine congrArg (List.cons id) (List.flatMap_congr fun child member => ?_)
          have childDepth := wellFormed.depth_activeChild member
          exact inductionHypothesis (isActive_of_mem_activeChildren member)
            (by omega) (by omega)

/-- An active node comes first in its active subtree, and then come those of its active
children. -/
theorem activeSubtree_eq {id : NodeId} (active : tree.isActive id = true) :
    tree.activeSubtree id =
      id :: (tree.activeChildren id).flatMap tree.activeSubtree := by
  rw [activeSubtree, descendActive_succ active]
  refine congrArg (List.cons id) (List.flatMap_congr fun child member => ?_)
  have childDepth := wellFormed.depth_activeChild member
  exact wellFormed.descendActive_eq (isActive_of_mem_activeChildren member)
    (by omega) (by omega)

/-- What passes from all active children of an active node to the node holds of every active
node. -/
theorem active_induction {motive : NodeId → Prop}
    (step : ∀ id, tree.isActive id = true →
      (∀ child ∈ tree.activeChildren id, motive child) → motive id)
    {id : NodeId} (active : tree.isActive id = true) : motive id := by
  refine wellFormed.induction_from_leaves
    (motive := fun id => tree.isActive id = true → motive id) ?_
    (contains_of_isActive active) active
  intro id _ inductionHypothesis active
  refine step id active fun child member => ?_
  exact inductionHypothesis child (mem_children_of_mem_activeChildren member)
    (isActive_of_mem_activeChildren member)

theorem mem_activeSubtree_self {id : NodeId} (active : tree.isActive id = true) :
    id ∈ tree.activeSubtree id := by
  rw [wellFormed.activeSubtree_eq active]
  exact List.mem_cons_self

theorem mem_activeSubtree_iff {start id : NodeId} (active : tree.isActive start = true) :
    id ∈ tree.activeSubtree start ↔
      id = start ∨ ∃ child ∈ tree.activeChildren start, id ∈ tree.activeSubtree child := by
  rw [wellFormed.activeSubtree_eq active, List.mem_cons, List.mem_flatMap]

theorem below_of_mem_activeSubtree {start id : NodeId} (active : tree.isActive start = true)
    (listed : id ∈ tree.activeSubtree start) : Below tree start id := by
  revert listed
  refine wellFormed.active_induction
    (motive := fun start => id ∈ tree.activeSubtree start → Below tree start id) ?_ active
  intro start active inductionHypothesis listed
  rcases (wellFormed.mem_activeSubtree_iff active).1 listed with rfl | ⟨child, member, below⟩
  · exact .self
  · have link := wellFormed.parent?_of_mem_activeChildren member
    exact Below.trans (.child link .self) (inductionHypothesis child member below)

/-- What holds at the start and passes from each listed node to its active children holds of
all listed nodes. -/
theorem activeSubtree_induction {motive : NodeId → Prop} {start : NodeId}
    (active : tree.isActive start = true) (base : motive start)
    (step : ∀ id ∈ tree.activeSubtree start, motive id →
      ∀ child ∈ tree.activeChildren id, motive child) :
    ∀ id ∈ tree.activeSubtree start, motive id := by
  revert base step
  refine wellFormed.active_induction
    (motive := fun start => motive start →
      (∀ id ∈ tree.activeSubtree start, motive id →
        ∀ child ∈ tree.activeChildren id, motive child) →
      ∀ id ∈ tree.activeSubtree start, motive id) ?_ active
  intro start active inductionHypothesis base step id listed
  rcases (wellFormed.mem_activeSubtree_iff active).1 listed with rfl | ⟨child, member, below⟩
  · exact base
  · have startListed := wellFormed.mem_activeSubtree_self active
    refine inductionHypothesis child member (step start startListed base child member) ?_ id
      below
    intro inner innerListed
    exact step inner
      ((wellFormed.mem_activeSubtree_iff active).2 (.inr ⟨child, member, innerListed⟩))

theorem mem_activeSubtree_of_mem_activeChildren {start id child : NodeId}
    (listed : id ∈ tree.activeSubtree start) (member : child ∈ tree.activeChildren id) :
    child ∈ tree.activeSubtree start := by
  have active := isActive_start_of_mem_activeSubtree listed
  revert listed
  refine wellFormed.active_induction
    (motive := fun start =>
      id ∈ tree.activeSubtree start → child ∈ tree.activeSubtree start) ?_ active
  intro start active inductionHypothesis listed
  rcases (wellFormed.mem_activeSubtree_iff active).1 listed with rfl | ⟨next, nextMember, below⟩
  · have childListed :=
      wellFormed.mem_activeSubtree_self (isActive_of_mem_activeChildren member)
    exact (wellFormed.mem_activeSubtree_iff active).2 (.inr ⟨child, member, childListed⟩)
  · exact (wellFormed.mem_activeSubtree_iff active).2
      (.inr ⟨next, nextMember, inductionHypothesis next nextMember below⟩)

theorem mem_activeSubtree_trans {start middle id : NodeId}
    (upper : middle ∈ tree.activeSubtree start) (lower : id ∈ tree.activeSubtree middle) :
    id ∈ tree.activeSubtree start := by
  refine wellFormed.activeSubtree_induction
    (motive := fun id => id ∈ tree.activeSubtree start)
    (isActive_of_mem_activeSubtree upper) upper ?_ id lower
  intro parent _ parentListed child member
  exact wellFormed.mem_activeSubtree_of_mem_activeChildren parentListed member

/-- A listed node other than the start is an active child of a listed node. -/
theorem exists_parent_of_mem_activeSubtree {start id : NodeId}
    (listed : id ∈ tree.activeSubtree start) (notStart : id ≠ start) :
    ∃ parent ∈ tree.activeSubtree start, id ∈ tree.activeChildren parent := by
  have startOrChild := wellFormed.activeSubtree_induction
    (motive := fun id => id = start ∨
      ∃ parent ∈ tree.activeSubtree start, id ∈ tree.activeChildren parent)
    (isActive_start_of_mem_activeSubtree listed) (.inl rfl)
    (fun parent parentListed _ child member => .inr ⟨parent, parentListed, member⟩) id listed
  rcases startOrChild with isStart | hasParent
  · exact absurd isStart notStart
  · exact hasParent

theorem activeChild_ne_start {start id child : NodeId}
    (listed : id ∈ tree.activeSubtree start) (member : child ∈ tree.activeChildren id) :
    child ≠ start := by
  rintro rfl
  have active := isActive_of_mem_activeChildren member
  have upper := wellFormed.depth_le_of_below
    (wellFormed.below_of_mem_activeSubtree active listed)
  have childDepth := wellFormed.depth_activeChild member
  omega

theorem parent_not_mem_activeSubtree {start parent : NodeId} (active : tree.isActive start = true)
    (link : tree.parent? start = some parent) : parent ∉ tree.activeSubtree start := by
  intro listed
  have member : start ∈ tree.activeChildren parent :=
    mem_activeChildren_iff.2 ⟨wellFormed.child_of_parent start parent link, active⟩
  exact wellFormed.activeChild_ne_start listed member rfl

theorem isExcluded_of_parent? {id parent : NodeId} (link : tree.parent? id = some parent) :
    tree.isExcluded id = ((tree.get? id).any Node.ignored || tree.isExcluded parent) := by
  rw [isExcluded, isExcluded, wellFormed.ancestors_of_parent? link, List.any_cons]

/-- Below a node that is not excluded, the active subtree lists what is not excluded. -/
theorem mem_activeSubtree_iff_not_isExcluded {start id : NodeId}
    (live : tree.contains start = true) (included : tree.isExcluded start = false) :
    id ∈ tree.activeSubtree start ↔ Below tree start id ∧ tree.isExcluded id = false := by
  have active := isActive_of_not_isExcluded live included
  constructor
  · intro listed
    refine ⟨wellFormed.below_of_mem_activeSubtree active listed, ?_⟩
    refine wellFormed.activeSubtree_induction
      (motive := fun id => tree.isExcluded id = false) active included ?_ id listed
    intro parent _ parentIncluded child member
    have link := wellFormed.parent?_of_mem_activeChildren member
    obtain ⟨node, found, notIgnored⟩ := isActive_iff.1 (isActive_of_mem_activeChildren member)
    rw [wellFormed.isExcluded_of_parent? link, parentIncluded, found, Option.any_some,
      notIgnored]
    rfl
  · rintro ⟨below, idIncluded⟩
    induction below with
    | self =>
        exact wellFormed.mem_activeSubtree_self active
    | child link _ inductionHypothesis =>
        have idActive := isActive_of_not_isExcluded (contains_of_parent? link) idIncluded
        rw [wellFormed.isExcluded_of_parent? link, Bool.or_eq_false_iff] at idIncluded
        have member := mem_activeChildren_iff.2 ⟨wellFormed.child_of_parent _ _ link, idActive⟩
        exact wellFormed.mem_activeSubtree_of_mem_activeChildren
          (inductionHypothesis idIncluded.2) member

theorem isExcluded_eq_false_of_below {start id : NodeId} (below : Below tree start id)
    (included : tree.isExcluded id = false) : tree.isExcluded start = false := by
  induction below with
  | self =>
      exact included
  | child link _ inductionHypothesis =>
      rw [wellFormed.isExcluded_of_parent? link, Bool.or_eq_false_iff] at included
      exact inductionHypothesis included.2

/-- From the root, the active subtree lists every node that is not excluded. -/
theorem mem_activeSubtree_root {root id : NodeId} (isRoot : tree.root = some root)
    (live : tree.contains id = true) (included : tree.isExcluded id = false) :
    id ∈ tree.activeSubtree root := by
  obtain ⟨top, isTop, below⟩ := wellFormed.rooted id live
  obtain rfl : root = top := Option.some.inj (isRoot.symm.trans isTop)
  have rootIncluded := wellFormed.isExcluded_eq_false_of_below below included
  exact (wellFormed.mem_activeSubtree_iff_not_isExcluded
    (wellFormed.root_contained root isRoot) rootIncluded).2 ⟨below, included⟩

theorem activeSubtree_disjoint {id first second : NodeId}
    (firstMember : first ∈ tree.activeChildren id)
    (secondMember : second ∈ tree.activeChildren id) (different : first ≠ second) :
    List.Disjoint (tree.activeSubtree first) (tree.activeSubtree second) := by
  intro common inFirst inSecond
  have firstBelow := wellFormed.below_of_mem_activeSubtree
    (isActive_of_mem_activeChildren firstMember) inFirst
  have secondBelow := wellFormed.below_of_mem_activeSubtree
    (isActive_of_mem_activeChildren secondMember) inSecond
  have sameDepth : tree.depth first = tree.depth second := by
    rw [wellFormed.depth_activeChild firstMember, wellFormed.depth_activeChild secondMember]
  exact different (wellFormed.eq_of_below_of_depth firstBelow secondBelow sameDepth)

theorem activeSubtree_nodup (start : NodeId) : (tree.activeSubtree start).Nodup := by
  cases active : tree.isActive start with
  | false =>
      rw [activeSubtree_of_not_isActive active]
      exact List.nodup_nil
  | true =>
      refine wellFormed.active_induction
        (motive := fun start => (tree.activeSubtree start).Nodup) ?_ active
      intro start active inductionHypothesis
      rw [wellFormed.activeSubtree_eq active]
      refine List.nodup_cons.2 ⟨?_, List.nodup_flatMap.2 ⟨inductionHypothesis, ?_⟩⟩
      · intro repeated
        obtain ⟨child, member, below⟩ := List.mem_flatMap.1 repeated
        have upper := wellFormed.depth_le_of_below
          (wellFormed.below_of_mem_activeSubtree
            (isActive_of_mem_activeChildren member) below)
        have childDepth := wellFormed.depth_activeChild member
        omega
      · have childrenNodup : (tree.activeChildren start).Nodup :=
          (wellFormed.children_nodup start).filter _
        refine (List.nodup_iff_pairwise_ne.1 childrenNodup).imp_of_mem ?_
        intro first second firstMember secondMember different
        exact wellFormed.activeSubtree_disjoint firstMember secondMember different

end WellFormed

/-! ## Values handed down -/

section HandedDown

variable {α : Type}

/-- The value of a node when every node makes its own from that of its parent, to a number of
steps up the tree. -/
def handDown (tree : ContentTree) (start : NodeId) (initial : α) (next : α → NodeId → α) :
    Nat → NodeId → α
  | 0, _ => initial
  | steps + 1, id =>
    if id = start then initial
    else
      match tree.parent? id with
      | none => initial
      | some parent => next (tree.handDown start initial next steps parent) id

/-- The value of a node when the start has the initial value and every node below it makes its own
from that of its parent. -/
def handedDown (tree : ContentTree) (start : NodeId) (initial : α) (next : α → NodeId → α)
    (id : NodeId) : α :=
  tree.handDown start initial next (tree.depth id + 1) id

theorem handedDown_start (start : NodeId) (initial : α) (next : α → NodeId → α) :
    tree.handedDown start initial next start = initial := by
  rw [handedDown, handDown, if_pos rfl]

theorem WellFormed.handedDown_child (wellFormed : tree.WellFormed) {start id child : NodeId}
    (listed : id ∈ tree.activeSubtree start) (member : child ∈ tree.activeChildren id)
    (initial : α) (next : α → NodeId → α) :
    tree.handedDown start initial next child =
      next (tree.handedDown start initial next id) child := by
  have link := wellFormed.parent?_of_mem_activeChildren member
  rw [handedDown, handDown, if_neg (wellFormed.activeChild_ne_start listed member), link,
    wellFormed.depth_activeChild member, handedDown]

end HandedDown

end ContentTyping.ContentTree

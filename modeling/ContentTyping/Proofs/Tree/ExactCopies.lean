import Mathlib.Data.List.Basic
import Mathlib.Data.List.Nodup
import ContentTyping.Proofs.Tree.NodeOrigins
import ContentTyping.Proofs.Tree.Preorder

/-!
# Exact copies

Copying goes along the walk through a subtree as it was at the start, also when copies are put below
nodes of that subtree. Copies fill the next slots in the order of the walk, and each is put at the end of
the children of the new parent or of the copy of its node's parent. What stands in the slots is followed
from copy to copy; at the end the copies make up the same subtree once more.
-/

namespace ContentTyping.ContentTree

variable {tree : ContentTree} {top id : NodeId}

/-- The slot of the copy of a node. -/
def copyOf (tree : ContentTree) (top id : NodeId) : NodeId :=
  ⟨tree.nodes.size + (tree.descendants top).idxOf id⟩

/-- Where the copy of a node is put. -/
def copyTarget (tree : ContentTree) (top newParent id : NodeId) : NodeId :=
  if id = top then newParent else ((tree.parent? id).map (tree.copyOf top)).getD newParent

theorem copyTarget_top (newParent : NodeId) : tree.copyTarget top newParent top = newParent := by
  rw [copyTarget, if_pos rfl]

theorem copyTarget_of_parent? {newParent parent : NodeId} (notTop : id ≠ top)
    (link : tree.parent? id = some parent) :
    tree.copyTarget top newParent id = tree.copyOf top parent := by
  rw [copyTarget, if_neg notTop, link]
  rfl

theorem copyTarget_of_mem_children (wellFormed : tree.WellFormed) (newParent : NodeId)
    (listed : id ∈ tree.descendants top) {child : NodeId} (member : child ∈ tree.children id) :
    tree.copyTarget top newParent child = tree.copyOf top id := by
  have link := wellFormed.parent_of_child id child member
  apply copyTarget_of_parent? _ link
  intro isTop
  rw [isTop] at link
  exact wellFormed.parent_not_mem_descendants link listed

/-- The copies that are put below a slot when some nodes are copied. -/
def copiesBelow (tree : ContentTree) (top newParent : NodeId) (done : List NodeId)
    (slot : NodeId) : List NodeId :=
  (done.filter (tree.copyTarget top newParent · = slot)).map (tree.copyOf top)

theorem copiesBelow_append (newParent : NodeId) (done : List NodeId) (slot : NodeId) :
    tree.copiesBelow top newParent (done ++ [id]) slot =
      tree.copiesBelow top newParent done slot ++
        if slot = tree.copyTarget top newParent id then [tree.copyOf top id] else [] := by
  rw [copiesBelow, List.filter_append, List.map_append, copiesBelow]
  by_cases isTarget : slot = tree.copyTarget top newParent id
  · simp [← isTarget]
  · simp [isTarget, Ne.symm isTarget]

theorem copyOf_ne_of_lt {old : NodeId} (inSlot : old.index < tree.nodes.size) :
    tree.copyOf top id ≠ old := by
  intro same
  rw [← same] at inSlot
  change tree.nodes.size + _ < tree.nodes.size at inSlot
  omega

theorem copyOf_injOn {first second : NodeId} (firstListed : first ∈ tree.descendants top)
    (same : tree.copyOf top first = tree.copyOf top second) : first = second := by
  have sameSlot := congrArg NodeId.index same
  exact (List.idxOf_inj firstListed).1 (Nat.add_left_cancel sameSlot)

theorem copyBelow_of_copyEach {originals : List NodeId} {steps : Nat} {target source copy : NodeId}
    {state last : Copying} {node : Node} (found : state.tree.get? source = some node)
    (isCopy : (⟨state.tree.nodes.size⟩ : NodeId) = copy)
    (copied : copyEach (copyBelow originals steps copy)
      (node.children.filter (originals.contains ·)) (state.withCopy target node) = (.ok (), last)) :
    copyBelow originals (steps + 1) target source state = (.ok copy, last) := by
  rw [← isCopy] at copied ⊢
  rw [copyBelow, found]
  simp only [Copying.withCopy, withChild, ContentTree.insert] at copied ⊢
  rw [copied]

namespace Copying

/-- What is in its slot when a copy is added stays there, and the target gets the copy as its last
child. -/
theorem get?_withCopy {state : Copying} {target slot : NodeId}
    (live : state.tree.contains target = true) (node : Node)
    (old : slot ≠ ⟨state.tree.nodes.size⟩) :
    (state.withCopy target node).tree.get? slot = (state.tree.get? slot).map fun above =>
      { above with
        children := above.children ++
          if slot = target then [⟨state.tree.nodes.size⟩] else [] } := by
  rw [withCopy, get?_withChild live, if_neg old]
  by_cases isTarget : slot = target
  · simp [isTarget]
  · simp [isTarget]

/-- The name that the copy of a node gets. -/
def copyName (before : Copying) (top id : NodeId) : String :=
  before.supply.name (before.supply.used + (before.tree.descendants top).idxOf id)

/-- The copy of a node, which keeps all but its name, its links and its object. -/
def copyNode (before : Copying) (top newParent id : NodeId) (children : List NodeId)
    (node : Node) : Node :=
  { node with
    identifier := before.copyName top id
    parent := some (before.tree.copyTarget top newParent id)
    children := children
    object := none }

/-- What stands in the slots when the nodes of a first part of the walk are copied. -/
structure Progress (before : Copying) (top newParent : NodeId) (done : List NodeId)
    (state : Copying) : Prop where
  size : state.tree.nodes.size = before.tree.nodes.size + done.length
  supply : state.supply = { before.supply with used := before.supply.used + done.length }
  root : state.tree.root = before.tree.root
  profile : state.tree.profile = before.tree.profile
  parents : ∀ id ∈ done, id ≠ top → ∃ parent ∈ done, before.tree.parent? id = some parent
  kept : ∀ id, id.index < before.tree.nodes.size →
    state.tree.get? id = (before.tree.get? id).map fun node =>
      { node with
        children := node.children ++ before.tree.copiesBelow top newParent done id }
  copied : ∀ id ∈ done,
    state.tree.get? (before.tree.copyOf top id) = (before.tree.get? id).map
      (before.copyNode top newParent id
        (before.tree.copiesBelow top newParent done (before.tree.copyOf top id)))

/-- When the walk has come to the child and its parent is copied, the child is copied with all below it. -/
def CopiesWhole (before : Copying) (top newParent parent : NodeId)
    (copyOne : NodeId → Copying → Except Error NodeId × Copying) (child : NodeId) : Prop :=
  ∀ done state, parent ∈ done →
    done ++ before.tree.descendants child <+: before.tree.descendants top →
    Progress before top newParent done state →
    ∃ last, copyOne child state = (.ok (before.tree.copyOf top child), last) ∧
      Progress before top newParent (done ++ before.tree.descendants child) last

namespace Progress

variable {before state : Copying} {newParent : NodeId} {done : List NodeId}

theorem start (before : Copying) (top newParent : NodeId) :
    Progress before top newParent [] before where
  size := rfl
  supply := rfl
  root := rfl
  profile := rfl
  parents id member := absurd member List.not_mem_nil
  kept id _ := by simp [copiesBelow]
  copied id member := absurd member List.not_mem_nil

theorem copyOf_next (wellFormed : before.tree.WellFormed)
    (front : done ++ [id] <+: before.tree.descendants top)
    (progress : Progress before top newParent done state) :
    (⟨state.tree.nodes.size⟩ : NodeId) = before.tree.copyOf top id ∧ id ∉ done := by
  obtain ⟨rest, isWalk⟩ := front
  have distinct := wellFormed.descendants_nodup top
  rw [← isWalk, List.append_assoc, List.nodup_append] at distinct
  have isNew : id ∉ done := by
    intro again
    exact distinct.2.2 id again id (by simp) rfl
  refine ⟨?_, isNew⟩
  rw [copyOf, ← isWalk, List.append_assoc, List.idxOf_append_of_notMem isNew, progress.size]
  simp

/-- A node of the walk is in its slot while others are copied, and so is the target of its copy. -/
theorem contains_target (wellFormed : before.tree.WellFormed)
    (newLive : before.tree.contains newParent = true)
    (parentDone : id ≠ top → ∃ parent ∈ done, before.tree.parent? id = some parent)
    (progress : Progress before top newParent done state) :
    state.tree.contains (before.tree.copyTarget top newParent id) = true := by
  by_cases isTop : id = top
  · obtain ⟨node, found⟩ := contains_iff.1 newLive
    rw [isTop, copyTarget_top, contains, progress.kept newParent (index_lt_of_contains newLive), found]
    rfl
  · obtain ⟨parent, parentCopied, link⟩ := parentDone isTop
    obtain ⟨node, found⟩ := contains_iff.1 (wellFormed.contains_parent link)
    rw [copyTarget_of_parent? isTop link, contains, progress.copied parent parentCopied, found]
    rfl

/-- Nothing is put below the copy of a node before the copy is there. -/
theorem copiesBelow_eq_nil (newLive : before.tree.contains newParent = true)
    (isNew : id ∉ done)
    (listed : ∀ earlier ∈ done, earlier ∈ before.tree.descendants top) {ids : List NodeId}
    (parentsDone : ∀ later ∈ ids, later ≠ top →
      ∃ parent ∈ done, before.tree.parent? later = some parent) :
    before.tree.copiesBelow top newParent ids (before.tree.copyOf top id) = [] := by
  rw [copiesBelow, List.map_eq_nil_iff, List.filter_eq_nil_iff]
  intro later member
  rw [decide_eq_true_eq]
  intro isTarget
  by_cases isTop : later = top
  · rw [isTop, copyTarget_top] at isTarget
    exact copyOf_ne_of_lt (index_lt_of_contains newLive) isTarget.symm
  · obtain ⟨parent, parentCopied, link⟩ := parentsDone later member isTop
    rw [copyTarget_of_parent? isTop link] at isTarget
    rw [copyOf_injOn (listed parent parentCopied) isTarget] at parentCopied
    exact isNew parentCopied

section Step

variable (wellFormed : before.tree.WellFormed) (newLive : before.tree.contains newParent = true)
  (front : done ++ [id] <+: before.tree.descendants top)
  (parentDone : id ≠ top → ∃ parent ∈ done, before.tree.parent? id = some parent)
  (progress : Progress before top newParent done state)

include progress parentDone

theorem parents_append : ∀ later ∈ done ++ [id], later ≠ top →
    ∃ parent ∈ done, before.tree.parent? later = some parent := by
  intro later member notTop
  rcases List.mem_append.1 member with old | isNext
  · exact progress.parents later old notTop
  · rw [List.mem_singleton] at isNext
    rw [isNext] at notTop ⊢
    exact parentDone notTop

include wellFormed newLive front

theorem kept_withCopy (node : Node) {other : NodeId}
    (inSlot : other.index < before.tree.nodes.size) :
    (state.withCopy (before.tree.copyTarget top newParent id) node).tree.get? other =
      (before.tree.get? other).map fun original =>
        { original with
          children := original.children ++
            before.tree.copiesBelow top newParent (done ++ [id]) other } := by
  obtain ⟨next, _⟩ := progress.copyOf_next wellFormed front
  have targetLive := progress.contains_target wellFormed newLive parentDone
  have notNext : other ≠ ⟨state.tree.nodes.size⟩ := by
    rw [next]
    exact (copyOf_ne_of_lt inSlot).symm
  rw [get?_withCopy targetLive node notNext, progress.kept other inSlot, Option.map_map,
    copiesBelow_append, next]
  simp only [Function.comp_def, List.append_assoc]

theorem copied_withCopy (node : Node) {other : NodeId} (copied : other ∈ done) :
    (state.withCopy (before.tree.copyTarget top newParent id) node).tree.get?
        (before.tree.copyOf top other) =
      (before.tree.get? other).map (before.copyNode top newParent other
        (before.tree.copiesBelow top newParent (done ++ [id]) (before.tree.copyOf top other))) := by
  obtain ⟨next, isNew⟩ := progress.copyOf_next wellFormed front
  have targetLive := progress.contains_target wellFormed newLive parentDone
  have listed : other ∈ before.tree.descendants top :=
    front.subset (List.mem_append_left _ copied)
  have notNext : before.tree.copyOf top other ≠ ⟨state.tree.nodes.size⟩ := by
    rw [next]
    intro same
    rw [copyOf_injOn listed same] at copied
    exact isNew copied
  rw [get?_withCopy targetLive node notNext, progress.copied other copied, Option.map_map,
    copiesBelow_append, next]
  rfl

/-- The new copy is that of the node as it was before the first copy. -/
theorem copied_next {node : Node} (found : state.tree.get? id = some node) :
    (state.withCopy (before.tree.copyTarget top newParent id) node).tree.get?
        (before.tree.copyOf top id) =
      (before.tree.get? id).map (before.copyNode top newParent id
        (before.tree.copiesBelow top newParent (done ++ [id]) (before.tree.copyOf top id))) := by
  obtain ⟨next, isNew⟩ := progress.copyOf_next wellFormed front
  have targetLive := progress.contains_target wellFormed newLive parentDone
  have listed : id ∈ before.tree.descendants top := front.subset (by simp)
  have doneListed : ∀ earlier ∈ done, earlier ∈ before.tree.descendants top :=
    fun earlier member => front.subset (List.mem_append_left _ member)
  have noCopies := copiesBelow_eq_nil newLive isNew doneListed (progress.parents_append parentDone)
  have name : state.supply.draw.1 = before.copyName top id := by
    have slot := congrArg NodeId.index next
    rw [progress.size] at slot
    rw [progress.supply, copyName, ← Nat.add_left_cancel slot]
    rfl
  rw [progress.kept id (index_lt_of_contains (wellFormed.contains_of_listed listed)),
    Option.map_eq_some_iff] at found
  obtain ⟨original, originalFound, sameNode⟩ := found
  rw [withCopy, get?_withChild targetLive, if_pos next.symm, originalFound, Option.map_some, name,
    ← sameNode, noCopies]
  rfl

/-- One more node of the walk is copied when the copy of its parent is there. -/
theorem step {node : Node} (found : state.tree.get? id = some node) :
    Progress before top newParent (done ++ [id])
      (state.withCopy (before.tree.copyTarget top newParent id) node) where
  size := by
    rw [withCopy, size_withChild, progress.size, List.length_append]
    rfl
  supply := by
    rw [withCopy, progress.supply, List.length_append]
    rfl
  root := progress.root
  profile := progress.profile
  parents later member notTop := by
    obtain ⟨parent, parentCopied, link⟩ :=
      progress.parents_append parentDone later member notTop
    exact ⟨parent, List.mem_append_left _ parentCopied, link⟩
  kept _ inSlot := progress.kept_withCopy wellFormed newLive front parentDone node inSlot
  copied other member := by
    rcases List.mem_append.1 member with old | isNext
    · exact progress.copied_withCopy wellFormed newLive front parentDone node old
    · rw [List.mem_singleton] at isNext
      rw [isNext]
      exact progress.copied_next wellFormed newLive front parentDone found

end Step

/-- The children of a node of the walk that are copied are those from before, also when copies have been
put below the node since. -/
theorem filter_children_eq (wellFormed : before.tree.WellFormed)
    (progress : Progress before top newParent done state)
    (listed : id ∈ before.tree.descendants top) {node : Node}
    (found : state.tree.get? id = some node) :
    node.children.filter ((before.tree.descendants top).contains ·) = before.tree.children id := by
  have inSlot := index_lt_of_contains (wellFormed.contains_of_listed listed)
  rw [progress.kept id inSlot, Option.map_eq_some_iff] at found
  obtain ⟨original, originalFound, sameNode⟩ := found
  have originalChildren : before.tree.children id = original.children := by
    rw [children, originalFound]
  rw [← sameNode, List.filter_append, ← originalChildren]
  have allListed : (before.tree.children id).filter ((before.tree.descendants top).contains ·) =
      before.tree.children id := by
    rw [List.filter_eq_self]
    intro child member
    rw [List.contains_iff_mem]
    exact wellFormed.mem_descendants_of_mem_children listed member
  rw [allListed, List.append_right_eq_self, List.filter_eq_nil_iff]
  intro copy member
  obtain ⟨source, _, isCopy⟩ := List.mem_map.1 member
  rw [List.contains_iff_mem]
  intro copyListed
  have copyInSlot := index_lt_of_contains (wellFormed.contains_of_listed copyListed)
  exact copyOf_ne_of_lt copyInSlot isCopy

/-- Children that are copied with all below them are so one after the other. -/
theorem copyEach {copyOne : NodeId → Copying → Except Error NodeId × Copying} {parent : NodeId}
    {children : List NodeId}
    (each : ∀ child ∈ children, CopiesWhole before top newParent parent copyOne child)
    (parentCopied : parent ∈ done)
    (front : done ++ children.flatMap before.tree.descendants <+: before.tree.descendants top)
    (progress : Progress before top newParent done state) :
    ∃ last, ContentTree.copyEach copyOne children state = (.ok (), last) ∧
      Progress before top newParent (done ++ children.flatMap before.tree.descendants) last := by
  induction children generalizing done state with
  | nil =>
      refine ⟨state, rfl, ?_⟩
      rw [List.flatMap_nil, List.append_nil]
      exact progress
  | cons child children inductionHypothesis =>
      rw [List.flatMap_cons, ← List.append_assoc] at front ⊢
      have firstFront := (List.prefix_append _ _).trans front
      obtain ⟨next, copied, nextProgress⟩ :=
        each child List.mem_cons_self done state parentCopied firstFront progress
      have later := fun other member => each other (List.mem_cons_of_mem child member)
      obtain ⟨last, copiedRest, lastProgress⟩ := inductionHypothesis later
        (List.mem_append_left _ parentCopied) front nextProgress
      refine ⟨last, ?_, lastProgress⟩
      rw [ContentTree.copyEach, copied]
      exact copiedRest

/-- A node of the walk is copied with all below it when the walk has come to it. -/
theorem copyBelow (wellFormed : before.tree.WellFormed)
    (newLive : before.tree.contains newParent = true) (listed : id ∈ before.tree.descendants top)
    {steps : Nat} (enough : before.tree.nodes.size ≤ steps + before.tree.depth id)
    (front : done ++ before.tree.descendants id <+: before.tree.descendants top)
    (parentDone : id ≠ top → ∃ parent ∈ done, before.tree.parent? id = some parent)
    (progress : Progress before top newParent done state) :
    ∃ last, ContentTree.copyBelow (before.tree.descendants top) steps
        (before.tree.copyTarget top newParent id) id state =
        (.ok (before.tree.copyOf top id), last) ∧
      Progress before top newParent (done ++ before.tree.descendants id) last := by
  induction steps generalizing id done state with
  | zero =>
      have bound := wellFormed.depth_lt (wellFormed.contains_of_listed listed)
      omega
  | succ steps inductionHypothesis =>
      have live := wellFormed.contains_of_listed listed
      rw [wellFormed.descendants_eq live, List.append_cons] at front ⊢
      have nextFront := (List.prefix_append _ _).trans front
      obtain ⟨next, _⟩ := progress.copyOf_next wellFormed nextFront
      obtain ⟨original, originalFound⟩ := contains_iff.1 live
      have found := progress.kept id (index_lt_of_contains live)
      rw [originalFound, Option.map_some] at found
      have copiedHere := progress.step wellFormed newLive nextFront parentDone found
      -- A child is one level deeper, which makes up for the step that is used here.
      have each : ∀ child ∈ before.tree.children id, CopiesWhole before top newParent id
          (ContentTree.copyBelow (before.tree.descendants top) steps (before.tree.copyOf top id))
          child := by
        intro child member laterDone laterState idCopied laterFront laterProgress
        have link := wellFormed.parent_of_child id child member
        have childDepth := wellFormed.depth_child member
        have childListed := wellFormed.mem_descendants_of_mem_children listed member
        rw [← copyTarget_of_mem_children wellFormed newParent listed member]
        apply inductionHypothesis childListed _ laterFront _ laterProgress
        · omega
        · intro _
          exact ⟨id, idCopied, link⟩
      obtain ⟨last, copiedBelow, lastProgress⟩ := copiedHere.copyEach each (by simp) front
      refine ⟨last, ?_, lastProgress⟩
      apply copyBelow_of_copyEach found next
      rw [progress.filter_children_eq wellFormed listed found]
      exact copiedBelow

/-- From the start of the walk to its end. -/
theorem whole (before : Copying) (wellFormed : before.tree.WellFormed)
    (live : before.tree.contains top = true)
    (newLive : before.tree.contains newParent = true) {steps : Nat}
    (enough : before.tree.nodes.size ≤ steps) :
    ∃ last, ContentTree.copyBelow (before.tree.descendants top) steps newParent top before =
        (.ok (before.tree.copyOf top top), last) ∧
      Progress before top newParent (before.tree.descendants top) last := by
  have front : [] ++ before.tree.descendants top <+: before.tree.descendants top :=
    List.prefix_rfl
  have initial := Progress.start before top newParent
  obtain ⟨last, copied, progress⟩ := initial.copyBelow wellFormed newLive
    (wellFormed.mem_descendants_self live) (Nat.le_add_right_of_le enough) front
    fun notTop => absurd rfl notTop
  rw [copyTarget_top] at copied
  rw [List.nil_append] at progress
  exact ⟨last, copied, progress⟩

end Progress

/-! ## The copied subtree -/

/-- The nodes of the walk whose copies are put below the copy of a node are its children. -/
theorem filter_target_eq_children (wellFormed : tree.WellFormed) {newParent : NodeId}
    (newLive : tree.contains newParent = true) (listed : id ∈ tree.descendants top) :
    (tree.descendants top).filter (tree.copyTarget top newParent · = tree.copyOf top id) =
      tree.children id := by
  -- The children stand in the walk in their order, and a node is listed once only. So it is enough that
  -- every node that is put below the copy is a child.
  have part : List.Sublist (tree.children id)
      ((tree.descendants top).filter (tree.copyTarget top newParent · = tree.copyOf top id)) := by
    have unfiltered : (tree.children id).filter
        (tree.copyTarget top newParent · = tree.copyOf top id) = tree.children id := by
      rw [List.filter_eq_self]
      intro child member
      exact decide_eq_true (copyTarget_of_mem_children wellFormed newParent listed member)
    rw [← unfiltered]
    apply List.Sublist.filter
    exact (List.sublist_cons_self _ _).trans (wellFormed.cons_children_sublist listed)
  have within : (tree.descendants top).filter
      (tree.copyTarget top newParent · = tree.copyOf top id) ⊆ tree.children id := by
    intro child member
    rw [List.mem_filter, decide_eq_true_eq] at member
    by_cases isTop : child = top
    · rw [isTop, copyTarget_top] at member
      exact absurd member.2.symm (copyOf_ne_of_lt (index_lt_of_contains newLive))
    · obtain ⟨parent, parentListed, link⟩ :=
        wellFormed.exists_parent_of_mem_descendants member.1 isTop
      rw [copyTarget_of_parent? isTop link] at member
      rw [← copyOf_injOn parentListed member.2]
      exact wellFormed.child_of_parent child parent link
  have distinct := (wellFormed.descendants_nodup top).filter
    (tree.copyTarget top newParent · = tree.copyOf top id)
  exact (part.eq_of_length_le (distinct.length_le_of_subset within)).symm

theorem copiesBelow_copyOf (wellFormed : tree.WellFormed) {newParent : NodeId}
    (newLive : tree.contains newParent = true) (listed : id ∈ tree.descendants top) :
    tree.copiesBelow top newParent (tree.descendants top) (tree.copyOf top id) =
      (tree.children id).map (tree.copyOf top) := by
  rw [copiesBelow, filter_target_eq_children wellFormed newLive listed]

/-- Of the old nodes only the new parent gets a copy below it, that of the start. -/
theorem copiesBelow_old (wellFormed : tree.WellFormed) {newParent : NodeId}
    (live : tree.contains top = true) (inSlot : id.index < tree.nodes.size) :
    tree.copiesBelow top newParent (tree.descendants top) id =
      if id = newParent then [tree.copyOf top top] else [] := by
  have further : ((tree.children top).flatMap tree.descendants).filter
      (tree.copyTarget top newParent · = id) = [] := by
    rw [List.filter_eq_nil_iff]
    intro other member
    rw [decide_eq_true_eq]
    have distinct := wellFormed.descendants_nodup top
    rw [wellFormed.descendants_eq live, List.nodup_cons] at distinct
    have notTop : other ≠ top := by
      intro isTop
      rw [isTop] at member
      exact distinct.1 member
    have listed : other ∈ tree.descendants top := by
      rw [wellFormed.descendants_eq live]
      exact List.mem_cons_of_mem top member
    obtain ⟨parent, _, link⟩ := wellFormed.exists_parent_of_mem_descendants listed notTop
    rw [copyTarget_of_parent? notTop link]
    exact copyOf_ne_of_lt inSlot
  rw [copiesBelow, wellFormed.descendants_eq live, List.filter_cons, further, copyTarget_top]
  by_cases isNew : id = newParent
  · simp [isNew]
  · simp [isNew, Ne.symm isNew]

/-- The last state is the first one with a copy of the subtree at the end of the new parent's children.
The copies correspond to the nodes of the subtree, parents to parents and children to children in their
order. They have all that the nodes have, but for new names and no object. Nothing else changes. -/
structure ExactCopy (before : Copying) (top newParent : NodeId) (last : Copying) : Prop where
  distinct : ∀ first ∈ before.tree.descendants top, ∀ second ∈ before.tree.descendants top,
    before.tree.copyOf top first = before.tree.copyOf top second → first = second
  isNew : ∀ id, before.tree.get? (before.tree.copyOf top id) = none
  walk : last.tree.descendants (before.tree.copyOf top top) =
    (before.tree.descendants top).map (before.tree.copyOf top)
  liveIds : last.tree.liveIds =
    before.tree.liveIds ++ (before.tree.descendants top).map (before.tree.copyOf top)
  copied : ∀ id ∈ before.tree.descendants top,
    last.tree.get? (before.tree.copyOf top id) = (before.tree.get? id).map
      (before.copyNode top newParent id
        ((before.tree.children id).map (before.tree.copyOf top)))
  kept : ∀ id, before.tree.contains id = true →
    last.tree.get? id = (before.tree.get? id).map fun node =>
      { node with
        children := if id = newParent then node.children ++ [before.tree.copyOf top top]
          else node.children }
  root : last.tree.root = before.tree.root
  profile : last.tree.profile = before.tree.profile
  supply : last.supply = { before.supply with
    used := before.supply.used + (before.tree.descendants top).length }

namespace Progress

variable {before last : Copying} {newParent : NodeId} (wellFormed : before.tree.WellFormed)
  (progress : Progress before top newParent (before.tree.descendants top) last)

include wellFormed progress

theorem get?_copy (newLive : before.tree.contains newParent = true)
    (listed : id ∈ before.tree.descendants top) :
    last.tree.get? (before.tree.copyOf top id) = (before.tree.get? id).map
      (before.copyNode top newParent id
        ((before.tree.children id).map (before.tree.copyOf top))) := by
  rw [progress.copied id listed, copiesBelow_copyOf wellFormed newLive listed]

theorem contains_copy (newLive : before.tree.contains newParent = true)
    (listed : id ∈ before.tree.descendants top) :
    last.tree.contains (before.tree.copyOf top id) = true := by
  rw [contains, progress.get?_copy wellFormed newLive listed, Option.isSome_map]
  exact wellFormed.contains_of_listed listed

theorem children_copy (newLive : before.tree.contains newParent = true)
    (listed : id ∈ before.tree.descendants top) :
    last.tree.children (before.tree.copyOf top id) =
      (before.tree.children id).map (before.tree.copyOf top) := by
  obtain ⟨node, found⟩ := contains_iff.1 (wellFormed.contains_of_listed listed)
  rw [children, progress.get?_copy wellFormed newLive listed, found]
  rfl

theorem descendants_copy (newLive : before.tree.contains newParent = true)
    (live : before.tree.contains top = true) :
    last.tree.descendants (before.tree.copyOf top top) =
      (before.tree.descendants top).map (before.tree.copyOf top) := by
  have topListed := wellFormed.mem_descendants_self live
  have copyLive := progress.contains_copy wellFormed newLive topListed
  have sameWalk : before.tree.descendants top =
      before.tree.descend last.tree.nodes.size top := by
    apply wellFormed.descendants_eq_descend live
    rw [progress.size]
    omega
  rw [descendants, if_pos copyLive, sameWalk]
  apply descend_map
  intro id listed
  rw [← sameWalk] at listed
  exact progress.children_copy wellFormed newLive listed

/-- The copies fill the slots that follow the old ones. -/
theorem liveIds_copy (newLive : before.tree.contains newParent = true) :
    last.tree.liveIds =
      before.tree.liveIds ++ (before.tree.descendants top).map (before.tree.copyOf top) := by
  have slots : (List.range (before.tree.descendants top).length).map
      (fun position => (⟨before.tree.nodes.size + position⟩ : NodeId)) =
        (before.tree.descendants top).map (before.tree.copyOf top) := by
    apply List.ext_getElem
    · simp
    · intro position _ inRange
      have distinct := wellFormed.descendants_nodup top
      rw [List.length_map] at inRange
      simp [copyOf, distinct.idxOf_getElem position inRange]
  have old : ((List.range before.tree.nodes.size).map NodeId.mk).filter last.tree.contains =
      before.tree.liveIds := by
    apply List.filter_congr
    intro id member
    obtain ⟨slot, inSlots, isSlot⟩ := List.mem_map.1 member
    have inSlot : id.index < before.tree.nodes.size := by
      rw [← isSlot]
      exact List.mem_range.1 inSlots
    rw [contains, progress.kept id inSlot, Option.isSome_map, contains]
  rw [liveIds, progress.size, List.range_add, List.map_append, List.filter_append, old]
  rw [List.map_map, Function.comp_def, slots, List.filter_eq_self.2]
  intro copy member
  obtain ⟨id, listed, isCopy⟩ := List.mem_map.1 member
  rw [← isCopy]
  exact progress.contains_copy wellFormed newLive listed

theorem exactCopy (newLive : before.tree.contains newParent = true)
    (live : before.tree.contains top = true) : ExactCopy before top newParent last where
  distinct _ firstListed _ _ same := copyOf_injOn firstListed same
  isNew _ := get?_eq_none_of_size_le (Nat.le_add_right _ _)
  walk := progress.descendants_copy wellFormed newLive live
  liveIds := progress.liveIds_copy wellFormed newLive
  copied _ listed := progress.get?_copy wellFormed newLive listed
  kept id idLive := by
    have inSlot := index_lt_of_contains idLive
    rw [progress.kept id inSlot, copiesBelow_old wellFormed live inSlot]
    by_cases isNew : id = newParent
    · simp [isNew]
    · simp [isNew]
  root := progress.root
  profile := progress.profile
  supply := progress.supply

end Progress

/-- The names of the copies differ from each other and from the identifiers in the tree. -/
structure CopyNamesNew (before : Copying) (top : NodeId) : Prop where
  distinct : ∀ first ∈ before.tree.descendants top, ∀ second ∈ before.tree.descendants top,
    before.copyName top first = before.copyName top second → first = second
  unindexed : ∀ id ∈ before.tree.descendants top,
    before.tree.index.contains (before.copyName top id) = false

theorem copyNamesNew_of_freshUpTo {before : Copying}
    (fresh : before.FreshUpTo (before.supply.used + (before.tree.descendants top).length)) :
    before.CopyNamesNew top := by
  have drawn : ∀ id ∈ before.tree.descendants top,
      before.supply.used + (before.tree.descendants top).idxOf id ∈
        Set.Ico before.supply.used
          (before.supply.used + (before.tree.descendants top).length) := by
    intro id listed
    have position := List.idxOf_lt_length_of_mem listed
    rw [Set.mem_Ico]
    omega
  constructor
  · intro first firstListed second secondListed sameName
    have samePosition := fresh.distinct (drawn first firstListed) (drawn second secondListed) sameName
    exact (List.idxOf_inj firstListed).1 (Nat.add_left_cancel samePosition)
  · intro id listed
    exact fresh.unindexed _ (drawn id listed)

end Copying

/-- Copying a subtree adds an exact copy of it, as it was before the call, wherever the new parent stands,
also in the subtree itself. Where the names that are drawn are new, so are those of the copies, and the
links of the tree are in order afterwards. -/
theorem copySubtree_exact (wellFormed : tree.WellFormed) (supply : Supply) {newParent : NodeId}
    (live : tree.contains top = true) (newLive : tree.contains newParent = true) :
    ∃ last, tree.copySubtree supply top newParent = (.ok (tree.copyOf top top), last) ∧
      Copying.ExactCopy ⟨tree, supply⟩ top newParent last ∧
      ((Copying.mk tree supply).FreshUpTo (supply.used + (tree.descendants top).length) →
        (Copying.mk tree supply).CopyNamesNew top ∧ last.tree.WellFormed) := by
  have enough : tree.nodes.size ≤ tree.nodes.size + (tree.descendants top).length + 1 := by omega
  obtain ⟨last, copied, progress⟩ :=
    Copying.Progress.whole ⟨tree, supply⟩ wellFormed live newLive enough
  obtain ⟨node, found⟩ := contains_iff.1 live
  obtain ⟨above, newFound⟩ := contains_iff.1 newLive
  have called : tree.copySubtree supply top newParent = (.ok (tree.copyOf top top), last) := by
    rw [copySubtree, found, newFound]
    exact copied
  refine ⟨last, called, progress.exactCopy wellFormed newLive live, ?_⟩
  intro fresh
  refine ⟨Copying.copyNamesNew_of_freshUpTo fresh, ?_⟩
  have used : (tree.copySubtree supply top newParent).2.supply.used =
      supply.used + (tree.descendants top).length := by
    rw [called, progress.supply]
  rw [← used] at fresh
  have sound := wellFormed.copySubtree fresh
  rw [called] at sound
  exact sound

/-- The small archive copied into its own item: the item holds its page and the copy of the archive, and
the copied item holds the copied page only. -/
theorem copySubtree_exact_smallArchive :
    ∃ last, smallArchive.copySubtree ⟨RandomName.ofNat, 0⟩ ⟨0⟩ ⟨1⟩ = (.ok ⟨4⟩, last) ∧
      last.tree.WellFormed ∧ last.tree.liveIds = smallArchive.liveIds ++ [⟨4⟩, ⟨5⟩, ⟨6⟩, ⟨7⟩] ∧
      (last.tree.get? ⟨1⟩).map Node.children = some [⟨2⟩, ⟨4⟩] ∧
      (last.tree.get? ⟨5⟩).map Node.children = some [⟨6⟩] := by
  obtain ⟨last, called, exactCopy, ordered⟩ := copySubtree_exact wellFormed_smallArchive
    ⟨RandomName.ofNat, 0⟩ (rfl : smallArchive.contains ⟨0⟩ = true)
    (rfl : smallArchive.contains ⟨1⟩ = true)
  have fresh : (Copying.mk smallArchive ⟨RandomName.ofNat, 0⟩).FreshUpTo
      (0 + (smallArchive.descendants ⟨0⟩).length) := by
    decide +kernel
  have copies : (smallArchive.descendants ⟨0⟩).map (smallArchive.copyOf ⟨0⟩) =
      [⟨4⟩, ⟨5⟩, ⟨6⟩, ⟨7⟩] := by
    decide
  have item := exactCopy.kept ⟨1⟩ rfl
  have itemCopy := exactCopy.copied ⟨1⟩ (by decide)
  refine ⟨last, called, (ordered fresh).2, ?_, ?_, ?_⟩
  · rw [exactCopy.liveIds, copies]
  · rw [item]
    rfl
  · rw [show (⟨5⟩ : NodeId) = smallArchive.copyOf ⟨0⟩ ⟨1⟩ by decide, itemCopy]
    rfl

end ContentTyping.ContentTree

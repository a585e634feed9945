import ContentTyping.Proofs.Tree.ActiveSubtree
import ContentTyping.Validation.Edges

/-!
# Trees that agree in part

Typing operations change what is recorded in some fields of the nodes and nothing else. Two trees
agree on a view of nodes when nodes in the same slot look the same in it. Walks only depend on the
links, so they are the same in trees that agree on links.
-/

namespace ContentTyping

namespace Node

/-- What walks look at. -/
def links (node : Node) : Option NodeId × List NodeId × Bool :=
  (node.parent, node.children, node.ignored)

/-- Everything but the object. -/
def withoutObject (node : Node) : Node :=
  { node with object := none }

/-- The node with what an edge records: its own type and the relation to its parent. -/
def typedAs (edge : Edge) (node : Node) : Node :=
  { node with nodeType := edge.nodeType, relation := edge.relation }

end Node

namespace ContentTree

/-- The trees have the same slots, and in each slot nodes that look the same in a view. -/
structure AgreeOn {α : Type} (view : Node → α) (first second : ContentTree) : Prop where
  size : first.nodes.size = second.nodes.size
  get : ∀ id, (first.get? id).map view = (second.get? id).map view

namespace AgreeOn

variable {α β : Type} {view : Node → α} {first second third : ContentTree}

theorem refl (tree : ContentTree) : AgreeOn view tree tree :=
  ⟨rfl, fun _ => rfl⟩

theorem symm (agree : AgreeOn view first second) : AgreeOn view second first :=
  ⟨agree.size.symm, fun id => (agree.get id).symm⟩

theorem trans (upper : AgreeOn view first second) (lower : AgreeOn view second third) :
    AgreeOn view first third :=
  ⟨upper.size.trans lower.size, fun id => (upper.get id).trans (lower.get id)⟩

theorem coarsen {coarse : Node → β} (agree : AgreeOn view first second)
    (readOff : ∀ node other, view node = view other → coarse node = coarse other) :
    AgreeOn coarse first second where
  size := agree.size
  get id := by
    have same := agree.get id
    cases found : first.get? id with
    | none =>
        rw [found, Option.map_none, eq_comm, Option.map_eq_none_iff] at same
        rw [same]
    | some node =>
        rw [found, Option.map_some, eq_comm, Option.map_eq_some_iff] at same
        obtain ⟨other, otherFound, sameView⟩ := same
        rw [otherFound, Option.map_some, Option.map_some, readOff other node sameView]

/-- Trees that differ in objects only agree on every view that does not show objects. -/
theorem ignoringObjects {blind : Node → β} (agree : AgreeOn Node.withoutObject first second)
    (isBlind : ∀ node : Node, blind node.withoutObject = blind node) :
    AgreeOn blind first second :=
  agree.coarsen fun node other same => by
    rw [← isBlind node, same, isBlind other]

theorem modify {tree : ContentTree} (id : NodeId) {change : Node → Node}
    (kept : ∀ node, view (change node) = view node) :
    AgreeOn view (tree.modify id change) tree where
  size := size_modify id change
  get other := by
    rw [get?_modify]
    by_cases same : other = id
    · rw [if_pos same, Option.map_map]
      exact congrArg (Option.map · (tree.get? other)) (funext kept)
    · rw [if_neg same]

theorem foldl {step : ContentTree → β → ContentTree}
    (kept : ∀ tree item, AgreeOn view (step tree item) tree) (items : List β)
    (tree : ContentTree) : AgreeOn view (items.foldl step tree) tree := by
  induction items generalizing tree with
  | nil =>
      exact .refl tree
  | cons item items inductionHypothesis =>
      exact (inductionHypothesis (step tree item)).trans (kept tree item)

theorem exists_get? (agree : AgreeOn view first second) {id : NodeId} {node : Node}
    (found : second.get? id = some node) :
    ∃ other, first.get? id = some other ∧ view other = view node := by
  have same := agree.get id
  rw [found, Option.map_some, Option.map_eq_some_iff] at same
  exact same

theorem contains (agree : AgreeOn view first second) (id : NodeId) :
    first.contains id = second.contains id := by
  have same := congrArg Option.isSome (agree.get id)
  rw [Option.isSome_map, Option.isSome_map] at same
  exact same

end AgreeOn

namespace AgreeOn

variable {first second : ContentTree} (agree : AgreeOn Node.links first second)

include agree

theorem parent? (id : NodeId) : first.parent? id = second.parent? id := by
  have same := congrArg (Option.map Prod.fst) (agree.get id)
  rw [ContentTree.parent?, ContentTree.parent?]
  cases found : first.get? id <;> cases otherFound : second.get? id <;>
    simp_all [Node.links]

theorem children (id : NodeId) : first.children id = second.children id := by
  have same := agree.get id
  rw [ContentTree.children, ContentTree.children]
  cases found : first.get? id <;> cases otherFound : second.get? id <;>
    simp_all [Node.links]

theorem isActive (id : NodeId) : first.isActive id = second.isActive id := by
  have same := agree.get id
  rw [ContentTree.isActive, ContentTree.isActive]
  cases found : first.get? id <;> cases otherFound : second.get? id <;>
    simp_all [Node.links]

theorem activeChildren (id : NodeId) : first.activeChildren id = second.activeChildren id := by
  rw [ContentTree.activeChildren, ContentTree.activeChildren, agree.children]
  exact List.filter_congr fun child _ => agree.isActive child

theorem descendActive (steps : Nat) (id : NodeId) :
    first.descendActive steps id = second.descendActive steps id := by
  induction steps generalizing id with
  | zero =>
      rfl
  | succ steps inductionHypothesis =>
      rw [ContentTree.descendActive, ContentTree.descendActive, agree.isActive, agree.children,
        funext inductionHypothesis]

theorem activeSubtree (id : NodeId) : first.activeSubtree id = second.activeSubtree id := by
  rw [ContentTree.activeSubtree, ContentTree.activeSubtree, agree.size]
  exact agree.descendActive _ id

theorem ascend (steps : Nat) (id : NodeId) : first.ascend steps id = second.ascend steps id := by
  induction steps generalizing id with
  | zero =>
      rfl
  | succ steps inductionHypothesis =>
      rw [ContentTree.ascend, ContentTree.ascend, agree.parent?, funext inductionHypothesis]

theorem isExcluded (id : NodeId) : first.isExcluded id = second.isExcluded id := by
  rw [ContentTree.isExcluded, ContentTree.isExcluded, ancestors, ancestors, agree.size,
    agree.ascend]
  refine congrArg (List.any _) (funext fun above => ?_)
  have same := agree.get above
  cases found : first.get? above <;> cases otherFound : second.get? above <;>
    simp_all [Node.links]

end AgreeOn

theorem Below.of_links {first second : ContentTree} (agree : AgreeOn Node.links second first)
    {top id : NodeId} (below : Below first top id) : Below second top id := by
  induction below with
  | self =>
      exact .self
  | child link _ inductionHypothesis =>
      rw [← agree.parent?] at link
      exact .child link inductionHypothesis

/-- Well-formedness is a matter of links, identifiers, the root and the index. -/
theorem WellFormed.of_agreeOn {first second : ContentTree} (wellFormed : first.WellFormed)
    (agree : AgreeOn Node.links second first)
    (sameIdentifiers : AgreeOn Node.identifier second first)
    (sameRoot : second.root = first.root) (sameIndex : second.index = first.index) :
    second.WellFormed where
  root_contained root isRoot := by
    rw [sameRoot] at isRoot
    rw [agree.contains]
    exact wellFormed.root_contained root isRoot
  root_parent root isRoot := by
    rw [sameRoot] at isRoot
    rw [agree.parent?]
    exact wellFormed.root_parent root isRoot
  parent_of_child id child member := by
    rw [agree.children] at member
    rw [agree.parent?]
    exact wellFormed.parent_of_child id child member
  child_of_parent id parent link := by
    rw [agree.parent?] at link
    rw [agree.children]
    exact wellFormed.child_of_parent id parent link
  children_nodup id := by
    rw [agree.children]
    exact wellFormed.children_nodup id
  rooted id live := by
    rw [agree.contains] at live
    obtain ⟨root, isRoot, below⟩ := wellFormed.rooted id live
    exact ⟨root, sameRoot.trans isRoot, below.of_links agree⟩
  indexed identifier id := by
    rw [sameIndex, wellFormed.indexed identifier id]
    constructor
    · rintro ⟨node, found, isNamed⟩
      obtain ⟨other, otherFound, same⟩ := sameIdentifiers.exists_get? found
      exact ⟨other, otherFound, same.trans isNamed⟩
    · rintro ⟨node, found, isNamed⟩
      obtain ⟨other, otherFound, same⟩ := sameIdentifiers.symm.exists_get? found
      exact ⟨other, otherFound, same.trans isNamed⟩

/-! ## Recorded edges -/

variable {tree : ContentTree}

/-- What is recorded of the edge to the parent, as the parent sees it. -/
def edgeOf (tree : ContentTree) (id : NodeId) : Edge :=
  ⟨(tree.get? id).bind Node.nodeType, (tree.get? id).bind Node.relation⟩

theorem edgeOf_of_get? {id : NodeId} {node : Node} (found : tree.get? id = some node) :
    tree.edgeOf id = ⟨node.nodeType, node.relation⟩ := by
  rw [edgeOf, found, Option.bind_some, Option.bind_some]

theorem childEdges_eq (id : NodeId) :
    tree.childEdges id = (tree.activeChildren id).map tree.edgeOf := by
  rw [childEdges, activeChildren]
  generalize tree.children id = children
  induction children with
  | nil =>
      rfl
  | cons child children inductionHypothesis =>
      cases found : tree.get? child with
      | none =>
          simp [found, isActive, inductionHypothesis]
      | some node =>
          cases skipped : node.ignored with
          | true =>
              simp [found, isActive, skipped, inductionHypothesis]
          | false =>
              simp [found, isActive, skipped, inductionHypothesis, edgeOf]

theorem AgreeOn.edgeOf {first second : ContentTree}
    (agree : AgreeOn Node.withoutObject first second) (id : NodeId) :
    first.edgeOf id = second.edgeOf id := by
  have sameEdge : AgreeOn (fun node => Edge.mk node.nodeType node.relation) first second :=
    agree.ignoringObjects fun _ => rfl
  have same := sameEdge.get id
  rw [ContentTree.edgeOf, ContentTree.edgeOf]
  cases found : first.get? id <;> cases otherFound : second.get? id <;> simp_all

theorem parentEdge?_of_parent? {id parent : NodeId} (link : tree.parent? id = some parent)
    (live : tree.contains parent = true) :
    tree.parentEdge? id = some ⟨(tree.edgeOf parent).nodeType, (tree.edgeOf id).relation⟩ := by
  obtain ⟨node, found, isParent⟩ := parent?_eq_some_iff.1 link
  obtain ⟨above, aboveFound⟩ := contains_iff.1 live
  simp [parentEdge?, edgeOf, found, isParent, aboveFound]

theorem parentEdge?_of_root {id : NodeId} (noParent : tree.parent? id = none) :
    tree.parentEdge? id = none := by
  rw [parentEdge?]
  cases found : tree.get? id with
  | none =>
      rfl
  | some node =>
      rw [parent?_of_get? found] at noParent
      simp [noParent]

theorem WellFormed.parentEdge?_eq (wellFormed : tree.WellFormed) (id : NodeId) :
    tree.parentEdge? id = (tree.parent? id).map fun parent =>
      ⟨(tree.edgeOf parent).nodeType, (tree.edgeOf id).relation⟩ := by
  cases link : tree.parent? id with
  | none =>
      exact parentEdge?_of_root link
  | some parent =>
      exact parentEdge?_of_parent? link (wellFormed.contains_parent link)

/-! ## Recording edges -/

/-- The tree with the edges recorded that a typing gives to some of its nodes. -/
def retype (tree : ContentTree) (ids : List NodeId) (typing : NodeId → Edge) : ContentTree :=
  ids.foldl (fun retyped id => retyped.modify id (Node.typedAs (typing id))) tree

theorem get?_retype (ids : List NodeId) (typing : NodeId → Edge) (id : NodeId) :
    (tree.retype ids typing).get? id =
      if id ∈ ids then (tree.get? id).map (Node.typedAs (typing id)) else tree.get? id := by
  induction ids generalizing tree with
  | nil =>
      rfl
  | cons next ids inductionHypothesis =>
      have split : tree.retype (next :: ids) typing =
          (tree.modify next (Node.typedAs (typing next))).retype ids typing := rfl
      rw [split, inductionHypothesis, get?_modify]
      by_cases here : id = next
      · subst here
        simp only [if_true, List.mem_cons, true_or]
        by_cases again : id ∈ ids
        · rw [if_pos again, Option.map_map]
          rfl
        · rw [if_neg again]
      · simp only [List.mem_cons, here, false_or, if_false]

theorem agreeOn_retype {α : Type} {view : Node → α}
    (kept : ∀ edge node, view (Node.typedAs edge node) = view node)
    (ids : List NodeId) (typing : NodeId → Edge) :
    AgreeOn view (tree.retype ids typing) tree :=
  .foldl (fun _ id => .modify id (kept (typing id))) ids tree

theorem links_retype (tree : ContentTree) (ids : List NodeId) (typing : NodeId → Edge) :
    AgreeOn Node.links (tree.retype ids typing) tree :=
  agreeOn_retype (fun _ _ => rfl) ids typing

theorem edgeOf_retype {ids : List NodeId} {typing : NodeId → Edge} {id : NodeId}
    (member : id ∈ ids) (live : tree.contains id = true) :
    (tree.retype ids typing).edgeOf id = typing id := by
  obtain ⟨node, found⟩ := contains_iff.1 live
  rw [edgeOf, get?_retype, if_pos member, found]
  rfl

theorem retype_append (first second : List NodeId) (typing : NodeId → Edge) :
    tree.retype (first ++ second) typing = (tree.retype first typing).retype second typing :=
  List.foldl_append

/-- Neither the order nor repetitions matter. -/
theorem agreeOn_retype_of_mem_iff {α : Type} (view : Node → α) {first second : List NodeId}
    (same : ∀ id, id ∈ first ↔ id ∈ second) (typing : NodeId → Edge) :
    AgreeOn view (tree.retype first typing) (tree.retype second typing) where
  size := (tree.links_retype first typing).size.trans (tree.links_retype second typing).size.symm
  get id := by
    rw [get?_retype, get?_retype, if_congr (same id) rfl rfl]

namespace AgreeOn

variable {after : ContentTree} {ids : List NodeId} {typing : NodeId → Edge}
  (agree : AgreeOn Node.withoutObject after (tree.retype ids typing))

include agree

theorem links_of_retype : AgreeOn Node.links after tree :=
  (agree.ignoringObjects fun _ => rfl).trans (links_retype tree ids typing)

theorem edgeOf_of_retype {id : NodeId} (member : id ∈ ids) (live : tree.contains id = true) :
    after.edgeOf id = typing id := by
  rw [agree.edgeOf]
  exact edgeOf_retype member live

theorem edgeOf_elsewhere {id : NodeId} (unlisted : id ∉ ids) :
    after.edgeOf id = tree.edgeOf id := by
  rw [agree.edgeOf, ContentTree.edgeOf, get?_retype, if_neg unlisted]
  rfl

theorem exists_get?_of_retype {id : NodeId} (member : id ∈ ids) {node : Node}
    (found : tree.get? id = some node) :
    ∃ typed, after.get? id = some typed ∧
      typed.withoutObject = (node.typedAs (typing id)).withoutObject := by
  refine agree.exists_get? ?_
  rw [get?_retype, if_pos member, found, Option.map_some]

end AgreeOn

theorem foldl_kept {α β : Type} (view : ContentTree → β) {step : ContentTree → α → ContentTree}
    (kept : ∀ tree item, view (step tree item) = view tree) (items : List α)
    (tree : ContentTree) : view (items.foldl step tree) = view tree := by
  induction items generalizing tree with
  | nil =>
      rfl
  | cons item items inductionHypothesis =>
      exact (inductionHypothesis (step tree item)).trans (kept tree item)

theorem root_retype (ids : List NodeId) (typing : NodeId → Edge) :
    (tree.retype ids typing).root = tree.root :=
  foldl_kept ContentTree.root (by intros; rfl) ids tree

theorem index_retype (ids : List NodeId) (typing : NodeId → Edge) :
    (tree.retype ids typing).index = tree.index :=
  foldl_kept ContentTree.index (by intros; rfl) ids tree

theorem profile_retype (ids : List NodeId) (typing : NodeId → Edge) :
    (tree.retype ids typing).profile = tree.profile :=
  foldl_kept ContentTree.profile (by intros; rfl) ids tree

theorem retype_congr {ids : List NodeId} {typing other : NodeId → Edge}
    (same : ∀ id ∈ ids, typing id = other id) : tree.retype ids typing = tree.retype ids other := by
  induction ids generalizing tree with
  | nil => rfl
  | cons next ids inductionHypothesis =>
      rw [retype, List.foldl_cons, same next List.mem_cons_self]
      exact inductionHypothesis fun id member => same id (List.mem_cons_of_mem next member)

theorem WellFormed.retype (wellFormed : tree.WellFormed) (ids : List NodeId)
    (typing : NodeId → Edge) : (tree.retype ids typing).WellFormed :=
  wellFormed.of_agreeOn (tree.links_retype ids typing)
    (agreeOn_retype (fun _ _ => rfl) ids typing) (root_retype ids typing)
    (index_retype ids typing)

end ContentTree

end ContentTyping

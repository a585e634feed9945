import ContentTyping.Proofs.Validation.RecordedChoice

/-!
# Least typings

Typings of a subtree are compared node by node in pre-order by the declaration order of their
types. The first choice is the least of all typings by viable types. Where siblings cannot
constrain each other, every typing that validates is one of them.
-/

namespace ContentTyping

/-! ## Lists compared place by place -/

/-- The first list is the second one, or it comes before it in the lexicographic order. -/
def NotAfter (first second : List Nat) : Prop :=
  first = second ∨ List.Lex (· < ·) first second

theorem notAfter_cons_iff {head otherHead : Nat} {tail otherTail : List Nat} :
    NotAfter (head :: tail) (otherHead :: otherTail) ↔
      head < otherHead ∨ head = otherHead ∧ NotAfter tail otherTail := by
  constructor
  · rintro (same | before)
    · obtain ⟨sameHead, sameTail⟩ := List.cons.inj same
      exact .inr ⟨sameHead, .inl sameTail⟩
    · cases before with
      | rel smaller => exact .inl smaller
      | cons tailBefore => exact .inr ⟨rfl, .inr tailBefore⟩
  · rintro (smaller | ⟨rfl, rfl | tailBefore⟩)
    · exact .inr (.rel smaller)
    · exact .inl rfl
    · exact .inr (.cons tailBefore)

theorem NotAfter.append {first second firstEnd secondEnd : List Nat}
    (notAfter : NotAfter first second) (sameLength : first.length = second.length)
    (endNotAfter : NotAfter firstEnd secondEnd) :
    NotAfter (first ++ firstEnd) (second ++ secondEnd) := by
  induction first generalizing second with
  | nil =>
      have isNil : second = [] := List.length_eq_zero_iff.1 sameLength.symm
      rw [isNil]
      exact endNotAfter
  | cons head tail inductionHypothesis =>
      cases second with
      | nil =>
          exact absurd sameLength (by simp)
      | cons otherHead otherTail =>
          have tailLength : tail.length = otherTail.length := Nat.succ.inj sameLength
          rw [List.cons_append, List.cons_append, notAfter_cons_iff]
          rcases notAfter_cons_iff.1 notAfter with smaller | ⟨sameHead, tailNotAfter⟩
          · exact .inl smaller
          · exact .inr ⟨sameHead, inductionHypothesis tailNotAfter tailLength⟩

theorem NotAfter.flatMap {α : Type} {items : List α} {first second : α → List Nat}
    (notAfter : ∀ item ∈ items, NotAfter (first item) (second item))
    (sameLength : ∀ item, (first item).length = (second item).length) :
    NotAfter (items.flatMap first) (items.flatMap second) := by
  induction items with
  | nil =>
      exact .inl rfl
  | cons item items inductionHypothesis =>
      rw [List.flatMap_cons, List.flatMap_cons]
      have rest := inductionHypothesis fun later member =>
        notAfter later (List.mem_cons_of_mem item member)
      exact (notAfter item List.mem_cons_self).append (sameLength item) rest

namespace DomainProfile

open ContentTree

variable {profile : DomainProfile} {tree : ContentTree}

/-! ## First among the viable -/

theorem candidates_pairwise (parentType : Option NodeTypeId) (id : NodeId) :
    (profile.candidates tree parentType id).Pairwise fun first second =>
      first.nodeType.index < second.nodeType.index := by
  rw [candidates]
  split
  · exact List.Pairwise.nil
  next node _ =>
      refine (profile.typesForKind_pairwise node.fileKind).filterMap _ ?_
      intro first second smaller candidate isCandidate other isOther
      obtain ⟨_, _, rfl⟩ := Option.map_eq_some_iff.1 isCandidate
      obtain ⟨_, _, rfl⟩ := Option.map_eq_some_iff.1 isOther
      exact smaller

/-- No viable candidate is declared before the first one. -/
theorem firstViable?_index_le {parentType : Option NodeTypeId} {id : NodeId}
    {chosen candidate : Candidate}
    (first : profile.firstViable? tree parentType id = some chosen)
    (member : candidate ∈ profile.candidates tree parentType id)
    (suitable : profile.viable tree id candidate.nodeType = true) :
    chosen.nodeType.index ≤ candidate.nodeType.index := by
  have ordered : (profile.candidates tree parentType id).Pairwise fun first second =>
      first.nodeType.index < second.nodeType.index := candidates_pairwise parentType id
  obtain ⟨_, before, after, isSplit, unsuitable⟩ := List.find?_eq_some_iff_append.1 first
  rw [isSplit] at ordered member
  have afterLarger := (List.pairwise_cons.1 (List.pairwise_append.1 ordered).2.1).1
  rcases List.mem_append.1 member with inBefore | inRest
  · have refused := unsuitable candidate inBefore
    rw [suitable] at refused
    exact absurd refused (by simp)
  · rcases List.mem_cons.1 inRest with rfl | inAfter
    · exact Nat.le_refl _
    · exact Nat.le_of_lt (afterLarger candidate inAfter)

/-! ## Typings by viable types -/

/-- The type can be placed at the node below a parent of some type. -/
def Placeable (profile : DomainProfile) (tree : ContentTree) (parentType : Option NodeTypeId)
    (id : NodeId) (type : NodeTypeId) : Prop :=
  ∃ candidate ∈ profile.candidates tree parentType id, candidate.nodeType = type

/-- Every node of the active subtree has a viable type that can be placed below that of its
parent. -/
structure ViableTyping (profile : DomainProfile) (tree : ContentTree) (start : NodeId)
    (parentType : Option NodeTypeId) (types : NodeId → NodeTypeId) : Prop where
  viable : ∀ id ∈ tree.activeSubtree start, profile.viable tree id (types id) = true
  atStart : profile.Placeable tree parentType start (types start)
  atChild : ∀ id ∈ tree.activeSubtree start, ∀ child ∈ tree.activeChildren id,
    profile.Placeable tree (some (types id)) child (types child)

/-- The declaration places of the types of a typing, in pre-order. -/
def typeIndices (tree : ContentTree) (start : NodeId) (types : NodeId → NodeTypeId) : List Nat :=
  (tree.activeSubtree start).map fun id => (types id).index

namespace ViableTyping

variable {start : NodeId} {parentType : Option NodeTypeId} {types : NodeId → NodeTypeId}

theorem below (wellFormed : tree.WellFormed)
    (typing : profile.ViableTyping tree start parentType types) {id child : NodeId}
    (listed : id ∈ tree.activeSubtree start) (member : child ∈ tree.activeChildren id) :
    profile.ViableTyping tree child (some (types id)) types := by
  have childListed := wellFormed.mem_activeSubtree_of_mem_activeChildren listed member
  have lower : ∀ inner ∈ tree.activeSubtree child, inner ∈ tree.activeSubtree start :=
    fun inner innerListed => wellFormed.mem_activeSubtree_trans childListed innerListed
  refine ⟨?_, typing.atChild id listed child member, ?_⟩
  · intro inner innerListed
    exact typing.viable inner (lower inner innerListed)
  · intro inner innerListed grandchild innerMember
    exact typing.atChild inner (lower inner innerListed) grandchild innerMember

/-- No typing by viable types comes before the first choice. -/
theorem firstChoice_notAfter (wellFormed : tree.WellFormed) {choice : NodeId → Candidate}
    (isFirst : profile.FirstChoice tree start parentType choice)
    (typing : profile.ViableTyping tree start parentType types)
    (active : tree.isActive start = true) :
    NotAfter (typeIndices tree start fun id => (choice id).nodeType)
      (typeIndices tree start types) := by
  refine wellFormed.active_induction
    (motive := fun start => ∀ {parentType : Option NodeTypeId},
      profile.FirstChoice tree start parentType choice →
      profile.ViableTyping tree start parentType types →
      NotAfter (typeIndices tree start fun id => (choice id).nodeType)
        (typeIndices tree start types))
    ?_ active isFirst typing
  intro start active inductionHypothesis parentType isFirst typing
  have startListed := wellFormed.mem_activeSubtree_self active
  obtain ⟨candidate, member, sameType⟩ := typing.atStart
  have suitable : profile.viable tree start candidate.nodeType = true := by
    rw [sameType]
    exact typing.viable start startListed
  have le := firstViable?_index_le isFirst.atStart member suitable
  rw [sameType] at le
  rw [typeIndices, typeIndices, wellFormed.activeSubtree_eq active, List.map_cons, List.map_cons,
    List.map_flatMap, List.map_flatMap, notAfter_cons_iff]
  -- A smaller type decides here; with the same type the children are compared below it.
  rcases Nat.lt_or_eq_of_le le with smaller | sameIndex
  · exact .inl smaller
  · have same : (choice start).nodeType = types start := congrArg NodeTypeId.mk sameIndex
    refine .inr ⟨sameIndex, .flatMap ?_ ?_⟩
    · intro child childMember
      have childFirst := isFirst.below wellFormed startListed childMember
      have childTyping := typing.below wellFormed startListed childMember
      rw [same] at childFirst
      exact inductionHypothesis child childMember childFirst childTyping
    · intro child
      rw [List.length_map, List.length_map]

end ViableTyping

/-! ## Typings that validate -/

/-- The report on the subtree is empty once the typing is recorded on its active nodes. -/
def Validates (profile : DomainProfile) (tree : ContentTree) (start : NodeId)
    (typing : NodeId → Edge) : Prop :=
  (profile.validationReport (tree.retype (tree.activeSubtree start) typing) start).violations = []

namespace Validates

variable {start : NodeId} {typing : NodeId → Edge} (validates : profile.Validates tree start typing)

include validates

theorem exists_inOrder {id : NodeId} (listed : id ∈ tree.activeSubtree start) :
    ∃ node type, tree.get? id = some node ∧ (typing id).nodeType = some type ∧
      profile.InOrder (tree.retype (tree.activeSubtree start) typing) id
        (node.typedAs (typing id)) type := by
  obtain ⟨node, found, notIgnored⟩ := isActive_iff.1 (isActive_of_mem_activeSubtree listed)
  have agree := tree.links_retype (tree.activeSubtree start) typing
  have retypedFound : (tree.retype (tree.activeSubtree start) typing).get? id =
      some (node.typedAs (typing id)) := by
    rw [get?_retype, if_pos listed, found, Option.map_some]
  have noDefects := validationReport_violations_eq_nil_iff.1 validates id
    (by rw [agree.activeSubtree]; exact listed)
  obtain ⟨type, inOrder⟩ := (defects_eq_nil_iff retypedFound notIgnored).1 noDefects
  exact ⟨node, type, found, inOrder.typed, inOrder⟩

theorem subTypesFit : profile.SubTypesFit tree (tree.activeSubtree start) := by
  intro id listed node found type member
  obtain ⟨other, primary, otherFound, _, inOrder⟩ := validates.exists_inOrder listed
  obtain rfl : node = other := Option.some.inj (found.symm.trans otherFound)
  exact inOrder.types_fit type (List.mem_cons_of_mem primary member)

theorem mem_typesForKind {id : NodeId} (listed : id ∈ tree.activeSubtree start)
    {type : NodeTypeId} (typed : (typing id).nodeType = some type) :
    type ∈ profile.typesForKind (tree.fileKind id) := by
  obtain ⟨node, primary, found, isPrimary, inOrder⟩ := validates.exists_inOrder listed
  obtain rfl : type = primary := Option.some.inj (typed.symm.trans isPrimary)
  rw [fileKind, found]
  exact inOrder.types_fit type List.mem_cons_self

theorem placeable (independent : profile.SiblingsIndependent) (wellFormed : tree.WellFormed)
    {id : NodeId} (listed : id ∈ tree.activeSubtree start) {type : NodeTypeId}
    (typed : (typing id).nodeType = some type) {above : Option NodeTypeId}
    (aboveTyped : (tree.parent? id).map (fun parent =>
      ((tree.retype (tree.activeSubtree start) typing).edgeOf parent).nodeType) =
        above.map some) :
    profile.Placeable tree above id type := by
  have accepted := validates.mem_typesForKind listed typed
  obtain ⟨node, primary, found, isPrimary, inOrder⟩ := validates.exists_inOrder listed
  obtain rfl : type = primary := Option.some.inj (typed.symm.trans isPrimary)
  obtain ⟨definition, isDefined, constraint, declared, matchesParent⟩ := inOrder.parent_holds
  have agree := tree.links_retype (tree.activeSubtree start) typing
  have parentLive : ∀ parent,
      (tree.retype (tree.activeSubtree start) typing).parent? id = some parent →
        (tree.retype (tree.activeSubtree start) typing).contains parent = true := by
    intro parent link
    rw [agree.parent?] at link
    rw [agree.contains]
    exact wellFormed.contains_parent link
  rw [← agree.parent?] at aboveTyped
  rw [matchesParent_eq_holdsOn parentLive aboveTyped] at matchesParent
  obtain ⟨placement, placed⟩ := Option.isSome_iff_exists.1
    (independent.placement?_isSome isDefined declared matchesParent)
  exact ⟨⟨type, placement.relation⟩,
    mem_candidates_iff.2 ⟨contains_iff.2 ⟨node, found⟩, accepted, placement, placed, rfl⟩, rfl⟩

theorem placeable_child (independent : profile.SiblingsIndependent)
    (wellFormed : tree.WellFormed) {id child : NodeId} (listed : id ∈ tree.activeSubtree start)
    (member : child ∈ tree.activeChildren id) {type childType : NodeTypeId}
    (typed : (typing id).nodeType = some type)
    (childTyped : (typing child).nodeType = some childType) :
    profile.Placeable tree (some type) child childType := by
  have childListed := wellFormed.mem_activeSubtree_of_mem_activeChildren listed member
  refine validates.placeable independent wellFormed childListed childTyped ?_
  rw [wellFormed.parent?_of_mem_activeChildren member, Option.map_some,
    edgeOf_retype listed (contains_of_mem_activeSubtree listed), typed, Option.map_some]

/-- Where siblings cannot constrain each other, a typing that validates is one by viable types. -/
theorem viable (independent : profile.SiblingsIndependent) (wellFormed : tree.WellFormed)
    {id : NodeId} (listed : id ∈ tree.activeSubtree start) {type : NodeTypeId}
    (typed : (typing id).nodeType = some type) : profile.viable tree id type = true := by
  -- From the leaves upwards: the recorded type of each child is itself a viable candidate, whatever
  -- relation is recorded with it.
  refine wellFormed.active_induction
    (motive := fun id => id ∈ tree.activeSubtree start → ∀ type,
      (typing id).nodeType = some type → profile.viable tree id type = true)
    ?_ (isActive_of_mem_activeSubtree listed) listed type typed
  intro id _ inductionHypothesis listed type typed
  refine (viable_iff wellFormed).2 ⟨validates.mem_typesForKind listed typed, ?_,
    independent.brokenChildConstraints_eq_nil type _⟩
  intro child member
  have childListed := wellFormed.mem_activeSubtree_of_mem_activeChildren listed member
  obtain ⟨_, childType, _, childTyped, _⟩ := validates.exists_inOrder childListed
  obtain ⟨candidate, isCandidate, sameType⟩ :=
    validates.placeable_child independent wellFormed listed member typed childTyped
  refine ⟨candidate, isCandidate, ?_⟩
  rw [sameType]
  exact inductionHypothesis child member childListed childType childTyped

theorem viableTyping (independent : profile.SiblingsIndependent) (wellFormed : tree.WellFormed)
    (active : tree.isActive start = true) (noParent : tree.parent? start = none)
    {types : NodeId → NodeTypeId}
    (typed : ∀ id ∈ tree.activeSubtree start, (typing id).nodeType = some (types id)) :
    profile.ViableTyping tree start none types where
  viable id listed := validates.viable independent wellFormed listed (typed id listed)
  atStart := by
    have listed := wellFormed.mem_activeSubtree_self active
    refine validates.placeable independent wellFormed listed (typed start listed) ?_
    rw [noParent]
    rfl
  atChild id listed child member := by
    have childListed := wellFormed.mem_activeSubtree_of_mem_activeChildren listed member
    exact validates.placeable_child independent wellFormed listed member (typed id listed)
      (typed child childListed)

end Validates

end DomainProfile

end ContentTyping

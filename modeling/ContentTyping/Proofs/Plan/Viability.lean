import Mathlib.Data.List.Find
import ContentTyping.Engine.Plan
import ContentTyping.Proofs.Decisions
import ContentTyping.Proofs.Profile.Placement
import ContentTyping.Proofs.Tree.ActiveSubtree

/-!
# Viability

A node can take a type when the type accepts its file kind, each of its active children has a
candidate below the type that the child can take in turn, and the edges to the first such
candidates break no child constraint. This is a plain recursion over the tree. The table that the
planner fills from the leaves upwards holds the same answers.
-/

namespace ContentTyping

namespace ContentTree

/-- The file kind of a node, nothing for a virtual node or an empty slot. -/
def fileKind (tree : ContentTree) (id : NodeId) : Option FileKind :=
  (tree.get? id).bind Node.fileKind

end ContentTree

namespace DomainProfile

variable (profile : DomainProfile) (tree : ContentTree)

/-! ## The recursive definition -/

/-- The candidates of a node of a file kind. -/
def candidatesForKind (kind : Option FileKind) (parentType : Option NodeTypeId) :
    List Candidate :=
  (profile.typesForKind kind).filterMap fun type =>
    (profile.placement? type parentType).map fun placement => ⟨type, placement.relation⟩

/-- The first candidate of a node that suits it. -/
def firstSuitable? (suits : NodeId → NodeTypeId → Bool) (parentType : Option NodeTypeId)
    (id : NodeId) : Option Candidate :=
  (profile.candidates tree parentType id).find? fun candidate => suits id candidate.nodeType

/-- Can the node take the type, when it is known what suits its active children? -/
def fits (suits : NodeId → NodeTypeId → Bool) (id : NodeId) (type : NodeTypeId) : Bool :=
  (profile.typesForKind (tree.fileKind id)).contains type &&
    (tree.activeChildren id).all (fun child =>
      (profile.firstSuitable? tree suits (some type) child).isSome) &&
    (profile.brokenChildConstraints type
      ((tree.activeChildren id).filterMap fun child =>
        (profile.firstSuitable? tree suits (some type) child).map Candidate.edge)).isEmpty

/-- Viability to a number of steps down the tree. -/
def viableWithin : Nat → NodeId → NodeTypeId → Bool
  | 0, _, _ => false
  | steps + 1, id, type => profile.fits tree (viableWithin steps) id type

/-- Can the node take the type with its whole active subtree typed below it? -/
def viable (id : NodeId) (type : NodeTypeId) : Bool :=
  profile.viableWithin tree (tree.nodes.size + 1) id type

def firstViable? (parentType : Option NodeTypeId) (id : NodeId) : Option Candidate :=
  profile.firstSuitable? tree (profile.viable tree) parentType id

variable {profile tree}

/-! ## Candidates -/

theorem mem_candidates_iff {parentType : Option NodeTypeId} {id : NodeId}
    {candidate : Candidate} :
    candidate ∈ profile.candidates tree parentType id ↔
      tree.contains id = true ∧
        candidate.nodeType ∈ profile.typesForKind (tree.fileKind id) ∧
        ∃ placement, profile.placement? candidate.nodeType parentType = some placement ∧
          placement.relation = candidate.relation := by
  cases found : tree.get? id with
  | none =>
      simp [candidates, ContentTree.contains, found]
  | some node =>
      simp only [candidates, found, ContentTree.contains, ContentTree.fileKind,
        Option.isSome_some, Option.bind_some, true_and, List.mem_filterMap,
        Option.map_eq_some_iff]
      constructor
      · rintro ⟨type, accepted, placement, placed, rfl⟩
        exact ⟨accepted, placement, placed, rfl⟩
      · rintro ⟨accepted, placement, placed, sameRelation⟩
        refine ⟨candidate.nodeType, accepted, placement, placed, ?_⟩
        rw [sameRelation]

/-- What the candidates of a node depend on is its file kind. -/
theorem candidates_eq_candidatesForKind {id : NodeId} (live : tree.contains id = true)
    (parentType : Option NodeTypeId) :
    profile.candidates tree parentType id =
      profile.candidatesForKind (tree.fileKind id) parentType := by
  obtain ⟨node, found⟩ := ContentTree.contains_iff.1 live
  rw [candidates, candidatesForKind, ContentTree.fileKind, found]
  rfl

theorem mem_candidates_of_firstSuitable? {suits : NodeId → NodeTypeId → Bool}
    {parentType : Option NodeTypeId} {id : NodeId} {candidate : Candidate}
    (first : profile.firstSuitable? tree suits parentType id = some candidate) :
    candidate ∈ profile.candidates tree parentType id :=
  List.mem_of_find?_eq_some first

theorem suits_of_firstSuitable? {suits : NodeId → NodeTypeId → Bool}
    {parentType : Option NodeTypeId} {id : NodeId} {candidate : Candidate}
    (first : profile.firstSuitable? tree suits parentType id = some candidate) :
    suits id candidate.nodeType = true := by
  have suited := List.find?_some first
  exact suited

theorem firstSuitable?_isSome_iff {suits : NodeId → NodeTypeId → Bool}
    {parentType : Option NodeTypeId} {id : NodeId} :
    (profile.firstSuitable? tree suits parentType id).isSome = true ↔
      ∃ candidate ∈ profile.candidates tree parentType id,
        suits id candidate.nodeType = true := by
  rw [firstSuitable?, List.find?_isSome]

/-- The first suitable candidate only depends on what is said of the types that accept the
node's file kind. -/
theorem firstSuitable?_congr {first second : NodeId → NodeTypeId → Bool} {id : NodeId}
    (same : ∀ type ∈ profile.typesForKind (tree.fileKind id), first id type = second id type)
    (parentType : Option NodeTypeId) :
    profile.firstSuitable? tree first parentType id =
      profile.firstSuitable? tree second parentType id := by
  refine List.find?_congr fun candidate member => ?_
  exact same candidate.nodeType (mem_candidates_iff.1 member).2.1

/-! ## The recursion -/

/-- Whether a type fits only depends on the file kind, the active children and what is chosen first
for each of them. -/
theorem fits_eq_of_firstSuitable?_eq {other : ContentTree}
    {suits otherSuits : NodeId → NodeTypeId → Bool} {id : NodeId} {type : NodeTypeId}
    (sameKind : tree.fileKind id = other.fileKind id)
    (sameChildren : tree.activeChildren id = other.activeChildren id)
    (sameFirst : ∀ child ∈ tree.activeChildren id,
      profile.firstSuitable? tree suits (some type) child =
        profile.firstSuitable? other otherSuits (some type) child) :
    profile.fits tree suits id type = profile.fits other otherSuits id type := by
  have sameAll :
      ((tree.activeChildren id).all fun child =>
          (profile.firstSuitable? tree suits (some type) child).isSome) =
        (tree.activeChildren id).all fun child =>
          (profile.firstSuitable? other otherSuits (some type) child).isSome := by
    rw [Bool.eq_iff_iff, List.all_eq_true, List.all_eq_true]
    exact forall₂_congr fun child member => by rw [sameFirst child member]
  have sameEdges :
      ((tree.activeChildren id).filterMap fun child =>
          (profile.firstSuitable? tree suits (some type) child).map Candidate.edge) =
        (tree.activeChildren id).filterMap fun child =>
          (profile.firstSuitable? other otherSuits (some type) child).map Candidate.edge :=
    List.filterMap_congr fun child member => by rw [sameFirst child member]
  rw [fits, fits, ← sameKind, ← sameChildren, sameAll, sameEdges]

theorem fits_congr {first second : NodeId → NodeTypeId → Bool} {id : NodeId}
    (same : ∀ child ∈ tree.activeChildren id,
      ∀ type ∈ profile.typesForKind (tree.fileKind child), first child type = second child type)
    (type : NodeTypeId) :
    profile.fits tree first id type = profile.fits tree second id type :=
  fits_eq_of_firstSuitable?_eq rfl rfl fun child member =>
    firstSuitable?_congr (same child member) (some type)

theorem fits_iff {suits : NodeId → NodeTypeId → Bool} {id : NodeId} {type : NodeTypeId} :
    profile.fits tree suits id type = true ↔
      type ∈ profile.typesForKind (tree.fileKind id) ∧
        (∀ child ∈ tree.activeChildren id,
          ∃ candidate ∈ profile.candidates tree (some type) child,
            suits child candidate.nodeType = true) ∧
        profile.brokenChildConstraints type
          ((tree.activeChildren id).filterMap fun child =>
            (profile.firstSuitable? tree suits (some type) child).map Candidate.edge) = [] := by
  simp only [fits, Bool.and_eq_true, List.contains_iff_mem, List.all_eq_true,
    firstSuitable?_isSome_iff, List.isEmpty_iff, and_assoc]

/-- More steps than the tree is deep make no difference. -/
theorem viableWithin_eq (wellFormed : tree.WellFormed) {first second : Nat} {id : NodeId}
    (active : tree.isActive id = true)
    (firstEnough : tree.nodes.size ≤ first + tree.depth id)
    (secondEnough : tree.nodes.size ≤ second + tree.depth id) (type : NodeTypeId) :
    profile.viableWithin tree first id type = profile.viableWithin tree second id type := by
  have bound := wellFormed.depth_lt (ContentTree.contains_of_isActive active)
  -- Each step goes down one level, and no node lies deeper than there are slots.
  induction first generalizing second id type with
  | zero =>
      omega
  | succ first inductionHypothesis =>
      cases second with
      | zero =>
          omega
      | succ second =>
          rw [viableWithin, viableWithin]
          refine fits_congr (fun child member childType _ => ?_) type
          have childActive := ContentTree.isActive_of_mem_activeChildren member
          have childDepth := wellFormed.depth_activeChild member
          exact inductionHypothesis childActive (by omega) (by omega) childType
            (wellFormed.depth_lt (ContentTree.contains_of_isActive childActive))

theorem viable_eq_fits (wellFormed : tree.WellFormed) (id : NodeId) (type : NodeTypeId) :
    profile.viable tree id type = profile.fits tree (profile.viable tree) id type := by
  rw [viable, viableWithin]
  refine fits_congr (fun child member childType _ => ?_) type
  have childActive := ContentTree.isActive_of_mem_activeChildren member
  have childDepth := wellFormed.depth_activeChild member
  exact viableWithin_eq wellFormed childActive (by omega) (by omega) childType

/-- The recursive definition of viability. -/
theorem viable_iff (wellFormed : tree.WellFormed) {id : NodeId} {type : NodeTypeId} :
    profile.viable tree id type = true ↔
      type ∈ profile.typesForKind (tree.fileKind id) ∧
        (∀ child ∈ tree.activeChildren id,
          ∃ candidate ∈ profile.candidates tree (some type) child,
            profile.viable tree child candidate.nodeType = true) ∧
        profile.brokenChildConstraints type
          ((tree.activeChildren id).filterMap fun child =>
            (profile.firstViable? tree (some type) child).map Candidate.edge) = [] := by
  rw [viable_eq_fits wellFormed, fits_iff]
  rfl

/-- On active nodes nothing but viability satisfies the recursion. -/
theorem eq_viable_of_eq_fits (wellFormed : tree.WellFormed) {suits : NodeId → NodeTypeId → Bool}
    (recursive : ∀ id, tree.isActive id = true → ∀ type,
      suits id type = profile.fits tree suits id type)
    {id : NodeId} (active : tree.isActive id = true) (type : NodeTypeId) :
    suits id type = profile.viable tree id type := by
  refine wellFormed.active_induction
    (motive := fun id => ∀ type, suits id type = profile.viable tree id type) ?_ active type
  intro id active inductionHypothesis type
  rw [recursive id active, viable_eq_fits wellFormed]
  exact fits_congr (fun child member childType _ => inductionHypothesis child member childType)
    type

/-! ## The table -/

def tableSuits (table : Viability) (id : NodeId) (type : NodeTypeId) : Bool :=
  table.getD (id, type) false

theorem suits_eq_fits (table : Viability) {id : NodeId} {type : NodeTypeId}
    (accepted : type ∈ profile.typesForKind (tree.fileKind id)) :
    profile.suits tree table id type = profile.fits tree (tableSuits table) id type := by
  have contained : (profile.typesForKind (tree.fileKind id)).contains type = true :=
    List.contains_iff_mem.2 accepted
  have sameChoice : profile.choose? tree table (some type) =
      profile.firstSuitable? tree (tableSuits table) (some type) := rfl
  rw [suits, mapM_option_eq_ite, sameChoice, fits, contained, Bool.true_and]
  cases all : (tree.activeChildren id).all fun child =>
      (profile.firstSuitable? tree (tableSuits table) (some type) child).isSome with
  | false =>
      simp
  | true =>
      simp [List.map_filterMap]

theorem tableSuits_insert (table : Viability) (id other : NodeId) (type tested : NodeTypeId)
    (answer : Bool) :
    tableSuits (table.insert (id, type) answer) other tested =
      if other = id ∧ tested = type then answer else tableSuits table other tested := by
  rw [tableSuits, Std.HashMap.getD_insert, tableSuits]
  refine if_congr ?_ rfl rfl
  rw [beq_iff_eq, Prod.mk.injEq]
  exact and_congr eq_comm eq_comm

/-- The entries made for a node type by type. While they are made, the entries for its active
children stay those of the table at the beginning. -/
private theorem tableSuits_foldl_insert (base : Viability) {id : NodeId}
    (notItself : id ∉ tree.activeChildren id) (other : NodeId) (tested : NodeTypeId) :
    ∀ (types : List NodeTypeId) (table : Viability),
      (∀ type ∈ types, type ∈ profile.typesForKind (tree.fileKind id)) →
      (∀ child ∈ tree.activeChildren id, ∀ type,
        tableSuits table child type = tableSuits base child type) →
      tableSuits
          (types.foldl (fun noted type =>
            noted.insert (id, type) (profile.suits tree noted id type)) table) other tested =
        if other = id ∧ tested ∈ types then profile.fits tree (tableSuits base) id tested
        else tableSuits table other tested
  | [], table, _, _ => by
      simp
  | type :: types, table, accepted, sameChildren => by
      have typeAccepted := accepted type List.mem_cons_self
      have answer : profile.suits tree table id type =
          profile.fits tree (tableSuits base) id type := by
        rw [suits_eq_fits table typeAccepted]
        exact fits_congr (fun child member childType _ => sameChildren child member childType)
          type
      rw [List.foldl_cons, answer]
      -- The new entry is the node's own, and answers are only looked up for its children.
      have childrenKept : ∀ child ∈ tree.activeChildren id, ∀ childType,
          tableSuits (table.insert (id, type)
              (profile.fits tree (tableSuits base) id type)) child childType =
            tableSuits base child childType := by
        intro child member childType
        have different : child ≠ id := by
          rintro rfl
          exact notItself member
        rw [tableSuits_insert, if_neg fun same => different same.1]
        exact sameChildren child member childType
      rw [tableSuits_foldl_insert base notItself other tested types _
        (fun later member => accepted later (List.mem_cons_of_mem type member)) childrenKept,
        tableSuits_insert]
      by_cases sameNode : other = id
      · by_cases sameType : tested = type
        · subst sameType
          simp [sameNode]
        · simp [sameNode, sameType]
      · simp [sameNode]

/-- Entering a node notes, for the types that accept its file kind, whether they fit by the
entries for its children, and leaves all other entries alone. -/
theorem tableSuits_noteNode (table : Viability) {id : NodeId}
    (notItself : id ∉ tree.activeChildren id) (other : NodeId) (type : NodeTypeId) :
    tableSuits (profile.noteNode tree table id) other type =
      if other = id ∧ type ∈ profile.typesForKind (tree.fileKind id)
      then profile.fits tree (tableSuits table) id type
      else tableSuits table other type :=
  tableSuits_foldl_insert table notItself other type _ table (fun _ member => member)
    fun _ _ _ => rfl

/-- Entering the nodes, the last one first, leaves the right answers for them and for the types
that accept their file kinds, and all other entries alone. -/
def EnteredRight (profile : DomainProfile) (tree : ContentTree) (ids : List NodeId) : Prop :=
  ∀ (table : Viability) (id : NodeId) (type : NodeTypeId),
    tableSuits (ids.foldr (fun entered noted => profile.noteNode tree noted entered) table) id type =
      if id ∈ ids ∧ type ∈ profile.typesForKind (tree.fileKind id) then profile.viable tree id type
      else tableSuits table id type

theorem EnteredRight.append {first second : List NodeId}
    (firstRight : profile.EnteredRight tree first)
    (secondRight : profile.EnteredRight tree second) :
    profile.EnteredRight tree (first ++ second) := by
  intro table id type
  rw [List.foldr_append, firstRight, secondRight]
  by_cases accepted : type ∈ profile.typesForKind (tree.fileKind id)
  · by_cases here : id ∈ first
    · simp [here, accepted]
    · simp [here, accepted]
  · simp [accepted]

theorem EnteredRight.flatMap {ids : List NodeId} {below : NodeId → List NodeId}
    (belowRight : ∀ id ∈ ids, profile.EnteredRight tree (below id)) :
    profile.EnteredRight tree (ids.flatMap below) := by
  induction ids with
  | nil =>
      intro table id type
      simp
  | cons id ids inductionHypothesis =>
      have rest := inductionHypothesis fun later member =>
        belowRight later (List.mem_cons_of_mem id member)
      rw [List.flatMap_cons]
      exact (belowRight id List.mem_cons_self).append rest

/-- The active subtree of a node is entered right: its children come after it in the list, so that
their entries are there when it is entered. -/
theorem enteredRight_activeSubtree (wellFormed : tree.WellFormed) {start : NodeId}
    (active : tree.isActive start = true) :
    profile.EnteredRight tree (tree.activeSubtree start) := by
  refine wellFormed.active_induction
    (motive := fun start => profile.EnteredRight tree (tree.activeSubtree start)) ?_ active
  intro start active inductionHypothesis table id type
  have below := EnteredRight.flatMap inductionHypothesis table
  have notItself : start ∉ tree.activeChildren start := by
    intro member
    have deeper := wellFormed.depth_activeChild member
    omega
  rw [wellFormed.activeSubtree_eq active, List.foldr_cons, tableSuits_noteNode _ notItself]
  by_cases here : id = start
  · subst here
    by_cases accepted : type ∈ profile.typesForKind (tree.fileKind id)
    · rw [if_pos ⟨rfl, accepted⟩, if_pos ⟨List.mem_cons_self, accepted⟩,
        viable_eq_fits wellFormed]
      refine fits_congr (fun child member childType childAccepted => ?_) type
      have childListed : child ∈ (tree.activeChildren id).flatMap tree.activeSubtree :=
        List.mem_flatMap.2 ⟨child, member,
          wellFormed.mem_activeSubtree_self
            (ContentTree.isActive_of_mem_activeChildren member)⟩
      rw [below, if_pos ⟨childListed, childAccepted⟩]
    · rw [if_neg fun both => accepted both.2, if_neg fun both => accepted both.2, below,
        if_neg fun both => accepted both.2]
  · rw [if_neg fun both => here both.1, below]
    refine if_congr ?_ rfl rfl
    simp [here]

/-- The table for a subtree gives the recursive answer for its nodes. -/
theorem choose?_viability (wellFormed : tree.WellFormed) {start id : NodeId}
    (listed : id ∈ tree.activeSubtree start) (parentType : Option NodeTypeId) :
    profile.choose? tree (profile.viability tree start) parentType id =
      profile.firstViable? tree parentType id := by
  have active := ContentTree.isActive_start_of_mem_activeSubtree listed
  have sameAnswers : ∀ type ∈ profile.typesForKind (tree.fileKind id),
      tableSuits (profile.viability tree start) id type = profile.viable tree id type := by
    intro type accepted
    rw [viability, List.foldl_reverse, enteredRight_activeSubtree wellFormed active,
      if_pos ⟨listed, accepted⟩]
  exact firstSuitable?_congr sameAnswers parentType

end DomainProfile

end ContentTyping

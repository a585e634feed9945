import Mathlib.Data.List.Perm.Basic
import ContentTyping.Proofs.Plan.FirstChoice

/-!
# Best choices

When no plan covers a subtree, every node of it is decided for its first viable candidate below the
type decided for its parent, else for the first candidate there is, and left undecided when there is
none or when its parent was left. The two ways in which a blocked plan goes down the tree, keeping a
subtree as a whole or node by node, both follow this one choice.
-/

namespace ContentTyping.DomainProfile

open ContentTree

/-- The first viable candidate, or the first candidate when none is viable. -/
def bestCandidate? (profile : DomainProfile) (tree : ContentTree) (parentType : Option NodeTypeId)
    (id : NodeId) : Option Candidate :=
  (profile.firstViable? tree parentType id).or (profile.candidates tree parentType id).head?

/-- Every node of the active subtree is given its best candidate below the type that was chosen for
its parent, and none below a parent without one. -/
structure BestChoice (profile : DomainProfile) (tree : ContentTree) (start : NodeId)
    (parentType : Option NodeTypeId) (choice : NodeId → Option Candidate) : Prop where
  atStart : choice start = profile.bestCandidate? tree parentType start
  atChild : ∀ id ∈ tree.activeSubtree start, ∀ child ∈ tree.activeChildren id,
    choice child =
      (choice id).bind fun above => profile.bestCandidate? tree (some above.nodeType) child

/-- The placements of a choice over an active subtree, where it makes one. -/
def decidedBy (tree : ContentTree) (start : NodeId) (choice : NodeId → Option Candidate) :
    List Placement :=
  (tree.activeSubtree start).filterMap fun id => (choice id).map fun candidate => candidate.at id

/-- The nodes of an active subtree for which a choice has nothing. -/
def undecidedBy (tree : ContentTree) (start : NodeId) (choice : NodeId → Option Candidate) :
    List NodeId :=
  (tree.activeSubtree start).filter fun id => (choice id).isNone

variable {profile : DomainProfile} {tree : ContentTree} {start : NodeId}
  {parentType : Option NodeTypeId} {choice : NodeId → Option Candidate}

theorem bestCandidate?_of_firstViable? {id : NodeId} {candidate : Candidate}
    (first : profile.firstViable? tree parentType id = some candidate) :
    profile.bestCandidate? tree parentType id = some candidate := by
  rw [bestCandidate?, first, Option.some_or]

theorem bestCandidate?_of_not_viable {id : NodeId}
    (notViable : profile.firstViable? tree parentType id = none) :
    profile.bestCandidate? tree parentType id =
      (profile.candidates tree parentType id).head? := by
  rw [bestCandidate?, notViable, Option.none_or]

theorem mem_candidates_of_bestCandidate? {id : NodeId} {candidate : Candidate}
    (best : profile.bestCandidate? tree parentType id = some candidate) :
    candidate ∈ profile.candidates tree parentType id := by
  rw [bestCandidate?, Option.or_eq_some_iff] at best
  rcases best with first | ⟨_, first⟩
  · exact mem_candidates_of_firstSuitable? first
  · exact List.mem_of_head? first

theorem bestCandidate?_eq_none_iff {id : NodeId} :
    profile.bestCandidate? tree parentType id = none ↔
      profile.candidates tree parentType id = [] := by
  rw [bestCandidate?, Option.or_eq_none_iff, List.head?_eq_none_iff]
  constructor
  · intro both
    exact both.2
  · intro noCandidates
    refine ⟨?_, noCandidates⟩
    rw [firstViable?, firstSuitable?, noCandidates, List.find?_nil]

/-! ## What is decided -/

theorem decidedBy_nodes (tree : ContentTree) (start : NodeId)
    (choice : NodeId → Option Candidate) :
    (decidedBy tree start choice).map Placement.node =
      (tree.activeSubtree start).filter fun id => (choice id).isSome := by
  rw [decidedBy, List.map_filterMap, ← List.filterMap_eq_filter]
  refine List.filterMap_congr fun id _ => ?_
  cases chosen : choice id with
  | none => simp [Option.guard, chosen]
  | some candidate => simp [Option.guard, chosen, Candidate.at]

/-- Every node is either decided or not, and none of them twice. -/
theorem decided_append_undecided_perm (tree : ContentTree) (start : NodeId)
    (choice : NodeId → Option Candidate) :
    ((decidedBy tree start choice).map Placement.node ++ undecidedBy tree start choice).Perm
      (tree.activeSubtree start) := by
  have partition := List.filter_append_perm (fun id => (choice id).isSome)
    (tree.activeSubtree start)
  simp only [Option.not_isSome] at partition
  rw [decidedBy_nodes, undecidedBy]
  exact partition

theorem decidedBy_eq_cons (wellFormed : tree.WellFormed) (active : tree.isActive start = true)
    {candidate : Candidate} (chosen : choice start = some candidate) :
    decidedBy tree start choice =
      candidate.at start ::
        (tree.activeChildren start).flatMap fun child => decidedBy tree child choice := by
  rw [decidedBy, wellFormed.activeSubtree_eq active, List.filterMap_cons_some (by rw [chosen]; rfl),
    List.filterMap_flatMap]
  rfl

theorem undecidedBy_eq_flatMap (wellFormed : tree.WellFormed)
    (active : tree.isActive start = true) {candidate : Candidate}
    (chosen : choice start = some candidate) :
    undecidedBy tree start choice =
      (tree.activeChildren start).flatMap fun child => undecidedBy tree child choice := by
  rw [undecidedBy, wellFormed.activeSubtree_eq active,
    List.filter_cons_of_neg (by simp [chosen]), List.filter_flatMap]
  rfl

theorem exists_bestChoice (wellFormed : tree.WellFormed) (start : NodeId)
    (parentType : Option NodeTypeId) :
    ∃ choice, profile.BestChoice tree start parentType choice := by
  let initial := profile.bestCandidate? tree parentType start
  let next (above : Option Candidate) (id : NodeId) : Option Candidate :=
    above.bind fun candidate => profile.bestCandidate? tree (some candidate.nodeType) id
  refine ⟨tree.handedDown start initial next, handedDown_start start initial next, ?_⟩
  intro id listed child member
  exact wellFormed.handedDown_child listed member initial next

namespace BestChoice

theorem below (wellFormed : tree.WellFormed)
    (isBest : profile.BestChoice tree start parentType choice) {id child : NodeId}
    (listed : id ∈ tree.activeSubtree start) (member : child ∈ tree.activeChildren id)
    {candidate : Candidate} (chosen : choice id = some candidate) :
    profile.BestChoice tree child (some candidate.nodeType) choice where
  atStart := by
    rw [isBest.atChild id listed child member, chosen, Option.bind_some]
  atChild := by
    intro inner innerListed grandchild innerMember
    have childListed := wellFormed.mem_activeSubtree_of_mem_activeChildren listed member
    have innerBelow := wellFormed.mem_activeSubtree_trans childListed innerListed
    exact isBest.atChild inner innerBelow grandchild innerMember

/-- Below a node without a candidate nothing is decided. -/
theorem eq_none_of_start (wellFormed : tree.WellFormed)
    (isBest : profile.BestChoice tree start parentType choice) (undecided : choice start = none) :
    ∀ id ∈ tree.activeSubtree start, choice id = none := by
  intro id listed
  refine wellFormed.activeSubtree_induction (motive := fun id => choice id = none)
    (isActive_start_of_mem_activeSubtree listed) undecided ?_ id listed
  intro parent parentListed parentUndecided child member
  rw [isBest.atChild parent parentListed child member, parentUndecided, Option.bind_none]

/-- Where the subtree can be typed as a whole, the best choice is the first choice. -/
theorem eq_firstChoice (wellFormed : tree.WellFormed)
    (isBest : profile.BestChoice tree start parentType choice) {first : NodeId → Candidate}
    (isFirst : profile.FirstChoice tree start parentType first) :
    ∀ id ∈ tree.activeSubtree start, choice id = some (first id) := by
  intro id listed
  refine wellFormed.activeSubtree_induction (motive := fun id => choice id = some (first id))
    (isActive_start_of_mem_activeSubtree listed) ?_ ?_ id listed
  · rw [isBest.atStart]
    exact bestCandidate?_of_firstViable? isFirst.atStart
  · intro parent parentListed parentChosen child member
    rw [isBest.atChild parent parentListed child member, parentChosen, Option.bind_some]
    exact bestCandidate?_of_firstViable? (isFirst.atChild parent parentListed child member)

theorem decidedBy_eq_placementsOf (wellFormed : tree.WellFormed)
    (isBest : profile.BestChoice tree start parentType choice) {first : NodeId → Candidate}
    (isFirst : profile.FirstChoice tree start parentType first) :
    decidedBy tree start choice = placementsOf tree start first := by
  rw [decidedBy, placementsOf, ← List.filterMap_eq_map]
  refine List.filterMap_congr fun id listed => ?_
  rw [isBest.eq_firstChoice wellFormed isFirst id listed]
  rfl

theorem undecidedBy_eq_nil (wellFormed : tree.WellFormed)
    (isBest : profile.BestChoice tree start parentType choice) {first : NodeId → Candidate}
    (isFirst : profile.FirstChoice tree start parentType first) :
    undecidedBy tree start choice = [] := by
  refine List.filter_eq_nil_iff.2 fun id listed => ?_
  rw [isBest.eq_firstChoice wellFormed isFirst id listed]
  simp

end BestChoice

/-! ## Blocked plans -/

/-- Typing what can be typed follows the best choice. The table is that of a larger subtree. -/
theorem bestEffort_eq (wellFormed : tree.WellFormed) {top : NodeId}
    (listed : start ∈ tree.activeSubtree top) {parentType : Option NodeTypeId}
    (isBest : profile.BestChoice tree start parentType choice) {steps : Nat}
    (enough : tree.nodes.size ≤ steps + tree.depth start) :
    profile.bestEffort tree (profile.viability tree top) steps parentType start =
      (decidedBy tree start choice, undecidedBy tree start choice) := by
  have active := isActive_of_mem_activeSubtree listed
  revert listed parentType steps
  refine wellFormed.active_induction
    (motive := fun start => start ∈ tree.activeSubtree top →
      ∀ {parentType : Option NodeTypeId},
        profile.BestChoice tree start parentType choice →
        ∀ {steps : Nat}, tree.nodes.size ≤ steps + tree.depth start →
          profile.bestEffort tree (profile.viability tree top) steps parentType start =
            (decidedBy tree start choice, undecidedBy tree start choice)) ?_ active
  -- One step is used for each level, so a child is reached with as many as its depth leaves.
  intro start active inductionHypothesis listed parentType isBest steps enough
  have bound := wellFormed.depth_lt (contains_of_isActive active)
  have startListed := wellFormed.mem_activeSubtree_self active
  cases steps with
  | zero =>
      omega
  | succ steps =>
      rw [bestEffort, choose?_viability wellFormed listed]
      cases viable : profile.firstViable? tree parentType start with
      | some chosen =>
          obtain ⟨first, isFirst⟩ := exists_firstChoice wellFormed active viable
          obtain rfl : chosen = first start :=
            Option.some.inj (viable.symm.trans isFirst.atStart)
          rw [isBest.decidedBy_eq_placementsOf wellFormed isFirst,
            isBest.undecidedBy_eq_nil wellFormed isFirst]
          exact congrArg (·, []) (collect_eq wellFormed listed isFirst enough)
      | none =>
          have atStart := isBest.atStart.trans (bestCandidate?_of_not_viable viable)
          cases candidates : profile.candidates tree parentType start with
          | nil =>
              rw [candidates, List.head?_nil] at atStart
              have undecided := isBest.eq_none_of_start wellFormed atStart
              have nothing : decidedBy tree start choice = [] :=
                List.filterMap_eq_nil_iff.2 fun id member => by rw [undecided id member]; rfl
              have everything : undecidedBy tree start choice = tree.activeSubtree start :=
                List.filter_eq_self.2 fun id member => by rw [undecided id member]; rfl
              rw [nothing, everything]
          | cons first rest =>
              -- The first candidate is taken, although not all below it can be typed.
              rw [candidates, List.head?_cons] at atStart
              rw [decidedBy_eq_cons wellFormed active atStart,
                undecidedBy_eq_flatMap wellFormed active atStart]
              simp only [List.flatMap_map]
              have each : ∀ child ∈ tree.activeChildren start,
                  profile.bestEffort tree (profile.viability tree top) steps
                      (some first.nodeType) child =
                    (decidedBy tree child choice, undecidedBy tree child choice) := by
                intro child member
                have childDepth := wellFormed.depth_activeChild member
                exact inductionHypothesis child member
                  (wellFormed.mem_activeSubtree_of_mem_activeChildren listed member)
                  (isBest.below wellFormed startListed member atStart) (by omega)
              refine Prod.ext (congrArg (List.cons (first.at start)) ?_) ?_
              · exact List.flatMap_congr fun child member => congrArg Prod.fst (each child member)
              · exact List.flatMap_congr fun child member => congrArg Prod.snd (each child member)

theorem eq_of_plan_eq_blocked (wellFormed : tree.WellFormed)
    (active : tree.isActive start = true)
    (isBest : profile.BestChoice tree start parentType choice) {placements : List Placement}
    {untyped : List NodeId} {ending : NodeId} {obstacle : Obstacle}
    (blocked : profile.plan tree start parentType =
      .blocked placements untyped ending obstacle) :
    placements = decidedBy tree start choice ∧ untyped = undecidedBy tree start choice := by
  have effort := bestEffort_eq wellFormed (wellFormed.mem_activeSubtree_self active) isBest
    (show tree.nodes.size ≤ tree.nodes.size + 1 + tree.depth start by omega)
  rw [plan] at blocked
  split at blocked
  · exact absurd blocked (by simp)
  · rw [effort] at blocked
    injection blocked with samePlacements sameUntyped
    exact ⟨samePlacements.symm, sameUntyped.symm⟩

theorem contains_diagnose {table : Viability} {steps : Nat} {id : NodeId}
    (live : tree.contains id = true) :
    tree.contains (profile.diagnose tree table steps parentType id).1 = true := by
  induction steps generalizing parentType id with
  | zero =>
      exact live
  | succ steps inductionHypothesis =>
      rw [diagnose]
      split
      · exact live
      · dsimp only
        split
        next child stuck =>
            have member := List.mem_of_find?_eq_some stuck
            exact inductionHypothesis (contains_of_mem_activeChildren member)
        · exact live

/-- Without a viable candidate for the start the plan is blocked, at a node that is there. -/
theorem exists_blocked_of_not_viable (wellFormed : tree.WellFormed)
    (active : tree.isActive start = true)
    (notViable : profile.firstViable? tree parentType start = none) :
    ∃ placements untyped ending obstacle, tree.contains ending = true ∧
      profile.plan tree start parentType = .blocked placements untyped ending obstacle := by
  have startListed := wellFormed.mem_activeSubtree_self active
  rw [plan, choose?_viability wellFormed startListed, notViable]
  exact ⟨_, _, _, _, contains_diagnose (contains_of_isActive active), rfl⟩

end ContentTyping.DomainProfile

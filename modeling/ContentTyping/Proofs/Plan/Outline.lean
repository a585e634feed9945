import ContentTyping.Proofs.Plan.FirstChoice

/-!
# Outlines

A plan looks at the children, the file kind and the ignored flag of the nodes of a subtree, and at
nothing else. Two trees in which these are the same are planned alike, whatever types, relations
and objects they record.
-/

namespace ContentTyping

/-- The children of a node, its file kind, and whether it is ignored. -/
def Node.outline (node : Node) : List NodeId × Option FileKind × Bool :=
  (node.children, node.fileKind, node.ignored)

namespace ContentTree

/-- At the start and below it the trees have the same outline. -/
def SameOutline (first second : ContentTree) (start : NodeId) : Prop :=
  ∀ id, Below first start id →
    (first.get? id).map Node.outline = (second.get? id).map Node.outline

namespace SameOutline

variable {first second : ContentTree} {start : NodeId}

theorem fileKind (same : SameOutline first second start) :
    first.fileKind start = second.fileKind start := by
  have sameStart := same start .self
  cases found : first.get? start <;> cases otherFound : second.get? start <;>
    simp_all [Node.outline, ContentTree.fileKind]

theorem isActive (same : SameOutline first second start) :
    first.isActive start = second.isActive start := by
  have sameStart := same start .self
  cases found : first.get? start <;> cases otherFound : second.get? start <;>
    simp_all [Node.outline, ContentTree.isActive]

theorem children (same : SameOutline first second start) :
    first.children start = second.children start := by
  have sameStart := same start .self
  cases found : first.get? start <;> cases otherFound : second.get? start <;>
    simp_all [Node.outline, ContentTree.children]

theorem below (same : SameOutline first second start) {id : NodeId}
    (upper : Below first start id) : SameOutline first second id :=
  fun inner lower => same inner (upper.trans lower)

theorem child (wellFormed : first.WellFormed) (same : SameOutline first second start)
    {child : NodeId} (member : child ∈ first.children start) :
    SameOutline first second child :=
  same.below (.child (wellFormed.parent_of_child start child member) .self)

theorem activeChildren (wellFormed : first.WellFormed)
    (same : SameOutline first second start) :
    first.activeChildren start = second.activeChildren start := by
  rw [ContentTree.activeChildren, ContentTree.activeChildren, ← same.children]
  exact List.filter_congr fun child member => (same.child wellFormed member).isActive

theorem activeChild (wellFormed : first.WellFormed) (same : SameOutline first second start)
    {child : NodeId} (member : child ∈ first.activeChildren start) :
    SameOutline first second child :=
  same.child wellFormed (mem_children_of_mem_activeChildren member)

theorem activeSubtree (wellFormed : first.WellFormed) (otherWellFormed : second.WellFormed)
    (same : SameOutline first second start) :
    first.activeSubtree start = second.activeSubtree start := by
  cases active : first.isActive start with
  | false =>
      have otherInactive : second.isActive start = false := by rw [← same.isActive, active]
      rw [activeSubtree_of_not_isActive active, activeSubtree_of_not_isActive otherInactive]
  | true =>
      revert same
      refine wellFormed.active_induction
        (motive := fun start => SameOutline first second start →
          first.activeSubtree start = second.activeSubtree start) ?_ active
      intro start active inductionHypothesis same
      have otherActive : second.isActive start = true := by rw [← same.isActive, active]
      rw [wellFormed.activeSubtree_eq active, otherWellFormed.activeSubtree_eq otherActive,
        ← same.activeChildren wellFormed]
      refine congrArg (List.cons start) (List.flatMap_congr fun child member => ?_)
      exact inductionHypothesis child member (same.activeChild wellFormed member)

end SameOutline

end ContentTree

namespace DomainProfile

open ContentTree

variable {profile : DomainProfile} {first second : ContentTree} {start : NodeId}

theorem candidates_eq_of_sameOutline (same : SameOutline first second start)
    (parentType : Option NodeTypeId) :
    profile.candidates first parentType start =
      profile.candidates second parentType start := by
  have sameStart := same start .self
  cases found : first.get? start <;> cases otherFound : second.get? start <;>
    simp_all [Node.outline, candidates]

theorem viable_eq_of_sameOutline (wellFormed : first.WellFormed)
    (otherWellFormed : second.WellFormed) (active : first.isActive start = true)
    (same : SameOutline first second start) (type : NodeTypeId) :
    profile.viable first start type = profile.viable second start type := by
  revert same type
  refine wellFormed.active_induction
    (motive := fun start => SameOutline first second start →
      ∀ type, profile.viable first start type = profile.viable second start type) ?_ active
  intro start active inductionHypothesis same type
  rw [viable_eq_fits wellFormed, viable_eq_fits otherWellFormed]
  refine fits_eq_of_firstSuitable?_eq same.fileKind (same.activeChildren wellFormed) ?_
  intro child member
  have sameChild := same.activeChild wellFormed member
  rw [firstSuitable?, firstSuitable?, candidates_eq_of_sameOutline sameChild]
  exact List.find?_congr fun candidate _ =>
    inductionHypothesis child member sameChild candidate.nodeType

theorem firstViable?_eq_of_sameOutline (wellFormed : first.WellFormed)
    (otherWellFormed : second.WellFormed) (active : first.isActive start = true)
    (same : SameOutline first second start) (parentType : Option NodeTypeId) :
    profile.firstViable? first parentType start =
      profile.firstViable? second parentType start := by
  rw [firstViable?, firstViable?, firstSuitable?, firstSuitable?,
    candidates_eq_of_sameOutline same]
  exact List.find?_congr fun candidate _ =>
    viable_eq_of_sameOutline wellFormed otherWellFormed active same candidate.nodeType

theorem FirstChoice.of_sameOutline (wellFormed : first.WellFormed)
    (otherWellFormed : second.WellFormed) (active : first.isActive start = true)
    (same : SameOutline first second start) {parentType : Option NodeTypeId}
    {choice : NodeId → Candidate}
    (isFirst : profile.FirstChoice first start parentType choice) :
    profile.FirstChoice second start parentType choice where
  atStart := by
    rw [← firstViable?_eq_of_sameOutline wellFormed otherWellFormed active same]
    exact isFirst.atStart
  atChild := by
    intro id listed child member
    rw [← same.activeSubtree wellFormed otherWellFormed] at listed
    have sameHere := same.below (wellFormed.below_of_mem_activeSubtree active listed)
    rw [← sameHere.activeChildren wellFormed] at member
    rw [← firstViable?_eq_of_sameOutline wellFormed otherWellFormed
      (isActive_of_mem_activeChildren member) (sameHere.activeChild wellFormed member)]
    exact isFirst.atChild id listed child member

section Search

variable (wellFormed : first.WellFormed) (otherWellFormed : second.WellFormed)
  (same : SameOutline first second start)

include wellFormed otherWellFormed same

theorem choose?_eq_of_sameOutline {id : NodeId} (listed : id ∈ first.activeSubtree start)
    (parentType : Option NodeTypeId) :
    profile.choose? first (profile.viability first start) parentType id =
      profile.choose? second (profile.viability second start) parentType id := by
  have otherListed := listed
  rw [same.activeSubtree wellFormed otherWellFormed] at otherListed
  have active := isActive_start_of_mem_activeSubtree listed
  rw [choose?_viability wellFormed listed, choose?_viability otherWellFormed otherListed]
  exact firstViable?_eq_of_sameOutline wellFormed otherWellFormed
    (isActive_of_mem_activeSubtree listed)
    (same.below (wellFormed.below_of_mem_activeSubtree active listed)) parentType

theorem collect_eq_of_sameOutline {id : NodeId} (listed : id ∈ first.activeSubtree start)
    {parentType : Option NodeTypeId} {chosen : Candidate}
    (found : profile.choose? first (profile.viability first start) parentType id = some chosen)
    {steps otherSteps : Nat} (enough : first.nodes.size ≤ steps + first.depth id)
    (otherEnough : second.nodes.size ≤ otherSteps + second.depth id) :
    profile.collect first (profile.viability first start) steps chosen id =
      profile.collect second (profile.viability second start) otherSteps chosen id := by
  have active := isActive_start_of_mem_activeSubtree listed
  have idActive := isActive_of_mem_activeSubtree listed
  have sameHere := same.below (wellFormed.below_of_mem_activeSubtree active listed)
  have otherListed := listed
  rw [same.activeSubtree wellFormed otherWellFormed] at otherListed
  rw [choose?_viability wellFormed listed] at found
  obtain ⟨choice, isFirst⟩ := exists_firstChoice wellFormed idActive found
  obtain rfl : chosen = choice id := Option.some.inj (found.symm.trans isFirst.atStart)
  have otherIsFirst := isFirst.of_sameOutline wellFormed otherWellFormed idActive sameHere
  rw [collect_eq wellFormed listed isFirst enough,
    collect_eq otherWellFormed otherListed otherIsFirst otherEnough, placementsOf, placementsOf,
    sameHere.activeSubtree wellFormed otherWellFormed]

theorem bestEffort_eq_of_sameOutline {id : NodeId} (listed : id ∈ first.activeSubtree start)
    (parentType : Option NodeTypeId) {steps otherSteps : Nat}
    (enough : first.nodes.size ≤ steps + first.depth id)
    (otherEnough : second.nodes.size ≤ otherSteps + second.depth id) :
    profile.bestEffort first (profile.viability first start) steps parentType id =
      profile.bestEffort second (profile.viability second start) otherSteps parentType id := by
  induction steps generalizing otherSteps parentType id with
  | zero =>
      have bound := wellFormed.depth_lt (contains_of_mem_activeSubtree listed)
      omega
  | succ steps inductionHypothesis =>
      have active := isActive_start_of_mem_activeSubtree listed
      have idActive := isActive_of_mem_activeSubtree listed
      have sameHere := same.below (wellFormed.below_of_mem_activeSubtree active listed)
      cases otherSteps with
      | zero =>
          rw [sameHere.isActive] at idActive
          have bound := otherWellFormed.depth_lt (contains_of_isActive idActive)
          omega
      | succ otherSteps =>
          rw [bestEffort, bestEffort,
            ← choose?_eq_of_sameOutline wellFormed otherWellFormed same listed parentType,
            ← candidates_eq_of_sameOutline sameHere, ← sameHere.activeChildren wellFormed,
            ← sameHere.activeSubtree wellFormed otherWellFormed]
          cases found : profile.choose? first (profile.viability first start) parentType id with
          | some chosen =>
              simp only [collect_eq_of_sameOutline wellFormed otherWellFormed same listed found
                enough otherEnough]
          | none =>
              cases profile.candidates first parentType id with
              | nil =>
                  rfl
              | cons candidate candidates =>
                  have sameBelow :
                      (first.activeChildren id).map (profile.bestEffort first
                          (profile.viability first start) steps (some candidate.nodeType)) =
                        (first.activeChildren id).map (profile.bestEffort second
                          (profile.viability second start) otherSteps
                          (some candidate.nodeType)) := by
                    refine List.map_congr_left fun child member => ?_
                    have otherMember := member
                    rw [sameHere.activeChildren wellFormed] at otherMember
                    have childDepth := wellFormed.depth_activeChild member
                    have otherDepth := otherWellFormed.depth_activeChild otherMember
                    exact inductionHypothesis
                      (wellFormed.mem_activeSubtree_of_mem_activeChildren listed member) _
                      (by omega) (by omega)
                  simp only [sameBelow]

theorem diagnose_eq_of_sameOutline {id : NodeId} (listed : id ∈ first.activeSubtree start)
    (parentType : Option NodeTypeId) {steps otherSteps : Nat}
    (enough : first.nodes.size ≤ steps + first.depth id)
    (otherEnough : second.nodes.size ≤ otherSteps + second.depth id) :
    profile.diagnose first (profile.viability first start) steps parentType id =
      profile.diagnose second (profile.viability second start) otherSteps parentType id := by
  induction steps generalizing otherSteps parentType id with
  | zero =>
      have bound := wellFormed.depth_lt (contains_of_mem_activeSubtree listed)
      omega
  | succ steps inductionHypothesis =>
      have active := isActive_start_of_mem_activeSubtree listed
      have idActive := isActive_of_mem_activeSubtree listed
      have sameHere := same.below (wellFormed.below_of_mem_activeSubtree active listed)
      cases otherSteps with
      | zero =>
          rw [sameHere.isActive] at idActive
          have bound := otherWellFormed.depth_lt (contains_of_isActive idActive)
          omega
      | succ otherSteps =>
          rw [diagnose, diagnose, ← candidates_eq_of_sameOutline sameHere,
            ← sameHere.activeChildren wellFormed]
          cases profile.candidates first parentType id with
          | nil =>
              have sameKind := sameHere.fileKind
              rw [ContentTree.fileKind, ContentTree.fileKind] at sameKind
              simp only [sameKind]
          | cons candidate candidates =>
              have sameStuck :
                  ((first.activeChildren id).find? fun child =>
                      (profile.choose? first (profile.viability first start)
                        (some candidate.nodeType) child).isNone) =
                    (first.activeChildren id).find? fun child =>
                      (profile.choose? second (profile.viability second start)
                        (some candidate.nodeType) child).isNone := by
                refine List.find?_congr fun child member => ?_
                rw [choose?_eq_of_sameOutline wellFormed otherWellFormed same
                  (wellFormed.mem_activeSubtree_of_mem_activeChildren listed member)]
              simp only [← sameStuck]
              cases stuck : (first.activeChildren id).find? fun child =>
                  (profile.choose? first (profile.viability first start)
                    (some candidate.nodeType) child).isNone with
              | none =>
                  rfl
              | some child =>
                  have member := List.mem_of_find?_eq_some stuck
                  have otherMember := member
                  rw [sameHere.activeChildren wellFormed] at otherMember
                  have childDepth := wellFormed.depth_activeChild member
                  have otherDepth := otherWellFormed.depth_activeChild otherMember
                  exact inductionHypothesis
                    (wellFormed.mem_activeSubtree_of_mem_activeChildren listed member) _
                    (by omega) (by omega)

/-- Trees of the same outline are planned alike, also where the plan is blocked. -/
theorem plan_eq_of_sameOutline (active : first.isActive start = true)
    (parentType : Option NodeTypeId) :
    profile.plan first start parentType = profile.plan second start parentType := by
  have listed := wellFormed.mem_activeSubtree_self active
  have enough : first.nodes.size ≤ first.nodes.size + 1 + first.depth start := by omega
  have otherEnough : second.nodes.size ≤ second.nodes.size + 1 + second.depth start := by omega
  rw [plan, plan, ← choose?_eq_of_sameOutline wellFormed otherWellFormed same listed parentType]
  cases found : profile.choose? first (profile.viability first start) parentType start with
  | none =>
      simp only [bestEffort_eq_of_sameOutline wellFormed otherWellFormed same listed parentType
          enough otherEnough,
        diagnose_eq_of_sameOutline wellFormed otherWellFormed same listed parentType enough
          otherEnough]
  | some chosen =>
      simp only [collect_eq_of_sameOutline wellFormed otherWellFormed same listed found enough
        otherEnough]

end Search

end DomainProfile

end ContentTyping

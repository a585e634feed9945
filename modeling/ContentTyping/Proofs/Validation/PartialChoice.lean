import ContentTyping.Proofs.Plan.BestEffort
import ContentTyping.Proofs.Validation.RecordedChoice

/-!
# Recorded best choices

A best choice that leaves some nodes undecided is recorded too. Then a node is untyped exactly when
its parent in the subtree is, or when no type has a placement for it below the type that its parent
got. The typed ones stand where a placement allows them, so all that a report can still find is that
nodes are untyped and that child constraints are broken.
-/

namespace ContentTyping

open ContentTree

/-- What is recorded of a node when something was chosen for it or not. -/
def recordOf : Option Candidate → Edge
  | none => ⟨none, none⟩
  | some candidate => candidate.edge

theorem nodeType_recordOf (chosen : Option Candidate) :
    (recordOf chosen).nodeType = chosen.map Candidate.nodeType := by
  cases chosen with
  | none => rfl
  | some candidate => rfl

namespace ContentTree

variable {tree : ContentTree}

/-- The type of the parent; nothing for the root and below an untyped parent. -/
def typeAbove (tree : ContentTree) (id : NodeId) : Option NodeTypeId :=
  (tree.parent? id).bind fun parent => (tree.edgeOf parent).nodeType

theorem typeAbove_eq_of_map {id : NodeId} {above : Option NodeTypeId}
    (isAbove : (tree.parent? id).map (fun parent => (tree.edgeOf parent).nodeType) =
      above.map some) : tree.typeAbove id = above := by
  rw [typeAbove]
  cases link : tree.parent? id with
  | none =>
      rw [link, Option.map_none, eq_comm, Option.map_eq_none_iff] at isAbove
      rw [isAbove, Option.bind_none]
  | some parent =>
      rw [link, Option.map_some, eq_comm, Option.map_eq_some_iff] at isAbove
      obtain ⟨type, rfl, sameType⟩ := isAbove
      rw [Option.bind_some, sameType]

/-- The second tree is the first one with a choice recorded on the active subtree of the start, where
nothing was chosen as no type; objects may differ. -/
def PartlyRecorded (before after : ContentTree) (start : NodeId)
    (choice : NodeId → Option Candidate) : Prop :=
  AgreeOn Node.withoutObject after
    (before.retype (before.activeSubtree start) fun id => recordOf (choice id))

theorem PartlyRecorded.edgeOf {before after : ContentTree} {start : NodeId}
    {choice : NodeId → Option Candidate} (recorded : PartlyRecorded before after start choice)
    {id : NodeId} (listed : id ∈ before.activeSubtree start) :
    after.edgeOf id = recordOf (choice id) :=
  recorded.edgeOf_of_retype listed (contains_of_mem_activeSubtree listed)

end ContentTree

namespace DomainProfile

variable {profile : DomainProfile} {before after : ContentTree} {start : NodeId}
  {parentType : Option NodeTypeId} {choice : NodeId → Option Candidate}

theorem candidates_eq_nil_iff {tree : ContentTree} {id : NodeId} (live : tree.contains id = true)
    {above : Option NodeTypeId} :
    profile.candidates tree above id = [] ↔
      ∀ type ∈ profile.typesForKind (tree.fileKind id), profile.placement? type above = none := by
  rw [candidates_eq_candidatesForKind live, candidatesForKind, List.filterMap_eq_nil_iff]
  simp only [Option.map_eq_none_iff]

namespace BestChoice

variable (wellFormed : before.WellFormed)
  (isBest : profile.BestChoice before start parentType choice)
  (recorded : PartlyRecorded before after start choice)
  (parentTyped : (before.parent? start).map (fun parent => (before.edgeOf parent).nodeType) =
    parentType.map some)
  {id : NodeId} (listed : id ∈ before.activeSubtree start)

include wellFormed recorded

/-! ## Types above -/

/-- Nothing is recorded above the start. -/
theorem parentTyped_start (active : before.isActive start = true) :
    (after.parent? start).map (fun parent => (after.edgeOf parent).nodeType) =
      (before.parent? start).map fun parent => (before.edgeOf parent).nodeType := by
  rw [recorded.links_of_retype.parent?]
  cases link : before.parent? start with
  | none =>
      rfl
  | some parent =>
      have unlisted := wellFormed.parent_not_mem_activeSubtree active link
      rw [Option.map_some, Option.map_some, recorded.edgeOf_elsewhere unlisted]

theorem parentTyped_child {parent : NodeId} (parentListed : parent ∈ before.activeSubtree start)
    (member : id ∈ before.activeChildren parent) :
    (after.parent? id).map (fun parent => (after.edgeOf parent).nodeType) =
      some ((choice parent).map Candidate.nodeType) := by
  rw [recorded.links_of_retype.parent?, wellFormed.parent?_of_mem_activeChildren member,
    Option.map_some, recorded.edgeOf parentListed, nodeType_recordOf]

include isBest parentTyped listed

/-- A chosen candidate is a candidate below the type that is recorded for the parent. -/
theorem exists_typeAbove {candidate : Candidate} (chosen : choice id = some candidate) :
    ∃ above, candidate ∈ profile.candidates before above id ∧
      (after.parent? id).map (fun parent => (after.edgeOf parent).nodeType) = above.map some := by
  by_cases isStart : id = start
  · subst isStart
    refine ⟨parentType, mem_candidates_of_bestCandidate? (isBest.atStart.symm.trans chosen), ?_⟩
    have active := isActive_of_mem_activeSubtree listed
    exact (parentTyped_start wellFormed recorded active).trans parentTyped
  · obtain ⟨parent, parentListed, member⟩ :=
      wellFormed.exists_parent_of_mem_activeSubtree listed isStart
    have best := isBest.atChild parent parentListed id member
    rw [chosen, eq_comm, Option.bind_eq_some_iff] at best
    obtain ⟨above, parentChosen, best⟩ := best
    refine ⟨some above.nodeType, mem_candidates_of_bestCandidate? best, ?_⟩
    rw [parentTyped_child wellFormed recorded parentListed member, parentChosen]
    rfl

/-- A node is left without a choice when its parent is, or when it has no candidate below the type
recorded for its parent. -/
theorem eq_none_iff :
    choice id = none ↔
      (∃ parent ∈ before.activeSubtree start, before.parent? id = some parent ∧
        choice parent = none) ∨
      profile.candidates before (after.typeAbove id) id = [] := by
  by_cases isStart : id = start
  · subst isStart
    have active := isActive_of_mem_activeSubtree listed
    have above : after.typeAbove id = parentType :=
      typeAbove_eq_of_map ((parentTyped_start wellFormed recorded active).trans parentTyped)
    rw [isBest.atStart, bestCandidate?_eq_none_iff, above]
    constructor
    · exact .inr
    · rintro (⟨parent, parentListed, link, _⟩ | noCandidates)
      · exact absurd parentListed (wellFormed.parent_not_mem_activeSubtree active link)
      · exact noCandidates
  · obtain ⟨parent, parentListed, member⟩ :=
      wellFormed.exists_parent_of_mem_activeSubtree listed isStart
    have link := wellFormed.parent?_of_mem_activeChildren member
    have parentTyped := parentTyped_child wellFormed recorded parentListed member
    rw [isBest.atChild parent parentListed id member]
    cases parentChosen : choice parent with
    | none =>
        constructor
        · intro _
          exact .inl ⟨parent, parentListed, link, parentChosen⟩
        · intro _
          exact Option.bind_none _
    | some above =>
        rw [parentChosen] at parentTyped
        have isAbove : after.typeAbove id = some above.nodeType :=
          typeAbove_eq_of_map parentTyped
        rw [Option.bind_some, bestCandidate?_eq_none_iff, isAbove]
        constructor
        · exact .inr
        · rintro (⟨other, _, otherLink, otherUndecided⟩ | noCandidates)
          · obtain rfl : parent = other := Option.some.inj (link.symm.trans otherLink)
            rw [parentChosen] at otherUndecided
            exact absurd otherUndecided (by simp)
          · exact noCandidates

/-! ## Typed nodes -/

/-- A typed node stands where a placement allows its type, with the relation of the placement. -/
theorem exists_placement {candidate : Candidate} (chosen : choice id = some candidate) :
    candidate.nodeType ∈ profile.typesForKind (before.fileKind id) ∧
      ∃ placement, profile.placement? candidate.nodeType (after.typeAbove id) = some placement ∧
        placement.relation = candidate.relation := by
  obtain ⟨above, member, isAbove⟩ :=
    isBest.exists_typeAbove wellFormed recorded parentTyped listed chosen
  obtain ⟨_, accepted, placement, placed, sameRelation⟩ := mem_candidates_iff.1 member
  rw [typeAbove_eq_of_map isAbove]
  exact ⟨accepted, placement, placed, sameRelation⟩

theorem satisfiesParentConstraint {candidate : Candidate} (chosen : choice id = some candidate) :
    profile.satisfiesParentConstraint after id = true := by
  obtain ⟨above, member, isAbove⟩ :=
    isBest.exists_typeAbove wellFormed recorded parentTyped listed chosen
  obtain ⟨live, _, placement, placed, sameRelation⟩ := mem_candidates_iff.1 member
  obtain ⟨definition, isDefined, declared⟩ := exists_definition_of_placement? placed
  obtain ⟨node, found⟩ := contains_iff.1 live
  obtain ⟨typed, typedFound, same⟩ := recorded.exists_get?_of_retype listed found
  have isTyped : typed.nodeType = some candidate.nodeType := by
    rw [chosen] at same
    exact (congrArg Node.nodeType same :)
  refine (satisfiesParentConstraint_iff typedFound isTyped isDefined).2 ⟨placement, declared, ?_⟩
  have parentLive : ∀ parent, after.parent? id = some parent → after.contains parent = true := by
    intro parent link
    rw [recorded.links_of_retype.parent?] at link
    rw [recorded.links_of_retype.contains]
    exact wellFormed.contains_parent link
  have sameEdge : (after.edgeOf id).relation = placement.relation := by
    rw [recorded.edgeOf listed, chosen]
    exact sameRelation.symm
  rw [matchesParent_eq_holdsOn parentLive isAbove, sameEdge]
  exact holdsOn_of_placement? placed

/-! ## Reports -/

/-- All that can be wrong with a listed node is that it is untyped, or that a child constraint is
broken. -/
theorem defect_cases (subTypesFit : profile.SubTypesFit before (before.activeSubtree start))
    {defect : Defect} (found : defect ∈ profile.defects after id) :
    defect = .untyped ∨ ∃ label constraint actual,
      defect = .childConstraint label constraint actual := by
  obtain ⟨node, isNode⟩ := contains_iff.1 (contains_of_mem_activeSubtree listed)
  obtain ⟨typed, isTyped, same⟩ := recorded.exists_get?_of_retype listed isNode
  have sameType : typed.nodeType = (choice id).map Candidate.nodeType :=
    (congrArg Node.nodeType same :).trans (nodeType_recordOf _)
  have sameKind : typed.fileKind = node.fileKind := (congrArg Node.fileKind same :)
  have sameSubTypes : typed.subTypes = node.subTypes := (congrArg Node.subTypes same :)
  rw [defects, isTyped] at found
  simp only at found
  split at found
  · exact absurd found List.not_mem_nil
  · cases chosen : choice id with
    | none =>
        rw [chosen, Option.map_none] at sameType
        rw [sameType] at found
        exact .inl (List.mem_singleton.1 found)
    | some candidate =>
        obtain ⟨accepted, placement, placed, _⟩ :=
          isBest.exists_placement wellFormed recorded parentTyped listed chosen
        obtain ⟨definition, isDefined, _⟩ := exists_definition_of_placement? placed
        have holds :=
          isBest.satisfiesParentConstraint wellFormed recorded parentTyped listed chosen
        rw [chosen, Option.map_some] at sameType
        have typesFit : (candidate.nodeType :: typed.subTypes).filterMap
            (profile.typeDefect? typed.fileKind) = [] := by
          refine List.filterMap_eq_nil_iff.2 fun type member => typeDefect?_eq_none_iff.2 ?_
          rw [sameKind]
          rcases List.mem_cons.1 member with rfl | further
          · rw [fileKind, isNode] at accepted
            exact accepted
          · rw [sameSubTypes] at further
            exact subTypesFit id listed node isNode type further
        simp only [sameType, isDefined, typedDefects, typesFit, holds, if_true, List.nil_append,
          List.mem_map] at found
        obtain ⟨broken, _, rfl⟩ := found
        exact .inr ⟨definition.label, broken.1, broken.2, rfl⟩

omit listed in
theorem violation_cases (subTypesFit : profile.SubTypesFit before (before.activeSubtree start))
    {violation : Violation} (reported : violation ∈ (profile.validationReport after start).violations) :
    violation.defect = .untyped ∨ ∃ label constraint actual,
      violation.defect = .childConstraint label constraint actual := by
  obtain ⟨id, listed, found⟩ := List.mem_flatMap.1 reported
  rw [recorded.links_of_retype.activeSubtree] at listed
  obtain ⟨defect, isDefect, rfl⟩ := List.mem_map.1 found
  exact isBest.defect_cases wellFormed recorded parentTyped listed subTypesFit isDefect

end BestChoice

end DomainProfile

end ContentTyping

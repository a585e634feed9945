import ContentTyping.Proofs.Engine.Closure
import ContentTyping.Proofs.Plan.LeastTyping
import ContentTyping.Proofs.Plan.Pcdm

/-!
# Completeness of assignment

Where siblings cannot constrain each other, the search does not miss a typing: when some typing of
the tree validates, the assignment succeeds, and it finds the first one in declaration order.
-/

namespace ContentTyping.ProfileEngine

open ContentTree DomainProfile

variable {engine : ProfileEngine} {S : Type} [ObjectStore S] {workspace : Workspace S}
  {root : NodeId}

theorem checkBinding_retype (tree : ContentTree) (ids : List NodeId) (typing : NodeId → Edge) :
    engine.checkBinding (tree.retype ids typing) = engine.checkBinding tree := by
  rw [checkBinding, checkBinding, profile_retype]

theorem validates_of_isValid {tree : ContentTree} {typing : NodeId → Edge}
    (valid : engine.isValid (tree.retype (tree.activeSubtree root) typing) root = true) :
    engine.profile.Validates tree root typing :=
  (isValid_iff.1 valid).2.2

theorem exists_types {tree : ContentTree} {typing : NodeId → Edge}
    (validates : engine.profile.Validates tree root typing) :
    ∃ types : NodeId → NodeTypeId, ∀ id ∈ tree.activeSubtree root,
      (typing id).nodeType = some (types id) := by
  refine ⟨fun id => (typing id).nodeType.getD ⟨0⟩, fun id listed => ?_⟩
  obtain ⟨_, type, _, typed, _⟩ := validates.exists_inOrder listed
  simp only [typed, Option.getD_some]

theorem exists_firstViable?_of_validates (independent : engine.profile.SiblingsIndependent)
    {tree : ContentTree} (wellFormed : tree.WellFormed) (noParent : tree.parent? root = none)
    (active : tree.isActive root = true) {typing : NodeId → Edge}
    (validates : engine.profile.Validates tree root typing) :
    ∃ chosen, engine.profile.firstViable? tree none root = some chosen := by
  obtain ⟨types, typed⟩ := exists_types validates
  have viableTyping := validates.viableTyping independent wellFormed active noParent typed
  obtain ⟨candidate, member, sameType⟩ := viableTyping.atStart
  have suitable : engine.profile.viable tree root candidate.nodeType = true := by
    rw [sameType]
    exact viableTyping.viable root (wellFormed.mem_activeSubtree_self active)
  exact Option.isSome_iff_exists.1 (firstViable?_isSome_iff.2 ⟨candidate, member, suitable⟩)

/-- When some typing of the active nodes validates, the assignment succeeds unless the store
fails. What it reports and records is a typing that validates, and no types that validate come
before its types. -/
theorem assignTree_finds_least_typing [LawfulObjectStore S]
    (independent : engine.profile.SiblingsIndependent) (wellFormed : workspace.tree.WellFormed)
    (isRoot : workspace.tree.root = some root) (active : workspace.tree.isActive root = true)
    (noFault : NoStoreFault (engine.assignTree workspace).1) {typing : NodeId → Edge}
    (valid : engine.isValid
      (workspace.tree.retype (workspace.tree.activeSubtree root) typing) root = true) :
    ∃ report last, engine.assignTree workspace = (.ok report, last) ∧
      report.placements.map Placement.node = workspace.tree.activeSubtree root ∧
      (∀ placement ∈ report.placements,
        last.tree.edgeOf placement.node = ⟨some placement.nodeType, placement.relation⟩) ∧
      engine.isValid (workspace.tree.retype (workspace.tree.activeSubtree root)
        last.tree.edgeOf) root = true ∧
      ∀ other : NodeId → Edge, engine.isValid
          (workspace.tree.retype (workspace.tree.activeSubtree root) other) root = true →
        ∃ types : List NodeTypeId,
          (workspace.tree.activeSubtree root).map (fun id => (other id).nodeType) =
            types.map some ∧
          NotAfter (report.placements.map fun placement => placement.nodeType.index)
            (types.map NodeTypeId.index) := by
  have noParent := wellFormed.root_parent root isRoot
  have free : engine.checkBinding workspace.tree = .ok () := by
    rw [← checkBinding_retype]
    exact (isValid_iff.1 valid).1
  have validates := validates_of_isValid valid
  obtain ⟨chosen, first⟩ :=
    exists_firstViable?_of_validates independent wellFormed noParent active validates
  obtain ⟨report, done⟩ :=
    exists_ok_of_firstViable?_root wellFormed free isRoot active first noFault
  obtain ⟨choice, assigned⟩ := exists_assigned_of_assignTree_ok wellFormed isRoot active done
  refine ⟨report, (engine.assignTree workspace).2, Prod.ext done rfl, ?_,
    fun placement member => assigned.edgeOf member, ?_, ?_⟩
  · rw [assigned.placements, placementsOf_nodes]
  · have recorded : ∀ id ∈ workspace.tree.activeSubtree root,
        (engine.assignTree workspace).2.tree.edgeOf id = (choice id).edge :=
      fun id listed => assigned.recorded.edgeOf listed
    rw [retype_congr recorded]
    refine isValid_iff.2 ⟨(checkBinding_retype _ _ _).trans free, ?_, ?_⟩
    · rw [(links_retype _ _ _).contains]
      exact contains_of_isActive active
    · exact assigned.isFirst.validationReport_violations_eq_nil wellFormed ⟨.refl _⟩
        assigned.parentTyped validates.subTypesFit
  · intro other otherValid
    have otherValidates := validates_of_isValid otherValid
    obtain ⟨types, typed⟩ := exists_types otherValidates
    have otherTyping :=
      otherValidates.viableTyping independent wellFormed active noParent typed
    have least := otherTyping.firstChoice_notAfter wellFormed assigned.isFirst active
    refine ⟨(workspace.tree.activeSubtree root).map types, ?_, ?_⟩
    · rw [List.map_map]
      exact List.map_congr_left typed
    · rw [assigned.placements, placementsOf, List.map_map, List.map_map]
      exact least

theorem assignTree_finds_least_typing_smallWorkspace :
    ∃ report last, pcdmEngine.assignTree smallWorkspace = (.ok report, last) ∧
      pcdmEngine.isValid (smallArchive.retype (smallArchive.activeSubtree ⟨0⟩)
        last.tree.edgeOf) ⟨0⟩ = true ∧
      NotAfter (report.placements.map fun placement => placement.nodeType.index) [1, 2, 3] := by
  have active : smallWorkspace.tree.isActive ⟨0⟩ = true := rfl
  have noFault := pcdmEngine.noStoreFault_assignTree objectsKnown_smallWorkspace
  let typing (id : NodeId) : Edge :=
    if id = ⟨0⟩ then ⟨some Pcdm.collection, none⟩
    else if id = ⟨1⟩ then ⟨some Pcdm.object, some Pcdm.memberOf⟩
    else ⟨some Pcdm.file, some Pcdm.fileOf⟩
  have valid : pcdmEngine.isValid (smallArchive.retype (smallArchive.activeSubtree ⟨0⟩) typing)
      ⟨0⟩ = true := by decide
  obtain ⟨report, last, done, _, _, assignedValid, least⟩ :=
    assignTree_finds_least_typing Pcdm.siblingsIndependent wellFormed_smallArchive rfl active
      noFault valid
  refine ⟨report, last, done, assignedValid, ?_⟩
  obtain ⟨types, typed, notAfter⟩ := least typing valid
  have known : types = [Pcdm.collection, Pcdm.object, Pcdm.file] :=
    (List.map_inj_right fun _ _ => Option.some.inj).1 (typed.symm.trans rfl)
  rw [known] at notAfter
  exact notAfter

end ContentTyping.ProfileEngine

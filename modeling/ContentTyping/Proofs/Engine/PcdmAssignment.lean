import ContentTyping.Proofs.Engine.KnownObjects
import ContentTyping.Proofs.Plan.Pcdm

/-!
# Assignment by the Portland Common Data Model

With the built-in profile the outcome of an assignment can be read off the tree: where the files
are decides which nodes are objects, and what is no object is a grouping.
-/

namespace ContentTyping.ProfileEngine

open ContentTree DomainProfile

variable {engine : ProfileEngine} {S : Type} [ObjectStore S] [LawfulObjectStore S]
  {workspace : Workspace S} {root : NodeId}

omit [ObjectStore S] [LawfulObjectStore S] in
theorem any_parent_recorded {before after : ContentTree} (wellFormed : before.WellFormed)
    (noParent : before.parent? root = none) {choice : NodeId → Candidate}
    (recorded : Recorded before after root choice) {id : NodeId}
    (listed : id ∈ before.activeSubtree root) {type : NodeTypeId} :
    ((before.parent? id).any fun parent => (after.edgeOf parent).nodeType = some type) =
      (before.parent? id).any fun parent => (choice parent).nodeType = type := by
  cases link : before.parent? id with
  | none =>
      rfl
  | some parent =>
      have notRoot : id ≠ root := by
        rintro rfl
        rw [noParent] at link
        exact absurd link (by simp)
      obtain ⟨upper, upperListed, member⟩ :=
        wellFormed.exists_parent_of_mem_activeSubtree listed notRoot
      have upperLink := wellFormed.parent?_of_mem_activeChildren member
      obtain rfl : parent = upper := Option.some.inj (link.symm.trans upperLink)
      rw [Option.any_some, Option.any_some, recorded.edgeOf upperListed]
      simp [Candidate.edge]

/-- An assignment to a whole tree succeeds exactly when the root is no regular file and no regular
file has an active child. Then regular files are files of their objects, and every other node is an
object when it holds a file or lies below an object, and else a set or a collection. -/
theorem pcdm_assignTree_closed_form (isPcdm : engine.profile = Pcdm.profile)
    (wellFormed : workspace.tree.WellFormed) (isRoot : workspace.tree.root = some root)
    (active : workspace.tree.isActive root = true)
    (free : ∀ bound, workspace.tree.profile = some bound → bound = Pcdm.profileIdentifier)
    (noFault : NoStoreFault (engine.assignTree workspace).1) :
    ((∃ report, (engine.assignTree workspace).1 = .ok report) ↔
      workspace.tree.fileKind root ≠ some .regularFile ∧
        ∀ id ∈ workspace.tree.activeSubtree root,
          workspace.tree.fileKind id = some .regularFile →
            workspace.tree.activeChildren id = []) ∧
    ∀ report last, engine.assignTree workspace = (.ok report, last) →
      report.placements.map Placement.node = workspace.tree.activeSubtree root ∧
      (∀ placement ∈ report.placements,
        last.tree.edgeOf placement.node = ⟨some placement.nodeType, placement.relation⟩) ∧
      ∀ id ∈ workspace.tree.activeSubtree root, last.tree.edgeOf id =
        if workspace.tree.fileKind id = some .regularFile then ⟨some Pcdm.file, some Pcdm.fileOf⟩
        else
          ⟨some (if workspace.tree.hasFileChild id ||
              (workspace.tree.parent? id).any fun parent =>
                (last.tree.edgeOf parent).nodeType = some Pcdm.object
            then Pcdm.object
            else if id = root then Pcdm.administrativeSet else Pcdm.collection),
            if id = root then none else some Pcdm.memberOf⟩ := by
  have noParent := wellFormed.root_parent root isRoot
  have unrefused : engine.checkBinding workspace.tree = .ok () := by
    refine checkBinding_eq_ok fun bound isBound => ?_
    rw [isPcdm]
    exact free bound isBound
  have rootIff := Pcdm.exists_firstViable?_root_iff wellFormed active
  rw [← isPcdm] at rootIff
  refine ⟨⟨?_, ?_⟩, ?_⟩
  · rintro ⟨report, done⟩
    obtain ⟨choice, assigned⟩ := exists_assigned_of_assignTree_ok wellFormed isRoot active done
    exact rootIff.1 ⟨choice root, assigned.isFirst.atStart⟩
  · intro typable
    obtain ⟨chosen, first⟩ := rootIff.2 typable
    exact exists_ok_of_firstViable?_root wellFormed unrefused isRoot active first noFault
  · intro report last done
    have outcome : (engine.assignTree workspace).1 = .ok report := by rw [done]
    obtain ⟨choice, assigned⟩ :=
      exists_assigned_of_assignTree_ok wellFormed isRoot active outcome
    rw [show (engine.assignTree workspace).2 = last by rw [done]] at assigned
    refine ⟨?_, fun placement member => assigned.edgeOf member, fun id listed => ?_⟩
    · rw [assigned.placements, placementsOf_nodes]
    · have isFirst := assigned.isFirst
      rw [isPcdm] at isFirst
      have closed := Pcdm.firstChoice_eq_closedForm wellFormed noParent isFirst listed
      rw [any_parent_recorded wellFormed noParent assigned.recorded listed,
        assigned.recorded.edgeOf listed, closed, Pcdm.closedForm]
      split
      · rfl
      · simp [Candidate.edge]

theorem pcdm_assignTree_closed_form_smallWorkspace :
    ∃ report last, pcdmEngine.assignTree smallWorkspace = (.ok report, last) ∧
      last.tree.edgeOf ⟨0⟩ = ⟨some Pcdm.administrativeSet, none⟩ ∧
      last.tree.edgeOf ⟨1⟩ = ⟨some Pcdm.object, some Pcdm.memberOf⟩ ∧
      last.tree.edgeOf ⟨2⟩ = ⟨some Pcdm.file, some Pcdm.fileOf⟩ := by
  have active : smallWorkspace.tree.isActive ⟨0⟩ = true := rfl
  have unbound : smallWorkspace.tree.profile = none := rfl
  have noFault := pcdmEngine.noStoreFault_assignTree objectsKnown_smallWorkspace
  obtain ⟨succeeds, edges⟩ := pcdm_assignTree_closed_form rfl wellFormed_smallArchive rfl active
    (by simp [unbound]) noFault
  obtain ⟨report, done⟩ := succeeds.2 ⟨by decide, by decide⟩
  obtain ⟨_, _, closed⟩ := edges report _ (Prod.ext done rfl)
  refine ⟨report, _, Prod.ext done rfl, ?_, ?_, ?_⟩
  · rw [closed ⟨0⟩ (by decide)]
    rfl
  · rw [closed ⟨1⟩ (by decide)]
    rfl
  · rw [closed ⟨2⟩ (by decide)]
    rfl

end ContentTyping.ProfileEngine

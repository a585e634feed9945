import ContentTyping.Profile.Pcdm
import ContentTyping.Proofs.Plan.Outline
import ContentTyping.Proofs.Tree.Agreement
import ContentTyping.Proofs.Tree.Growth

/-!
# The planner as a recursion

The planner fills a table from the leaves upwards and reads its choices off it. What it finds is
what the plain recursion over the tree gives, and it does not look at anything that has been
recorded about the typing of the subtree.
-/

namespace ContentTyping.DomainProfile

open ContentTree

variable {profile : DomainProfile} {tree : ContentTree}

theorem sameOutline_retype (start : NodeId) (ids : List NodeId) (typing : NodeId → Edge) :
    SameOutline tree (tree.retype ids typing) start := by
  intro id _
  have agree : AgreeOn Node.outline (tree.retype ids typing) tree :=
    agreeOn_retype (fun _ _ => rfl) ids typing
  exact (agree.get id).symm

/-- Viability is the one solution of its recursive definition; a plan is complete exactly when the
start has a viable candidate, and then it lists the first viable candidates from the top down; and
trees of the same outline are planned alike. -/
theorem plan_eq_recursive_choice (wellFormed : tree.WellFormed) {start : NodeId}
    (active : tree.isActive start = true) (parentType : Option NodeTypeId) :
    (∀ id, tree.isActive id = true → ∀ type, profile.viable tree id type = true ↔
      (∃ definition, profile.nodeType? type = some definition ∧
        definition.fileAssociation.accepts (tree.fileKind id) = true) ∧
      (∀ child ∈ tree.activeChildren id,
        ∃ candidate ∈ profile.candidates tree (some type) child,
          profile.viable tree child candidate.nodeType = true) ∧
      profile.brokenChildConstraints type
        ((tree.activeChildren id).filterMap fun child =>
          (profile.firstViable? tree (some type) child).map Candidate.edge) = []) ∧
    (∀ suits : NodeId → NodeTypeId → Bool,
      (∀ id, tree.isActive id = true → ∀ type,
        suits id type = profile.fits tree suits id type) →
      ∀ id, tree.isActive id = true → ∀ type, suits id type = profile.viable tree id type) ∧
    ((∃ placements, profile.plan tree start parentType = .complete placements) ↔
      ∃ candidate ∈ profile.candidates tree parentType start,
        profile.viable tree start candidate.nodeType = true) ∧
    (∀ placements, profile.plan tree start parentType = .complete placements ↔
      ∃ choice, profile.FirstChoice tree start parentType choice ∧
        placements = placementsOf tree start choice) ∧
    ∀ other : ContentTree, other.WellFormed → SameOutline tree other start →
      profile.plan other start parentType = profile.plan tree start parentType := by
  have listsChoice : ∀ placements, profile.plan tree start parentType = .complete placements ↔
      ∃ choice, profile.FirstChoice tree start parentType choice ∧
        placements = placementsOf tree start choice :=
    fun _ => plan_eq_complete_iff_firstChoice wellFormed active
  refine ⟨?_, ?_, ?_, listsChoice, ?_⟩
  · intro id _ type
    rw [viable_iff wellFormed, mem_typesForKind_iff]
  · intro suits recursive id idActive type
    exact eq_viable_of_eq_fits wellFormed recursive idActive type
  · rw [← firstViable?_isSome_iff, Option.isSome_iff_exists]
    constructor
    · rintro ⟨placements, complete⟩
      obtain ⟨choice, isFirst, _⟩ := (listsChoice placements).1 complete
      exact ⟨choice start, isFirst.atStart⟩
    · rintro ⟨candidate, first⟩
      obtain ⟨choice, isFirst⟩ := exists_firstChoice wellFormed active first
      exact ⟨_, (listsChoice _).2 ⟨choice, isFirst, rfl⟩⟩
  · intro other otherWellFormed same
    exact (plan_eq_of_sameOutline wellFormed otherWellFormed same active parentType).symm

/-- The small archive is planned completely, also with other types recorded in it. -/
theorem plan_smallArchive_eq_recursive_choice :
    (∃ placements, Pcdm.profile.plan smallArchive ⟨0⟩ none = .complete placements) ∧
      Pcdm.profile.plan (smallArchive.retype [⟨0⟩, ⟨1⟩] fun _ =>
          ⟨some Pcdm.file, some Pcdm.fileOf⟩) ⟨0⟩ none =
        Pcdm.profile.plan smallArchive ⟨0⟩ none := by
  have active : smallArchive.isActive ⟨0⟩ = true := rfl
  obtain ⟨_, _, complete, _, alike⟩ :=
    @plan_eq_recursive_choice Pcdm.profile smallArchive wellFormed_smallArchive ⟨0⟩ active none
  refine ⟨complete.2 ⟨⟨Pcdm.administrativeSet, none⟩, by decide, by decide⟩, ?_⟩
  exact alike _ (wellFormed_smallArchive.retype _ _) (sameOutline_retype _ _ _)

end ContentTyping.DomainProfile

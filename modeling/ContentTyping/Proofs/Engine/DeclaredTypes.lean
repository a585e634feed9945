import ContentTyping.Engine.Typing
import ContentTyping.Proofs.Engine.KnownObjects
import ContentTyping.Proofs.Profile.Closed

/-!
# Declared types

Every type that an engine records is one that its profile declares: the types of a plan, a type that
was set by hand, and the result of a transform when the draft of the profile was checked.
-/

namespace ContentTyping

namespace DomainProfile

variable {profile : DomainProfile} {tree : ContentTree} {table : Viability}

theorem defines_iff {type : NodeTypeId} :
    profile.defines type = true ↔ ∃ definition, profile.nodeType? type = some definition :=
  Option.isSome_iff_exists

/-! ## Transforms -/

/-- The profile declares the type to which each of its transforms leads. -/
def TransformsDeclared (profile : DomainProfile) : Prop :=
  ∀ transform definition, profile.transform? transform = some definition →
    profile.defines definition.result = true

/-- The transform leads from one declared type to another that could be given to some of the same
files. -/
def Supports (profile : DomainProfile) (transform : Transform) : Prop :=
  ∃ source result, profile.nodeType? transform.source = some source ∧
    profile.nodeType? transform.result = some result ∧
    source.fileAssociation.compatibleWith result.fileAssociation = true

/-- The profile supports each of its transforms. -/
def TransformsSupported (profile : DomainProfile) : Prop :=
  ∀ transform definition, profile.transform? transform = some definition →
    profile.Supports definition

theorem transformsSupported_of_build {draft : ProfileDraft} (built : draft.build = .ok profile) :
    profile.TransformsSupported := by
  obtain ⟨rfl, closed⟩ := ProfileDraft.build_eq_ok_iff.1 built
  intro transform definition isDefined
  exact (closed.transforms definition (List.mem_of_getElem? isDefined)).ends

theorem transformsDeclared_of_build {draft : ProfileDraft} (built : draft.build = .ok profile) :
    profile.TransformsDeclared := by
  intro transform definition isDefined
  obtain ⟨_, result, _, isResult, _⟩ := transformsSupported_of_build built transform definition isDefined
  exact defines_iff.2 ⟨result, isResult⟩

/-! ## Plans -/

theorem fits_of_mem_candidates {parentType : Option NodeTypeId} {id : NodeId}
    {candidate : Candidate} (member : candidate ∈ profile.candidates tree parentType id) :
    candidate.nodeType ∈ profile.typesForKind (tree.fileKind id) :=
  (mem_candidates_iff.1 member).2.1

theorem fits_of_choose? {parentType : Option NodeTypeId} {id : NodeId} {candidate : Candidate}
    (chosen : profile.choose? tree table parentType id = some candidate) :
    candidate.nodeType ∈ profile.typesForKind (tree.fileKind id) :=
  fits_of_mem_candidates (List.mem_of_find?_eq_some chosen)

theorem fits_of_mem_collect {steps : Nat} {candidate : Candidate} {id : NodeId}
    (fits : candidate.nodeType ∈ profile.typesForKind (tree.fileKind id)) {placement : Placement}
    (member : placement ∈ profile.collect tree table steps candidate id) :
    placement.nodeType ∈ profile.typesForKind (tree.fileKind placement.node) := by
  induction steps generalizing candidate id with
  | zero =>
      exact absurd member List.not_mem_nil
  | succ steps inductionHypothesis =>
      rw [collect, List.mem_cons, List.mem_flatMap] at member
      rcases member with rfl | ⟨child, _, below⟩
      · exact fits
      · split at below
        · exact absurd below List.not_mem_nil
        next chosen isChosen =>
            exact inductionHypothesis (fits_of_choose? isChosen) below

theorem fits_of_mem_bestEffort {steps : Nat} {parentType : Option NodeTypeId} {id : NodeId}
    {placement : Placement}
    (member : placement ∈ (profile.bestEffort tree table steps parentType id).1) :
    placement.nodeType ∈ profile.typesForKind (tree.fileKind placement.node) := by
  induction steps generalizing parentType id with
  | zero =>
      exact absurd member List.not_mem_nil
  | succ steps inductionHypothesis =>
      rw [bestEffort] at member
      split at member
      next chosen isChosen =>
          exact fits_of_mem_collect (fits_of_choose? isChosen) member
      · split at member
        · exact absurd member List.not_mem_nil
        next first _ candidates =>
            rw [List.mem_cons, List.mem_flatMap] at member
            rcases member with rfl | ⟨effort, effortMember, below⟩
            · have tried : first ∈ profile.candidates tree parentType id := by
                rw [candidates]
                exact List.mem_cons_self
              exact fits_of_mem_candidates tried
            · obtain ⟨child, _, rfl⟩ := List.mem_map.1 effortMember
              exact inductionHypothesis below

/-- The types of a plan accept the files of their nodes. -/
theorem fits_of_mem_plan {start : NodeId} {parentType : Option NodeTypeId}
    {placement : Placement}
    (member : placement ∈ (profile.plan tree start parentType).placements) :
    placement.nodeType ∈ profile.typesForKind (tree.fileKind placement.node) := by
  rw [plan] at member
  split at member
  next chosen isChosen =>
      exact fits_of_mem_collect (fits_of_choose? isChosen) member
  · exact fits_of_mem_bestEffort member

theorem defines_of_mem_typesForKind {kind : Option FileKind} {type : NodeTypeId}
    (fits : type ∈ profile.typesForKind kind) : profile.defines type = true := by
  obtain ⟨definition, isDefined, _⟩ := mem_typesForKind_iff.1 fits
  exact defines_iff.2 ⟨definition, isDefined⟩

theorem defines_of_mem_plan {start : NodeId} {parentType : Option NodeTypeId}
    {placement : Placement}
    (member : placement ∈ (profile.plan tree start parentType).placements) :
    profile.defines placement.nodeType = true :=
  defines_of_mem_typesForKind (fits_of_mem_plan member)

end DomainProfile

/-! ## Types set by hand -/

namespace ProfileEngine

variable {engine : ProfileEngine} {tree : ContentTree} {id : NodeId} {type : NodeTypeId}
  {breach : NodeType → Breach}

/-- A type is given by hand to a node whose file it accepts. -/
theorem checkFit_eq_ok_iff {node : Node} :
    engine.checkFit tree id type breach = .ok node ↔
      engine.checkBinding tree = .ok () ∧ tree.get? id = some node ∧
        type ∈ engine.profile.typesForKind node.fileKind := by
  rw [checkFit, bind_eq_ok_iff]
  simp only [bind_eq_ok_iff, ContentTree.node_eq_ok_iff, definition,
    DomainProfile.mem_typesForKind_iff]
  constructor
  · rintro ⟨_, free, definition, isDefined, found, isNode, fits⟩
    split at fits
    next accepted =>
        obtain rfl := Except.ok.inj fits
        split at isDefined
        next known =>
            obtain rfl := Except.ok.inj isDefined
            exact ⟨free, isNode, _, known, accepted⟩
        · exact absurd isDefined (by simp)
    · exact absurd fits (by simp [throw, throwThe, MonadExceptOf.throw])
  · rintro ⟨free, isNode, definition, known, accepted⟩
    exact ⟨(), free, definition, by rw [known], node, isNode, by rw [if_pos accepted]; rfl⟩

theorem checkFit_ok {node : Node} (fits : engine.checkFit tree id type breach = .ok node) :
    engine.profile.defines type = true ∧ tree.get? id = some node := by
  obtain ⟨_, found, accepted⟩ := checkFit_eq_ok_iff.1 fits
  exact ⟨DomainProfile.defines_of_mem_typesForKind accepted, found⟩

theorem noStoreFault_checkFit : NoStoreFault (engine.checkFit tree id type breach) := by
  refine .bind (engine.noStoreFault_checkBinding tree) fun _ => ?_
  refine .bind (engine.noStoreFault_definition type) fun definition => ?_
  refine .bind (noStoreFault_node tree id) fun node => ?_
  split
  · exact .ok node
  · exact .error (by simp)

end ProfileEngine

end ContentTyping

import ContentTyping.Proofs.Engine.Histories
import ContentTyping.Proofs.Profile.Closed
import ContentTyping.Proofs.Profile.Declarations

/-!
# Handles in range

An engine is handed numbers from two sides: a tree may record handles that its profile does not know, and
the profile refers to its own elements by number. The first are looked up with care. The second are
in range since the profile is closed. So no operation uses a number beyond the end of a list.
-/

namespace ContentTyping

open ContentTree DomainProfile

/-- No number beyond the end of a list was used. -/
def InRange {α : Type} (result : Except Error α) : Prop :=
  result ≠ .error .outOfRange

namespace InRange

variable {α β : Type}

theorem ok (value : α) : InRange (.ok value : Except Error α) := by
  simp [InRange]

theorem error {error : Error} (isOther : error ≠ .outOfRange) :
    InRange (.error error : Except Error α) :=
  fun same => isOther (Except.error.inj same)

theorem bind {step : Except Error α} {next : α → Except Error β} (first : InRange step)
    (rest : ∀ value, step = .ok value → InRange (next value)) : InRange (step >>= next) := by
  cases step with
  | error other => exact error fun same => first (congrArg _ same)
  | ok value => exact rest value rfl

theorem of_error {step : Except Error α} {other : Error} (inRange : InRange step)
    (failed : step = .error other) : InRange (.error other : Except Error β) :=
  error fun same => inRange (failed.trans (congrArg _ same))

theorem map {step : Except Error α} (inRange : InRange step) (view : α → β) :
    InRange (step.map view) := by
  cases step with
  | error other => exact inRange.of_error rfl
  | ok value => exact ok (view value)

theorem mapM {step : α → Except Error β} {items : List α}
    (each : ∀ item ∈ items, InRange (step item)) : InRange (items.mapM step) := by
  induction items with
  | nil =>
      exact ok []
  | cons item items inductionHypothesis =>
      obtain ⟨here, later⟩ := List.forall_mem_cons.1 each
      rw [List.mapM_cons]
      exact here.bind fun _ _ => (inductionHypothesis later).bind fun _ _ => ok _

/-- A fault of the store is another matter. -/
theorem of_store {result : Except Error α}
    (faults : ∀ error, result = .error error → ∃ fault, error = .store fault) : InRange result := by
  intro failed
  obtain ⟨fault, isFault⟩ := faults _ failed
  exact absurd isFault (by simp)

end InRange

namespace ProfileEngine

variable {engine : ProfileEngine}

/-! ## Guards -/

theorem inRange_checkBinding (engine : ProfileEngine) (tree : ContentTree) :
    InRange (engine.checkBinding tree) := by
  rw [checkBinding]
  split
  · exact .ok ()
  · split
    · exact .ok ()
    · exact .error (by simp)

theorem inRange_node (tree : ContentTree) (id : NodeId) : InRange (tree.node id) := by
  rw [ContentTree.node]
  split
  · exact .ok _
  · exact .error (by simp)

theorem inRange_definition (engine : ProfileEngine) (type : NodeTypeId) :
    InRange (engine.definition type) := by
  rw [definition]
  split
  · exact .ok _
  · exact .error (by simp)

theorem inRange_checkFit {tree : ContentTree} {id : NodeId} {type : NodeTypeId}
    {breach : NodeType → Breach} : InRange (engine.checkFit tree id type breach) := by
  refine (engine.inRange_checkBinding tree).bind fun _ _ => ?_
  refine (engine.inRange_definition type).bind fun definition _ => ?_
  refine (inRange_node tree id).bind fun node _ => ?_
  split
  · exact .ok node
  · exact .error (by simp)

theorem inRange_parentTypeOf (engine : ProfileEngine) (tree : ContentTree) (node : Node) :
    InRange (engine.parentTypeOf tree node) := by
  rw [parentTypeOf]
  cases node.parent with
  | none =>
      exact .ok none
  | some parent =>
      refine (inRange_node tree parent).bind fun above _ => ?_
      cases above.nodeType with
      | none => exact .error (by simp)
      | some type => exact (engine.inRange_definition type).bind fun _ _ => .ok (some type)

/-! ## Operations -/

section Operations

variable {S : Type} [ObjectStore S] [LawfulObjectStore S]

/-- Types that the profile does not know are left out before domain types are looked up. -/
theorem inRange_syncObject {id : NodeId} {workspace : Workspace S}
    (live : workspace.tree.contains id = true) : InRange (engine.syncObject id workspace).1 :=
  .of_store fun _ failed => engine.syncObject_error live failed

theorem inRange_writePlacements {placements : List Placement} {untyped : List NodeId}
    {workspace : Workspace S}
    (live : ∀ placement ∈ placements, workspace.tree.contains placement.node = true) :
    InRange (engine.writePlacements placements untyped workspace).1 :=
  .of_store fun _ failed => writePlacements_error live (Prod.ext failed rfl)

theorem inRange_carryOut {plan : Plan} {workspace : Workspace S}
    (live : ∀ placement ∈ plan.placements, workspace.tree.contains placement.node = true) :
    InRange (engine.carryOut plan workspace).1 := by
  cases plan with
  | complete placements =>
      have written := @inRange_writePlacements engine S _ _ placements [] workspace live
      rw [carryOut]
      split
      next failed =>
          rw [failed] at written
          exact written.of_error rfl
      · exact .ok _
  | blocked placements untyped ending obstacle =>
      have written := @inRange_writePlacements engine S _ _ placements untyped workspace live
      rw [carryOut]
      split
      next error unknown =>
          exact (inRange_node workspace.tree ending).of_error unknown
      · split
        · exact .error (by simp)
        · split
          next failed =>
              rw [failed] at written
              exact written.of_error rfl
          · exact .error (by simp)

theorem inRange_assignNodeTypes (engine : ProfileEngine) (start : NodeId)
    (workspace : Workspace S) : InRange (engine.assignNodeTypes start workspace).1 := by
  rw [assignNodeTypes]
  split
  next error refused =>
      exact (engine.inRange_checkBinding workspace.tree).of_error refused
  next error _ unknown =>
      exact (inRange_node workspace.tree start).of_error unknown
  next node _ isNode =>
      have live : workspace.tree.contains start = true :=
        contains_iff.2 ⟨node, node_eq_ok_iff.1 isNode⟩
      split
      · exact .ok _
      · split
        next error refused =>
            exact (engine.inRange_parentTypeOf workspace.tree node).of_error refused
        next parentType _ =>
            exact inRange_carryOut (contains_of_mem_plan live parentType)

/-- A node that was changed is still there when its object is brought in line. -/
theorem inRange_syncObject_modifyNode {id : NodeId} {workspace : Workspace S} {node : Node}
    (found : workspace.tree.get? id = some node) (change : Node → Node) :
    InRange (engine.syncObject id (workspace.modifyNode id change)).1 := by
  refine inRange_syncObject ?_
  rw [Workspace.modifyNode, contains, get?_modify, if_pos rfl, found]
  rfl

theorem inRange_applyTransform (engine : ProfileEngine) (id : NodeId) (transform : TransformId)
    (workspace : Workspace S) : InRange (engine.applyTransform id transform workspace).1 := by
  rw [applyTransform]
  split
  next error refused =>
      exact (engine.inRange_checkBinding workspace.tree).of_error refused
  next error _ unknown =>
      exact (inRange_node workspace.tree id).of_error unknown
  next node _ isNode =>
      split
      · exact .error (by simp)
      · split
        · exact inRange_syncObject_modifyNode (node_eq_ok_iff.1 isNode) _
        · exact .error (by simp)

theorem inRange_perform_nodeCall (engine : ProfileEngine) (call : NodeCall)
    (workspace : Workspace S) : InRange (call.perform engine workspace).1 := by
  cases call with
  | setNodeType id type =>
      rw [NodeCall.perform, setNodeType]
      split
      next error refused =>
          exact inRange_checkFit.of_error refused
      next node fits =>
          have synced := @inRange_syncObject_modifyNode engine S _ _ id workspace node
            (checkFit_ok fits).2 (retype type (engine.relationFor workspace.tree node type))
          dsimp only
          split
          next failed =>
              rw [failed] at synced
              exact synced.of_error rfl
          · exact .ok ()
  | addSubType id type =>
      rw [NodeCall.perform, addSubType]
      split
      next error refused =>
          exact inRange_checkFit.of_error refused
      next node fits =>
          split
          · exact .ok ()
          · exact inRange_syncObject_modifyNode (checkFit_ok fits).2 _
  | removeSubType id type =>
      rw [NodeCall.perform, removeSubType]
      split
      next error refused =>
          exact (engine.inRange_checkBinding workspace.tree).of_error refused
      next error _ unknown =>
          exact (inRange_node workspace.tree id).of_error unknown
      next node _ isNode =>
          split
          · exact inRange_syncObject_modifyNode (node_eq_ok_iff.1 isNode) _
          · exact .ok ()
  | applyTransform id transform =>
      exact engine.inRange_applyTransform id transform workspace
  | applyTransformByLabel id label =>
      rw [NodeCall.perform, applyTransformByLabel]
      split
      · exact .error (by simp)
      · exact engine.inRange_applyTransform id _ workspace

theorem inRange_perform (engine : ProfileEngine) (call : EngineCall) (workspace : Workspace S) :
    InRange (call.perform engine workspace).1 := by
  cases call with
  | assignTree =>
      refine InRange.map ?_ _
      rw [assignTree]
      split
      · exact .error (by simp)
      · exact engine.inRange_assignNodeTypes _ workspace
  | assignNodeTypes start =>
      exact (engine.inRange_assignNodeTypes start workspace).map _
  | atNode call =>
      exact engine.inRange_perform_nodeCall call workspace

end Operations

/-! ## Readings -/

theorem inRange_validationReport (engine : ProfileEngine) (tree : ContentTree) (start : NodeId) :
    InRange (engine.validationReport tree start) :=
  (engine.inRange_checkBinding tree).bind fun _ _ => (inRange_node tree start).bind fun _ _ => .ok _

theorem inRange_revalidateAround (engine : ProfileEngine) (tree : ContentTree) (id : NodeId) :
    InRange (engine.revalidateAround tree id) :=
  (engine.inRange_checkBinding tree).bind fun _ _ => (inRange_node tree id).bind fun _ _ => .ok _

theorem inRange_legalTransforms (engine : ProfileEngine) (tree : ContentTree) (id : NodeId) :
    InRange (engine.legalTransforms tree id) :=
  (engine.inRange_checkBinding tree).bind fun _ _ => (inRange_node tree id).bind fun _ _ => .ok _

theorem inRange_eligibleTypes (engine : ProfileEngine) (tree : ContentTree) (id : NodeId) :
    InRange (engine.eligibleTypes tree id) := by
  refine (engine.inRange_checkBinding tree).bind fun _ _ => ?_
  refine (inRange_node tree id).bind fun node _ => ?_
  dsimp only
  cases node.parent with
  | none =>
      exact .ok _
  | some parent =>
      refine (inRange_node tree parent).bind fun above _ => ?_
      cases above.nodeType with
      | none => exact .ok _
      | some type => exact .ok _

section Properties

variable {S : Type} [ObjectStore S] [LawfulCounts S]

theorem inRange_checkProperty {profile : DomainProfile} {constraint : PropertyConstraint}
    (declared : profile.PropertyInRange constraint) (store : S) (id : NodeId) (node : Node) :
    InRange (checkProperty profile store id node constraint) := by
  obtain ⟨property, isDeclared⟩ : ∃ property,
      profile.propertyType? constraint.property = some property :=
    ⟨_, List.getElem?_eq_getElem declared.property⟩
  have counted : InRange (valueCount store node property.identifier) := by
    rw [valueCount]
    split
    · exact .ok 0
    · exact .of_store fun error => LawfulCounts.propertyCount_error store _ _ error
  rw [checkProperty, isDeclared]
  refine counted.bind fun actual _ => ?_
  split
  · exact .ok _
  · exact .ok _

/-- The property constraints of a closed profile speak of declared properties only. -/
theorem inRange_validateProperties (closed : engine.profile.Closed) (store : S)
    (tree : ContentTree) (id : NodeId) (candidate : NodeTypeId) :
    InRange (engine.validateProperties store tree id candidate) := by
  refine (engine.inRange_checkBinding tree).bind fun _ _ => ?_
  refine (engine.inRange_definition candidate).bind fun _ _ => ?_
  refine (inRange_node tree id).bind fun node _ => ?_
  cases isDefined : engine.profile.nodeType? candidate with
  | none =>
      exact .ok _
  | some type =>
      have declared := (closed.nodeTypes type (List.mem_of_getElem? isDefined)).properties
      exact (InRange.mapM fun constraint member =>
        inRange_checkProperty (declared constraint member) store id node).bind
          fun _ _ => .ok _

end Properties

end ProfileEngine

/-! ## Built profiles -/

namespace DomainProfile

/-- A transform that is listed for a type is declared, and so is the type to which it leads. -/
theorem Closed.exists_of_mem_transformsFrom {profile : DomainProfile} (closed : profile.Closed)
    {source : NodeTypeId} {transform : TransformId}
    (listed : transform ∈ profile.transformsFrom source) :
    ∃ definition result, profile.transform? transform = some definition ∧
      definition.source = source ∧ profile.nodeType? definition.result = some result := by
  rw [transformsFrom, List.mem_filter, Option.any_eq_true] at listed
  obtain ⟨_, definition, isDefined, isSource⟩ := listed
  have inRange := closed.transforms definition (List.mem_of_getElem? isDefined)
  obtain ⟨_, result, _, isResult, _⟩ := inRange.ends
  exact ⟨definition, result, isDefined, of_decide_eq_true isSource, isResult⟩

end DomainProfile

/-- No operation of the engine uses a number beyond the end of a list, whatever handles the tree
records. -/
structure ProfileEngine.StaysInRange (engine : ProfileEngine) (S : Type) [ObjectStore S] :
    Prop where
  calls : ∀ (call : EngineCall) (workspace : Workspace S),
    InRange (call.perform engine workspace).1
  reports : ∀ tree start, InRange (engine.validationReport tree start)
  neighbours : ∀ tree id, InRange (engine.revalidateAround tree id)
  eligible : ∀ tree id, InRange (engine.eligibleTypes tree id)
  legal : ∀ tree id, InRange (engine.legalTransforms tree id)
  properties : ∀ (store : S) tree id candidate,
    InRange (engine.validateProperties store tree id candidate)
  listed : ∀ source, ∀ transform ∈ engine.profile.transformsFrom source, ∃ definition result,
    engine.profile.transform? transform = some definition ∧ definition.source = source ∧
      engine.profile.nodeType? definition.result = some result

theorem DomainProfile.Closed.staysInRange {engine : ProfileEngine} {S : Type} [ObjectStore S]
    [LawfulObjectStore S] [LawfulCounts S] (closed : engine.profile.Closed) :
    engine.StaysInRange S where
  calls := engine.inRange_perform
  reports := engine.inRange_validationReport
  neighbours := engine.inRange_revalidateAround
  eligible := engine.inRange_eligibleTypes
  legal := engine.inRange_legalTransforms
  properties := ProfileEngine.inRange_validateProperties closed
  listed _ _ := closed.exists_of_mem_transformsFrom

namespace ProfileDraft

open ProfileEngine

/-- After any declarations, whether they were accepted or not, the draft can be completed exactly when
its profile is closed. Then names of each kind are distinct in the profile, looking one up gives the
handle that was handed out for it, and engines that use the profile stay in range. -/
theorem build_after_declarations {S : Type} [ObjectStore S] [LawfulObjectStore S] [LawfulCounts S]
    (identifier domain label : String) (declarations : List Declaration) :
    let (answers, draft) := follow declarations (empty identifier domain label)
    draft.profile.identifier = identifier ∧ draft.profile.domain = domain ∧
    (∀ profile, draft.build = .ok profile ↔ profile = draft.profile ∧ draft.profile.Closed) ∧
    ∀ profile, draft.build = .ok profile →
      (∀ kind, (profile.names kind).Nodup) ∧
      (∀ kind name place, profile.lookUp kind name = some place ↔
        HandedOut declarations answers kind name place) ∧
      ∀ engine : ProfileEngine, engine.profile = profile → engine.StaysInRange S := by
  obtain ⟨sameIdentifier, sameDomain⟩ :=
    Prod.mk.inj (header_follow declarations (empty identifier domain label))
  refine ⟨sameIdentifier, sameDomain, fun profile => build_eq_ok_iff, ?_⟩
  intro profile built
  obtain ⟨rfl, closed⟩ := build_eq_ok_iff.1 built
  refine ⟨fun kind => ?_, fun kind => ?_, fun engine isProfile => ?_⟩
  · exact (lookUp_follow_empty identifier domain label declarations kind).1
  · exact (lookUp_follow_empty identifier domain label declarations kind).2
  · rw [← isProfile] at closed
    exact closed.staysInRange

/-- Declarations of folders and sheets. The rule on folders speaks of a type that is declared later. One
name is declared twice, and one description is for a type that never comes. -/
def folderDeclarations : List Declaration :=
  [.relation "ex:in" "ex:has", .nodeType "ex:folder" "Folder" .directory,
    .childRule ⟨0⟩ (.allow ⟨1⟩ ⟨0⟩), .nodeType "ex:folder" "Folder again" .either,
    .nodeType "ex:sheet" "Sheet" .regularFile, .property "ex:title" "Title",
    .propertyRule ⟨1⟩ ⟨⟨0⟩, .exactly 1⟩, .description ⟨7⟩ "Nothing"]

theorem build_folderDeclarations :
    ∃ profile, (follow folderDeclarations (empty "ex:p" "ex:d" "P")).2.build = .ok profile ∧
      profile.lookUp .nodeType "ex:sheet" = some 1 ∧
      ∀ engine : ProfileEngine, engine.profile = profile → engine.StaysInRange TripleStore := by
  obtain ⟨_, _, _, whenBuilt⟩ :=
    @build_after_declarations TripleStore _ _ _ "ex:p" "ex:d" "P" folderDeclarations
  have isOk : (follow folderDeclarations (empty "ex:p" "ex:d" "P")).2.build.isOk = true := by
    decide +kernel
  obtain ⟨profile, built⟩ := exists_of_isOk isOk
  obtain ⟨_, lookUps, inRange⟩ := whenBuilt profile built
  refine ⟨profile, built, (lookUps .nodeType "ex:sheet" 1).2 ?_, inRange⟩
  refine ⟨.nodeType "ex:sheet" "Sheet" .regularFile, (⟨1⟩ : NodeTypeId).display, ?_, rfl⟩
  decide +kernel

end ProfileDraft

end ContentTyping

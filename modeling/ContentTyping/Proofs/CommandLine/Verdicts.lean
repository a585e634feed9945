import Mathlib
import ContentTyping.CommandLine.Run
import ContentTyping.Proofs.Engine.FailureReports
import ContentTyping.Proofs.Engine.HandleOrigins
import ContentTyping.Proofs.Engine.Sessions
import ContentTyping.Proofs.Engine.TypingOnly
import ContentTyping.Proofs.Scan.Names
import ContentTyping.Proofs.Tree.Renaming

/-!
# Verdicts of commands

One command tells from the search whether a scanned place can be typed, another one from a report on what
the search has left behind, be it complete, partial or rolled back. They come to the same verdict, as
there is something to report exactly when the root has no viable candidate.
-/

namespace ContentTyping

open ContentTree DomainProfile ProfileEngine

/-! ## Trees on which nothing is recorded -/

namespace ContentTree

/-- A tree as a scan leaves it: nothing is recorded on its nodes, and none of them is left out. -/
structure Untouched (tree : ContentTree) : Prop where
  root : tree.root = some ⟨0⟩
  profile : tree.profile = none
  nodes : ∀ id node, tree.get? id = some node →
    node.handles = (none, [], none) ∧ node.object = none ∧ node.ignored = false

theorem untouched_withRoot (options : ScanOptions) (visit : Visit) (kind : FileKind)
    (identifier : String) :
    (withRoot (visit.node options kind identifier)).2.Untouched where
  root := rfl
  profile := rfl
  nodes id node found := by
    rw [get?_withRoot] at found
    split at found
    · obtain rfl := Option.some.inj found
      exact ⟨rfl, rfl, rfl⟩
    · exact absurd found (by simp)

theorem Untouched.withChild {tree : ContentTree} (untouched : tree.Untouched) {parent : NodeId}
    (live : tree.contains parent = true) (options : ScanOptions) (visit : Visit) (kind : FileKind)
    (identifier : String) :
    (tree.withChild parent (visit.node options kind identifier)).Untouched where
  root := untouched.root
  profile := untouched.profile
  nodes id node found := by
    rw [get?_withChild live] at found
    split at found
    · obtain rfl := Option.some.inj found
      exact ⟨rfl, rfl, rfl⟩
    · split at found
      · obtain ⟨above, aboveFound, rfl⟩ := Option.map_eq_some_iff.1 found
        exact untouched.nodes parent above aboveFound
      · exact untouched.nodes id node found

theorem Grown.untouched {options : ScanOptions} {tree : ContentTree} (grown : tree.Grown options) :
    tree.Untouched := by
  induction grown with
  | root visit kind identifier =>
      exact untouched_withRoot options visit kind identifier
  | child _ live visit kind _ inductionHypothesis =>
      exact inductionHypothesis.withChild live options visit kind _

namespace Untouched

variable {tree : ContentTree} (untouched : tree.Untouched)

include untouched

theorem withoutObjects : tree.WithoutObjects :=
  fun id node found => (untouched.nodes id node found).2.1

theorem subTypesFit (profile : DomainProfile) (ids : List NodeId) :
    profile.SubTypesFit tree ids := by
  intro id _ node found type member
  obtain ⟨handles, _⟩ := untouched.nodes id node found
  have noSubTypes : node.subTypes = [] := (Prod.mk.inj (Prod.mk.inj handles).2).1
  rw [noSubTypes] at member
  exact absurd member List.not_mem_nil

theorem isActive_root (wellFormed : tree.WellFormed) : tree.isActive ⟨0⟩ = true := by
  obtain ⟨node, found⟩ := contains_iff.1 (wellFormed.root_contained ⟨0⟩ untouched.root)
  exact isActive_iff.2 ⟨node, found, (untouched.nodes ⟨0⟩ node found).2.2⟩

theorem checkBinding (engine : ProfileEngine) : engine.checkBinding tree = .ok () := by
  rw [ProfileEngine.checkBinding, untouched.profile]

theorem searches_root (wellFormed : tree.WellFormed) (engine : ProfileEngine) :
    engine.Searches tree ⟨0⟩ none where
  free := untouched.checkBinding engine
  live := wellFormed.root_contained ⟨0⟩ untouched.root
  included := isExcluded_eq_false_of_parent? (wellFormed.root_parent ⟨0⟩ untouched.root)
    (untouched.isActive_root wellFormed)
  parentTyped := by rw [wellFormed.root_parent ⟨0⟩ untouched.root]; rfl
  known type member := absurd member (by simp)

end Untouched

end ContentTree

/-! ## Assignments of scanned trees -/

namespace ProfileEngine

variable {engine : ProfileEngine} {workspace : Workspace MemoryStore}

theorem root_assignTree (engine : ProfileEngine) (workspace : Workspace MemoryStore) :
    (engine.assignTree workspace).2.tree.root = workspace.tree.root := by
  have performed := @EngineCall.performed engine MemoryStore _ workspace _ .assignTree _ rfl
  have cleared : (engine.assignTree workspace).2.tree.clearTyping = workspace.tree.clearTyping :=
    performed.clearTyping_eq
  have sameRoot := congrArg ContentTree.root cleared
  exact sameRoot

/-- Where the root has no viable candidate, there is something to report on what is left behind. -/
theorem exists_violation_of_not_viable (wellFormed : workspace.tree.WellFormed)
    (untouched : workspace.tree.Untouched)
    (notViable : engine.profile.firstViable? workspace.tree none ⟨0⟩ = none)
    (noFault : NoStoreFault (engine.assignTree workspace).1) :
    (∃ error, (engine.assignTree workspace).1 = .error error) ∧
      ∃ report, engine.validationReport (engine.assignTree workspace).2.tree ⟨0⟩ = .ok report ∧
        report.violations ≠ [] := by
  have searches := untouched.searches_root wellFormed engine
  have active := untouched.isActive_root wellFormed
  rw [assignTree_eq_assignNodeTypes untouched.root] at noFault ⊢
  obtain ⟨name, obstacle, failed⟩ :=
    exists_noEligibleType_of_not_viable wellFormed searches notViable noFault
  refine ⟨⟨_, failed⟩, ?_⟩
  rw [searches.assignNodeTypes_eq] at failed ⊢
  generalize called : engine.carryOut (engine.profile.plan workspace.tree ⟨0⟩ none) workspace =
    result at failed ⊢
  obtain ⟨outcome, last⟩ := result
  obtain rfl : outcome = .error (.noEligibleType name obstacle) := failed
  obtain ⟨placements, untyped, ending, isBlocked, _, ⟨_, unchanged⟩ | ⟨_, written⟩⟩ :=
    exists_blocked_of_noEligibleType (contains_of_mem_plan searches.live none) called
  · rw [unchanged]
    refine ⟨_, validationReport_eq_ok_iff.2 ⟨searches.free, searches.live, rfl⟩, ?_⟩
    obtain ⟨node, found, notIgnored⟩ := isActive_iff.1 active
    have isUntyped : node.nodeType = none :=
      congrArg Prod.fst (untouched.nodes ⟨0⟩ node found).1
    let violation : Violation := ⟨⟨0⟩, workspace.tree.pathOf ⟨0⟩, .untyped⟩
    have reported : violation ∈
        (engine.profile.validationReport workspace.tree ⟨0⟩).violations :=
      mem_validationReport_iff.2 ⟨wellFormed.mem_activeSubtree_self active, rfl,
        untyped_mem_defects found notIgnored isUntyped⟩
    exact List.ne_nil_of_mem reported
  · obtain ⟨_, ends⟩ := EndsAt.of_plan_eq_blocked wellFormed active isBlocked
    obtain ⟨choice, isBest⟩ : ∃ choice,
        engine.profile.BestChoice workspace.tree ⟨0⟩ none choice :=
      exists_bestChoice wellFormed ⟨0⟩ none
    obtain ⟨rfl, rfl⟩ := eq_of_plan_eq_blocked wellFormed active isBest isBlocked
    have recorded := partlyRecorded_of_writePlacements written
    refine ⟨_, validationReport_eq_ok_iff.2
      ⟨checkBinding_of_writePlacements searches.free written, ?_, rfl⟩, ?_⟩
    · rw [recorded.links_of_retype.contains]
      exact searches.live
    · obtain ⟨violation, reported, _⟩ := ends.exists_violation wellFormed active notViable isBest
        recorded searches.parentTyped
      exact List.ne_nil_of_mem reported

/-- An assignment succeeds, and nothing is reported afterwards, exactly when the root has a viable
candidate. -/
theorem verdict_of_untouched (wellFormed : workspace.tree.WellFormed)
    (untouched : workspace.tree.Untouched) :
    ∃ report, engine.validationReport (engine.assignTree workspace).2.tree ⟨0⟩ = .ok report ∧
      (report.violations = [] ↔
        (engine.profile.firstViable? workspace.tree none ⟨0⟩).isSome = true) ∧
      ((∃ done, (engine.assignTree workspace).1 = .ok done) ↔
        (engine.profile.firstViable? workspace.tree none ⟨0⟩).isSome = true) := by
  have objectsKnown : workspace.ObjectsKnown := by
    intro id node object found recorded
    rw [untouched.withoutObjects id node found] at recorded
    exact absurd recorded (by simp)
  have noFault := engine.noStoreFault_assignTree objectsKnown
  have active := untouched.isActive_root wellFormed
  cases viable : engine.profile.firstViable? workspace.tree none ⟨0⟩ with
  | none =>
      obtain ⟨⟨error, failed⟩, report, isReport, someViolation⟩ :=
        exists_violation_of_not_viable wellFormed untouched viable noFault
      refine ⟨report, isReport, iff_of_false someViolation (by simp), iff_of_false ?_ (by simp)⟩
      rintro ⟨done, isDone⟩
      exact absurd (failed.symm.trans isDone) (by simp)
  | some candidate =>
      obtain ⟨done, isDone⟩ := exists_ok_of_firstViable?_root wellFormed
        (untouched.checkBinding engine) untouched.root active viable noFault
      obtain ⟨choice, assigned⟩ :=
        exists_assigned_of_assignTree_ok wellFormed untouched.root active isDone
      have live : (engine.assignTree workspace).2.tree.contains ⟨0⟩ = true := by
        rw [assigned.recorded.links.contains]
        exact contains_of_isActive active
      refine ⟨_, validationReport_of_bound assigned.bound live, iff_of_true ?_ rfl,
        iff_of_true ⟨done, isDone⟩ rfl⟩
      exact assigned.isFirst.validationReport_violations_eq_nil wellFormed assigned.recorded
        assigned.parentTyped (untouched.subTypesFit _ _)

end ProfileEngine

/-! ## Commands -/

namespace CommandLine

variable {system : FileSystem} {catalog : ProfileCatalog} {config : EngineConfig}
  {format : OutputFormat} {supply other : Supply} {path : RawPath}

/-- A report in a format. -/
def reportText (format : OutputFormat) (report : ValidationReport) : String :=
  match format with
  | .json => printedJson report.toJson
  | .text => printed (reportLines report)

theorem prepare_eq_ok_iff {engine : ProfileEngine} {workspace : Workspace MemoryStore} :
    prepare system catalog config supply path = .ok (engine, workspace) ↔
      (system.scan config.scan path supply).1 = .ok workspace.tree ∧
        catalog.resolve config.profile = .ok engine.profile ∧
        engine.rollbackOnFailure = config.rollbackOnFailure ∧
        workspace.store = MemoryStore.empty ∧
        workspace.supply = (system.scan config.scan path supply).2 := by
  obtain ⟨tree, store, rest⟩ := workspace
  obtain ⟨profile, rollsBack⟩ := engine
  rw [prepare]
  rcases system.scan config.scan path supply with ⟨error | scanned, last⟩
  · simp
  · rw [ProfileEngine.ofConfig]
    cases catalog.resolve config.profile with
    | error fault => simp
    | ok found =>
        simp only [Except.ok.injEq, Prod.mk.injEq, ProfileEngine.mk.injEq, Workspace.mk.injEq]
        constructor
        · rintro ⟨⟨rfl, rfl⟩, rfl, rfl, rfl⟩
          exact ⟨rfl, rfl, rfl, rfl, rfl⟩
        · rintro ⟨rfl, rfl, rfl, rfl, rfl⟩
          exact ⟨⟨rfl, rfl⟩, rfl, rfl, rfl⟩

/-- Both commands work on what was scanned, and it is the search that decides. -/
theorem exists_verdict_of_prepare {engine : ProfileEngine} {workspace : Workspace MemoryStore}
    (prepared : prepare system catalog config supply path = .ok (engine, workspace)) :
    workspace.tree.root = some ⟨0⟩ ∧
    ∃ report, engine.validationReport (engine.assignTree workspace).2.tree ⟨0⟩ = .ok report ∧
      (report.violations = [] ↔
        (engine.profile.firstViable? workspace.tree none ⟨0⟩).isSome = true) ∧
      ((∃ done, (engine.assignTree workspace).1 = .ok done) ↔
        (engine.profile.firstViable? workspace.tree none ⟨0⟩).isSome = true) := by
  obtain ⟨scanned, _⟩ := prepare_eq_ok_iff.1 prepared
  have grown := FileSystem.grown_scan scanned
  exact ⟨grown.untouched.root, verdict_of_untouched grown.wellFormed grown.untouched⟩

theorem code_assign {engine : ProfileEngine} {workspace : Workspace MemoryStore}
    (prepared : prepare system catalog config supply path = .ok (engine, workspace)) :
    (assign system catalog config format supply path).code = 0 ↔
      ∃ done, (engine.assignTree workspace).1 = .ok done := by
  cases outcome : (engine.assignTree workspace).1 with
  | error error =>
      simp [assign, prepared, outcome]
  | ok report =>
      cases format <;> simp [assign, prepared, outcome]

/-- A report is printed whenever a place could be scanned and the profile is there, and the code is one
when it is not empty. -/
theorem validate_of_report {engine : ProfileEngine} {workspace : Workspace MemoryStore}
    (prepared : prepare system catalog config supply path = .ok (engine, workspace))
    {report : ValidationReport}
    (isReport : engine.validationReport (engine.assignTree workspace).2.tree ⟨0⟩ = .ok report) :
    (validate system catalog config format supply path).stdout = reportText format report ∧
      (validate system catalog config format supply path).code =
        if report.violations = [] then 0 else 1 := by
  obtain ⟨isRoot, _⟩ := exists_verdict_of_prepare prepared
  have lastRoot := (root_assignTree engine workspace).trans isRoot
  rw [validate, prepared]
  simp only [lastRoot, isReport, ValidationReport.isValid, List.isEmpty_iff]
  exact ⟨by cases format <;> rfl, trivial⟩

theorem code_of_not_prepared {failure : Failure}
    (refused : prepare system catalog config supply path = .error failure) :
    (assign system catalog config format supply path).code = 1 ∧
      (validate system catalog config format supply path).code = 1 := by
  rw [assign, validate, refused]
  exact ⟨rfl, rfl⟩

section TwoRuns

variable {policy : Bool} {otherFormat : OutputFormat}
  (distinct : Set.InjOn supply.name
    (Set.Ico supply.used (system.scan config.scan path supply).2.used))
  (otherDistinct : Set.InjOn other.name
    (Set.Ico other.used (system.scan config.scan path other).2.used))

include distinct otherDistinct

/-- Whatever the names and the policy, preparing fails twice or gives trees that differ in names. -/
theorem prepare_cases :
    (∃ failure otherFailure, prepare system catalog config supply path = .error failure ∧
      prepare system catalog { config with rollbackOnFailure := policy } other path =
        .error otherFailure) ∨
    ∃ engine workspace otherEngine otherWorkspace,
      prepare system catalog config supply path = .ok (engine, workspace) ∧
      prepare system catalog { config with rollbackOnFailure := policy } other path =
        .ok (otherEngine, otherWorkspace) ∧
      otherEngine.profile = engine.profile ∧
      SameButNames workspace.tree otherWorkspace.tree := by
  have alongside := FileSystem.scan_alongside distinct otherDistinct
  simp only [prepare, ProfileEngine.ofConfig]
  generalize system.scan config.scan path supply = result at alongside ⊢
  generalize system.scan config.scan path other = otherResult at alongside ⊢
  obtain ⟨outcome, rest⟩ := result
  obtain ⟨otherOutcome, otherRest⟩ := otherResult
  cases alongside with
  | error error =>
      exact .inl ⟨_, _, rfl, rfl⟩
  | ok alike =>
      cases catalog.resolve config.profile with
      | error fault => exact .inl ⟨_, _, rfl, rfl⟩
      | ok profile => exact .inr ⟨_, _, _, _, rfl, rfl, rfl, alike⟩

theorem code_validate_eq_zero_iff :
    (validate system catalog config format supply path).code = 0 ↔
      (assign system catalog { config with rollbackOnFailure := policy } otherFormat other
        path).code = 0 := by
  rcases @prepare_cases system catalog config supply other path policy distinct otherDistinct with
    ⟨failure, otherFailure, refused, otherRefused⟩ |
      ⟨engine, workspace, otherEngine, otherWorkspace, prepared, otherPrepared, sameProfile, alike⟩
  · rw [(code_of_not_prepared refused).2, (code_of_not_prepared otherRefused).1]
  · obtain ⟨isRoot, report, isReport, isEmpty, _⟩ := exists_verdict_of_prepare prepared
    obtain ⟨_, _, _, _, isDone⟩ := exists_verdict_of_prepare otherPrepared
    have grown := FileSystem.grown_scan (prepare_eq_ok_iff.1 prepared).1
    have otherGrown := FileSystem.grown_scan (prepare_eq_ok_iff.1 otherPrepared).1
    have active := grown.untouched.isActive_root grown.wellFormed
    have sameViable := @firstViable?_eq_of_sameOutline engine.profile workspace.tree
      otherWorkspace.tree ⟨0⟩ grown.wellFormed otherGrown.wellFormed active (alike.sameOutline ⟨0⟩)
      none
    rw [code_assign otherPrepared, isDone, sameProfile, ← sameViable, ← isEmpty,
      (validate_of_report prepared isReport).2]
    simp

end TwoRuns

/-- Two command lines that ask to validate and to assign one place, the second with or without going
back on failure, and that choose the same configuration and profile, end with code zero together.
When the place can be scanned and the profile is there, validating prints a report, and ends with
code one exactly when the report has violations. -/
theorem verdicts_agree {validateWords assignWords : List String} {validating assigning : Invocation}
    {rollback : Bool} (asksToValidate : parse validateWords = some (.run validating))
    (isValidate : validating.command = .validate path)
    (asksToAssign : parse assignWords = some (.run assigning))
    (isAssign : assigning.command = .assign path rollback)
    (sameConfig : assigning.config = validating.config)
    (sameProfile : assigning.profile = validating.profile)
    (distinct : ∀ config, configure system validating = .ok config →
      Set.InjOn supply.name (Set.Ico supply.used (system.scan config.scan path supply).2.used))
    (otherDistinct : ∀ config, configure system validating = .ok config →
      Set.InjOn other.name (Set.Ico other.used (system.scan config.scan path other).2.used)) :
    ((run system supply validateWords).code = 0 ↔ (run system other assignWords).code = 0) ∧
      ∀ config tree profile, configure system validating = .ok config →
        (system.scan config.scan path supply).1 = .ok tree →
        ProfileCatalog.builtin.resolve config.profile = .ok profile →
        ∃ engine workspace report,
          prepare system ProfileCatalog.builtin config supply path = .ok (engine, workspace) ∧
          engine.validationReport (engine.assignTree workspace).2.tree ⟨0⟩ = .ok report ∧
          (run system supply validateWords).stdout = reportText validating.format report ∧
          (run system supply validateWords).code = if report.violations = [] then 0 else 1 := by
  have sameConfigured : configure system assigning = configure system validating := by
    rw [configure, configure, sameConfig, sameProfile]
  rw [run, run, asksToValidate, asksToAssign]
  simp only [sameConfigured, isValidate, isAssign]
  cases configured : configure system validating with
  | error failure =>
      exact ⟨Iff.rfl, fun config _ _ isConfig => absurd isConfig (by simp)⟩
  | ok config =>
      refine ⟨code_validate_eq_zero_iff (distinct config configured)
        (otherDistinct config configured), ?_⟩
      rintro _ tree profile ⟨⟩ scanned resolved
      have prepared : prepare system ProfileCatalog.builtin config supply path =
          .ok (⟨profile, config.rollbackOnFailure⟩,
            ⟨tree, MemoryStore.empty, (system.scan config.scan path supply).2⟩) :=
        prepare_eq_ok_iff.2 ⟨scanned, resolved, rfl, rfl, rfl⟩
      obtain ⟨_, report, isReport, _⟩ := exists_verdict_of_prepare prepared
      exact ⟨_, _, report, prepared, isReport, validate_of_report prepared isReport⟩

/-- A file system with nothing in it. -/
def barrenSystem : FileSystem :=
  { top := .directory [] {} }

theorem verdicts_agree_barrenSystem :
    parse ["validate", "/"] = some (.run ⟨.validate (.ofString "/"), none, none, .text, false⟩) ∧
      parse ["--format", "json", "assign", "/", "--rollback"] =
        some (.run ⟨.assign (.ofString "/") true, none, none, .json, false⟩) ∧
      ((run barrenSystem ⟨Session.tally, 0⟩ ["validate", "/"]).code = 0 ↔
        (run barrenSystem ⟨Session.tally, 7⟩
          ["--format", "json", "assign", "/", "--rollback"]).code = 0) ∧
      ∃ report, (run barrenSystem ⟨Session.tally, 0⟩ ["validate", "/"]).stdout =
        reportText .text report := by
  have asksToValidate : parse ["validate", "/"] =
      some (.run ⟨.validate (.ofString "/"), none, none, .text, false⟩) := by decide
  have asksToAssign : parse ["--format", "json", "assign", "/", "--rollback"] =
      some (.run ⟨.assign (.ofString "/") true, none, none, .json, false⟩) := by decide +kernel
  have isOk : (barrenSystem.scan {} (.ofString "/") ⟨Session.tally, 0⟩).1.isOk = true := by cbv
  obtain ⟨tree, scanned⟩ := exists_of_isOk isOk
  obtain ⟨agree, printed⟩ := @verdicts_agree barrenSystem ⟨Session.tally, 0⟩ ⟨Session.tally, 7⟩
    (.ofString "/") _ _ _ _ _ asksToValidate rfl asksToAssign rfl rfl rfl
    (fun _ _ => Session.tally_injective.injOn) (fun _ _ => Session.tally_injective.injOn)
  obtain ⟨_, _, report, _, _, shown, _⟩ :=
    printed EngineConfig.standard tree Pcdm.profile rfl scanned rfl
  exact ⟨asksToValidate, asksToAssign, agree, report, shown⟩

end CommandLine

end ContentTyping

import ContentTyping.Proofs.Engine.TypingOnly
import ContentTyping.Proofs.Scan.Growth
import ContentTyping.Proofs.Tree.SlotIndex

/-!
# Trees that are reached are read back

The index of a tree is not written. It is made anew from the slots, and this gives the index back in a tree
in which identifiers and index agree. They agree in every tree that scans, edits and calls on engines lead
to.
-/

namespace ContentTyping

open ContentTree ProfileEngine

namespace ContentTree

/-- The index made anew is the index of the tree, as long as no two nodes share an identifier. -/
theorem WellFormed.ofSlots_eq {tree : ContentTree} (wellFormed : tree.WellFormed) :
    ofSlots tree.nodes tree.root tree.profile = tree := by
  have same : indexOf tree.nodes = tree.index := by
    refine Std.ExtTreeMap.ext_getElem? fun identifier => Option.ext fun id => ?_
    rw [getElem?_indexOf_iff, wellFormed.getElem?_index_iff]
    constructor
    · intro isLast
      exact ⟨isLast.contains, isLast.named⟩
    · rintro ⟨live, named⟩
      refine ⟨live, named, fun other otherLive otherNamed => ?_⟩
      rw [wellFormed.eq_of_identifierOf_eq otherLive live (otherNamed.trans named.symm)]
  rw [ofSlots, same]

/-! ## Trees that are reached -/

/-- Clearing a tree only touches what well-formedness does not depend on. -/
theorem wellFormed_of_clearTyping {tree : ContentTree} (wellFormed : tree.clearTyping.WellFormed) :
    tree.WellFormed := by
  have agree {α : Type} {view : Node → α} (kept : ∀ node, view (Node.clearTyping node) = view node) :
      AgreeOn view tree tree.clearTyping := by
    refine ⟨Array.size_map.symm, fun id => ?_⟩
    rw [get?_clearTyping, Option.map_map]
    exact congrArg (Option.map · (tree.get? id)) (funext fun node => (kept node).symm)
  exact wellFormed.of_agreeOn (agree fun _ => rfl) (agree fun _ => rfl) rfl rfl

/-- The tree comes from the empty tree or a scan by edits and calls on engines, whether they succeed or
not. -/
inductive Reached : ContentTree → Prop
  | empty : Reached .empty
  | scanned {system : FileSystem} {options : ScanOptions} {path : RawPath} {supply : Supply}
      {tree : ContentTree} (found : (system.scan options path supply).1 = .ok tree) : Reached tree
  | edited {tree : ContentTree} {edit : Edit} {supply : Supply} (before : Reached tree)
      (admissible : edit.Admissible ⟨tree, supply⟩) : Reached (edit.perform ⟨tree, supply⟩).2.tree
  | operated {S : Type} [ObjectStore S] {engine : ProfileEngine} {call : EngineCall}
      {workspace : Workspace S} (before : Reached workspace.tree) :
      Reached (call.perform engine workspace).2.tree

theorem Reached.wellFormed {tree : ContentTree} (reached : tree.Reached) : tree.WellFormed := by
  induction reached with
  | empty =>
      exact wellFormed_empty
  | scanned found =>
      exact (FileSystem.grown_scan found).wellFormed
  | edited _ admissible inductionHypothesis =>
      exact Edit.wellFormed_perform admissible inductionHypothesis
  | @operated S _ engine call workspace _ inductionHypothesis =>
      have performed : EngineCall.Performed engine workspace call _
          (call.perform engine workspace).2 := EngineCall.performed rfl
      refine wellFormed_of_clearTyping ?_
      rw [performed.clearTyping_eq]
      exact inductionHypothesis.clearTyping

theorem Reached.run {edits : List Edit} {state : Copying} (before : state.tree.Reached)
    (admissible : Edit.AdmissibleRun edits state) : (Edit.run edits state).tree.Reached := by
  induction edits generalizing state with
  | nil =>
      exact before
  | cons edit edits inductionHypothesis =>
      exact inductionHypothesis (.edited before admissible.1) admissible.2

end ContentTree

/-! ## Reached trees are read back -/

/-- Handles are 32-bit words, and instants are those of the calendar. -/
structure Node.FitsMachine (node : Node) : Prop where
  relation : ∀ recorded, node.relation = some recorded → recorded.index < UInt32.size
  nodeType : ∀ recorded, node.nodeType = some recorded → recorded.index < UInt32.size
  subTypes : ∀ recorded ∈ node.subTypes, recorded.index < UInt32.size
  instants : ∀ info, node.file = some info → ∀ instant,
    info.modified = some instant ∨ info.created = some instant → instant.IsTime

namespace ContentTree

/-- The slots are counted by 64-bit words. -/
structure FitsMachine (tree : ContentTree) : Prop where
  slots : tree.nodes.size ≤ UInt64.size
  nodes : ∀ id node, tree.get? id = some node → node.FitsMachine

/-- The paths of all files are texts. -/
def HasTextPaths (tree : ContentTree) : Prop :=
  ∀ id node info, tree.get? id = some node → node.file = some info → info.path.toString?.isSome

theorem WellFormed.storable {tree : ContentTree} (wellFormed : tree.WellFormed)
    (fits : tree.FitsMachine) (textPaths : tree.HasTextPaths) : tree.Storable := by
  have small {id : NodeId} (live : tree.contains id = true) : id.index < UInt64.size :=
    Nat.lt_of_lt_of_le (index_lt_of_contains live) fits.slots
  refine ⟨fun id node found => ?_, fun id isRoot => small (wellFormed.root_contained id isRoot)⟩
  obtain ⟨relation, nodeType, subTypes, instants⟩ := fits.nodes id node found
  refine ⟨?_, ?_, relation, ?_, nodeType, subTypes⟩
  · intro above isParent
    have link : tree.parent? id = some above := parent?_eq_some_iff.2 ⟨node, found, isParent⟩
    exact small (wellFormed.contains_parent link)
  · intro child member
    have listed : child ∈ tree.children id := by
      rw [children, found]
      exact member
    exact small (wellFormed.contains_child listed)
  · intro info isFile
    exact ⟨textPaths id node info found isFile,
      fun instant isModified => instants info isFile instant (.inl isModified),
      fun instant isCreated => instants info isFile instant (.inr isCreated)⟩

/-- A reached tree is read back from its text, with its index. Any tree that was read is written and read
back as it is, and then written with the same text. -/
theorem survives_writing :
    (∀ tree : ContentTree, tree.Reached → tree.FitsMachine → tree.HasTextPaths →
      ∃ text, tree.toText = .ok text ∧ ofText text = .ok tree) ∧
    ∀ (text : String) (tree : ContentTree), ofText text = .ok tree →
      ∃ written, tree.toText = .ok written ∧
        ∃ again, ofText written = .ok again ∧ again = tree ∧ again.toText = .ok written := by
  constructor
  · intro tree reached fits textPaths
    have storable := reached.wellFormed.storable fits textPaths
    obtain ⟨text, written, read⟩ := storable.ofText_toText
    exact ⟨text, written, reached.wellFormed.ofSlots_eq ▸ read⟩
  · intro text tree wasRead
    obtain ⟨storable, isOfSlots⟩ := storable_of_ofText wasRead
    obtain ⟨text, written, read⟩ := storable.ofText_toText
    rw [isOfSlots] at read
    exact ⟨text, written, tree, read, rfl, written⟩

/-- A directory that was changed in a leap second. -/
def datedRoot : Node :=
  { identifier := "archive", name := "archive \"A\"", children := [⟨2⟩]
    object := some (RandomName.ofNat 0), nodeType := some Pcdm.object
    file := some
      { path := .ofString "/archive", kind := .directory, size := 0
        modified := some ⟨1483228799, 1500000000⟩ } }

/-- A file from before the beginning of the count, with a creation to the nanosecond. -/
def datedNote : Node :=
  { identifier := "note", name := "note", parent := some ⟨0⟩, relation := some Pcdm.fileOf
    object := some (RandomName.ofNat 1), nodeType := some Pcdm.file
    file := some
      { path := .ofString "/archive/note\n", kind := .regularFile, size := 0xFFFFFFFFFFFFFFFF
        checksum := some "00000000", modified := some ⟨-1, 250000000⟩, created := some ⟨0, 1⟩ } }

/-- The page is taken out again and leaves an empty slot. -/
def datedEdits : List Edit :=
  [.withRoot datedRoot.clearTyping, .addChild ⟨0⟩ { identifier := "page", name := "page" },
    .addChild ⟨0⟩ datedNote.clearTyping, .removeSubtree ⟨1⟩]

/-- The archive after its edits, with types set on both nodes. -/
def datedArchive : ContentTree :=
  let edited := Edit.run datedEdits ⟨.empty, RandomName.ofNat, 0⟩
  let typed := (EngineCall.atNode (.setNodeType ⟨0⟩ Pcdm.object)).perform pcdmEngine
    ⟨edited.tree, MemoryStore.empty, edited.supply⟩
  ((EngineCall.atNode (.setNodeType ⟨2⟩ Pcdm.file)).perform pcdmEngine typed.2).2.tree

theorem reached_datedArchive : datedArchive.Reached := by
  have admissible : Edit.AdmissibleRun datedEdits ⟨.empty, RandomName.ofNat, 0⟩ :=
    ⟨trivial, trivial, trivial, trivial, trivial⟩
  have edited : (Edit.run datedEdits ⟨.empty, RandomName.ofNat, 0⟩).tree.Reached :=
    Reached.empty.run admissible
  exact .operated (.operated edited)

theorem nodes_datedArchive :
    datedArchive.nodes.toList = [some datedRoot, none, some datedNote] := by
  decide +kernel

theorem eq_of_get?_datedArchive {id : NodeId} {node : Node}
    (found : datedArchive.get? id = some node) : node = datedRoot ∨ node = datedNote := by
  have member := List.mem_of_getElem? (get?_eq_some_iff.1 found)
  rw [nodes_datedArchive] at member
  simpa using member

theorem fitsMachine_datedArchive : datedArchive.FitsMachine := by
  constructor
  · rw [← Array.length_toList, nodes_datedArchive]
    decide
  · intro id node found
    have leap : Instant.IsTime ⟨1483228799, 1500000000⟩ := ⟨by decide, by decide, by decide⟩
    have early : Instant.IsTime ⟨-1, 250000000⟩ := ⟨by decide, by decide, by decide⟩
    have first : Instant.IsTime ⟨0, 1⟩ := ⟨by decide, by decide, by decide⟩
    rcases eq_of_get?_datedArchive found with rfl | rfl
    · refine ⟨by decide, by decide, List.forall_mem_nil _, fun info isFile instant isInstant => ?_⟩
      obtain rfl := Option.some.inj isFile
      rcases isInstant with isModified | isCreated
      · exact Option.some.inj isModified ▸ leap
      · exact absurd isCreated (by simp)
    · refine ⟨by decide, by decide, List.forall_mem_nil _, fun info isFile instant isInstant => ?_⟩
      obtain rfl := Option.some.inj isFile
      rcases isInstant with isModified | isCreated
      · exact Option.some.inj isModified ▸ early
      · exact Option.some.inj isCreated ▸ first

theorem survives_writing_datedArchive :
    datedArchive.Reached ∧ datedArchive.FitsMachine ∧ datedArchive.HasTextPaths ∧
      ∃ text, datedArchive.toText = .ok text ∧ ofText text = .ok datedArchive ∧
        ∃ written, datedArchive.toText = .ok written ∧
          ∃ again, ofText written = .ok again ∧ again = datedArchive ∧ again.toText = .ok written := by
  have textPaths : datedArchive.HasTextPaths := by
    intro id node info found isFile
    rcases eq_of_get?_datedArchive found with rfl | rfl
    · obtain rfl := Option.some.inj isFile
      rw [RawPath.toString?_ofString, Option.isSome_some]
    · obtain rfl := Option.some.inj isFile
      rw [RawPath.toString?_ofString, Option.isSome_some]
  obtain ⟨text, written, read⟩ :=
    survives_writing.1 datedArchive reached_datedArchive fitsMachine_datedArchive textPaths
  exact ⟨reached_datedArchive, fitsMachine_datedArchive, textPaths, text, written, read,
    survives_writing.2 text datedArchive read⟩

end ContentTree

end ContentTyping

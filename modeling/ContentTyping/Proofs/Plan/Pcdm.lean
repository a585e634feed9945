import ContentTyping.Profile.Pcdm
import ContentTyping.Proofs.Plan.FirstChoice

/-!
# Plans by the Portland Common Data Model

Files have to be leaves below objects. Everything else can be an object as soon as the files below
it are leaves, and a grouping when moreover none of its children is a file.
-/

namespace ContentTyping

namespace ContentTree

/-- One of the active children is a regular file. -/
def hasFileChild (tree : ContentTree) (id : NodeId) : Bool :=
  (tree.activeChildren id).any fun child => tree.fileKind child = some .regularFile

/-- No regular file of the active subtree has an active child. -/
def FilesAreLeaves (tree : ContentTree) (start : NodeId) : Prop :=
  ∀ id ∈ tree.activeSubtree start,
    tree.fileKind id = some .regularFile → tree.activeChildren id = []

theorem hasFileChild_eq_false_iff {tree : ContentTree} {id : NodeId} :
    tree.hasFileChild id = false ↔
      ∀ child ∈ tree.activeChildren id, tree.fileKind child ≠ some .regularFile := by
  rw [hasFileChild, List.any_eq_false]
  simp only [decide_eq_true_eq, ne_eq]

theorem filesAreLeaves_iff {tree : ContentTree} (wellFormed : tree.WellFormed) {id : NodeId}
    (active : tree.isActive id = true) :
    tree.FilesAreLeaves id ↔
      (tree.fileKind id = some .regularFile → tree.activeChildren id = []) ∧
        ∀ child ∈ tree.activeChildren id, tree.FilesAreLeaves child := by
  constructor
  · intro leaves
    refine ⟨leaves id (wellFormed.mem_activeSubtree_self active), ?_⟩
    intro child member inner listed
    exact leaves inner ((wellFormed.mem_activeSubtree_iff active).2 (.inr ⟨child, member, listed⟩))
  · rintro ⟨atStart, atChildren⟩ inner listed
    rcases (wellFormed.mem_activeSubtree_iff active).1 listed with rfl | ⟨child, member, below⟩
    · exact atStart
    · exact atChildren child member inner below

end ContentTree

namespace Pcdm

open ContentTree DomainProfile

variable {tree : ContentTree}

/-! ## What the profile declares -/

theorem siblingsIndependent : profile.SiblingsIndependent where
  childConstraint := by decide
  parentConstraint := by decide

theorem mem_typesForKind_cases {kind : Option FileKind} {type : NodeTypeId}
    (accepted : type ∈ profile.typesForKind kind) :
    type = administrativeSet ∨ type = collection ∨ type = object ∨ type = file := by
  have declared : type ∈ profile.typeIds := List.mem_of_mem_filter accepted
  have all : profile.typeIds = [administrativeSet, collection, object, file] := rfl
  rw [all] at declared
  simpa using declared

theorem mem_typesForKind_file_iff {kind : Option FileKind} :
    file ∈ profile.typesForKind kind ↔ kind ≠ some .directory := by
  rcases kind with _ | _ | _ <;> decide

theorem mem_typesForKind_grouping_iff {kind : Option FileKind} {type : NodeTypeId}
    (notFile : type = administrativeSet ∨ type = collection ∨ type = object) :
    type ∈ profile.typesForKind kind ↔ kind ≠ some .regularFile := by
  rcases notFile with rfl | rfl | rfl <;> rcases kind with _ | _ | _ <;> decide

theorem candidatesForKind_file (kind : Option FileKind) :
    profile.candidatesForKind kind (some file) = [] := by
  rcases kind with _ | _ | _ <;> decide

/-- The types that group objects and do not carry files. -/
def IsGrouping (type : NodeTypeId) : Prop :=
  type = administrativeSet ∨ type = collection

theorem candidatesForKind_grouping {kind : Option FileKind} {type : NodeTypeId}
    (grouping : IsGrouping type) :
    profile.candidatesForKind kind (some type) =
      if kind = some .regularFile then []
      else [⟨collection, some memberOf⟩, ⟨object, some memberOf⟩] := by
  rcases grouping with rfl | rfl <;> rcases kind with _ | _ | _ <;> decide

theorem candidatesForKind_root (kind : Option FileKind) :
    profile.candidatesForKind kind none =
      if kind = some .regularFile then []
      else [⟨administrativeSet, none⟩, ⟨collection, none⟩, ⟨object, none⟩] := by
  rcases kind with _ | _ | _ <;> decide

theorem candidatesForKind_object (kind : Option FileKind) :
    profile.candidatesForKind kind (some object) =
      match kind with
      | none => [⟨object, some memberOf⟩, ⟨file, some fileOf⟩]
      | some .directory => [⟨object, some memberOf⟩]
      | some .regularFile => [⟨file, some fileOf⟩] := by
  rcases kind with _ | _ | _ <;> decide

/-! ## Viable types -/

section Viable

variable (wellFormed : tree.WellFormed) {id : NodeId}

include wellFormed

/-- What makes a type viable where siblings do not constrain each other. -/
theorem viable_iff_children {type : NodeTypeId} :
    profile.viable tree id type = true ↔ type ∈ profile.typesForKind (tree.fileKind id) ∧
      ∀ child ∈ tree.activeChildren id,
        ∃ candidate ∈ profile.candidatesForKind (tree.fileKind child) (some type),
          profile.viable tree child candidate.nodeType = true := by
  rw [viable_iff wellFormed, siblingsIndependent.brokenChildConstraints_eq_nil]
  simp only [and_true]
  refine and_congr_right' (forall₂_congr fun child member => ?_)
  rw [candidates_eq_candidatesForKind (contains_of_mem_activeChildren member)]

theorem viable_file_iff :
    profile.viable tree id file = true ↔
      tree.fileKind id ≠ some .directory ∧ tree.activeChildren id = [] := by
  rw [viable_iff_children wellFormed, mem_typesForKind_file_iff]
  refine and_congr_right' ?_
  constructor
  · intro childrenPlaced
    refine List.eq_nil_iff_forall_not_mem.2 fun child member => ?_
    obtain ⟨candidate, isCandidate, _⟩ := childrenPlaced child member
    rw [candidatesForKind_file] at isCandidate
    exact List.not_mem_nil isCandidate
  · intro noChildren child member
    rw [noChildren] at member
    exact absurd member List.not_mem_nil

theorem filesAreLeaves_of_viable_file (active : tree.isActive id = true)
    (suitable : profile.viable tree id file = true) : tree.FilesAreLeaves id := by
  have noChildren := ((viable_file_iff wellFormed).1 suitable).2
  refine (filesAreLeaves_iff wellFormed active).2 ⟨fun _ => noChildren, ?_⟩
  intro child member
  rw [noChildren] at member
  exact absurd member List.not_mem_nil

theorem exists_viable_below_object_iff (active : tree.isActive id = true)
    (objectIff : profile.viable tree id object = true ↔
      tree.fileKind id ≠ some .regularFile ∧ tree.FilesAreLeaves id) :
    (∃ candidate ∈ profile.candidatesForKind (tree.fileKind id) (some object),
        profile.viable tree id candidate.nodeType = true) ↔ tree.FilesAreLeaves id := by
  have leaves := filesAreLeaves_of_viable_file wellFormed active
  rw [candidatesForKind_object]
  rcases kind : tree.fileKind id with _ | _ | _
  · have notFile : tree.fileKind id ≠ some .regularFile := by simp [kind]
    simp only [List.mem_cons, List.not_mem_nil, or_false, exists_eq_or_imp, exists_eq_left,
      objectIff]
    constructor
    · rintro (⟨_, isLeaves⟩ | suitable)
      · exact isLeaves
      · exact leaves suitable
    · intro isLeaves
      exact .inl ⟨notFile, isLeaves⟩
  · have notFile : tree.fileKind id ≠ some .regularFile := by simp [kind]
    simp only [List.mem_singleton, exists_eq_left, objectIff]
    constructor
    · rintro ⟨_, isLeaves⟩
      exact isLeaves
    · intro isLeaves
      exact ⟨notFile, isLeaves⟩
  · have notDirectory : tree.fileKind id ≠ some .directory := by simp [kind]
    simp only [List.mem_singleton, exists_eq_left]
    constructor
    · exact leaves
    · intro isLeaves
      have noChildren := ((filesAreLeaves_iff wellFormed active).1 isLeaves).1 kind
      exact (viable_file_iff wellFormed).2 ⟨notDirectory, noChildren⟩

theorem viable_object_iff (active : tree.isActive id = true) :
    profile.viable tree id object = true ↔
      tree.fileKind id ≠ some .regularFile ∧ tree.FilesAreLeaves id := by
  refine wellFormed.active_induction
    (motive := fun id => profile.viable tree id object = true ↔
      tree.fileKind id ≠ some .regularFile ∧ tree.FilesAreLeaves id) ?_ active
  intro id active inductionHypothesis
  rw [viable_iff_children wellFormed, mem_typesForKind_grouping_iff (.inr (.inr rfl)),
    filesAreLeaves_iff wellFormed active]
  refine and_congr_right fun notFile => ?_
  have childIff : ∀ child ∈ tree.activeChildren id,
      (∃ candidate ∈ profile.candidatesForKind (tree.fileKind child) (some object),
        profile.viable tree child candidate.nodeType = true) ↔ tree.FilesAreLeaves child :=
    fun child member => exists_viable_below_object_iff wellFormed
      (isActive_of_mem_activeChildren member) (inductionHypothesis child member)
  constructor
  · intro placed
    exact ⟨fun isFile => absurd isFile notFile, fun child member =>
      (childIff child member).1 (placed child member)⟩
  · rintro ⟨_, leaves⟩ child member
    exact (childIff child member).2 (leaves child member)

/-- A node can be a grouping when it could be an object and none of its children is a file. -/
theorem viable_grouping_iff (active : tree.isActive id = true) {type : NodeTypeId}
    (grouping : IsGrouping type) :
    profile.viable tree id type = true ↔
      tree.fileKind id ≠ some .regularFile ∧ tree.FilesAreLeaves id ∧
        tree.hasFileChild id = false := by
  refine wellFormed.active_induction
    (motive := fun id => ∀ {type : NodeTypeId}, IsGrouping type →
      (profile.viable tree id type = true ↔ tree.fileKind id ≠ some .regularFile ∧
        tree.FilesAreLeaves id ∧ tree.hasFileChild id = false)) ?_ active grouping
  intro id active inductionHypothesis type grouping
  have isGroupingOrObject : type = administrativeSet ∨ type = collection ∨ type = object :=
    grouping.elim .inl fun isCollection => .inr (.inl isCollection)
  rw [viable_iff_children wellFormed, mem_typesForKind_grouping_iff isGroupingOrObject,
    filesAreLeaves_iff wellFormed active, hasFileChild_eq_false_iff]
  refine and_congr_right fun notFile => ?_
  have childIff : ∀ child ∈ tree.activeChildren id,
      (∃ candidate ∈ profile.candidatesForKind (tree.fileKind child) (some type),
        profile.viable tree child candidate.nodeType = true) ↔
        tree.FilesAreLeaves child ∧ tree.fileKind child ≠ some .regularFile := by
    intro child member
    have objectIff := viable_object_iff wellFormed (isActive_of_mem_activeChildren member)
    have collectionIff := inductionHypothesis child member (.inr rfl)
    rw [candidatesForKind_grouping grouping]
    by_cases isFile : tree.fileKind child = some .regularFile
    · simp [isFile]
    · simp only [isFile, if_false, List.mem_cons, List.not_mem_nil, or_false, exists_eq_or_imp,
        exists_eq_left, objectIff, collectionIff]
      constructor
      · rintro (⟨_, isLeaves, _⟩ | ⟨_, isLeaves⟩)
        · exact ⟨isLeaves, isFile⟩
        · exact ⟨isLeaves, isFile⟩
      · rintro ⟨isLeaves, _⟩
        exact .inr ⟨isFile, isLeaves⟩
  constructor
  · intro placed
    refine ⟨⟨fun isFile => absurd isFile notFile, fun child member => ?_⟩, fun child member => ?_⟩
    · exact ((childIff child member).1 (placed child member)).1
    · exact ((childIff child member).1 (placed child member)).2
  · rintro ⟨⟨_, leaves⟩, noFiles⟩ child member
    exact (childIff child member).2 ⟨leaves child member, noFiles child member⟩

/-! ## First choices -/

end Viable

/-- The type and the relation of a node, given whether it is the root and whether its parent is an
object. -/
def closedForm (tree : ContentTree) (isRoot belowObject : Bool) (id : NodeId) : Candidate :=
  if tree.fileKind id = some .regularFile then ⟨file, some fileOf⟩
  else
    ⟨if tree.hasFileChild id || belowObject then object
      else if isRoot then administrativeSet else collection,
      if isRoot then none else some memberOf⟩

section FirstChoice

variable (wellFormed : tree.WellFormed) {id : NodeId}

include wellFormed

theorem filesAreLeaves_of_viable (active : tree.isActive id = true) {type : NodeTypeId}
    (suitable : profile.viable tree id type = true) : tree.FilesAreLeaves id := by
  have accepted := ((viable_iff_children wellFormed).1 suitable).1
  rcases mem_typesForKind_cases accepted with rfl | rfl | rfl | rfl
  · exact ((viable_grouping_iff wellFormed active (.inl rfl)).1 suitable).2.1
  · exact ((viable_grouping_iff wellFormed active (.inr rfl)).1 suitable).2.1
  · exact ((viable_object_iff wellFormed active).1 suitable).2
  · exact filesAreLeaves_of_viable_file wellFormed active suitable

theorem find?_grouping_object {type : NodeTypeId} (active : tree.isActive id = true)
    (grouping : IsGrouping type) (notFile : tree.fileKind id ≠ some .regularFile)
    (leaves : tree.FilesAreLeaves id) {relation : Option RelationId} (between : List Candidate)
    (isBetween : ∀ candidate ∈ between, IsGrouping candidate.nodeType) :
    ((⟨type, relation⟩ :: (between ++ [⟨object, relation⟩])).find? fun candidate : Candidate =>
        profile.viable tree id candidate.nodeType) =
      some ⟨if tree.hasFileChild id then object else type, relation⟩ := by
  have objectViable := (viable_object_iff wellFormed active).2 ⟨notFile, leaves⟩
  cases hasFile : tree.hasFileChild id with
  | false =>
      have typeViable := (viable_grouping_iff wellFormed active grouping).2
        ⟨notFile, leaves, hasFile⟩
      simp [typeViable]
  | true =>
      have notViable : ∀ other, IsGrouping other → profile.viable tree id other = false := by
        intro other otherGrouping
        rw [Bool.eq_false_iff]
        intro suitable
        have noFile := ((viable_grouping_iff wellFormed active otherGrouping).1 suitable).2.2
        rw [hasFile] at noFile
        exact absurd noFile (by simp)
      have skipped : (between.find? fun candidate : Candidate =>
          profile.viable tree id candidate.nodeType) = none := by
        refine List.find?_eq_none.2 fun candidate member => ?_
        rw [notViable _ (isBetween candidate member)]
        simp
      simp [notViable type grouping, List.find?_append, skipped, objectViable]

theorem firstViable?_root (active : tree.isActive id = true)
    (notFile : tree.fileKind id ≠ some .regularFile) (leaves : tree.FilesAreLeaves id) :
    profile.firstViable? tree none id = some (closedForm tree true false id) := by
  have live := contains_of_isActive active
  have onlyCollection : ∀ candidate ∈ [Candidate.mk collection none],
      IsGrouping candidate.nodeType := by
    intro candidate member
    rw [List.mem_singleton.1 member]
    exact .inr rfl
  rw [firstViable?, firstSuitable?, candidates_eq_candidatesForKind live, candidatesForKind_root,
    if_neg notFile, closedForm, if_neg notFile, Bool.or_false]
  exact find?_grouping_object wellFormed active (.inl rfl) notFile leaves _ onlyCollection

theorem exists_firstViable?_root_iff (active : tree.isActive id = true) :
    (∃ chosen, profile.firstViable? tree none id = some chosen) ↔
      tree.fileKind id ≠ some .regularFile ∧ tree.FilesAreLeaves id := by
  constructor
  · rintro ⟨chosen, first⟩
    have member := mem_candidates_of_firstSuitable? first
    rw [candidates_eq_candidatesForKind (contains_of_isActive active), candidatesForKind_root]
      at member
    refine ⟨fun isFile => ?_, filesAreLeaves_of_viable wellFormed active
      (viable_of_firstViable? first)⟩
    rw [if_pos isFile] at member
    exact List.not_mem_nil member
  · rintro ⟨notFile, leaves⟩
    exact ⟨_, firstViable?_root wellFormed active notFile leaves⟩

theorem firstViable?_below_object (active : tree.isActive id = true)
    (leaves : tree.FilesAreLeaves id) :
    profile.firstViable? tree (some object) id = some (closedForm tree false true id) := by
  have live := contains_of_isActive active
  have objectIff := viable_object_iff wellFormed active
  rw [firstViable?, firstSuitable?, candidates_eq_candidatesForKind live,
    candidatesForKind_object, closedForm, Bool.or_true]
  rcases kind : tree.fileKind id with _ | _ | _
  · have suitable := objectIff.2 ⟨by simp [kind], leaves⟩
    simp [suitable]
  · have suitable := objectIff.2 ⟨by simp [kind], leaves⟩
    simp [suitable]
  · have noChildren := ((filesAreLeaves_iff wellFormed active).1 leaves).1 kind
    have suitable := (viable_file_iff wellFormed).2 ⟨by simp [kind], noChildren⟩
    simp [suitable]

/-- Below a viable type every child is given its closed form. -/
theorem firstViable?_child (active : tree.isActive id = true) {type : NodeTypeId}
    (suitable : profile.viable tree id type = true) {child : NodeId}
    (member : child ∈ tree.activeChildren id) :
    profile.firstViable? tree (some type) child =
      some (closedForm tree false (type = object) child) := by
  have childActive := isActive_of_mem_activeChildren member
  have live := contains_of_mem_activeChildren member
  have accepted := ((viable_iff_children wellFormed).1 suitable).1
  have leaves : tree.FilesAreLeaves child :=
    ((filesAreLeaves_iff wellFormed active).1
      (filesAreLeaves_of_viable wellFormed active suitable)).2 child member
  have belowGrouping : IsGrouping type → type ≠ object →
      profile.firstViable? tree (some type) child =
        some (closedForm tree false (type = object) child) := by
    intro grouping notObject
    -- A viable grouping has no file among its children.
    have noFiles := ((viable_grouping_iff wellFormed active grouping).1 suitable).2.2
    have notFile := hasFileChild_eq_false_iff.1 noFiles child member
    rw [firstViable?, firstSuitable?, candidates_eq_candidatesForKind live,
      candidatesForKind_grouping grouping, if_neg notFile, closedForm, if_neg notFile,
      decide_eq_false notObject, Bool.or_false]
    exact find?_grouping_object wellFormed childActive (.inr rfl) notFile leaves [] (by simp)
  rcases mem_typesForKind_cases accepted with rfl | rfl | rfl | rfl
  · exact belowGrouping (.inl rfl) (by decide)
  · exact belowGrouping (.inr rfl) (by decide)
  · exact firstViable?_below_object wellFormed childActive leaves
  · rw [((viable_file_iff wellFormed).1 suitable).2] at member
    exact absurd member List.not_mem_nil

/-- The first choice for a whole tree is the closed form at every node. -/
theorem firstChoice_eq_closedForm {root : NodeId} (noParent : tree.parent? root = none)
    {choice : NodeId → Candidate} (isFirst : profile.FirstChoice tree root none choice)
    (listed : id ∈ tree.activeSubtree root) :
    choice id = closedForm tree (id = root)
      ((tree.parent? id).any fun parent => (choice parent).nodeType = object) id := by
  by_cases isRoot : id = root
  · subst isRoot
    have active := isActive_of_mem_activeSubtree listed
    obtain ⟨notFile, leaves⟩ :=
      (exists_firstViable?_root_iff wellFormed active).1 ⟨_, isFirst.atStart⟩
    have first := firstViable?_root wellFormed active notFile leaves
    rw [noParent, Option.any_none, decide_eq_true rfl]
    exact Option.some.inj (isFirst.atStart.symm.trans first)
  · obtain ⟨parent, parentListed, member, first⟩ :=
      isFirst.child_of_parent wellFormed listed isRoot
    have closed := firstViable?_child wellFormed (isActive_of_mem_activeSubtree parentListed)
      (isFirst.viable wellFormed parentListed) member
    rw [wellFormed.parent?_of_mem_activeChildren member, Option.any_some,
      decide_eq_false isRoot]
    exact Option.some.inj (first.symm.trans closed)

end FirstChoice

end Pcdm

end ContentTyping

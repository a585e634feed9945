import ContentTyping.Tree.Path
import ContentTyping.Proofs.Tree.Growth

/-!
# Paths lead back to their nodes

A path is divided into names, and the names are followed down from the root. When siblings have different
names and every name below the root can stand in a path, the path that is made of the names on the way down
to a node leads to this node, and every other path that does is a longer way to write the same one.
-/

namespace ContentTyping

/-! ## Dividing and joining -/

theorem Text.pieces_eq_splitOn (separator : Char) (text : List Char) :
    pieces separator text = text.splitOn separator := by
  induction text with
  | nil =>
      rfl
  | cons c rest inductionHypothesis =>
      rw [pieces, List.splitOn_cons_eq_if_modifyHead, ← inductionHypothesis]
      by_cases isSeparator : c = separator
      · rw [if_pos isSeparator, if_pos (beq_iff_eq.2 isSeparator)]
      · rw [if_neg isSeparator, if_neg (fun same => isSeparator (beq_iff_eq.1 same))]
        cases further : pieces separator rest with
        | nil =>
            rw [inductionHypothesis] at further
            exact absurd further (List.splitOn_ne_nil separator rest)
        | cons piece others =>
            rfl

theorem Text.not_mem_of_mem_pieces {separator : Char} {text piece : List Char}
    (member : piece ∈ pieces separator text) : separator ∉ piece := by
  induction text generalizing piece with
  | nil =>
      rw [pieces, List.mem_singleton] at member
      rw [member]
      exact List.not_mem_nil
  | cons c rest inductionHypothesis =>
      rw [pieces] at member
      by_cases isSeparator : c = separator
      · rw [if_pos isSeparator, List.mem_cons] at member
        rcases member with rfl | further
        · exact List.not_mem_nil
        · exact inductionHypothesis further
      · rw [if_neg isSeparator] at member
        cases divided : pieces separator rest with
        | nil =>
            rw [divided, List.mem_singleton] at member
            rw [member, List.mem_singleton]
            exact Ne.symm isSeparator
        | cons first others =>
            rw [divided] at inductionHypothesis member
            rcases List.mem_cons.1 member with rfl | further
            · rw [List.mem_cons, not_or]
              exact ⟨Ne.symm isSeparator, inductionHypothesis List.mem_cons_self⟩
            · exact inductionHypothesis (List.mem_cons_of_mem first further)

namespace ContentTree

/-- The name can stand in a path. -/
def IsPathName (name : String) : Prop :=
  name ≠ "" ∧ name ≠ "." ∧ '/' ∉ name.toList

instance (name : String) : Decidable (IsPathName name) :=
  inferInstanceAs (Decidable (_ ∧ _ ∧ _))

/-- The path without its empty segments and single dots. -/
def tidied (path : String) : String :=
  String.intercalate "/" (((path.toList.splitOn '/').map String.ofList).filter fun segment =>
    segment ≠ "" ∧ segment ≠ ".")

theorem intercalate_pathNames (path : String) :
    String.intercalate "/" (pathNames path) = tidied path := by
  rw [pathNames, Text.pieces_eq_splitOn, tidied]

theorem isPathName_of_mem_pathNames {path name : String} (member : name ∈ pathNames path) :
    IsPathName name := by
  rw [pathNames, List.mem_filter, decide_eq_true_eq, List.mem_map] at member
  obtain ⟨⟨piece, isPiece, rfl⟩, nonempty, noDot⟩ := member
  refine ⟨nonempty, noDot, ?_⟩
  rw [String.toList_ofList]
  exact Text.not_mem_of_mem_pieces isPiece

/-- Names that are joined to a path are found again in it. -/
theorem pathNames_intercalate {names : List String} (each : ∀ name ∈ names, IsPathName name) :
    pathNames (String.intercalate "/" names) = names := by
  by_cases nothing : names = []
  · rw [nothing]
    decide
  · have slashless : ∀ letters ∈ names.map String.toList, '/' ∉ letters := by
      intro letters member
      obtain ⟨name, listed, rfl⟩ := List.mem_map.1 member
      exact (each name listed).2.2
    have nonempty : names.map String.toList ≠ [] := fun empty => nothing (List.map_eq_nil_iff.1 empty)
    have divided := List.splitOn_intercalate '/' slashless nonempty
    have slash : "/".toList = ['/'] := rfl
    rw [pathNames, Text.pieces_eq_splitOn, String.toList_intercalate, slash, divided, List.map_map]
    have sameNames : String.ofList ∘ String.toList = id := funext fun name => String.ofList_toList
    rw [sameNames, List.map_id, List.filter_eq_self]
    intro name member
    rw [decide_eq_true_eq]
    exact ⟨(each name member).1, (each name member).2.1⟩

/-! ## Names on the way -/

variable {tree : ContentTree}

/-- The name of the node in a slot. -/
def name? (tree : ContentTree) (id : NodeId) : Option String :=
  (tree.get? id).map Node.name

/-- Names below the root can stand in paths, and siblings have different ones. -/
structure NamedForPaths (tree : ContentTree) : Prop where
  isPathName : ∀ id name, tree.root ≠ some id → tree.name? id = some name → IsPathName name
  distinct : ∀ id, ∀ first ∈ tree.children id, ∀ second ∈ tree.children id,
    tree.name? first = tree.name? second → first = second

theorem exists_name?_of_contains {id : NodeId} (live : tree.contains id = true) :
    ∃ name, tree.name? id = some name := by
  obtain ⟨node, found⟩ := contains_iff.1 live
  exact ⟨node.name, by rw [name?, found]; rfl⟩

theorem any_name_eq_true_iff {id : NodeId} {name : String} :
    (tree.get? id).any (·.name = name) = true ↔ tree.name? id = some name := by
  rw [name?]
  cases tree.get? id with
  | none => simp
  | some node => simp

theorem childNamed?_eq_some {id child : NodeId} {name : String}
    (found : tree.childNamed? id name = some child) :
    child ∈ tree.children id ∧ tree.name? child = some name := by
  rw [childNamed?] at found
  have isName := List.find?_some found
  exact ⟨List.mem_of_find?_eq_some found, any_name_eq_true_iff.1 isName⟩

theorem NamedForPaths.childNamed?_eq (named : tree.NamedForPaths) {id child : NodeId} {name : String}
    (member : child ∈ tree.children id) (isName : tree.name? child = some name) :
    tree.childNamed? id name = some child := by
  cases found : tree.childNamed? id name with
  | none =>
      have nowhere := List.find?_eq_none.1 found child member
      exact absurd (any_name_eq_true_iff.2 isName) nowhere
  | some other =>
      obtain ⟨isChild, alsoName⟩ := childNamed?_eq_some found
      rw [named.distinct id other isChild child member (alsoName.trans isName.symm)]

namespace WellFormed

variable (wellFormed : tree.WellFormed)

include wellFormed

theorem namesTo_root {root : NodeId} (isRoot : tree.root = some root) : tree.namesTo root = [] := by
  have top := wellFormed.root_parent root isRoot
  have noneAbove : tree.ancestors root = [] :=
    (wellFormed.lineage_ancestors (wellFormed.root_contained root isRoot)).unique (.top top)
  rw [namesTo, noneAbove]
  cases found : tree.get? root with
  | none =>
      rfl
  | some node =>
      have noParent : node.parent = none := (parent?_of_get? found).symm.trans top
      simp [noParent]

/-- Down to a child there is one name more. -/
theorem namesTo_of_parent? {id parent : NodeId} {name : String}
    (link : tree.parent? id = some parent) (isName : tree.name? id = some name) :
    tree.namesTo id = tree.namesTo parent ++ [name] := by
  obtain ⟨node, found, isParent⟩ := parent?_eq_some_iff.1 link
  obtain ⟨above, parentFound⟩ := contains_iff.1 (wellFormed.contains_parent link)
  have sameName : node.name = name := by
    rw [name?, found] at isName
    exact Option.some.inj isName
  have parentAbove := parent?_of_get? parentFound
  rw [namesTo, namesTo, wellFormed.ancestors_of_parent? link, found, parentFound, List.reverse_cons]
  simp only [isParent, Option.isSome_some, if_pos, sameName]
  refine congrArg (· ++ [name]) ?_
  cases upper : above.parent with
  | none =>
      -- The parent is the root, whose own name does not count.
      rw [upper] at parentAbove
      have noneAbove : tree.ancestors parent = [] :=
        (wellFormed.lineage_ancestors (wellFormed.contains_parent link)).unique (.top parentAbove)
      simp [noneAbove]
  | some grandparent =>
      rw [upper] at parentAbove
      rw [wellFormed.ancestors_of_parent? parentAbove, List.drop_append_of_le_length (by simp),
        List.filterMap_append]
      simp [parentFound]

theorem isPathName_of_mem_namesTo (named : tree.NamedForPaths) {id : NodeId}
    (live : tree.contains id = true) : ∀ name ∈ tree.namesTo id, IsPathName name := by
  obtain ⟨root, isRoot, below⟩ := wellFormed.rooted id live
  clear live
  induction below with
  | self =>
      rw [wellFormed.namesTo_root isRoot]
      exact List.forall_mem_nil _
  | @child parent id link _ inductionHypothesis =>
      obtain ⟨name, isName⟩ := exists_name?_of_contains (contains_of_parent? link)
      rw [wellFormed.namesTo_of_parent? link isName, List.forall_mem_append, List.forall_mem_singleton]
      refine ⟨inductionHypothesis, named.isPathName id name ?_ isName⟩
      intro isTop
      rw [wellFormed.root_parent id isTop] at link
      exact absurd link (by simp)

theorem pathNames_pathOf (named : tree.NamedForPaths) {id : NodeId} (live : tree.contains id = true) :
    pathNames (tree.pathOf id) = tree.namesTo id :=
  pathNames_intercalate (wellFormed.isPathName_of_mem_namesTo named live)

/-! ## The way down -/

/-- The names that were followed come behind those of the start. -/
theorem namesTo_of_followed {names : List String} {start id : NodeId}
    (live : tree.contains start = true)
    (followed : names.foldlM tree.childNamed? start = some id) :
    tree.contains id = true ∧ tree.namesTo id = tree.namesTo start ++ names := by
  induction names generalizing start with
  | nil =>
      obtain rfl : start = id := Option.some.inj followed
      exact ⟨live, (List.append_nil _).symm⟩
  | cons name names inductionHypothesis =>
      rw [List.foldlM_cons, Option.bind_eq_bind, Option.bind_eq_some_iff] at followed
      obtain ⟨child, found, further⟩ := followed
      obtain ⟨member, isName⟩ := childNamed?_eq_some found
      obtain ⟨idLive, names⟩ := inductionHypothesis (wellFormed.contains_child member) further
      refine ⟨idLive, ?_⟩
      rw [names, wellFormed.namesTo_of_parent? (wellFormed.parent_of_child start child member) isName,
        List.append_assoc, List.singleton_append]

theorem follow_namesTo (named : tree.NamedForPaths) {root id : NodeId} (isRoot : tree.root = some root)
    (live : tree.contains id = true) :
    (tree.namesTo id).foldlM tree.childNamed? root = some id := by
  obtain ⟨top, isTop, below⟩ := wellFormed.rooted id live
  obtain rfl : root = top := Option.some.inj (isRoot.symm.trans isTop)
  clear live
  induction below with
  | self =>
      rw [wellFormed.namesTo_root isRoot]
      rfl
  | @child parent id link _ inductionHypothesis =>
      obtain ⟨name, isName⟩ := exists_name?_of_contains (contains_of_parent? link)
      have member := wellFormed.child_of_parent id parent link
      rw [wellFormed.namesTo_of_parent? link isName, List.foldlM_append, inductionHypothesis,
        Option.bind_eq_bind, Option.bind_some, List.foldlM_cons, named.childNamed?_eq member isName]
      rfl

theorem findByPath?_pathOf (named : tree.NamedForPaths) {id : NodeId}
    (live : tree.contains id = true) : tree.findByPath? (tree.pathOf id) = some id := by
  obtain ⟨root, isRoot, _⟩ := wellFormed.rooted id live
  rw [findByPath?, isRoot, wellFormed.pathNames_pathOf named live]
  exact wellFormed.follow_namesTo named isRoot live

/-- A path leads to a node when it is that of the node up to empty segments and single dots. -/
theorem findByPath?_eq_some_iff (named : tree.NamedForPaths) {path : String} {id : NodeId} :
    tree.findByPath? path = some id ↔
      tree.contains id = true ∧ tree.pathOf id = tidied path := by
  constructor
  · intro found
    rw [findByPath?] at found
    cases isRoot : tree.root with
    | none =>
        rw [isRoot] at found
        exact absurd found (by simp)
    | some root =>
        rw [isRoot] at found
        obtain ⟨live, names⟩ :=
          wellFormed.namesTo_of_followed (wellFormed.root_contained root isRoot) found
        refine ⟨live, ?_⟩
        rw [pathOf, names, wellFormed.namesTo_root isRoot, List.nil_append, intercalate_pathNames]
  · rintro ⟨live, samePath⟩
    obtain ⟨root, isRoot, _⟩ := wellFormed.rooted id live
    have sameNames : pathNames path = tree.namesTo id := by
      rw [← wellFormed.pathNames_pathOf named live, samePath, ← intercalate_pathNames]
      exact (pathNames_intercalate fun name member => isPathName_of_mem_pathNames member).symm
    rw [findByPath?, isRoot, sameNames]
    exact wellFormed.follow_namesTo named isRoot live

end WellFormed

/-- Paths and nodes go round: the path of a node leads to it and to no other node, and a path that leads to
a node is that of the node once its empty segments and single dots are dropped. -/
theorem paths_lead_back (wellFormed : tree.WellFormed) (named : tree.NamedForPaths) :
    (∀ id, tree.contains id = true → tree.findByPath? (tree.pathOf id) = some id) ∧
      (∀ first second, tree.contains first = true → tree.contains second = true →
        tree.pathOf first = tree.pathOf second → first = second) ∧
      ∀ path id, tree.findByPath? path = some id ↔
        tree.contains id = true ∧ tree.pathOf id = tidied path := by
  refine ⟨fun id => wellFormed.findByPath?_pathOf named, ?_,
    fun path id => wellFormed.findByPath?_eq_some_iff named⟩
  intro first second firstLive secondLive samePath
  have firstFound := wellFormed.findByPath?_pathOf named firstLive
  rw [samePath, wellFormed.findByPath?_pathOf named secondLive] at firstFound
  exact (Option.some.inj firstFound).symm

theorem namedForPaths_smallArchive : smallArchive.NamedForPaths := by
  have pathNames : ∀ slot < 4, slot = 0 ∨ ∃ name,
      smallArchive.name? ⟨slot⟩ = some name ∧ IsPathName name := by
    intro slot inside
    match slot with
    | 0 => exact .inl rfl
    | 1 => exact .inr ⟨"item", rfl, by decide⟩
    | 2 => exact .inr ⟨"page.tif", rfl, by decide⟩
    | 3 => exact .inr ⟨"notes.txt", rfl, by decide⟩
  have siblings : ∀ slot < 4, ∀ first ∈ smallArchive.children ⟨slot⟩,
      ∀ second ∈ smallArchive.children ⟨slot⟩,
        smallArchive.name? first = smallArchive.name? second → first = second := by
    decide
  constructor
  · intro id name notRoot isName
    have live : smallArchive.contains id = true := by
      rw [contains, ← Option.isSome_map, ← name?, isName]
      rfl
    rcases pathNames id.index (index_lt_of_contains live) with isTop | ⟨other, isOther, fits⟩
    · exact absurd (congrArg (some ∘ NodeId.mk) isTop.symm) notRoot
    · obtain rfl := Option.some.inj (isName.symm.trans isOther)
      exact fits
  · intro id first isFirst
    exact siblings id.index (index_lt_of_contains (contains_of_mem_children isFirst)) first isFirst

theorem paths_lead_back_smallArchive :
    smallArchive.WellFormed ∧ smallArchive.NamedForPaths ∧
      smallArchive.findByPath? (smallArchive.pathOf ⟨2⟩) = some ⟨2⟩ ∧
      smallArchive.findByPath? "./item//page.tif/" = some ⟨2⟩ := by
  obtain ⟨found, _, resolves⟩ := paths_lead_back wellFormed_smallArchive namedForPaths_smallArchive
  have samePath : smallArchive.pathOf ⟨2⟩ = tidied "./item//page.tif/" := by
    decide +kernel
  exact ⟨wellFormed_smallArchive, namedForPaths_smallArchive, found ⟨2⟩ rfl,
    (resolves _ _).2 ⟨rfl, samePath⟩⟩

end ContentTree

end ContentTyping

import Mathlib.Data.List.Nodup
import ContentTyping.Scan.Walk

/-!
# Entries of file systems

In a file system whose directories give each entry a name of its own an entry is found by its location.
Names that are joined to a path come behind its components, and a path that leads to a directory or a
file leads there whether a link at its end would be followed or not.
-/

namespace ContentTyping

/-- A name that a directory can give to an entry. A single dot would be skipped in a path. -/
def IsEntryName (name : FileName) : Prop :=
  name ≠ [] ∧ RawPath.slash ∉ name ∧ name ≠ [RawPath.dot]

instance (name : FileName) : Decidable (IsEntryName name) :=
  inferInstanceAs (Decidable (_ ∧ _ ∧ _))

namespace FileTree

variable {tree entry : FileTree} {location : Location} {name : FileName}

/-! ## Entries by location -/

/-- In each directory the entries have names that paths can go through, and each its own. -/
structure InOrder (tree : FileTree) : Prop where
  distinct : ∀ location entry, tree.get? location = some entry →
    (entry.entries.map Prod.fst).Nodup
  named : ∀ location entry, tree.get? location = some entry →
    ∀ item ∈ entry.entries, IsEntryName item.1

theorem get?_append (tree : FileTree) (first second : Location) :
    tree.get? (first ++ second) = (tree.get? first).bind fun entry => entry.get? second := by
  induction first generalizing tree with
  | nil =>
      rfl
  | cons name first inductionHypothesis =>
      rw [List.cons_append, get?, get?, Option.bind_assoc]
      exact congrArg _ (funext inductionHypothesis)

theorem InOrder.of_get? (inOrder : tree.InOrder) (found : tree.get? location = some entry) :
    entry.InOrder where
  distinct below other belowFound := by
    refine inOrder.distinct (location ++ below) other ?_
    rw [get?_append, found, Option.bind_some, belowFound]
  named below other belowFound := by
    refine inOrder.named (location ++ below) other ?_
    rw [get?_append, found, Option.bind_some, belowFound]

theorem mem_of_lookup {entries : List (FileName × FileTree)}
    (found : entries.lookup name = some entry) : (name, entry) ∈ entries := by
  obtain ⟨before, after, rfl, _⟩ := List.lookup_eq_some_iff.1 found
  simp

theorem lookup_of_mem {entries : List (FileName × FileTree)}
    (distinct : (entries.map Prod.fst).Nodup) (member : (name, entry) ∈ entries) :
    entries.lookup name = some entry := by
  induction entries with
  | nil =>
      exact absurd member List.not_mem_nil
  | cons first entries inductionHypothesis =>
      rw [List.map_cons, List.nodup_cons] at distinct
      rw [List.lookup_cons]
      rcases List.mem_cons.1 member with rfl | later
      · rw [beq_self_eq_true]
      · have different : (name == first.1) = false := by
          rw [beq_eq_false_iff_ne]
          rintro rfl
          exact distinct.1 (List.mem_map.2 ⟨(first.1, entry), later, rfl⟩)
        rw [different]
        exact inductionHypothesis distinct.2 later

theorem get?_singleton (tree : FileTree) (name : FileName) :
    tree.get? [name] = tree.entries.lookup name := by
  rw [get?]
  cases tree.entries.lookup name with
  | none => rfl
  | some entry => rfl

theorem InOrder.mem_entries_iff (inOrder : tree.InOrder) :
    (name, entry) ∈ tree.entries ↔ tree.get? [name] = some entry := by
  rw [get?_singleton]
  exact ⟨lookup_of_mem (inOrder.distinct [] tree rfl), mem_of_lookup⟩

theorem size_le_of_mem {entries : List (FileName × FileTree)}
    (member : (name, entry) ∈ entries) : entry.size ≤ entriesSize entries := by
  induction entries with
  | nil =>
      exact absurd member List.not_mem_nil
  | cons first entries inductionHypothesis =>
      rw [entriesSize]
      rcases List.mem_cons.1 member with rfl | later
      · exact Nat.le_add_right _ _
      · exact Nat.le_trans (inductionHypothesis later) (Nat.le_add_left _ _)

/-- A location has fewer names than the tree has entries. -/
theorem length_add_size_le (found : tree.get? location = some entry) :
    location.length + entry.size ≤ tree.size := by
  induction location generalizing tree with
  | nil =>
      obtain rfl : tree = entry := Option.some.inj found
      simp
  | cons name location inductionHypothesis =>
      rw [get?, Option.bind_eq_some_iff] at found
      obtain ⟨child, isChild, found⟩ := found
      have below := inductionHypothesis found
      have inTree : child.size < tree.size := by
        cases tree with
        | directory entries times =>
            exact Nat.lt_succ_of_le (size_le_of_mem (mem_of_lookup isChild))
        | file => exact absurd isChild (by simp [entries])
        | link => exact absurd isChild (by simp [entries])
        | special => exact absurd isChild (by simp [entries])
      rw [List.length_cons]
      omega

/-- A tree is in order when it is so at its top and in each of its entries. -/
theorem inOrder_of_entries (distinct : (tree.entries.map Prod.fst).Nodup)
    (named : ∀ item ∈ tree.entries, IsEntryName item.1)
    (below : ∀ item ∈ tree.entries, item.2.InOrder) : tree.InOrder := by
  constructor
  · intro location entry found
    cases location with
    | nil =>
        obtain rfl : tree = entry := Option.some.inj found
        exact distinct
    | cons name location =>
        obtain ⟨child, isChild, found⟩ := Option.bind_eq_some_iff.1 found
        exact (below _ (mem_of_lookup isChild)).distinct location entry found
  · intro location entry found
    cases location with
    | nil =>
        obtain rfl : tree = entry := Option.some.inj found
        exact named
    | cons name location =>
        obtain ⟨child, isChild, found⟩ := Option.bind_eq_some_iff.1 found
        exact (below _ (mem_of_lookup isChild)).named location entry found

end FileTree

/-! ## The order of names -/

theorem mem_sortedEntries_iff {entry : FileTree} {item : FileName × FileTree} :
    item ∈ sortedEntries entry ↔ item ∈ entry.entries :=
  (List.mergeSort_perm _ _).mem_iff

theorem sortedEntries_pairwise {entry : FileTree} (inOrder : entry.InOrder) :
    (sortedEntries entry).Pairwise fun first second => first.1 < second.1 := by
  have sorted : (sortedEntries entry).Pairwise fun first second => first.1 ≤ second.1 := by
    have transitive (first second third : FileName × FileTree) :
        decide (first.1 ≤ second.1) = true → decide (second.1 ≤ third.1) = true →
          decide (first.1 ≤ third.1) = true := by
      simpa using List.le_trans
    have total (first second : FileName × FileTree) :
        (decide (first.1 ≤ second.1) || decide (second.1 ≤ first.1)) = true := by
      simpa using List.le_total first.1 second.1
    exact (List.pairwise_mergeSort transitive total entry.entries).imp of_decide_eq_true
  have distinct : (sortedEntries entry).Pairwise fun first second => first.1 ≠ second.1 := by
    have names : ((sortedEntries entry).map Prod.fst).Nodup :=
      ((List.mergeSort_perm _ _).map Prod.fst).nodup_iff.2 (inOrder.distinct [] entry rfl)
    exact List.pairwise_map.1 names
  refine (sorted.and distinct).imp fun {first second} both => ?_
  exact Std.lt_of_le_of_ne both.1 both.2

/-! ## Paths -/

namespace RawPath

theorem splitSlashes_append (first second : List UInt8) :
    splitSlashes (first ++ slash :: second) = splitSlashes first ++ splitSlashes second := by
  have nonempty (bytes : List UInt8) : splitSlashes bytes ≠ [] := by
    cases bytes with
    | nil => simp [splitSlashes]
    | cons byte bytes =>
        rw [splitSlashes]
        split
        · simp
        · split <;> simp
  induction first with
  | nil =>
      simp [splitSlashes]
  | cons byte first inductionHypothesis =>
      rw [List.cons_append, splitSlashes, splitSlashes, inductionHypothesis]
      split
      · rfl
      · cases pieces : splitSlashes first with
        | nil => exact absurd pieces (nonempty first)
        | cons piece others => rfl

theorem splitSlashes_of_not_mem {name : FileName} (single : slash ∉ name) :
    splitSlashes name = [name] := by
  induction name with
  | nil =>
      rfl
  | cons byte name inductionHypothesis =>
      rw [List.mem_cons, not_or] at single
      rw [splitSlashes, if_neg (Ne.symm single.1), inductionHypothesis single.2]

/-- A name that is joined to a path comes behind the pieces of the path. -/
theorem pieces_join {name : FileName} (isName : IsEntryName name) (path : RawPath) :
    (splitSlashes (path.join name).bytes).filter (!·.isEmpty) =
      (splitSlashes path.bytes).filter (!·.isEmpty) ++ [name] := by
  obtain ⟨nonempty, single, _⟩ := isName
  have kept : ([name] : List FileName).filter (!·.isEmpty) = [name] := by
    simp [nonempty]
  rw [join]
  split
  next ends =>
      rcases ends with isEmpty | endsInSlash
      · rw [List.isEmpty_iff.1 isEmpty, List.nil_append, splitSlashes_of_not_mem single, kept]
        rfl
      · obtain ⟨front, isPath⟩ := List.getLast?_eq_some_iff.1 endsInSlash
        have whole : path.bytes ++ name = front ++ slash :: name := by
          rw [isPath, List.append_assoc]
          rfl
        rw [whole, splitSlashes_append, splitSlashes_of_not_mem single, List.filter_append, kept,
          isPath, splitSlashes_append, List.filter_append]
        simp [splitSlashes]
  · rw [splitSlashes_append, splitSlashes_of_not_mem single, List.filter_append, kept]

theorem isAbsolute_join {name : FileName} (isName : IsEntryName name) (path : RawPath) :
    (path.join name).isAbsolute = path.isAbsolute := by
  obtain ⟨nonempty, single, _⟩ := isName
  cases isPath : path.bytes with
  | nil =>
      cases name with
      | nil => exact absurd rfl nonempty
      | cons byte name =>
          have noSlash : byte ≠ slash := fun same => single (same ▸ List.mem_cons_self)
          simp [isAbsolute, join, isPath, noSlash]
  | cons byte rest =>
      rw [isAbsolute, isAbsolute, join]
      split
      · simp [isPath]
      · simp [isPath]

theorem components_join {name : FileName} (isName : IsEntryName name) (path : RawPath) :
    (path.join name).components = path.components ++ [name] := by
  have kept : decide (name ≠ [dot]) = true := decide_eq_true isName.2.2
  rw [components, components, pieces_join isName, isAbsolute_join isName]
  split
  · rw [List.filter_append, List.filter_singleton, kept]
    rfl
  · generalize (splitSlashes path.bytes).filter (!·.isEmpty) = pieces
    cases pieces with
    | nil =>
        rfl
    | cons first rest =>
        simp only [List.cons_append, List.filter_append, List.filter_singleton, kept]
        rfl

end RawPath

/-! ## Following paths -/

namespace FileSystem

/-- Where the last name is not followed to a link, it would not be followed further anyway. -/
theorem follow_of_not_link {top entry : FileTree} {links : Nat} {location target : Location}
    {names : List FileName} (followed : follow top false links location names = .ok target)
    (found : top.get? target = some entry) (notLink : entry.isLink = false) :
    follow top true links location names = .ok target := by
  induction links, location, names using follow.induct top false with
  | case1 links location =>
      rwa [follow] at followed ⊢
  | case2 links location rest entries times isDirectory inductionHypothesis =>
      rw [follow, isDirectory] at followed ⊢
      simp only [if_true] at followed ⊢
      exact inductionHypothesis followed
  | case3 links location rest entries times isDirectory notDot inductionHypothesis =>
      rw [follow, isDirectory] at followed ⊢
      simp only [if_neg notDot, if_true] at followed ⊢
      exact inductionHypothesis followed
  | case4 links location name rest entries times isDirectory notDot notDots unknown =>
      rw [follow, isDirectory] at followed
      simp only [if_neg notDot, if_neg notDots, unknown] at followed
      exact absurd followed (by simp)
  | case5 links location name rest entries times isDirectory notDot notDots linked isLink last =>
      -- The walk would stop at the link itself, which is not what is there.
      rw [follow, isDirectory] at followed
      simp only [if_neg notDot, if_neg notDots, isLink, if_pos last] at followed
      obtain rfl := Except.ok.inj followed
      rw [FileTree.get?_append, isDirectory, Option.bind_some, FileTree.get?_singleton,
        FileTree.entries, isLink] at found
      obtain rfl := Option.some.inj found
      exact absurd notLink (by simp [FileTree.isLink])
  | case6 location name rest entries times isDirectory notDot notDots linked isLink notLast =>
      rw [follow, isDirectory] at followed
      simp only [if_neg notDot, if_neg notDots, isLink, if_neg notLast] at followed
      exact absurd followed (by simp)
  | case7 location name rest entries times isDirectory notDot notDots linked isLink notLast links
      start inductionHypothesis =>
      have notLastEither : ¬ (rest.isEmpty && !true) = true := by simp
      rw [follow, isDirectory] at followed ⊢
      simp only [if_neg notDot, if_neg notDots, isLink, if_neg notLast] at followed
      simp only [if_neg notDot, if_neg notDots, isLink, if_neg notLastEither]
      exact inductionHypothesis followed
  | case8 links location name rest entries times isDirectory notDot notDots other notLinkHere isOther
      inductionHypothesis =>
      rw [follow, isDirectory] at followed ⊢
      simp only [if_neg notDot, if_neg notDots, isOther] at followed ⊢
      exact inductionHypothesis followed
  | case9 links location name rest notDirectory =>
      rw [follow] at followed
      split at followed
      next entries times isDirectory => exact absurd isDirectory (notDirectory entries times)
      · exact absurd followed (by simp)

theorem locate_of_not_link {system : FileSystem} {path : RawPath} {location : Location}
    {entry : FileTree} (located : system.locate false path = .ok location)
    (found : system.top.get? location = some entry) (notLink : entry.isLink = false) :
    system.locate true path = .ok location := by
  rw [locate] at located ⊢
  split at located
  · exact absurd located (by simp)
  next nonempty =>
      split at located
      · exact absurd located (by simp)
      next noZero =>
          split at located
          · exact absurd located (by simp)
          next short =>
              rw [if_neg nonempty, if_neg noZero, if_neg short]
              exact follow_of_not_link located found notLink

end FileSystem

end ContentTyping

import ContentTyping.Proofs.Scan.Mirror

/-!
# Roots of scanned trees

Each node of a scanned tree stands for an entry in the directory that the node above stands for. The root
stands for the entry that was asked for, unless a link is there that is not followed: such a link is no
entry of a tree, but the directory that it leads to is gone through, and the first entry in it is the root.
-/

namespace ContentTyping

/-! ## Paths of nodes -/

namespace ContentTree

/-- The path of the entry that a node was made for. -/
def filePath? (tree : ContentTree) (id : NodeId) : Option RawPath :=
  ((tree.get? id).bind Node.file).map FileInfo.path

theorem filePath?_eq_of_unlinked {tree other : ContentTree} {id : NodeId}
    (same : (tree.get? id).map Node.unlinked = (other.get? id).map Node.unlinked) :
    tree.filePath? id = other.filePath? id := by
  have fileOf (node : Option Node) : node.bind Node.file = (node.map Node.unlinked).bind Node.file := by
    cases node <;> rfl
  rw [filePath?, filePath?, fileOf, same, ← fileOf]

theorem contains_of_filePath? {tree : ContentTree} {id : NodeId} {path : RawPath}
    (isPath : tree.filePath? id = some path) : tree.contains id = true := by
  cases found : tree.get? id with
  | none =>
      rw [filePath?, found] at isPath
      exact absurd isPath (by simp)
  | some node =>
      rw [contains, found]
      rfl

theorem filePath?_withRoot (options : ScanOptions) (visit : Visit) (kind : FileKind)
    (identifier : String) :
    (withRoot (visit.node options kind identifier)).2.filePath? ⟨0⟩ = some visit.path := by
  rw [filePath?, get?_withRoot, if_pos rfl]
  rfl

theorem filePath?_withChild {tree : ContentTree} {parent : NodeId}
    (live : tree.contains parent = true) (options : ScanOptions) (visit : Visit) (kind : FileKind)
    (identifier : String) (id : NodeId) :
    (tree.withChild parent (visit.node options kind identifier)).filePath? id =
      if id = ⟨tree.nodes.size⟩ then some visit.path else tree.filePath? id := by
  by_cases new : id = ⟨tree.nodes.size⟩
  · rw [if_pos new, filePath?, get?_withChild live, if_pos new]
    rfl
  · rw [if_neg new]
    apply filePath?_eq_of_unlinked
    rw [unlinked_withChild live, if_neg new]

end ContentTree

/-! ## Walks -/

namespace Walk

theorem visits_append (first : Walk) (second : Unit → Walk) :
    (first.append second).visits = first.visits ∨
      (first.append second).visits = first.visits ++ (second ()).visits := by
  rw [append]
  cases first.fault? with
  | none => exact .inr rfl
  | some fault => exact .inl rfl

variable {α : Type} {walk : α → Walk} {items : List α}

theorem exists_of_mem_concat {visit : Visit} (member : visit ∈ (concat walk items).visits) :
    ∃ item ∈ items, visit ∈ (walk item).visits := by
  induction items with
  | nil =>
      exact absurd member List.not_mem_nil
  | cons item items inductionHypothesis =>
      rw [concat] at member
      have here : visit ∈ (walk item).visits ∨ visit ∈ (concat walk items).visits := by
        rcases visits_append (walk item) fun _ => concat walk items with same | longer
        · exact .inl (same ▸ member)
        · exact List.mem_append.1 (longer ▸ member)
      rcases here with first | later
      · exact ⟨item, List.mem_cons_self, first⟩
      · obtain ⟨other, listed, visited⟩ := inductionHypothesis later
        exact ⟨other, List.mem_cons_of_mem _ listed, visited⟩

theorem exists_of_find?_concat {chosen : Visit → Bool} {visit : Visit}
    (found : (concat walk items).visits.find? chosen = some visit) :
    ∃ item ∈ items, (walk item).visits.find? chosen = some visit := by
  induction items with
  | nil =>
      exact absurd found (by simp [concat])
  | cons item items inductionHypothesis =>
      rw [concat] at found
      have here : (walk item).visits.find? chosen = some visit ∨
          (concat walk items).visits.find? chosen = some visit := by
        rcases visits_append (walk item) fun _ => concat walk items with same | longer
        · exact .inl (same ▸ found)
        · rw [longer, List.find?_append, Option.or_eq_some_iff] at found
          exact found.imp_right And.right
      rcases here with first | later
      · exact ⟨item, List.mem_cons_self, first⟩
      · obtain ⟨other, listed, visited⟩ := inductionHypothesis later
        exact ⟨other, List.mem_cons_of_mem _ listed, visited⟩

end Walk

/-- The visit is to an entry at a location below a path. -/
structure Visit.IsAt (visit : Visit) (path : RawPath) (location : Location) : Prop where
  path : visit.path = path.below location
  named : ∀ name ∈ location, IsEntryName name

theorem Visit.IsAt.components {visit : Visit} {path : RawPath} {location : Location}
    (isAt : visit.IsAt path location) :
    visit.path.components = path.components ++ location := by
  rw [isAt.path, RawPath.components_below path isAt.named]

theorem RawPath.below_concat (path : RawPath) (location : Location) (name : FileName) :
    path.below (location ++ [name]) = (path.below location).join name := by
  rw [below, List.foldl_append]
  rfl

namespace FileSystem

variable {system : FileSystem} {options : ScanOptions} {steps : Nat} {ancestors : List Ancestor}
  {path : RawPath} {location : Location}

theorem get?_of_followLink {target : Location} {entry : FileTree}
    (followed : system.followLink location path ancestors = .ok (target, entry)) :
    system.top.get? target = some entry := by
  simp only [followLink] at followed
  split at followed
  · exact absurd followed (by simp)
  next reached isReached =>
      split at followed
      · exact absurd followed (by simp)
      next found isFound =>
          split at followed
          · split at followed
            · exact absurd followed (by simp)
            · obtain ⟨rfl, rfl⟩ := Prod.mk.inj (Except.ok.inj followed)
              exact isFound
          · obtain ⟨rfl, rfl⟩ := Prod.mk.inj (Except.ok.inj followed)
            exact isFound

/-- A walk visits an entry before what is in it, unless the entry is left out. -/
theorem visits_visitBelow (inOrder : system.top.InOrder) {name : FileName} {entry : FileTree}
    (entryInOrder : entry.InOrder) :
    (system.visitBelow options steps ancestors path location (name, entry)).visits = [] ∨
      ∃ fewer further place found, steps = fewer + 1 ∧ found.InOrder ∧
        (system.visitBelow options steps ancestors path location (name, entry)).visits =
          ⟨path.join name, name, found⟩ ::
            (Walk.concat (system.visitBelow options fewer further (path.join name) place)
              (sortedEntries found)).visits := by
  cases steps with
  | zero =>
      exact .inl rfl
  | succ fewer =>
      rw [visitBelow]
      split
      · exact .inl rfl
      next place found isFound =>
          split
          · exact .inl rfl
          · refine .inr ⟨fewer, _, place, found, rfl, ?_, rfl⟩
            split at isFound
            · exact inOrder.of_get? (get?_of_followLink isFound)
            · obtain ⟨rfl, rfl⟩ := Prod.mk.inj (Except.ok.inj isFound)
              exact entryInOrder

theorem isAt_of_mem_concat (inOrder : system.top.InOrder) {entry : FileTree}
    (entryInOrder : entry.InOrder) {visit : Visit}
    (visited : visit ∈ (Walk.concat (system.visitBelow options steps ancestors path location)
      (sortedEntries entry)).visits) :
    ∃ name rest, visit.IsAt path (name :: rest) := by
  induction steps generalizing ancestors path location entry with
  | zero =>
      obtain ⟨item, _, nothing⟩ := Walk.exists_of_mem_concat visited
      exact absurd nothing List.not_mem_nil
  | succ steps inductionHypothesis =>
      obtain ⟨⟨name, child⟩, listed, visited⟩ := Walk.exists_of_mem_concat visited
      have member := mem_sortedEntries_iff.1 listed
      have isName : IsEntryName name := entryInOrder.named [] entry rfl _ member
      have childInOrder := entryInOrder.of_get? (entryInOrder.mem_entries_iff.1 member)
      rcases @visits_visitBelow system options (steps + 1) ancestors path location inOrder name child
        childInOrder with nothing | ⟨fewer, further, place, found, isFewer, foundInOrder, visits⟩
      · rw [nothing] at visited
        exact absurd visited List.not_mem_nil
      · obtain rfl : steps = fewer := Nat.succ.inj isFewer
        rw [visits] at visited
        rcases List.mem_cons.1 visited with rfl | later
        · exact ⟨name, [], rfl, List.forall_mem_singleton.2 isName⟩
        · obtain ⟨next, rest, isAt⟩ := inductionHypothesis foundInOrder later
          exact ⟨name, next :: rest, isAt.path, List.forall_mem_cons.2 ⟨isName, isAt.named⟩⟩

/-- The first entry in a directory that becomes a node is one of the directory itself. -/
theorem exists_of_find?_recorded (inOrder : system.top.InOrder) {entry : FileTree}
    (entryInOrder : entry.InOrder) {visit : Visit}
    (first : (Walk.concat (system.visitBelow options steps ancestors path location)
      (sortedEntries entry)).visits.find? (·.entry.kind?.isSome) = some visit) :
    ∃ item ∈ entry.entries, visit.path = path.join item.1 := by
  obtain ⟨⟨name, child⟩, listed, first⟩ := Walk.exists_of_find?_concat first
  have member := mem_sortedEntries_iff.1 listed
  have childInOrder := entryInOrder.of_get? (entryInOrder.mem_entries_iff.1 member)
  refine ⟨(name, child), member, ?_⟩
  rcases @visits_visitBelow system options steps ancestors path location inOrder name child
    childInOrder with nothing | ⟨fewer, further, place, found, _, _, visits⟩
  · rw [nothing] at first
    exact absurd first (by simp)
  · rw [visits] at first
    cases isKind : found.kind? with
    | some kind =>
        rw [List.find?_cons_of_pos (by simp [isKind])] at first
        exact congrArg Visit.path (Option.some.inj first).symm
    | none =>
        -- What is no directory has no entries.
        have noEntries : sortedEntries found = [] := by
          rw [List.eq_nil_iff_forall_not_mem]
          intro item inside
          have isDirectory := FileTree.kind?_of_mem_entries (mem_sortedEntries_iff.1 inside)
          exact absurd (isKind.symm.trans isDirectory) (by simp)
        rw [List.find?_cons_of_neg (by simp [isKind]), noEntries] at first
        exact absurd first (by simp [Walk.concat])

theorem visits_walk (system : FileSystem) (options : ScanOptions) (path : RawPath) :
    (system.walk options path).visits = [] ∨
      ∃ start entry place target, system.locate options.followLinks path = .ok start ∧
        system.top.get? start = some entry ∧ system.locate true path = .ok place ∧
        system.top.get? place = some target ∧
        (system.walk options path).visits = ⟨path, nameOfStart path, entry⟩ ::
          (Walk.concat (system.visitBelow options system.depthBound [⟨place, path⟩] path place)
            (sortedEntries target)).visits := by
  rw [walk]
  split
  next start place isStart isPlace =>
      split
      next entry target isEntry isTarget =>
          exact .inr ⟨start, entry, place, target, isStart, isEntry, isPlace, isTarget, rfl⟩
      · exact .inl rfl
  · exact .inl rfl
  · exact .inl rfl

end FileSystem

/-! ## Taking in visits -/

/-- The scan has a tree whose root stands for the entry at `start`. Each other node stands for an entry in
the directory of the node above it, and directories are known by the components of their paths. -/
structure Scanning.Placed (path start : RawPath) (scanning : Scanning) (tree : ContentTree) : Prop where
  isTree : scanning.tree = some tree
  root : ∃ root, tree.root = some root ∧ tree.filePath? root = some start
  parent : ∀ id above, tree.parent? id = some above → ∃ directory name, IsEntryName name ∧
    tree.filePath? above = some directory ∧ tree.filePath? id = some (directory.join name)
  directories : ∀ location id, scanning.directories[path.components ++ location]? = some id →
    tree.filePath? id = some (path.below location)

namespace Scanning

variable {options : ScanOptions} {path start : RawPath} {scanning next last : Scanning}
  {tree : ContentTree} {visit : Visit} {location : Location}

/-- A directory is looked up by its own components only. -/
theorem directories_adding {kind : FileKind} {id : NodeId} (isAt : visit.IsAt path location)
    (grown : ContentTree) {other : Location} {known : NodeId}
    (found : (scanning.adding visit kind id grown).directories[path.components ++ other]? =
      some known) :
    other = location ∧ known = id ∨
      scanning.directories[path.components ++ other]? = some known := by
  simp only [adding] at found
  split at found
  · rw [isAt.components, Std.HashMap.getElem?_insert] at found
    split at found
    next same =>
        have sameLocation : location = other := by simpa using same
        exact .inl ⟨sameLocation.symm, (Option.some.inj found).symm⟩
    · exact .inr found
  · exact .inr found

theorem placed_take_root (isAt : visit.IsAt path location) {kind : FileKind}
    (isKind : visit.entry.kind? = some kind) (supply : Supply)
    (taken : (({ supply := supply } : Scanning).take options visit).1 = .ok next) :
    ∃ tree, Placed path visit.path next tree := by
  rw [take_fst isKind] at taken
  obtain rfl := Except.ok.inj taken
  refine ⟨_, rfl, ⟨⟨0⟩, rfl, ContentTree.filePath?_withRoot _ _ _ _⟩, ?_, ?_⟩
  · intro id above link
    rw [ContentTree.parent?_withRoot] at link
    exact absurd link (by simp)
  · intro other id found
    rcases directories_adding isAt _ found with ⟨rfl, rfl⟩ | known
    · rw [ContentTree.filePath?_withRoot, isAt.path]
    · exact absurd known (by simp)

theorem Placed.take {above : Location} {name : FileName} (placed : Placed path start scanning tree)
    (isAt : visit.IsAt path (above ++ [name]))
    (taken : (scanning.take options visit).1 = .ok next) :
    ∃ grown, Placed path start next grown := by
  cases isKind : visit.entry.kind? with
  | none =>
      rw [take_of_not_recorded isKind] at taken
      obtain rfl : scanning = next := Except.ok.inj taken
      exact ⟨tree, placed⟩
  | some kind =>
      simp only [take_fst isKind, placed.isTree] at taken
      cases isParent : scanning.parentOf? visit with
      | none =>
          rw [isParent] at taken
          exact absurd taken (by simp)
      | some parent =>
          rw [isParent] at taken
          obtain ⟨⟨id, grown⟩, added, rfl⟩ := exists_of_map_eq_ok taken
          obtain ⟨live, _, isNew, isGrown⟩ := ContentTree.addChild_eq_ok_iff.1 added
          have isDirectory : tree.filePath? parent = some (path.below above) := by
            apply placed.directories above parent
            rw [parentOf?, isAt.components, ← List.append_assoc] at isParent
            split at isParent
            next empty => exact absurd empty (by simp)
            · rwa [List.dropLast_concat] at isParent
          have pathOf (other : NodeId) : grown.filePath? other =
              if other = ⟨tree.nodes.size⟩ then some visit.path else tree.filePath? other := by
            rw [isGrown]
            exact ContentTree.filePath?_withChild live _ _ _ _ _
          have pathOfOld {other : NodeId} {known : RawPath}
              (isKnown : tree.filePath? other = some known) : grown.filePath? other = some known := by
            rw [pathOf, if_neg, isKnown]
            exact ContentTree.ne_size_of_contains (ContentTree.contains_of_filePath? isKnown)
          have pathOfNew : grown.filePath? id = some visit.path := by
            rw [pathOf, if_pos isNew]
          refine ⟨grown, rfl, ?_, ?_, ?_⟩
          · obtain ⟨root, isRoot, rootPath⟩ := placed.root
            exact ⟨root, isGrown ▸ isRoot, pathOfOld rootPath⟩
          · intro child upper link
            rw [isGrown, ContentTree.parent?_withChild live] at link
            split at link
            next isChild =>
                obtain rfl : parent = upper := Option.some.inj link
                refine ⟨path.below above, name, isAt.named name List.mem_concat_self,
                  pathOfOld isDirectory, ?_⟩
                rw [isChild, ← isNew, pathOfNew, isAt.path, RawPath.below_concat]
            · obtain ⟨directory, last, isName, upperPath, childPath⟩ := placed.parent child upper link
              exact ⟨directory, last, isName, pathOfOld upperPath, pathOfOld childPath⟩
          · intro other known found
            rcases directories_adding isAt _ found with ⟨rfl, rfl⟩ | old
            · rw [pathOfNew, isAt.path]
            · exact pathOfOld (placed.directories other known old)

theorem Placed.takeAll {visits : List Visit} (placed : Placed path start scanning tree)
    (below : ∀ visit ∈ visits, ∃ name rest, visit.IsAt path (name :: rest))
    (taken : (takeAll options visits scanning).1 = .ok last) :
    ∃ grown, Placed path start last grown := by
  induction visits generalizing scanning tree with
  | nil =>
      obtain rfl : scanning = last := Except.ok.inj taken
      exact ⟨tree, placed⟩
  | cons visit rest inductionHypothesis =>
      obtain ⟨⟨first, names, isAt⟩, laterBelow⟩ := List.forall_mem_cons.1 below
      rw [takeAll_cons_fst] at taken
      obtain ⟨next, isNext, further⟩ := bind_eq_ok_iff.1 taken
      rcases List.eq_nil_or_concat' (first :: names) with empty | ⟨above, name, whole⟩
      · exact absurd empty (by simp)
      · rw [whole] at isAt
        obtain ⟨grown, nextPlaced⟩ := placed.take isAt isNext
        exact inductionHypothesis nextPlaced laterBelow further

theorem Placed.filePath?_of_below (placed : Placed path start scanning tree) {top id : NodeId}
    (topPath : tree.filePath? top = some start) (below : ContentTree.Below tree top id) :
    ∃ location, tree.filePath? id = some (start.below location) := by
  induction below with
  | self =>
      exact ⟨[], topPath⟩
  | child link _ inductionHypothesis =>
      obtain ⟨location, upperPath⟩ := inductionHypothesis
      obtain ⟨directory, name, _, sameUpperPath, isPath⟩ := placed.parent _ _ link
      obtain rfl : directory = start.below location :=
        Option.some.inj (sameUpperPath.symm.trans upperPath)
      refine ⟨location ++ [name], ?_⟩
      rw [isPath, RawPath.below_concat]

end Scanning

/-! ## Scans -/

namespace FileSystem

/-- A link that is not followed stands at the end of the path. -/
def StartsAtLink (system : FileSystem) (options : ScanOptions) (path : RawPath) : Prop :=
  options.followLinks = false ∧ ∃ target, system.entry false path = .ok (.link target)

variable {system : FileSystem} {options : ScanOptions} {path : RawPath} {supply : Supply}

theorem entry_eq_ok {location : Location} {found : FileTree} {followLast : Bool}
    (located : system.locate followLast path = .ok location)
    (isFound : system.top.get? location = some found) : system.entry followLast path = .ok found := by
  simp only [entry, located, isFound]

/-- An entry that is gone through but becomes no node is a link that is not followed. -/
theorem startsAtLink_of_kind?_eq_none {start place : Location} {found target : FileTree}
    (isStart : system.locate options.followLinks path = .ok start)
    (isFound : system.top.get? start = some found) (isPlace : system.locate true path = .ok place)
    (isTarget : system.top.get? place = some target) (noNode : found.kind? = none)
    (isDirectory : target.kind? = some .directory) : system.StartsAtLink options path := by
  have different : start ≠ place := by
    rintro rfl
    obtain rfl : found = target := Option.some.inj (isFound.symm.trans isTarget)
    exact absurd (noNode.symm.trans isDirectory) (by simp)
  cases follows : options.followLinks with
  | true =>
      rw [follows, isPlace] at isStart
      exact absurd (Except.ok.inj isStart).symm different
  | false =>
      rw [follows] at isStart
      cases isLink : found.isLink with
      | true =>
          cases found with
          | link destination => exact ⟨follows, destination, entry_eq_ok isStart isFound⟩
          | file | directory | special => exact absurd isLink (by simp [FileTree.isLink])
      | false =>
          have same := locate_of_not_link isStart isFound isLink
          exact absurd (Except.ok.inj (same.symm.trans isPlace)) different

/-- Where the entries of a walk are that become nodes. -/
theorem recorded_visits (inOrder : system.top.InOrder) {first : Visit} {rest : List Visit}
    (recorded : (system.walk options path).visits.filter (·.entry.kind?.isSome) = first :: rest) :
    (∃ location, first.IsAt path location) ∧
      (∀ visit ∈ rest, ∃ name names, visit.IsAt path (name :: names)) ∧
      (¬system.StartsAtLink options path → first.path = path) ∧
      (system.StartsAtLink options path → ∃ name, IsEntryName name ∧ first.path = path.join name) := by
  rcases visits_walk system options path with nothing |
    ⟨start, found, place, target, isStart, isFound, isPlace, isTarget, visits⟩
  · rw [nothing] at recorded
    exact absurd recorded (by simp)
  · have targetInOrder := inOrder.of_get? isTarget
    rw [visits] at recorded
    cases isKind : found.kind? with
    | some kind =>
        rw [List.filter_cons_of_pos (by simp [isKind])] at recorded
        obtain ⟨rfl, rfl⟩ := List.cons.inj recorded
        refine ⟨⟨[], rfl, List.forall_mem_nil _⟩, ?_, fun _ => rfl, ?_⟩
        · intro visit member
          exact isAt_of_mem_concat inOrder targetInOrder (List.mem_of_mem_filter member)
        · rintro ⟨notFollowing, destination, isLink⟩
          rw [notFollowing] at isStart
          rw [entry_eq_ok isStart isFound] at isLink
          rw [Except.ok.inj isLink] at isKind
          exact absurd isKind (by simp [FileTree.kind?])
    | none =>
        rw [List.filter_cons_of_neg (by simp [isKind])] at recorded
        have member {visit : Visit} (listed : visit ∈ first :: rest) :
            ∃ name names, visit.IsAt path (name :: names) := by
          rw [← recorded] at listed
          exact isAt_of_mem_concat inOrder targetInOrder (List.mem_of_mem_filter listed)
        have isFirst := congrArg List.head? recorded
        rw [List.head?_filter, List.head?_cons] at isFirst
        obtain ⟨item, inTarget, firstPath⟩ := exists_of_find?_recorded inOrder targetInOrder isFirst
        have atLink := startsAtLink_of_kind?_eq_none isStart isFound isPlace isTarget isKind
          (FileTree.kind?_of_mem_entries inTarget)
        obtain ⟨name, names, firstAt⟩ := member List.mem_cons_self
        refine ⟨⟨_, firstAt⟩, ?_, fun notLink => absurd atLink notLink, fun _ => ?_⟩
        · exact fun visit listed => member (List.mem_cons_of_mem _ listed)
        · exact ⟨item.1, targetInOrder.named [] target rfl item inTarget, firstPath⟩

theorem exists_placed_of_scan (inOrder : system.top.InOrder) {tree : ContentTree}
    (scanned : (system.scan options path supply).1 = .ok tree) :
    ∃ first rest last, (system.walk options path).visits.filter (·.entry.kind?.isSome) = first :: rest ∧
      Scanning.Placed path first.path last tree := by
  cases found : system.pathExists path with
  | false =>
      rw [scan, found] at scanned
      exact absurd scanned (by simp)
  | true =>
      rw [(scan_of_pathExists found supply).2, Scanning.takeAll_eq_filter] at scanned
      obtain ⟨last, taken, outcome⟩ := bind_eq_ok_iff.1 scanned
      have isLast : last.tree = some tree := by
        split at outcome
        · exact absurd outcome (by simp)
        next isLast => rw [isLast, Except.ok.inj outcome]
        · exact absurd outcome (by simp)
      cases recorded : (system.walk options path).visits.filter (·.entry.kind?.isSome) with
      | nil =>
          rw [recorded] at taken
          obtain rfl := Except.ok.inj taken
          exact absurd isLast (by simp)
      | cons first rest =>
          obtain ⟨⟨location, firstAt⟩, below, _, _⟩ := recorded_visits inOrder recorded
          have member : first ∈ (system.walk options path).visits.filter (·.entry.kind?.isSome) := by
            rw [recorded]
            exact List.mem_cons_self
          obtain ⟨kind, isKind⟩ := Option.isSome_iff_exists.1 (List.mem_filter.1 member).2
          rw [recorded, Scanning.takeAll_cons_fst] at taken
          obtain ⟨next, isNext, further⟩ := bind_eq_ok_iff.1 taken
          obtain ⟨root, rootPlaced⟩ := Scanning.placed_take_root firstAt isKind supply isNext
          obtain ⟨grown, placed⟩ := rootPlaced.takeAll below further
          obtain rfl : grown = tree := Option.some.inj (placed.isTree.symm.trans isLast)
          exact ⟨first, rest, last, rfl, placed⟩

/-- A scanned tree is rooted at the path of the scan, unless a link that is not followed is there; then the
root is an entry of the directory that the link leads to. Each other node is for an entry in the directory
of the node above it, so that all of them lie below the root. -/
theorem scan_rooted (inOrder : system.top.InOrder) {tree : ContentTree}
    (scanned : (system.scan options path supply).1 = .ok tree) :
    ∃ root start, tree.root = some root ∧ tree.filePath? root = some start ∧
      (¬system.StartsAtLink options path → start = path) ∧
      (system.StartsAtLink options path → ∃ name, IsEntryName name ∧ start = path.join name) ∧
      ∀ id, tree.contains id = true → id ≠ root →
        (∃ location, location ≠ [] ∧ tree.filePath? id = some (start.below location)) ∧
        ∃ above directory name, tree.parent? id = some above ∧ IsEntryName name ∧
          tree.filePath? above = some directory ∧ tree.filePath? id = some (directory.join name) := by
  have wellFormed := (grown_scan scanned).wellFormed
  obtain ⟨first, rest, last, recorded, placed⟩ := exists_placed_of_scan inOrder scanned
  obtain ⟨_, _, atPath, atLink⟩ := recorded_visits inOrder recorded
  obtain ⟨root, isRoot, rootPath⟩ := placed.root
  refine ⟨root, first.path, isRoot, rootPath, atPath, atLink, fun id live notRoot => ?_⟩
  cases link : tree.parent? id with
  | none =>
      have same := wellFormed.eq_root_of_parent?_eq_none live link
      exact absurd (Option.some.inj (same.symm.trans isRoot)) notRoot
  | some above =>
      obtain ⟨directory, name, isName, abovePath, isPath⟩ := placed.parent id above link
      obtain ⟨top, isTop, below⟩ := wellFormed.rooted above (wellFormed.contains_parent link)
      obtain rfl : root = top := Option.some.inj (isRoot.symm.trans isTop)
      obtain ⟨location, alsoAbovePath⟩ := placed.filePath?_of_below rootPath below
      obtain rfl : directory = first.path.below location :=
        Option.some.inj (abovePath.symm.trans alsoAbovePath)
      constructor
      · refine ⟨location ++ [name], by simp, ?_⟩
        rw [isPath, RawPath.below_concat]
      · exact ⟨above, _, name, rfl, isName, abovePath, isPath⟩

def noteName : FileName := RawPath.ofString "note.txt" |>.bytes

def note : FileTree := .file [0x68, 0x69] {}

def box : FileTree := .directory [(noteName, note)] {}

/-- A box with a note in it, and a door that leads to the box. -/
def doorSystem : FileSystem :=
  { top := .directory
      [(RawPath.ofString "box" |>.bytes, box),
        (RawPath.ofString "door" |>.bytes, .link (.ofString "box"))] {} }

theorem inOrder_doorSystem : doorSystem.top.InOrder := by
  have leaf {entry : FileTree} (none : entry.entries = []) : entry.InOrder :=
    FileTree.inOrder_of_entries (by simp [none]) (by simp [none]) (by simp [none])
  refine FileTree.inOrder_of_entries (by decide) (by decide) ?_
  simp only [doorSystem, FileTree.entries, List.forall_mem_cons]
  refine ⟨FileTree.inOrder_of_entries (by decide) (by decide) ?_, leaf rfl, List.forall_mem_nil _⟩
  simp only [box, FileTree.entries, List.forall_mem_cons]
  exact ⟨leaf rfl, List.forall_mem_nil _⟩

theorem scan_box : ∃ tree,
    (doorSystem.scan {} (.ofString "/box") ⟨Session.tally, 0⟩).1 = .ok tree := by
  have isThere : doorSystem.pathExists (.ofString "/box") = true := by cbv
  have walked : doorSystem.walk {} (.ofString "/box") =
      ⟨[Visit.at (.ofString "/box") ([], box), Visit.at (.ofString "/box") ([] ++ [noteName], note)],
        none⟩ := by
    cbv
  obtain ⟨first, isFirst, follows⟩ :=
    @Scanning.take_root {} box (.ofString "/box") ⟨Session.tally, 0⟩ .directory rfl
  have distinct : ∀ slot < 1, Session.tally (0 + slot) ≠ Session.tally (0 + 1) := by
    intro slot inside
    exact Session.tally_injective.ne (by omega)
  obtain ⟨last, isLast, followed⟩ := @Scanning.Follows.take _ _ _ _ _ follows distinct 0 [] box rfl rfl
    noteName note (by decide) (by simp) .regularFile rfl
  obtain ⟨tree, isTree, _⟩ := followed.tree
  refine ⟨tree, (scan_of_walk isThere walked).2 last tree ?_ isTree⟩
  rw [Scanning.takeAll_cons_of_ok (congrArg Prod.fst isFirst),
    Scanning.takeAll_cons_of_ok (congrArg Prod.fst isLast)]
  rfl

theorem scan_rooted_box :
    doorSystem.top.InOrder ∧ ¬doorSystem.StartsAtLink {} (.ofString "/box") ∧
    ∃ tree root, (doorSystem.scan {} (.ofString "/box") ⟨Session.tally, 0⟩).1 = .ok tree ∧
      tree.root = some root ∧ tree.filePath? root = some (.ofString "/box") ∧
      ∀ id, tree.contains id = true → id ≠ root →
        (∃ location, location ≠ [] ∧
          tree.filePath? id = some ((RawPath.ofString "/box").below location)) ∧
        ∃ above directory name, tree.parent? id = some above ∧ IsEntryName name ∧
          tree.filePath? above = some directory ∧ tree.filePath? id = some (directory.join name) := by
  have notLink : ¬doorSystem.StartsAtLink {} (.ofString "/box") := by
    rintro ⟨_, target, isLink⟩
    have isBox : (doorSystem.entry false (.ofString "/box")).map FileTree.isLink = .ok false := by cbv
    rw [isLink] at isBox
    exact absurd (Except.ok.inj isBox) (by simp [FileTree.isLink])
  obtain ⟨tree, scanned⟩ := scan_box
  obtain ⟨root, start, isRoot, rootPath, atPath, _, others⟩ := scan_rooted inOrder_doorSystem scanned
  obtain rfl := atPath notLink
  exact ⟨inOrder_doorSystem, notLink, tree, root, scanned, isRoot, rootPath, others⟩

/-- The visit to the note behind the door. -/
def noteVisit : Visit :=
  ⟨.ofString "/door/note.txt", noteName, note⟩

/-- The scan of the door gives a tree, but the note is its root. -/
theorem scan_door (supply : Supply) :
    (doorSystem.scan {} (.ofString "/door") supply).1 =
      .ok (ContentTree.withRoot (noteVisit.node {} .regularFile supply.draw.1)).2 := by
  have isThere : doorSystem.pathExists (.ofString "/door") = true := by cbv
  have walked : doorSystem.walk {} (.ofString "/door") =
      ⟨[⟨.ofString "/door", RawPath.ofString "door" |>.bytes, .link (.ofString "box")⟩, noteVisit],
        none⟩ := by
    cbv
  obtain ⟨_, ends⟩ := @scan_of_walk doorSystem {} (.ofString "/door") _ supply isThere walked
  apply ends (({ supply := supply } : Scanning).naming noteVisit .regularFile ⟨0⟩ _)
  · rw [Scanning.takeAll_eq_filter]
    rfl
  · rfl

/-- A scan may be rooted elsewhere than at its path. -/
theorem scan_not_rooted_door :
    ¬∀ (system : FileSystem) (options : ScanOptions) (path : RawPath) (supply : Supply)
        (tree : ContentTree), system.top.InOrder →
      (system.scan options path supply).1 = .ok tree →
        ∃ root, tree.root = some root ∧ tree.filePath? root = some path := by
  intro always
  obtain ⟨root, isRoot, atDoor⟩ := always doorSystem {} (.ofString "/door") ⟨Session.tally, 0⟩ _
    inOrder_doorSystem (scan_door _)
  obtain rfl : ⟨0⟩ = root := Option.some.inj isRoot
  rw [ContentTree.filePath?_withRoot] at atDoor
  exact absurd atDoor (by decide)

end FileSystem

end ContentTyping

import Mathlib
import ContentTyping.Proofs.Scan.Growth
import ContentTyping.Proofs.Tree.Below
import ContentTyping.Proofs.Engine.Sessions

/-!
# Scans mirror layouts

The tree of a scan that does not follow links has a node for each directory and each file that can be
reached without a hidden name, and no others. Its parents are the directories that entries are in, its
children stand in the order of the names, and its slots follow the walk from the root downwards.
-/

namespace ContentTyping

/-- What is recorded of a directory or a file at a location below the start of a scan. -/
structure FileInfo.Describes (options : ScanOptions) (path : RawPath) (location : Location)
    (entry : FileTree) (info : FileInfo) : Prop where
  path : info.path = path.below location
  kind : entry.kind? = some info.kind
  size_directory : ∀ entries times, entry = .directory entries times → info.size = 0
  size_file : ∀ contents times, entry = .file contents times → contents.length < 2 ^ 64 →
    info.size.toNat = contents.length
  checksum : info.checksum.isSome = true ↔ info.kind = .regularFile ∧ options.checksums = true
  times : info.modified = entry.times.modified ∧ info.created = entry.times.created

theorem Visit.describes_fileInfo (options : ScanOptions) (path : RawPath)
    (item : Location × FileTree) {kind : FileKind} (isKind : item.2.kind? = some kind) :
    ((Visit.at path item).fileInfo options kind).Describes options path item.1 item.2 where
  path := rfl
  kind := isKind
  size_directory entries times isDirectory := by
    simp [Visit.fileInfo, Visit.at, isDirectory]
  size_file contents times isFile small := by
    simp only [Visit.fileInfo, Visit.at, isFile]
    exact Nat.mod_eq_of_lt small
  checksum := by
    rw [Visit.fileInfo]
    cases kind <;> cases options.checksums <;> simp
  times := ⟨rfl, rfl⟩

/-- The tree pictures a directory or a file and what is below it. `place` gives the location of the
entry that a node stands for. -/
structure Mirrors (options : ScanOptions) (path : RawPath) (top : FileTree) (tree : ContentTree)
    (place : NodeId → Location) : Prop where
  wellFormed : tree.WellFormed
  /-- There is one node for each directory and each file that is reached. -/
  bijection : Set.BijOn place {id | tree.contains id = true}
    {location | ∃ entry, top.Shown options location entry ∧ entry.kind?.isSome = true}
  root : ∃ root, tree.root = some root ∧ place root = []
  parent : ∀ id above, tree.contains id = true → tree.contains above = true →
    (tree.parent? id = some above ↔ ∃ name, place id = place above ++ [name])
  children : ∀ id, (tree.children id).Pairwise fun first second => ∃ firstName secondName,
    place first = place id ++ [firstName] ∧ place second = place id ++ [secondName] ∧
      firstName < secondName
  /-- The slots are filled from the first on, each node before its children and these in order. -/
  slots : ∀ root, tree.root = some root →
    tree.descendants root = (List.range tree.nodes.size).map NodeId.mk
  records : ∀ id node entry, tree.get? id = some node → top.Shown options (place id) entry →
    node.name = Text.ofUtf8Lossy ((place id).getLast?.getD (FileSystem.nameOfStart path)) ∧
      ∃ info, node.file = some info ∧ info.Describes options path (place id) entry

/-! ## Places -/

/-- The location of the entry in a place of a list. -/
def placeIn (done : List (Location × FileTree)) (id : NodeId) : Location :=
  (done[id.index]?.map Prod.fst).getD []

theorem lt_of_append_lt {location : Location} {first second : FileName}
    (smaller : location ++ [first] < location ++ [second]) : first < second := by
  induction location with
  | nil =>
      rcases List.cons_lt_cons_iff.1 smaller with less | ⟨_, less⟩
      · exact less
      · exact absurd less (List.lt_irrefl _)
  | cons name location inductionHypothesis =>
      rcases List.cons_lt_cons_iff.1 smaller with less | ⟨_, less⟩
      · exact absurd less (List.lt_irrefl _)
      · exact inductionHypothesis less

theorem append_lt_append {location : Location} {first second : FileName} (smaller : first < second)
    (firstRest secondRest : Location) :
    location ++ [first] ++ firstRest < location ++ [second] ++ secondRest := by
  rw [List.append_assoc, List.append_assoc]
  exact List.append_left_lt (List.cons_lt_cons_iff.2 (.inl smaller))

theorem placeIn_of_getElem? {done : List (Location × FileTree)} {slot : Nat}
    {item : Location × FileTree} (inList : done[slot]? = some item) :
    placeIn done ⟨slot⟩ = item.1 := by
  rw [placeIn, inList]
  rfl

namespace Covers

variable {options : ScanOptions} {path : RawPath} {supply : Supply}
  {done : List (Location × FileTree)} {tree : ContentTree}

theorem exists_item (covers : Covers options path supply done tree) {id : NodeId}
    (live : tree.contains id = true) :
    ∃ item, done[id.index]? = some item ∧ placeIn done id = item.1 := by
  have inside := List.getElem?_eq_getElem (covers.contains_iff.1 live)
  exact ⟨_, inside, placeIn_of_getElem? inside⟩

theorem place_child (covers : Covers options path supply done tree) {id above : NodeId}
    (link : tree.parent? id = some above) :
    ∃ name, placeIn done id = placeIn done above ++ [name] := by
  obtain ⟨item, parent, name, inList, parentInList, isBelow⟩ := covers.parent id.index above.index link
  refine ⟨name, ?_⟩
  rw [placeIn_of_getElem? inList, placeIn_of_getElem? parentInList, isBelow]

theorem place_below (covers : Covers options path supply done tree) {top id : NodeId}
    (below : ContentTree.Below tree top id) :
    ∃ rest, placeIn done id = placeIn done top ++ rest := by
  induction below with
  | self =>
      exact ⟨[], (List.append_nil _).symm⟩
  | child link _ inductionHypothesis =>
      obtain ⟨rest, isBelow⟩ := inductionHypothesis
      obtain ⟨name, isChild⟩ := covers.place_child link
      exact ⟨rest ++ [name], by rw [isChild, isBelow, List.append_assoc]⟩

variable (ordered : done.Pairwise fun first second => first.1 < second.1)

include ordered

theorem place_lt_iff (covers : Covers options path supply done tree) {first second : NodeId}
    (firstLive : tree.contains first = true) (secondLive : tree.contains second = true) :
    placeIn done first < placeIn done second ↔ first.index < second.index := by
  have smaller {first second : NodeId} (firstLive : tree.contains first = true)
      (secondLive : tree.contains second = true) (earlier : first.index < second.index) :
      placeIn done first < placeIn done second := by
    obtain ⟨item, inList, isPlace⟩ := covers.exists_item firstLive
    obtain ⟨other, otherInList, otherPlace⟩ := covers.exists_item secondLive
    obtain ⟨inside, rfl⟩ := List.getElem?_eq_some_iff.1 inList
    obtain ⟨otherInside, rfl⟩ := List.getElem?_eq_some_iff.1 otherInList
    rw [isPlace, otherPlace]
    exact List.pairwise_iff_getElem.1 ordered _ _ inside otherInside earlier
  constructor
  · intro placedBefore
    rcases Nat.lt_trichotomy first.index second.index with earlier | same | later
    · exact earlier
    · obtain rfl : first = second := congrArg NodeId.mk same
      exact absurd placedBefore (List.lt_irrefl _)
    · exact absurd (List.lt_trans placedBefore (smaller secondLive firstLive later))
        (List.lt_irrefl _)
  · exact smaller firstLive secondLive

theorem place_injOn (covers : Covers options path supply done tree) :
    Set.InjOn (placeIn done) {id | tree.contains id = true} := by
  intro first firstLive second secondLive samePlace
  have notBefore := covers.place_lt_iff ordered firstLive secondLive
  have notAfter := covers.place_lt_iff ordered secondLive firstLive
  rw [samePlace] at notBefore notAfter
  have notLess := notBefore.not.1 (List.lt_irrefl _)
  have notGreater := notAfter.not.1 (List.lt_irrefl _)
  exact congrArg NodeId.mk (by omega)

/-! ## The order of the slots -/

/-- What lies below one child of a node comes before all that lies below a later one. -/
theorem index_lt_of_siblings (covers : Covers options path supply done tree)
    {above first second before after : NodeId} (firstChild : first ∈ tree.children above)
    (secondChild : second ∈ tree.children above) (inOrder : first.index < second.index)
    (firstBelow : ContentTree.Below tree first before)
    (secondBelow : ContentTree.Below tree second after) : before.index < after.index := by
  have firstLive := covers.wellFormed.contains_child firstChild
  have secondLive := covers.wellFormed.contains_child secondChild
  obtain ⟨firstName, isFirst⟩ :=
    covers.place_child (covers.wellFormed.parent_of_child above first firstChild)
  obtain ⟨secondName, isSecond⟩ :=
    covers.place_child (covers.wellFormed.parent_of_child above second secondChild)
  obtain ⟨firstRest, isBefore⟩ := covers.place_below firstBelow
  obtain ⟨secondRest, isAfter⟩ := covers.place_below secondBelow
  have firstBefore := (covers.place_lt_iff ordered firstLive secondLive).2 inOrder
  rw [isFirst, isSecond] at firstBefore
  have names := lt_of_append_lt firstBefore
  refine (covers.place_lt_iff ordered (ContentTree.contains_of_below firstLive firstBelow)
    (ContentTree.contains_of_below secondLive secondBelow)).1 ?_
  rw [isBefore, isAfter, isFirst, isSecond]
  exact append_lt_append names firstRest secondRest

theorem index_le_of_below (covers : Covers options path supply done tree) {top id : NodeId}
    (live : tree.contains top = true) (below : ContentTree.Below tree top id) :
    top.index ≤ id.index := by
  have idLive := ContentTree.contains_of_below live below
  obtain ⟨rest, isBelow⟩ := covers.place_below below
  refine Nat.le_of_not_lt fun earlier => ?_
  have before := (covers.place_lt_iff ordered idLive live).2 earlier
  rw [isBelow] at before
  exact absurd before (List.not_lt.2 (List.le_append_left))

theorem descend_pairwise (covers : Covers options path supply done tree) (steps : Nat) {top : NodeId}
    (live : tree.contains top = true) :
    (tree.descend steps top).Pairwise fun first second => first.index < second.index := by
  induction steps generalizing top with
  | zero =>
      exact List.pairwise_singleton _ _
  | succ steps inductionHypothesis =>
      have wellFormed := covers.wellFormed
      rw [ContentTree.descend, List.pairwise_cons, List.pairwise_flatMap]
      refine ⟨?_, ?_, ?_⟩
      · intro id listed
        obtain ⟨child, isChild, further⟩ := List.mem_flatMap.1 listed
        have below := wellFormed.below_of_mem_descend further
        have childLater := covers.index_le_of_below ordered (wellFormed.contains_child isChild) below
        have link := ContentTree.Below.child (wellFormed.parent_of_child top child isChild) .self
        have topEarlier := covers.index_le_of_below ordered live link
        have different : top.index ≠ child.index := by
          intro same
          obtain rfl : top = child := congrArg NodeId.mk same
          exact wellFormed.not_below_parent (wellFormed.parent_of_child top top isChild) .self
        omega
      · intro child isChild
        exact inductionHypothesis (wellFormed.contains_child isChild)
      · refine (covers.children top).imp_of_mem fun {first second} isFirst isSecond earlier => ?_
        intro before firstListed after secondListed
        exact covers.index_lt_of_siblings ordered isFirst isSecond earlier
          (wellFormed.below_of_mem_descend firstListed)
          (wellFormed.below_of_mem_descend secondListed)

theorem descendants_root (covers : Covers options path supply done tree)
    (nonempty : done ≠ []) :
    tree.descendants ⟨0⟩ = (List.range tree.nodes.size).map NodeId.mk := by
  have wellFormed := covers.wellFormed
  have live : tree.contains ⟨0⟩ = true := covers.contains_iff.2 (List.length_pos_of_ne_nil nonempty)
  let Earlier (first second : NodeId) : Prop := first.index < second.index
  have antisymmetric : Std.Antisymm Earlier := ⟨fun first second less more =>
    absurd (Nat.lt_trans less more) (Nat.lt_irrefl _)⟩
  have irreflexive : Std.Irrefl Earlier := ⟨fun id => Nat.lt_irrefl _⟩
  have listed : (tree.descendants ⟨0⟩).Pairwise Earlier := by
    rw [ContentTree.descendants, if_pos live]
    exact covers.descend_pairwise ordered _ live
  have slots : ((List.range tree.nodes.size).map NodeId.mk).Pairwise Earlier :=
    List.pairwise_map.2 List.pairwise_lt_range
  refine List.Pairwise.eq_of_mem_iff listed slots fun id => ?_
  rw [wellFormed.mem_descendants_iff live, List.mem_map]
  constructor
  · intro below
    have inside := ContentTree.index_lt_of_contains (ContentTree.contains_of_below live below)
    exact ⟨id.index, List.mem_range.2 inside, rfl⟩
  · rintro ⟨slot, inside, rfl⟩
    have slotLive : tree.contains ⟨slot⟩ = true := by
      rw [covers.contains_iff, ← covers.size]
      exact List.mem_range.1 inside
    obtain ⟨root, isRoot, below⟩ := wellFormed.rooted _ slotLive
    obtain rfl : ⟨0⟩ = root := Option.some.inj (covers.root.symm.trans isRoot)
    exact below

end Covers

/-! ## Layouts and their trees -/

namespace FileTree

variable {options : ScanOptions} {steps : Nat} {top : FileTree}

theorem recorded_eq_cons (options : ScanOptions) (steps : Nat) {kind : FileKind}
    (isKind : top.kind? = some kind) :
    ∃ rest, top.recorded options steps = ([], top) :: rest := by
  refine ⟨_, List.filter_cons_of_pos ?_⟩
  rw [isKind]
  rfl

theorem InOrder.mirrors_of_covers (inOrder : top.InOrder) (enough : top.size ≤ steps)
    {kind : FileKind} (isKind : top.kind? = some kind) {path : RawPath} {supply : Supply}
    {tree : ContentTree} (covers : Covers options path supply (top.recorded options steps) tree) :
    Mirrors options path top tree (placeIn (top.recorded options steps)) := by
  have ordered := @inOrder.recorded_pairwise options steps
  have injective := covers.place_injOn ordered
  have wellFormed := covers.wellFormed
  obtain ⟨rest, whole⟩ := recorded_eq_cons options steps isKind
  have rootPlace : placeIn (top.recorded options steps) ⟨0⟩ = [] := by
    rw [whole]
    rfl
  constructor
  · exact wellFormed
  · refine ⟨?_, injective, ?_⟩
    · intro id live
      obtain ⟨item, inList, isPlace⟩ := covers.exists_item live
      rw [isPlace]
      exact ⟨item.2, (inOrder.mem_recorded_iff enough).1 (List.mem_of_getElem? inList)⟩
    · rintro location ⟨entry, reached⟩
      obtain ⟨slot, inList⟩ :=
        List.mem_iff_getElem?.1 ((inOrder.mem_recorded_iff enough).2 reached)
      refine ⟨⟨slot⟩, ?_, placeIn_of_getElem? inList⟩
      exact covers.contains_iff.2 (List.getElem?_eq_some_iff.1 inList).1
  · exact ⟨⟨0⟩, covers.root, rootPlace⟩
  · intro id above live aboveLive
    refine ⟨covers.place_child, ?_⟩
    rintro ⟨name, isBelow⟩
    cases link : tree.parent? id with
    | none =>
        have isRoot := wellFormed.eq_root_of_parent?_eq_none live link
        obtain rfl : ⟨0⟩ = id := Option.some.inj (covers.root.symm.trans isRoot)
        rw [rootPlace] at isBelow
        exact absurd isBelow.symm (by simp)
    | some parent =>
        obtain ⟨other, alsoBelow⟩ := covers.place_child link
        have samePlace := (List.append_inj' (isBelow.symm.trans alsoBelow) rfl).1
        rw [injective aboveLive (wellFormed.contains_parent link) samePlace]
  · intro id
    refine (covers.children id).imp_of_mem fun {first second} isFirst isSecond earlier => ?_
    obtain ⟨firstName, firstPlace⟩ := covers.place_child (wellFormed.parent_of_child id first isFirst)
    obtain ⟨secondName, secondPlace⟩ :=
      covers.place_child (wellFormed.parent_of_child id second isSecond)
    have before := (covers.place_lt_iff ordered (wellFormed.contains_child isFirst)
      (wellFormed.contains_child isSecond)).2 earlier
    rw [firstPlace, secondPlace] at before
    exact ⟨firstName, secondName, firstPlace, secondPlace, lt_of_append_lt before⟩
  · intro root isRoot
    obtain rfl : ⟨0⟩ = root := Option.some.inj (covers.root.symm.trans isRoot)
    exact covers.descendants_root ordered (by simp [whole])
  · intro id node entry found shown
    obtain ⟨item, inList, isPlace⟩ := covers.exists_item (ContentTree.contains_iff.2 ⟨node, found⟩)
    rw [isPlace] at shown ⊢
    have listed := ((inOrder.mem_recorded_iff enough).1 (List.mem_of_getElem? inList)).1
    obtain rfl : item.2 = entry := Option.some.inj (listed.1.symm.trans shown.1)
    obtain ⟨itsKind, isItsKind, recorded⟩ := covers.node id.index item inList
    rw [found, Option.map_some, Option.some.injEq] at recorded
    refine ⟨congrArg Node.name recorded, _, congrArg Node.file recorded, ?_⟩
    exact Visit.describes_fileInfo options path item isItsKind

end FileTree

namespace FileSystem

variable {system : FileSystem} {options : ScanOptions} {path : RawPath} {top : FileTree}

theorem scan_of_walk {visits : List Visit} {supply : Supply}
    (found : system.pathExists path = true) (walked : system.walk options path = ⟨visits, none⟩) :
    (system.scan options path supply).2 =
        (Scanning.takeAll options visits { supply := supply }).2 ∧
      ∀ last tree, (Scanning.takeAll options visits { supply := supply }).1 = .ok last →
        last.tree = some tree → (system.scan options path supply).1 = .ok tree := by
  obtain ⟨sameSupply, outcome⟩ := @scan_of_pathExists system options path found supply
  rw [walked] at sameSupply outcome
  refine ⟨sameSupply, fun last tree taken isTree => ?_⟩
  rw [outcome, taken]
  simp only [Except.bind, isTree]

/-- A scan of a directory or a file that does not follow links gives the picture of what lies there. -/
theorem scan_mirrors_layout {supply : Supply} {kind : FileKind} (inOrder : system.top.InOrder)
    (notFollowing : options.followLinks = false)
    (isTop : system.entry false path = .ok top) (isKind : top.kind? = some kind)
    (distinct : Set.InjOn supply.name
      (Set.Ico supply.used (system.scan options path supply).2.used)) :
    ∃ tree place, (system.scan options path supply).1 = .ok tree ∧
      Mirrors options path top tree place := by
  have notLink : top.isLink = false := by
    cases top with
    | link => exact absurd isKind (by simp [FileTree.kind?])
    | file | directory | special => rfl
  obtain ⟨location, followed, found, walked⟩ := walk_eq notFollowing isTop notLink
  have itsInOrder := inOrder.of_get? found
  have enough : top.size ≤ system.depthBound := by
    have inSystem := FileTree.length_add_size_le found
    have square : system.top.size ≤ system.depthBound :=
      Nat.le_trans (Nat.le_succ _) (Nat.le_mul_of_pos_left _ (Nat.succ_pos _))
    omega
  have isThere : system.pathExists path = true := by
    simp only [pathExists, entry, followed, found]
  obtain ⟨sameSupply, ends⟩ := @scan_of_walk system options path _ supply isThere walked
  obtain ⟨rest, whole⟩ := FileTree.recorded_eq_cons options system.depthBound isKind
  have visits : ((top.placed options system.depthBound).map (Visit.at path)).filter
      (fun visit => visit.entry.kind?.isSome) =
        Visit.at path ([], top) :: rest.map (Visit.at path) := by
    rw [List.filter_map, ← List.map_cons, ← whole]
    rfl
  rw [Scanning.takeAll_eq_filter, visits] at ends sameSupply
  obtain ⟨first, taken, follows⟩ := Scanning.take_root path supply isKind
  rw [sameSupply] at distinct
  rw [Scanning.takeAll, taken] at distinct ends
  obtain ⟨last, allTaken, followsAll⟩ := follows.takeAll itsInOrder enough distinct
    (List.cons_ne_nil _ _) whole (Nat.le_refl _)
  obtain ⟨tree, isTree, covers⟩ := followsAll.tree
  have scanned := ends last tree (congrArg Prod.fst allTaken) isTree
  refine ⟨tree, placeIn (top.recorded options system.depthBound), scanned, ?_⟩
  exact itsInOrder.mirrors_of_covers enough isKind covers

/-- A directory with a page in a folder, a note, a link, a pipe, a hidden folder, and a file whose
name begins with a dot but is no text. -/
def shelf : FileTree :=
  .directory
    [(RawPath.ofString "note.txt" |>.bytes, .file [0x68, 0x69] {}),
      (RawPath.ofString ".cache" |>.bytes,
        .directory [(RawPath.ofString "old" |>.bytes, .file [0x30] {})] {}),
      (RawPath.ofString "item" |>.bytes,
        .directory [(RawPath.ofString "page.tif" |>.bytes, .file [] {})] {}),
      (RawPath.ofString "latest" |>.bytes, .link (.ofString "item")),
      (RawPath.ofString "pipe" |>.bytes, .special),
      ([RawPath.dot, 0xFF], .file [0x37] {})] {}

/-- The file system with the shelf below its top. -/
def shelfSystem : FileSystem :=
  { top := .directory [(RawPath.ofString "shelf" |>.bytes, shelf)] {} }

theorem inOrder_shelfSystem : shelfSystem.top.InOrder := by
  have leaf {entry : FileTree} (none : entry.entries = []) : entry.InOrder :=
    FileTree.inOrder_of_entries (by simp [none]) (by simp [none]) (by simp [none])
  have folder (name : FileName) (isName : IsEntryName name) (contents : List UInt8) :
      (FileTree.directory [(name, .file contents {})] {}).InOrder := by
    refine FileTree.inOrder_of_entries ?_ ?_ ?_
    · simp [FileTree.entries]
    · simpa [FileTree.entries] using isName
    · simpa [FileTree.entries] using leaf rfl
  have shelfInOrder : shelf.InOrder := by
    refine FileTree.inOrder_of_entries ?_ ?_ ?_
    · decide
    · decide
    · simp only [shelf, FileTree.entries, List.forall_mem_cons]
      exact ⟨leaf rfl, folder _ (by decide) _, folder _ (by decide) _, leaf rfl, leaf rfl, leaf rfl,
        List.forall_mem_nil _⟩
  refine FileTree.inOrder_of_entries ?_ ?_ ?_
  · decide
  · decide
  · simpa [shelfSystem, FileTree.entries] using shelfInOrder

theorem scan_mirrors_shelf :
    shelfSystem.top.InOrder ∧ shelfSystem.entry false (.ofString "/shelf") = .ok shelf ∧
      shelf.kind? = some .directory ∧
      ∃ tree place,
        (shelfSystem.scan {} (.ofString "/shelf") ⟨Session.tally, 0⟩).1 = .ok tree ∧
          Mirrors {} (.ofString "/shelf") shelf tree place := by
  have isShelf : shelfSystem.entry false (.ofString "/shelf") = .ok shelf := by
    cbv
  refine ⟨inOrder_shelfSystem, isShelf, rfl, ?_⟩
  exact scan_mirrors_layout inOrder_shelfSystem rfl isShelf rfl Session.tally_injective.injOn

end FileSystem

end ContentTyping

import Mathlib.Data.Set.Function
import ContentTyping.Proofs.Scan.Listing
import ContentTyping.Proofs.Tree.NodeOrigins
import ContentTyping.Scan.Build

/-!
# Visits that become nodes

A scan that takes in the visits of a walk one after the other makes a node of each directory and each
file. The nodes stand in the slots in the order of the walk, and each of them hangs below the node of
the directory that it is in, which the walk has come to before.
-/

namespace ContentTyping

/-- The node for a visited entry, with nothing above or below it yet. -/
def Visit.node (options : ScanOptions) (visit : Visit) (kind : FileKind) (identifier : String) :
    Node :=
  { identifier := identifier
    name := Text.ofUtf8Lossy visit.name
    file := some (visit.fileInfo options kind) }

/-- The node without its links. -/
def Node.unlinked (node : Node) : Node :=
  { node with parent := none, children := [] }

namespace ContentTree

theorem unlinked_withRoot (node : Node) (id : NodeId) :
    ((withRoot node).2.get? id).map Node.unlinked =
      if id = ⟨0⟩ then some node.unlinked else none := by
  rw [get?_withRoot]
  split <;> rfl

theorem unlinked_withChild {tree : ContentTree} {parent : NodeId}
    (live : tree.contains parent = true) (node : Node) (id : NodeId) :
    ((tree.withChild parent node).get? id).map Node.unlinked =
      if id = ⟨tree.nodes.size⟩ then some node.unlinked
      else (tree.get? id).map Node.unlinked := by
  rw [get?_withChild live]
  by_cases new : id = ⟨tree.nodes.size⟩
  · rw [if_pos new, if_pos new]
    rfl
  · rw [if_neg new, if_neg new]
    split
    next isParent =>
        rw [isParent, Option.map_map]
        rfl
    · rfl

end ContentTree

/-! ## Paths of entries -/

theorem RawPath.components_below {location : Location} (path : RawPath)
    (named : ∀ name ∈ location, IsEntryName name) :
    (path.below location).components = path.components ++ location := by
  induction location generalizing path with
  | nil =>
      exact (List.append_nil _).symm
  | cons name location inductionHypothesis =>
      obtain ⟨isName, restNamed⟩ := List.forall_mem_cons.1 named
      have rest := inductionHypothesis (path.join name) restNamed
      rw [RawPath.components_join isName, List.append_assoc] at rest
      exact rest

theorem FileTree.InOrder.isEntryName_of_get? {top entry : FileTree} {location : Location}
    (inOrder : top.InOrder) (found : top.get? location = some entry) :
    ∀ name ∈ location, IsEntryName name := by
  induction location generalizing top with
  | nil =>
      exact List.forall_mem_nil _
  | cons name location inductionHypothesis =>
      obtain ⟨child, isChild, found⟩ := Option.bind_eq_some_iff.1 found
      have member := mem_of_lookup isChild
      refine List.forall_mem_cons.2 ⟨inOrder.named [] top rfl _ member, ?_⟩
      exact inductionHypothesis (inOrder.of_get? (inOrder.mem_entries_iff.1 member)) found

/-! ## Entries that become nodes -/

namespace FileTree

variable {options : ScanOptions} {steps : Nat} {top entry : FileTree} {location : Location}

/-- The entries that become nodes, in the order of a walk. -/
def recorded (top : FileTree) (options : ScanOptions) (steps : Nat) :
    List (Location × FileTree) :=
  (placed options steps top).filter fun item => item.2.kind?.isSome

theorem InOrder.mem_recorded_iff (inOrder : top.InOrder) (enough : top.size ≤ steps) :
    (location, entry) ∈ top.recorded options steps ↔
      top.Shown options location entry ∧ entry.kind?.isSome = true := by
  rw [recorded, List.mem_filter, inOrder.mem_placed_iff enough]

theorem InOrder.recorded_pairwise (inOrder : top.InOrder) :
    (top.recorded options steps).Pairwise fun first second => first.1 < second.1 :=
  inOrder.placed_pairwise.filter _

/-- An entry with an entry in it is a directory. -/
theorem kind?_of_mem_entries {item : FileName × FileTree} (member : item ∈ entry.entries) :
    entry.kind? = some .directory := by
  cases entry with
  | directory entries times => rfl
  | file => exact absurd member List.not_mem_nil
  | link => exact absurd member List.not_mem_nil
  | special => exact absurd member List.not_mem_nil

theorem Shown.parent {name : FileName} (shown : top.Shown options (location ++ [name]) entry) :
    ∃ parent, top.Shown options location parent ∧ parent.kind? = some .directory := by
  obtain ⟨found, visible⟩ := shown
  rw [get?_append, Option.bind_eq_some_iff] at found
  obtain ⟨parent, parentFound, isChild⟩ := found
  rw [get?_singleton] at isChild
  refine ⟨parent, ⟨parentFound, ?_⟩, kind?_of_mem_entries (mem_of_lookup isChild)⟩
  exact visible.imp_right fun none above member => none above (List.mem_append_left _ member)

/-- What is recorded before an entry includes the directory that it is in. -/
theorem InOrder.exists_parent (inOrder : top.InOrder) (enough : top.size ≤ steps)
    {done rest : List (Location × FileTree)} {name : FileName}
    (whole : top.recorded options steps = done ++ (location ++ [name], entry) :: rest) :
    ∃ parent, (location, parent) ∈ done ∧ parent.kind? = some .directory := by
  have member : (location ++ [name], entry) ∈ top.recorded options steps := by
    rw [whole]
    exact List.mem_append_right _ List.mem_cons_self
  obtain ⟨parent, shown, isDirectory⟩ := ((inOrder.mem_recorded_iff enough).1 member).1.parent
  have parentMember : (location, parent) ∈ top.recorded options steps :=
    (inOrder.mem_recorded_iff enough).2 ⟨shown, by rw [isDirectory]; rfl⟩
  have smaller : location < location ++ [name] := by
    have below := @List.append_left_lt _ _ location _ _ (List.nil_lt_cons name [])
    rwa [List.append_nil] at below
  have ordered := @inOrder.recorded_pairwise options steps
  rw [whole] at ordered parentMember
  refine ⟨parent, ?_, isDirectory⟩
  rcases List.mem_append.1 parentMember with before | notBefore
  · exact before
  · rcases List.mem_cons.1 notBefore with same | after
    · exact absurd (Prod.mk.inj same).1 (by simp)
    · have later := List.rel_of_pairwise_cons (List.pairwise_append.1 ordered).2.1 after
      exact absurd (List.lt_trans smaller later) (List.lt_irrefl _)

end FileTree

/-! ## Taking in visits -/

namespace Scanning

variable {options : ScanOptions} {scanning next : Scanning} {visit : Visit} {supply : Supply}

theorem take_of_not_recorded (notRecorded : visit.entry.kind? = none) :
    scanning.take options visit = (.ok scanning, scanning.supply) := by
  rw [take, notRecorded]

theorem takeAll_eq_filter (options : ScanOptions) (visits : List Visit) (scanning : Scanning) :
    takeAll options visits scanning =
      takeAll options (visits.filter fun visit => visit.entry.kind?.isSome) scanning := by
  induction visits generalizing scanning with
  | nil =>
      rfl
  | cons visit rest inductionHypothesis =>
      cases kind : visit.entry.kind? with
      | none =>
          rw [takeAll, take_of_not_recorded kind, List.filter_cons_of_neg (by simp [kind])]
          exact inductionHypothesis scanning
      | some other =>
          rw [List.filter_cons_of_pos (by simp [kind]), takeAll, takeAll]
          split
          · rfl
          · exact inductionHypothesis _

theorem supply_of_take_eq_ok (taken : scanning.take options visit = (.ok next, supply)) :
    next.supply = supply := by
  revert taken
  rw [take]
  cases visit.entry.kind? with
  | none =>
      rintro ⟨⟩
      rfl
  | some kind =>
      cases scanning.tree with
      | none =>
          rintro ⟨⟩
          rfl
      | some tree =>
          dsimp only
          cases scanning.parentOf? visit with
          | none =>
              rintro ⟨⟩
          | some parent =>
              dsimp only
              split
              · rintro ⟨⟩
              · rintro ⟨⟩
                rfl

/-- An entry that becomes a node, or fails to do so, uses one name. -/
theorem supply_take {kind : FileKind} (isKind : visit.entry.kind? = some kind) :
    (scanning.take options visit).2 = scanning.supply.draw.2 := by
  rw [take, isKind]
  cases scanning.tree with
  | none => rfl
  | some tree =>
      dsimp only
      cases scanning.parentOf? visit with
      | none => rfl
      | some parent =>
          dsimp only
          split <;> rfl

theorem used_le_takeAll (options : ScanOptions) (visits : List Visit) (scanning : Scanning) :
    scanning.supply.used ≤ (takeAll options visits scanning).2.used := by
  induction visits generalizing scanning with
  | nil =>
      exact Nat.le_refl _
  | cons visit rest inductionHypothesis =>
      have here : scanning.supply.used ≤ (scanning.take options visit).2.used := by
        cases kind : visit.entry.kind? with
        | none => rw [take_of_not_recorded kind]
        | some other =>
            rw [supply_take kind]
            exact Nat.le_succ _
      rw [takeAll]
      split
      next failed =>
          rwa [failed] at here
      next next supply taken =>
          rw [taken, ← supply_of_take_eq_ok taken] at here
          exact Nat.le_trans here (inductionHypothesis next)

theorem used_lt_takeAll {kind : FileKind} (isKind : visit.entry.kind? = some kind)
    (rest : List Visit) :
    scanning.supply.used < (takeAll options (visit :: rest) scanning).2.used := by
  have here := congrArg Supply.used (@supply_take options scanning visit kind isKind)
  rw [takeAll]
  split
  next failed =>
      rw [failed] at here
      exact Nat.lt_of_succ_le (Nat.le_of_eq here.symm)
  next next supply taken =>
      rw [taken, ← supply_of_take_eq_ok taken] at here
      exact Nat.lt_of_succ_le (Nat.le_trans (Nat.le_of_eq here.symm) (used_le_takeAll _ _ _))

end Scanning

/-! ## One more node -/

theorem getElem?_concat_cases {α : Type} {items : List α} {last item : α} {slot : Nat}
    (found : (items ++ [last])[slot]? = some item) :
    items[slot]? = some item ∨ slot = items.length ∧ item = last := by
  rcases Nat.lt_or_ge slot items.length with inside | outside
  · rw [List.getElem?_append_left inside] at found
    exact .inl found
  · rw [List.getElem?_append_right outside, List.getElem?_eq_some_iff] at found
    obtain ⟨atEnd, rfl⟩ := found
    rw [List.length_singleton] at atEnd
    exact .inr ⟨by omega, by simp⟩

theorem getElem?_concat_of_some {α : Type} {items : List α} {item : α} {slot : Nat}
    (found : items[slot]? = some item) (last : α) : (items ++ [last])[slot]? = some item := by
  rw [List.getElem?_append_left (List.getElem?_eq_some_iff.1 found).1, found]

/-- The nodes of the tree are those of recorded entries, slot by slot, with the names of a supply from
a number on. -/
structure Covers (options : ScanOptions) (path : RawPath) (supply : Supply)
    (done : List (Location × FileTree)) (tree : ContentTree) : Prop where
  wellFormed : tree.WellFormed
  size : tree.nodes.size = done.length
  root : tree.root = some ⟨0⟩
  profile : tree.profile = none
  node : ∀ slot item, done[slot]? = some item → ∃ kind, item.2.kind? = some kind ∧
    (tree.get? ⟨slot⟩).map Node.unlinked =
      some ((Visit.at path item).node options kind (supply.name (supply.used + slot)))
  parent : ∀ slot above, tree.parent? ⟨slot⟩ = some ⟨above⟩ →
    ∃ item parent name, done[slot]? = some item ∧ done[above]? = some parent ∧
      item.1 = parent.1 ++ [name]
  children : ∀ id, (tree.children id).Pairwise fun first second => first.index < second.index

namespace Covers

variable {options : ScanOptions} {path : RawPath} {supply : Supply}
  {done : List (Location × FileTree)} {tree : ContentTree}

theorem contains_iff (covers : Covers options path supply done tree) {slot : Nat} :
    tree.contains ⟨slot⟩ = true ↔ slot < done.length := by
  constructor
  · intro live
    rw [← covers.size]
    exact ContentTree.index_lt_of_contains live
  · intro inside
    obtain ⟨kind, _, recorded⟩ := covers.node slot done[slot] (List.getElem?_eq_getElem inside)
    obtain ⟨node, found, _⟩ := Option.map_eq_some_iff.1 recorded
    exact ContentTree.contains_iff.2 ⟨node, found⟩

theorem fresh (covers : Covers options path supply done tree)
    (distinct : ∀ slot < done.length,
      supply.name (supply.used + slot) ≠ supply.name (supply.used + done.length)) :
    tree.index.contains (supply.name (supply.used + done.length)) = false := by
  rw [Std.ExtTreeMap.contains_eq_isSome_getElem?, Option.isSome_eq_false_iff, Option.isNone_iff_eq_none,
    Option.eq_none_iff_forall_ne_some]
  intro id indexed
  obtain ⟨node, found, sameName⟩ := (covers.wellFormed.indexed _ id).1 indexed
  have inside := covers.contains_iff.1 (ContentTree.contains_iff.2 ⟨node, found⟩)
  obtain ⟨kind, _, recorded⟩ := covers.node id.index _ (List.getElem?_eq_getElem inside)
  rw [found, Option.map_some, Option.some.injEq] at recorded
  have identifier : node.identifier = supply.name (supply.used + id.index) :=
    congrArg Node.identifier recorded
  exact distinct id.index inside (identifier.symm.trans sameName)

theorem withRoot (path : RawPath) (supply : Supply) {top : FileTree} {kind : FileKind}
    (isKind : top.kind? = some kind) :
    Covers options path supply [([], top)]
      (ContentTree.withRoot
        ((Visit.at path ([], top)).node options kind (supply.name supply.used))).2 where
  wellFormed := ContentTree.wellFormed_withRoot _
  size := rfl
  root := rfl
  profile := rfl
  node slot item inList := by
    rcases @getElem?_concat_cases _ [] _ _ _ inList with none | ⟨rfl, rfl⟩
    · exact absurd none (by simp)
    · refine ⟨kind, isKind, ?_⟩
      rw [ContentTree.unlinked_withRoot]
      rfl
  parent slot above link := by
    rw [ContentTree.parent?_withRoot] at link
    exact absurd link (by simp)
  children id := by
    rw [ContentTree.children_withRoot]
    exact List.Pairwise.nil

theorem withChild (covers : Covers options path supply done tree)
    (distinct : ∀ slot < done.length,
      supply.name (supply.used + slot) ≠ supply.name (supply.used + done.length))
    {above : Nat} {location : Location} {parent : FileTree}
    (isParent : done[above]? = some (location, parent)) {name : FileName} {entry : FileTree}
    {kind : FileKind} (isKind : entry.kind? = some kind) :
    Covers options path supply (done ++ [(location ++ [name], entry)])
      (tree.withChild ⟨above⟩ ((Visit.at path (location ++ [name], entry)).node options kind
        (supply.name (supply.used + done.length)))) := by
  have live : tree.contains ⟨above⟩ = true :=
    covers.contains_iff.2 (List.getElem?_eq_some_iff.1 isParent).1
  constructor
  · exact covers.wellFormed.withChild live (covers.fresh distinct)
  · rw [ContentTree.size_withChild, covers.size, List.length_append, List.length_singleton]
  · exact covers.root
  · exact covers.profile
  · intro slot item inList
    rw [ContentTree.unlinked_withChild live, covers.size]
    rcases getElem?_concat_cases inList with old | ⟨rfl, rfl⟩
    · have inside := (List.getElem?_eq_some_iff.1 old).1
      rw [if_neg (by simpa using Nat.ne_of_lt inside)]
      exact covers.node slot item old
    · exact ⟨kind, isKind, by rw [if_pos rfl]; rfl⟩
  · intro slot upper link
    rw [ContentTree.parent?_withChild live, covers.size] at link
    split at link
    next new =>
        obtain rfl : slot = done.length := congrArg NodeId.index new
        obtain rfl : above = upper := congrArg NodeId.index (Option.some.inj link)
        exact ⟨_, _, name, List.getElem?_concat_length, getElem?_concat_of_some isParent _, rfl⟩
    · obtain ⟨item, itsParent, last, inList, parentInList, isBelow⟩ := covers.parent slot upper link
      exact ⟨item, itsParent, last, getElem?_concat_of_some inList _,
        getElem?_concat_of_some parentInList _, isBelow⟩
  · intro id
    rw [ContentTree.children_withChild live]
    split
    · refine List.pairwise_append.2 ⟨covers.children _, List.pairwise_singleton _ _, ?_⟩
      intro child isChild new isNew
      rw [List.mem_singleton.1 isNew]
      exact ContentTree.index_lt_of_contains (covers.wellFormed.contains_child isChild)
    · exact covers.children id

end Covers

/-! ## A scan on its way -/

namespace Scanning

/-- The scan has come through recorded entries. -/
structure Follows (options : ScanOptions) (path : RawPath) (supply : Supply)
    (done : List (Location × FileTree)) (scanning : Scanning) : Prop where
  drawn : scanning.supply = { supply with used := supply.used + done.length }
  tree : ∃ tree, scanning.tree = some tree ∧ Covers options path supply done tree
  directories : ∀ slot item, done[slot]? = some item → item.2.kind? = some .directory →
    scanning.directories[path.components ++ item.1]? = some ⟨slot⟩

variable {options : ScanOptions} {path : RawPath} {supply : Supply} {scanning : Scanning}
  {done rest : List (Location × FileTree)} {top : FileTree}

theorem take_of_added {visit : Visit} {kind : FileKind} {tree next : ContentTree} {parent id : NodeId}
    (isKind : visit.entry.kind? = some kind) (isTree : scanning.tree = some tree)
    (isParent : scanning.parentOf? visit = some parent)
    (added : tree.addChild parent
      (visit.node options kind (scanning.supply.name scanning.supply.used)) = .ok (id, next)) :
    scanning.take options visit =
      (.ok ({ scanning with supply := scanning.supply.draw.2 }.adding visit kind id next),
        scanning.supply.draw.2) := by
  rw [Visit.node] at added
  simp only [take, isKind, isTree, isParent, Supply.draw, added]

theorem take_root (path : RawPath) (supply : Supply) {kind : FileKind}
    (isKind : top.kind? = some kind) :
    ∃ next : Scanning, ({ supply := supply } : Scanning).take options (Visit.at path ([], top)) =
      (.ok next, next.supply) ∧ Follows options path supply [([], top)] next := by
  rw [take, show (Visit.at path ([], top)).entry.kind? = some kind from isKind]
  refine ⟨_, rfl, rfl, ⟨_, rfl, Covers.withRoot path supply isKind⟩, ?_⟩
  intro slot item inList isDirectory
  rcases @getElem?_concat_cases _ [] _ _ _ inList with none | ⟨rfl, rfl⟩
  · exact absurd none (by simp)
  · obtain rfl : kind = .directory := Option.some.inj (isKind.symm.trans isDirectory)
    simp only [adding, if_true, List.append_nil]
    exact Std.HashMap.getElem?_insert_self

theorem Follows.parentOf? (follows : Follows options path supply done scanning) {slot : Nat}
    {location : Location} {parent : FileTree} (isParent : done[slot]? = some (location, parent))
    (isDirectory : parent.kind? = some .directory) {name : FileName} {entry : FileTree}
    (named : ∀ step ∈ location ++ [name], IsEntryName step) :
    scanning.parentOf? (Visit.at path (location ++ [name], entry)) = some ⟨slot⟩ := by
  have components : (Visit.at path (location ++ [name], entry)).path.components =
      path.components ++ location ++ [name] := by
    rw [List.append_assoc]
    exact RawPath.components_below path named
  rw [Scanning.parentOf?, components]
  split
  next empty => exact absurd empty (by simp)
  · rw [List.dropLast_concat]
    exact follows.directories slot _ isParent isDirectory

theorem Follows.take (follows : Follows options path supply done scanning)
    (distinct : ∀ slot < done.length,
      supply.name (supply.used + slot) ≠ supply.name (supply.used + done.length))
    {slot : Nat} {location : Location} {parent : FileTree}
    (isParent : done[slot]? = some (location, parent))
    (isDirectory : parent.kind? = some .directory) {name : FileName} {entry : FileTree}
    (named : ∀ step ∈ location ++ [name], IsEntryName step)
    (new : ∀ item ∈ done, item.1 ≠ location ++ [name]) {kind : FileKind}
    (isKind : entry.kind? = some kind) :
    ∃ next : Scanning, scanning.take options (Visit.at path (location ++ [name], entry)) =
      (.ok next, next.supply) ∧
        Follows options path supply (done ++ [(location ++ [name], entry)]) next := by
  obtain ⟨tree, isTree, covers⟩ := follows.tree
  have live : tree.contains ⟨slot⟩ = true :=
    covers.contains_iff.2 (List.getElem?_eq_some_iff.1 isParent).1
  have identifier : scanning.supply.name scanning.supply.used =
      supply.name (supply.used + done.length) := by
    rw [follows.drawn]
  have grown : Covers options path supply (done ++ [(location ++ [name], entry)])
      (tree.withChild ⟨slot⟩ ((Visit.at path (location ++ [name], entry)).node options kind
        (scanning.supply.name scanning.supply.used))) := by
    rw [identifier]
    exact covers.withChild distinct isParent isKind
  have fresh := covers.fresh distinct
  rw [← identifier] at fresh
  have added := (@ContentTree.addChild_eq_ok_iff tree ⟨slot⟩ _
    ((Visit.at path (location ++ [name], entry)).node options kind _) _).2 ⟨live, fresh, rfl, rfl⟩
  have taken := take_of_added isKind isTree (follows.parentOf? isParent isDirectory named) added
  refine ⟨_, taken, ?_, ⟨_, rfl, grown⟩, ?_⟩
  · simp [adding, follows.drawn, Supply.draw, Nat.add_assoc]
  · intro later item inList itsDirectory
    have components : (Visit.at path (location ++ [name], entry)).path.components =
        path.components ++ (location ++ [name]) := RawPath.components_below path named
    rcases getElem?_concat_cases inList with old | ⟨rfl, rfl⟩
    · have different := new item (List.mem_of_getElem? old)
      have known := follows.directories later item old itsDirectory
      simp only [adding, components]
      split
      · rw [Std.HashMap.getElem?_insert, if_neg, known]
        simpa using Ne.symm different
      · exact known
    · obtain rfl : kind = .directory := Option.some.inj (isKind.symm.trans itsDirectory)
      simp only [adding, components, if_true, covers.size]
      exact Std.HashMap.getElem?_insert_self

theorem Follows.takeAll {steps : Nat} (inOrder : top.InOrder) (enough : top.size ≤ steps)
    {bound : Nat} (distinct : Set.InjOn supply.name (Set.Ico supply.used bound))
    (follows : Follows options path supply done scanning) (nonempty : done ≠ [])
    (whole : top.recorded options steps = done ++ rest)
    (within : (takeAll options (rest.map (Visit.at path)) scanning).2.used ≤ bound) :
    ∃ last : Scanning, takeAll options (rest.map (Visit.at path)) scanning =
      (.ok last, last.supply) ∧ Follows options path supply (top.recorded options steps) last := by
  induction rest generalizing done scanning with
  | nil =>
      refine ⟨scanning, rfl, ?_⟩
      rwa [whole, List.append_nil]
  | cons item rest inductionHypothesis =>
      obtain ⟨location, entry⟩ := item
      have listed := @inOrder.recorded_pairwise options steps
      rw [whole] at listed
      have before : ∀ earlier ∈ done, earlier.1 < location := fun earlier member =>
        (List.pairwise_append.1 listed).2.2 earlier member _ List.mem_cons_self
      have member : (location, entry) ∈ top.recorded options steps := by
        rw [whole]
        exact List.mem_append_right _ List.mem_cons_self
      obtain ⟨⟨found, _⟩, isSome⟩ := (inOrder.mem_recorded_iff enough).1 member
      obtain ⟨kind, isKind⟩ := Option.isSome_iff_exists.1 isSome
      have fresh : ∀ slot < done.length,
          supply.name (supply.used + slot) ≠ supply.name (supply.used + done.length) := by
        have room : supply.used + done.length < bound := by
          have drawn := Nat.lt_of_lt_of_le (used_lt_takeAll isKind _) within
          rwa [follows.drawn] at drawn
        intro slot inside same
        have sameNumber := distinct ⟨Nat.le_add_right _ _, by omega⟩
          ⟨Nat.le_add_right _ _, room⟩ same
        omega
      rcases List.eq_nil_or_concat' location with rfl | ⟨above, name, rfl⟩
      · obtain ⟨first, others, rfl⟩ := List.exists_cons_of_ne_nil nonempty
        exact absurd (before first List.mem_cons_self) (List.not_lt_nil _)
      · obtain ⟨parent, inDone, isDirectory⟩ := inOrder.exists_parent enough whole
        obtain ⟨slot, isParent⟩ := List.mem_iff_getElem?.1 inDone
        have new : ∀ earlier ∈ done, earlier.1 ≠ above ++ [name] := fun earlier member same =>
          List.lt_irrefl _ (same ▸ before earlier member)
        obtain ⟨next, taken, further⟩ := follows.take fresh isParent isDirectory
          (inOrder.isEntryName_of_get? found) new isKind
        rw [List.map_cons, takeAll, taken] at within ⊢
        refine inductionHypothesis further (List.append_ne_nil_of_left_ne_nil nonempty _) ?_ within
        rw [whole, List.append_assoc, List.singleton_append]

end Scanning

end ContentTyping

import ContentTyping.Proofs.FileSystem.Entries

/-!
# What a walk lists

A walk that does not follow links visits the entries below its start in the order of their locations,
where a location comes before all that continue it. It leaves out hidden entries with all that is in
them, and nothing else.
-/

namespace ContentTyping

/-- The name is a text that begins with a dot. -/
def IsHidden (name : FileName) : Prop :=
  (∃ text, Text.ofUtf8? name = some text) ∧ ∃ rest, name = RawPath.dot :: rest

theorem isHiddenName_eq_true_iff {name : FileName} : isHiddenName name = true ↔ IsHidden name := by
  rw [isHiddenName, Bool.and_eq_true, Option.isSome_iff_exists, decide_eq_true_iff,
    List.head?_eq_some_iff, IsHidden]

/-- Entries with this name are left out. -/
def ScanOptions.hides (options : ScanOptions) (name : FileName) : Bool :=
  !options.includeHidden && isHiddenName name

theorem ScanOptions.forall_hides_eq_false_iff {options : ScanOptions} {location : Location} :
    (∀ name ∈ location, options.hides name = false) ↔
      options.includeHidden = true ∨ ∀ name ∈ location, ¬ IsHidden name := by
  simp only [hides, ← isHiddenName_eq_true_iff]
  cases options.includeHidden with
  | true => simp
  | false => simp

namespace FileTree

variable {options : ScanOptions} {top entry : FileTree} {location : Location} {steps : Nat}

/-- The entries below a tree by location, to a number of steps. -/
def listing (options : ScanOptions) : Nat → FileTree → List (Location × FileTree)
  | 0, _ => []
  | steps + 1, top =>
    (sortedEntries top).flatMap fun item =>
      if options.hides item.1 then []
      else
        ([item.1], item.2) ::
          (listing options steps item.2).map fun below => (item.1 :: below.1, below.2)

theorem mem_listing_succ_iff :
    (location, entry) ∈ listing options (steps + 1) top ↔
      ∃ item ∈ top.entries, options.hides item.1 = false ∧
        ((location, entry) = ([item.1], item.2) ∨
          ∃ below, (below, entry) ∈ listing options steps item.2 ∧ location = item.1 :: below) := by
  rw [listing, List.mem_flatMap]
  refine exists_congr fun item => ?_
  rw [mem_sortedEntries_iff]
  refine and_congr_right fun _ => ?_
  cases options.hides item.1 with
  | true =>
      simp
  | false =>
      simp only [Bool.false_eq_true, if_false, List.mem_cons, List.mem_map, Prod.mk.injEq,
        Prod.exists, true_and]
      refine or_congr_right ⟨?_, ?_⟩
      · rintro ⟨below, other, listed, rfl, rfl⟩
        exact ⟨below, listed, rfl⟩
      · rintro ⟨below, listed, rfl⟩
        exact ⟨below, entry, listed, rfl, rfl⟩

theorem ne_nil_of_mem_listing (listed : (location, entry) ∈ listing options steps top) :
    location ≠ [] := by
  cases steps with
  | zero =>
      exact absurd listed List.not_mem_nil
  | succ steps =>
      obtain ⟨item, _, _, here | ⟨below, _, rfl⟩⟩ := mem_listing_succ_iff.1 listed
      · rw [(Prod.mk.inj here).1]
        exact List.cons_ne_nil _ _
      · exact List.cons_ne_nil _ _

theorem InOrder.get?_of_mem_listing (inOrder : top.InOrder)
    (listed : (location, entry) ∈ listing options steps top) :
    top.get? location = some entry ∧ ∀ name ∈ location, options.hides name = false := by
  induction steps generalizing top location with
  | zero =>
      exact absurd listed List.not_mem_nil
  | succ steps inductionHypothesis =>
      obtain ⟨⟨name, child⟩, member, shown, here | ⟨below, further, rfl⟩⟩ :=
        mem_listing_succ_iff.1 listed
      · obtain ⟨rfl, rfl⟩ := Prod.mk.inj here
        exact ⟨inOrder.mem_entries_iff.1 member, by simpa using shown⟩
      · have childFound := inOrder.mem_entries_iff.1 member
        obtain ⟨found, belowShown⟩ := inductionHypothesis (inOrder.of_get? childFound) further
        refine ⟨?_, List.forall_mem_cons.2 ⟨shown, belowShown⟩⟩
        rw [← List.singleton_append, get?_append, childFound, Option.bind_some, found]

theorem InOrder.mem_listing_of_get? (inOrder : top.InOrder) (nonempty : location ≠ [])
    (found : top.get? location = some entry)
    (shown : ∀ name ∈ location, options.hides name = false) (enough : location.length ≤ steps) :
    (location, entry) ∈ listing options steps top := by
  induction steps generalizing top location with
  | zero =>
      exact absurd (List.eq_nil_of_length_eq_zero (Nat.le_zero.1 enough)) nonempty
  | succ steps inductionHypothesis =>
      cases location with
      | nil =>
          exact absurd rfl nonempty
      | cons name below =>
          obtain ⟨child, isChild, found⟩ := Option.bind_eq_some_iff.1 found
          obtain ⟨nameShown, belowShown⟩ := List.forall_mem_cons.1 shown
          have member := mem_of_lookup isChild
          refine mem_listing_succ_iff.2 ⟨(name, child), member, nameShown, ?_⟩
          cases below with
          | nil =>
              obtain rfl : child = entry := Option.some.inj found
              exact .inl rfl
          | cons next rest =>
              have childInOrder := inOrder.of_get? (inOrder.mem_entries_iff.1 member)
              exact .inr ⟨next :: rest, inductionHypothesis childInOrder (List.cons_ne_nil _ _) found
                belowShown (Nat.le_of_succ_le_succ enough), rfl⟩

/-! ## The order of the list -/

theorem InOrder.listing_pairwise (inOrder : top.InOrder) :
    (listing options steps top).Pairwise fun first second => first.1 < second.1 := by
  induction steps generalizing top with
  | zero =>
      exact List.Pairwise.nil
  | succ steps inductionHypothesis =>
      rw [listing, List.pairwise_flatMap]
      constructor
      · intro item member
        have childFound := inOrder.mem_entries_iff.1 (mem_sortedEntries_iff.1 member)
        have below := @inductionHypothesis item.2 (inOrder.of_get? childFound)
        split
        · exact List.Pairwise.nil
        · refine List.pairwise_cons.2 ⟨?_, ?_⟩
          · intro further listed
            obtain ⟨⟨location, entry⟩, isBelow, rfl⟩ := List.mem_map.1 listed
            obtain ⟨name, rest, rfl⟩ := List.exists_cons_of_ne_nil (ne_nil_of_mem_listing isBelow)
            exact List.cons_lt_cons_iff.2 (.inr ⟨rfl, List.nil_lt_cons _ _⟩)
          · refine List.pairwise_map.2 (below.imp fun smaller => ?_)
            exact List.cons_lt_cons_iff.2 (.inr ⟨rfl, smaller⟩)
      · refine (sortedEntries_pairwise inOrder).imp fun {first second} smaller => ?_
        have head {item : FileName × FileTree} {listed : Location × FileTree}
            (isListed : listed ∈ if options.hides item.1 then []
              else ([item.1], item.2) ::
                (listing options steps item.2).map fun below => (item.1 :: below.1, below.2)) :
            ∃ rest, listed.1 = item.1 :: rest := by
          split at isListed
          · exact absurd isListed List.not_mem_nil
          · rcases List.mem_cons.1 isListed with rfl | further
            · exact ⟨[], rfl⟩
            · obtain ⟨below, _, rfl⟩ := List.mem_map.1 further
              exact ⟨below.1, rfl⟩
        intro one oneListed other otherListed
        obtain ⟨oneRest, isOne⟩ := head oneListed
        obtain ⟨otherRest, isOther⟩ := head otherListed
        rw [isOne, isOther]
        exact List.cons_lt_cons_iff.2 (.inl smaller)

/-- A location and its entry in the order of a walk, with the start itself. -/
def placed (options : ScanOptions) (steps : Nat) (top : FileTree) : List (Location × FileTree) :=
  ([], top) :: listing options steps top

/-- The entry at the location is reached: no name on the way is hidden, unless hidden ones count. -/
def Shown (options : ScanOptions) (top : FileTree) (location : Location) (entry : FileTree) : Prop :=
  top.get? location = some entry ∧
    (options.includeHidden = true ∨ ∀ name ∈ location, ¬ IsHidden name)

theorem InOrder.mem_placed_iff (inOrder : top.InOrder) (enough : top.size ≤ steps) :
    (location, entry) ∈ placed options steps top ↔ top.Shown options location entry := by
  rw [placed, List.mem_cons, Shown, ← ScanOptions.forall_hides_eq_false_iff]
  constructor
  · rintro (here | listed)
    · obtain ⟨rfl, rfl⟩ := Prod.mk.inj here
      exact ⟨rfl, List.forall_mem_nil _⟩
    · exact inOrder.get?_of_mem_listing listed
  · rintro ⟨found, shown⟩
    cases location with
    | nil =>
        obtain rfl : top = entry := Option.some.inj found
        exact .inl rfl
    | cons name rest =>
        have short := length_add_size_le found
        exact .inr (inOrder.mem_listing_of_get? (List.cons_ne_nil _ _) found shown (by omega))

theorem InOrder.placed_pairwise (inOrder : top.InOrder) :
    (placed options steps top).Pairwise fun first second => first.1 < second.1 := by
  refine List.pairwise_cons.2 ⟨fun item listed => ?_, inOrder.listing_pairwise⟩
  obtain ⟨name, rest, isCons⟩ := List.exists_cons_of_ne_nil (ne_nil_of_mem_listing listed)
  rw [isCons]
  exact List.nil_lt_cons _ _

end FileTree

/-! ## Visits -/

/-- The path of the entry at a location below another path. -/
def RawPath.below (path : RawPath) (location : Location) : RawPath :=
  location.foldl RawPath.join path

/-- The visit to an entry at a location below the start of a walk. -/
def Visit.at (path : RawPath) (item : Location × FileTree) : Visit :=
  ⟨path.below item.1, item.1.getLast?.getD (FileSystem.nameOfStart path), item.2⟩

namespace FileSystem

open FileTree

variable {system : FileSystem} {options : ScanOptions}

theorem append_of_no_fault (visits : List Visit) (second : Unit → Walk) :
    Walk.append ⟨visits, none⟩ second = ⟨visits ++ (second ()).visits, (second ()).fault?⟩ :=
  rfl

theorem concat_of_no_fault {α : Type} {walk : α → Walk} {visits : α → List Visit} {items : List α}
    (each : ∀ item ∈ items, walk item = ⟨visits item, none⟩) :
    Walk.concat walk items = ⟨items.flatMap visits, none⟩ := by
  induction items with
  | nil =>
      rfl
  | cons item items inductionHypothesis =>
      have rest := inductionHypothesis fun later member => each later (List.mem_cons_of_mem _ member)
      rw [Walk.concat, each item List.mem_cons_self, append_of_no_fault, rest, List.flatMap_cons]

theorem concat_visitBelow (notFollowing : options.followLinks = false) (steps : Nat)
    (ancestors : List Ancestor) (path : RawPath) (location : Location) (entry : FileTree) :
    Walk.concat (system.visitBelow options steps ancestors path location) (sortedEntries entry) =
      ⟨(listing options steps entry).map fun item =>
        ⟨path.below item.1, item.1.getLast?.getD [], item.2⟩, none⟩ := by
  induction steps generalizing ancestors path location entry with
  | zero =>
      have empty := @concat_of_no_fault _ (system.visitBelow options 0 ancestors path location)
        (fun _ => []) (sortedEntries entry) (fun _ _ => rfl)
      simp [empty, listing]
  | succ steps inductionHypothesis =>
      rw [listing, List.map_flatMap]
      refine concat_of_no_fault fun item _ => ?_
      rw [visitBelow, notFollowing]
      simp only [Bool.false_and, Bool.false_eq_true, if_false]
      rw [ScanOptions.hides]
      split
      · rfl
      · rw [append_of_no_fault, inductionHypothesis, List.map_cons, List.map_map]
        refine congrArg (Walk.mk · none) (congrArg₂ List.cons rfl ?_)
        refine List.map_congr_left fun below listed => ?_
        obtain ⟨name, rest, isCons⟩ := List.exists_cons_of_ne_nil (ne_nil_of_mem_listing listed)
        simp [RawPath.below, isCons]

/-- From a directory or a file the walk goes without faults through all that is listed. -/
theorem walk_eq (notFollowing : options.followLinks = false) {path : RawPath} {top : FileTree}
    (isTop : system.entry false path = .ok top) (notLink : top.isLink = false) :
    ∃ location, system.locate true path = .ok location ∧ system.top.get? location = some top ∧
      system.walk options path =
        ⟨(placed options system.depthBound top).map (Visit.at path), none⟩ := by
  rw [entry] at isTop
  split at isTop
  · exact absurd isTop (by simp)
  next location located =>
      split at isTop
      next found =>
          obtain rfl := Except.ok.inj isTop
          have followed := locate_of_not_link located found notLink
          refine ⟨location, followed, found, ?_⟩
          rw [walk, notFollowing, located, followed]
          simp only [found]
          rw [append_of_no_fault, concat_visitBelow notFollowing, placed, List.map_cons]
          refine congrArg (Walk.mk · none) (congrArg₂ List.cons rfl ?_)
          refine List.map_congr_left fun below listed => ?_
          rw [Visit.at, List.getLast?_eq_some_getLast (ne_nil_of_mem_listing listed)]
          rfl
      · exact absurd isTop (by simp)

end FileSystem

end ContentTyping

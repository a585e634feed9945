import Mathlib.Data.List.Dedup
import Mathlib.Data.List.Induction
import ContentTyping.Proofs.Tree.Edits
import ContentTyping.Proofs.Tree.Written

/-!
# The index of a tree that was read

The index of a tree is not written. When the tree is read, it is made anew from the slots, one after the other, and
nothing is checked. So it leads from an identifier to the last node that bears it, and it has an entry for every
identifier, which is an entry for every node exactly when no two nodes share an identifier.
-/

namespace ContentTyping.ContentTree

/-! ## The index over a row of slots -/

/-- Enter the node of a slot, if there is one. -/
def enter (index : Std.ExtTreeMap String NodeId) (slot : Option Node × Nat) :
    Std.ExtTreeMap String NodeId :=
  match slot.1 with
  | some node => index.insert node.identifier ⟨slot.2⟩
  | none => index

theorem getElem?_enter (index : Std.ExtTreeMap String NodeId) (slot : Option Node × Nat)
    (identifier : String) :
    (enter index slot)[identifier]? =
      if slot.1.map Node.identifier = some identifier then some ⟨slot.2⟩ else index[identifier]? := by
  rw [enter]
  split
  next node isNode =>
      rw [Std.ExtTreeMap.getElem?_insert, isNode]
      simp [Std.LawfulEqCmp.compare_eq_iff_eq]
  next isEmpty =>
      simp [isEmpty]

/-- In the row of slots, the one with the number holds a node with the identifier. -/
def NamedAt (slots : List (Option Node)) (identifier : String) (number : Nat) : Prop :=
  ∃ node, slots[number]? = some (some node) ∧ node.identifier = identifier

section Slots

variable {slots : List (Option Node)} {slot : Option Node} {identifier : String} {number : Nat}

theorem NamedAt.lt (named : NamedAt slots identifier number) : number < slots.length := by
  obtain ⟨node, found, _⟩ := named
  exact (List.getElem?_eq_some_iff.1 found).1

theorem namedAt_append_iff :
    NamedAt (slots ++ [slot]) identifier number ↔
      NamedAt slots identifier number ∨
        number = slots.length ∧ slot.map Node.identifier = some identifier := by
  rcases Nat.lt_trichotomy number slots.length with inside | rfl | outside
  · rw [NamedAt, List.getElem?_append_left inside, NamedAt]
    have notLast : number ≠ slots.length := Nat.ne_of_lt inside
    simp [notLast]
  · have notInside : ¬ NamedAt slots identifier slots.length := fun named => Nat.lt_irrefl _ named.lt
    rw [NamedAt, List.getElem?_concat_length, Option.map_eq_some_iff]
    simp [notInside]
  · have notInside : ¬ NamedAt slots identifier number := fun named => by
      have inside := named.lt
      omega
    have notThere : ¬ NamedAt (slots ++ [slot]) identifier number := fun named => by
      have inside := named.lt
      rw [List.length_append, List.length_singleton] at inside
      omega
    have notLast : number ≠ slots.length := Nat.ne_of_gt outside
    simp [notInside, notThere, notLast]

/-- Of several slots with one identifier the last one is entered. -/
theorem getElem?_foldl_enter_iff {id : NodeId} :
    (slots.zipIdx.foldl enter ∅)[identifier]? = some id ↔
      NamedAt slots identifier id.index ∧
        ∀ later, NamedAt slots identifier later → later ≤ id.index := by
  induction slots using List.reverseRecOn with
  | nil =>
      simp [NamedAt]
  | append_singleton slots slot inductionHypothesis =>
      rw [List.zipIdx_append, List.foldl_append, List.zipIdx_singleton, List.foldl_cons, List.foldl_nil,
        getElem?_enter, Nat.zero_add]
      by_cases named : slot.map Node.identifier = some identifier
      · have last : NamedAt (slots ++ [slot]) identifier slots.length :=
          namedAt_append_iff.2 (.inr ⟨rfl, named⟩)
        have noneLater {later : Nat} (isNamed : NamedAt (slots ++ [slot]) identifier later) :
            later ≤ slots.length := by
          have inside := isNamed.lt
          rw [List.length_append, List.length_singleton] at inside
          omega
        rw [if_pos named, Option.some_inj]
        constructor
        · rintro rfl
          exact ⟨last, fun later isNamed => noneLater isNamed⟩
        · rintro ⟨isNamed, isLast⟩
          exact congrArg NodeId.mk (Nat.le_antisymm (isLast _ last) (noneLater isNamed))
      · have same (number : Nat) :
            NamedAt (slots ++ [slot]) identifier number ↔ NamedAt slots identifier number := by
          rw [namedAt_append_iff]
          exact or_iff_left fun isSlot => named isSlot.2
        rw [if_neg named, inductionHypothesis, same]
        exact and_congr_right fun _ => forall_congr' fun later => by rw [same]

end Slots

/-! ## Trees with a new index -/

variable {tree : ContentTree}

theorem namedAt_nodes_iff {identifier : String} {id : NodeId} :
    NamedAt tree.nodes.toList identifier id.index ↔
      tree.contains id = true ∧ tree.identifierOf id = identifier := by
  rw [NamedAt, contains, identifierOf]
  simp only [← get?_eq_some_iff]
  cases tree.get? id with
  | none => simp
  | some node => simp

/-- The identifiers of the nodes, in the order of their slots. -/
def identifiers (tree : ContentTree) : List String :=
  tree.liveIds.map tree.identifierOf

theorem mem_identifiers_iff {identifier : String} :
    identifier ∈ tree.identifiers ↔
      ∃ id, tree.contains id = true ∧ tree.identifierOf id = identifier := by
  rw [identifiers, List.mem_map]
  refine exists_congr fun id => ?_
  rw [mem_liveIds_iff]

/-- The node bears the identifier, and no later one does. -/
structure LastNamed (tree : ContentTree) (identifier : String) (id : NodeId) : Prop where
  contains : tree.contains id = true
  named : tree.identifierOf id = identifier
  last : ∀ other, tree.contains other = true → tree.identifierOf other = identifier →
    other.index ≤ id.index

theorem getElem?_indexOf_iff {identifier : String} {id : NodeId} :
    (indexOf tree.nodes)[identifier]? = some id ↔ tree.LastNamed identifier id := by
  have isFold : indexOf tree.nodes = tree.nodes.toList.zipIdx.foldl enter ∅ := rfl
  rw [isFold, getElem?_foldl_enter_iff, namedAt_nodes_iff]
  constructor
  · rintro ⟨⟨live, named⟩, last⟩
    exact ⟨live, named, fun other otherLive otherNamed =>
      last other.index (namedAt_nodes_iff.2 ⟨otherLive, otherNamed⟩)⟩
  · rintro ⟨live, named, last⟩
    refine ⟨⟨live, named⟩, fun later isNamed => ?_⟩
    obtain ⟨laterLive, laterNamed⟩ := (@namedAt_nodes_iff tree identifier ⟨later⟩).1 isNamed
    exact last ⟨later⟩ laterLive laterNamed

theorem exists_lastNamed {identifier : String} (member : identifier ∈ tree.identifiers) :
    ∃ id, tree.LastNamed identifier id := by
  classical
  obtain ⟨id, live, named⟩ := mem_identifiers_iff.1 member
  have isNamed := namedAt_nodes_iff.2 ⟨live, named⟩
  have found := Nat.findGreatest_spec (Nat.le_of_lt isNamed.lt) isNamed
  obtain ⟨lastLive, lastNamed⟩ := (@namedAt_nodes_iff tree identifier ⟨_⟩).1 found
  refine ⟨_, lastLive, lastNamed, fun other otherLive otherNamed => ?_⟩
  have isOther := namedAt_nodes_iff.2 ⟨otherLive, otherNamed⟩
  exact Nat.le_findGreatest (Nat.le_of_lt isOther.lt) isOther

theorem keys_indexOf_perm : tree.identifiers.dedup.Perm (indexOf tree.nodes).keys := by
  apply (List.perm_ext_iff_of_nodup (List.nodup_dedup _) (nodup_keys _)).2
  intro identifier
  rw [Std.ExtTreeMap.mem_keys, Std.ExtTreeMap.mem_iff_isSome_getElem?, Option.isSome_iff_exists,
    List.mem_dedup]
  constructor
  · intro member
    obtain ⟨id, isLast⟩ := exists_lastNamed member
    exact ⟨id, getElem?_indexOf_iff.2 isLast⟩
  · rintro ⟨id, found⟩
    have isLast := getElem?_indexOf_iff.1 found
    exact mem_identifiers_iff.2 ⟨id, isLast.contains, isLast.named⟩

theorem length_identifiers : tree.identifiers.length = tree.liveIds.length :=
  List.length_map _

/-- The identifiers differ if and only if nodes with one identifier are one node. -/
theorem nodup_identifiers_iff :
    tree.identifiers.Nodup ↔
      ∀ first second, tree.contains first = true → tree.contains second = true →
        tree.identifierOf first = tree.identifierOf second → first = second := by
  rw [identifiers, List.nodup_map_iff_inj_on liveIds_nodup]
  simp only [mem_liveIds_iff]
  exact ⟨fun injective first second firstLive secondLive => injective first firstLive second secondLive,
    fun injective first firstLive second secondLive => injective first second firstLive secondLive⟩

section NewIndex

variable (isNew : tree.index = indexOf tree.nodes)

include isNew

theorem findByIdentifier?_eq_some_iff {identifier : String} {id : NodeId} :
    tree.findByIdentifier? identifier = some id ↔ tree.LastNamed identifier id := by
  rw [← getElem?_indexOf_iff, findByIdentifier?, isNew]
  cases found : (indexOf tree.nodes)[identifier]? with
  | none =>
      rfl
  | some entry =>
      have isLast := getElem?_indexOf_iff.1 found
      obtain ⟨node, isNode⟩ := contains_iff.1 isLast.contains
      have named : node.identifier = identifier := by
        rw [← isLast.named, identifierOf, isNode]
      simp [isNode, named]

theorem size_eq_length_dedup : tree.size = tree.identifiers.dedup.length := by
  rw [size, isNew, keys_indexOf_perm.length_eq, Std.ExtTreeMap.length_keys]

/-- The index counts every node if and only if no two of them share an identifier. -/
theorem size_eq_length_liveIds_iff : tree.size = tree.liveIds.length ↔ tree.identifiers.Nodup := by
  rw [size_eq_length_dedup isNew, ← length_identifiers, ← List.dedup_eq_self]
  constructor
  · exact (List.dedup_sublist tree.identifiers).eq_of_length
  · intro same
    rw [same]

/-- Every node is found by its identifier if and only if no two of them share one. -/
theorem findByIdentifier?_identifierOf_iff :
    (∀ id, tree.contains id = true → tree.findByIdentifier? (tree.identifierOf id) = some id) ↔
      tree.identifiers.Nodup := by
  rw [nodup_identifiers_iff]
  constructor
  · intro finds first second firstLive secondLive same
    have firstFound := finds first firstLive
    rw [same, finds second secondLive] at firstFound
    exact (Option.some.inj firstFound).symm
  · intro distinct id live
    refine (findByIdentifier?_eq_some_iff isNew).2 ⟨live, rfl, fun other otherLive named => ?_⟩
    rw [distinct other id otherLive live named]

end NewIndex

/-! ## Trees that were read -/

/-- A text is read as the tree over the slots that it writes. -/
theorem ofText_eq_ofSlots {text : String} {slots : List (Option Node)} {root : Option NodeId}
    {profile : Option String}
    (read : ((ofText text).toOption.map fun tree => (tree.nodes.toList, tree.root, tree.profile)) =
      some (slots, root, profile)) :
    ofText text = .ok (ofSlots slots.toArray root profile) := by
  cases found : ofText text with
  | error error =>
      rw [found] at read
      exact absurd read (by simp [Except.toOption])
  | ok tree =>
      rw [found] at read
      obtain ⟨rfl, rfl, rfl⟩ : tree.nodes.toList = slots ∧ tree.root = root ∧ tree.profile = profile := by
        simpa [Except.toOption] using read
      rw [Array.toArray_toList, (storable_of_ofText found).2]

/-- In a tree that was read an identifier leads to the last node that bears it, and there are as many entries as
different identifiers. The entries are as many as the nodes if and only if no two nodes share an identifier, and
then and only then every node is found by its identifier. -/
theorem index_of_ofText {text : String} (read : ofText text = .ok tree) :
    (∀ identifier id, tree.findByIdentifier? identifier = some id ↔ tree.LastNamed identifier id) ∧
      tree.size = tree.identifiers.dedup.length ∧
      (tree.size = tree.liveIds.length ↔ tree.identifiers.Nodup) ∧
      ((∀ id, tree.contains id = true → tree.findByIdentifier? (tree.identifierOf id) = some id) ↔
        tree.identifiers.Nodup) := by
  have isNew : tree.index = indexOf tree.nodes :=
    (congrArg ContentTree.index (storable_of_ofText read).2).symm
  refine ⟨fun identifier id => findByIdentifier?_eq_some_iff isNew, size_eq_length_dedup isNew,
    size_eq_length_liveIds_iff isNew, findByIdentifier?_identifierOf_iff isNew⟩

/-- A shelf with a book on it; the slot between them is empty. Records are written as arrays of their fields. -/
def shelfText : String :=
  "[[[\"urn:shelf\",\"shelf\",null,[2],null,null,null,null,[],false],null," ++
  "[\"urn:book\",\"book\",0,[],null,null,null,null,[],false]],0]"

/-- The tree that it writes. -/
def shelf : ContentTree :=
  ofSlots #[some { identifier := "urn:shelf", name := "shelf", children := [⟨2⟩] }, none,
    some { identifier := "urn:book", name := "book", parent := some ⟨0⟩ }] (some ⟨0⟩) none

theorem index_of_ofText_shelf :
    ofText shelfText = .ok shelf ∧ shelf.size = shelf.liveIds.length ∧
      shelf.findByIdentifier? "urn:book" = some ⟨2⟩ := by
  have read : ofText shelfText = .ok shelf := ofText_eq_ofSlots (by decide +kernel)
  have distinct : shelf.identifiers.Nodup := by decide
  obtain ⟨_, _, counts, finds⟩ := index_of_ofText read
  exact ⟨read, counts.2 distinct, finds.2 distinct ⟨2⟩ rfl⟩

/-- A shelf and a book that share an identifier. -/
def twinsText : String :=
  "\x7b\"nodes\":[\x7b\"identifier\":\"urn:twin\",\"name\":\"shelf\",\"children\":[1]," ++
  "\"sub_node_types\":[],\"ignored\":false\x7d,\x7b\"identifier\":\"urn:twin\",\"name\":\"book\"," ++
  "\"parent\":0,\"children\":[],\"sub_node_types\":[],\"ignored\":false\x7d],\"root\":0\x7d"

/-- The tree that they are read as. -/
def twins : ContentTree :=
  ofSlots #[some { identifier := "urn:twin", name := "shelf", children := [⟨1⟩] },
    some { identifier := "urn:twin", name := "book", parent := some ⟨0⟩ }] (some ⟨0⟩) none

/-- Of two nodes that share an identifier one is not counted, and the other is found in its place. -/
theorem index_misses_twin :
    ofText twinsText = .ok twins ∧ twins.liveIds = [⟨0⟩, ⟨1⟩] ∧ twins.size = 1 ∧
      twins.findByIdentifier? (twins.identifierOf ⟨0⟩) = some ⟨1⟩ := by
  have read : ofText twinsText = .ok twins := ofText_eq_ofSlots (by decide +kernel)
  exact ⟨read, by decide +kernel, by decide +kernel, by decide +kernel⟩

end ContentTyping.ContentTree

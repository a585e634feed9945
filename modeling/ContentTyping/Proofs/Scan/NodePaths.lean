import ContentTyping.Proofs.Scan.Mirror
import ContentTyping.Proofs.Text.Utf8
import ContentTyping.Proofs.Tree.Paths

/-!
# Paths in scanned trees

When the names of all entries that a scan comes to are texts, a directory or a file is found by the path that
is made of the names on the way to it from the start of the scan.
-/

namespace ContentTyping

/-! ## Names that are texts -/

theorem Text.ofUtf8Lossy_of_ofUtf8? {bytes : List UInt8} {text : String}
    (isText : ofUtf8? bytes = some text) : ofUtf8Lossy bytes = text := by
  have someChar : (fun char : Option Char => char.getD '\uFFFD') ∘ some = id := rfl
  rw [← utf8Bytes_of_ofUtf8? isText, ofUtf8Lossy, decodeUtf8_utf8Bytes, List.map_map, someChar,
    List.map_id, String.ofList_toList]

theorem IsEntryName.isPathName {name : FileName} {text : String} (isName : IsEntryName name)
    (isText : Text.ofUtf8? name = some text) : ContentTree.IsPathName text := by
  obtain ⟨nonempty, noSlash, noDot⟩ := isName
  have bytes := Text.utf8Bytes_of_ofUtf8? isText
  refine ⟨?_, ?_, ?_⟩
  · rintro rfl
    exact nonempty bytes.symm
  · rintro rfl
    exact noDot bytes.symm
  · intro slash
    apply noSlash
    rw [← bytes, Text.utf8Bytes, List.mem_flatMap]
    exact ⟨'/', slash, by decide⟩

/-- The names on the way to an entry that a scan comes to are texts. -/
def FileTree.TextNames (options : ScanOptions) (top : FileTree) : Prop :=
  ∀ location entry, top.Shown options location entry →
    ∀ name ∈ location, ∃ text, Text.ofUtf8? name = some text

namespace Mirrors

variable {options : ScanOptions} {path : RawPath} {top : FileTree} {tree : ContentTree}
  {place : NodeId → Location} (mirrors : Mirrors options path top tree place)

include mirrors

/-- Below the root a node bears the last name of its place. -/
theorem name?_of_parent? {id above : NodeId} (link : tree.parent? id = some above) :
    ∃ name, place id = place above ++ [name] ∧ tree.name? id = some (Text.ofUtf8Lossy name) := by
  have live := ContentTree.contains_of_parent? link
  obtain ⟨node, found⟩ := ContentTree.contains_iff.1 live
  obtain ⟨entry, shown, _⟩ := mirrors.bijection.mapsTo live
  obtain ⟨name, isPlace⟩ :=
    (mirrors.parent id above live (mirrors.wellFormed.contains_parent link)).1 link
  obtain ⟨isName, _⟩ := mirrors.records id node entry found shown
  rw [isPlace, List.getLast?_concat, Option.getD_some] at isName
  exact ⟨name, isPlace, by rw [ContentTree.name?, found, Option.map_some, isName]⟩

theorem namesTo_eq {id : NodeId} (live : tree.contains id = true) :
    tree.namesTo id = (place id).map Text.ofUtf8Lossy := by
  obtain ⟨root, isRoot, below⟩ := mirrors.wellFormed.rooted id live
  obtain ⟨top, isTop, atTop⟩ := mirrors.root
  obtain rfl : root = top := Option.some.inj (isRoot.symm.trans isTop)
  clear live
  induction below with
  | self =>
      rw [mirrors.wellFormed.namesTo_root isRoot, atTop, List.map_nil]
  | @child above id link _ inductionHypothesis =>
      obtain ⟨name, isPlace, isName⟩ := mirrors.name?_of_parent? link
      rw [mirrors.wellFormed.namesTo_of_parent? link isName, inductionHypothesis, isPlace, List.map_append,
        List.map_singleton]

variable (inOrder : top.InOrder) (textNames : top.TextNames options)

include inOrder textNames

theorem exists_text_of_parent? {id above : NodeId} (link : tree.parent? id = some above) :
    ∃ name text, place id = place above ++ [name] ∧ IsEntryName name ∧
      Text.ofUtf8? name = some text ∧ tree.name? id = some text := by
  obtain ⟨entry, shown, _⟩ := mirrors.bijection.mapsTo (ContentTree.contains_of_parent? link)
  obtain ⟨name, isPlace, isName⟩ := mirrors.name?_of_parent? link
  have onTheWay : name ∈ place id := by
    rw [isPlace]
    exact List.mem_concat_self
  obtain ⟨text, isText⟩ := textNames _ entry shown name onTheWay
  rw [Text.ofUtf8Lossy_of_ofUtf8? isText] at isName
  exact ⟨name, text, isPlace, inOrder.isEntryName_of_get? shown.1 name onTheWay, isText, isName⟩

theorem namedForPaths : tree.NamedForPaths := by
  constructor
  · intro id name notRoot isName
    have live : tree.contains id = true := by
      rw [ContentTree.contains, ← Option.isSome_map, ← ContentTree.name?, isName]
      rfl
    cases link : tree.parent? id with
    | none =>
        exact absurd (mirrors.wellFormed.eq_root_of_parent?_eq_none live link) notRoot
    | some above =>
        obtain ⟨bytes, text, _, isEntryName, isText, alsoName⟩ :=
          mirrors.exists_text_of_parent? inOrder textNames link
        obtain rfl : name = text := Option.some.inj (isName.symm.trans alsoName)
        exact isEntryName.isPathName isText
  · intro id first isFirst second isSecond sameName
    have firstLink := mirrors.wellFormed.parent_of_child id first isFirst
    have secondLink := mirrors.wellFormed.parent_of_child id second isSecond
    obtain ⟨bytes, text, firstPlace, _, isText, isName⟩ :=
      mirrors.exists_text_of_parent? inOrder textNames firstLink
    obtain ⟨others, other, secondPlace, _, isOther, otherName⟩ :=
      mirrors.exists_text_of_parent? inOrder textNames secondLink
    rw [isName, otherName, Option.some_inj] at sameName
    have sameBytes : bytes = others := by
      rw [← Text.utf8Bytes_of_ofUtf8? isText, sameName, Text.utf8Bytes_of_ofUtf8? isOther]
    apply mirrors.bijection.injOn
    · exact ContentTree.contains_of_parent? firstLink
    · exact ContentTree.contains_of_parent? secondLink
    · rw [firstPlace, secondPlace, sameBytes]

/-- The names of a location lead to the node for the directory or the file that is there. -/
theorem finds_entry {location : Location} {entry : FileTree}
    (shown : top.Shown options location entry) (isRecorded : entry.kind?.isSome = true) :
    ∃ id node info,
      tree.findByPath? (String.intercalate "/" (location.map Text.ofUtf8Lossy)) = some id ∧
        tree.get? id = some node ∧ node.file = some info ∧ info.Describes options path location entry := by
  obtain ⟨id, live, rfl⟩ := mirrors.bijection.surjOn ⟨entry, shown, isRecorded⟩
  obtain ⟨node, found⟩ := ContentTree.contains_iff.1 live
  obtain ⟨_, info, isFile, describes⟩ := mirrors.records id node entry found shown
  have named := mirrors.namedForPaths inOrder textNames
  rw [← mirrors.namesTo_eq live]
  exact ⟨id, node, info, mirrors.wellFormed.findByPath?_pathOf named live, found, isFile, describes⟩

end Mirrors

end ContentTyping

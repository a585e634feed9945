import ContentTyping.Proofs.Json.Records
import ContentTyping.Proofs.Text.Utf8
import ContentTyping.Proofs.Time.Written
import ContentTyping.Tree.Json

/-!
# Written trees are read back

A node can be written when the numbers in it are machine words, its instants are instants of the calendar
and its path is text. Such nodes are read back, and all nodes that are read are such nodes.
-/

namespace ContentTyping

open Json

/-! ## Handles -/

theorem keeps_nodeId {id : NodeId} (small : id.index < UInt64.size) :
    Keeps NodeId.ofJson? id.toJson id :=
  (keeps_ofNat small).map NodeId.mk

theorem keeps_relationId {id : RelationId} (small : id.index < UInt32.size) :
    Keeps RelationId.ofJson? id.toJson id :=
  (keeps_ofNat small).map RelationId.mk

theorem keeps_nodeTypeId {id : NodeTypeId} (small : id.index < UInt32.size) :
    Keeps NodeTypeId.ofJson? id.toJson id :=
  (keeps_ofNat small).map NodeTypeId.mk

theorem yields_nodeId : Yields NodeId.ofJson? fun id => id.index < UInt64.size :=
  (yields_natBelow? UInt64.size).map fun _ small => small

theorem yields_relationId : Yields RelationId.ofJson? fun id => id.index < UInt32.size :=
  (yields_natBelow? UInt32.size).map fun _ small => small

theorem yields_nodeTypeId : Yields NodeTypeId.ofJson? fun id => id.index < UInt32.size :=
  (yields_natBelow? UInt32.size).map fun _ small => small

/-! ## Files -/

theorem keeps_instant {instant : Instant} (isTime : instant.IsTime) :
    Keeps Instant.ofJson? (.string instant.display) instant where
  plain := .string _
  read := by
    rw [Instant.ofJson?, text?, Option.bind_some, Instant.parse?_display isTime]

theorem yields_instant : Yields Instant.ofJson? Instant.IsTime := by
  intro json instant read
  obtain ⟨text, _, parsed⟩ := Option.bind_eq_some_iff.1 read
  exact Instant.isTime_of_parse? parsed

theorem keeps_fileKind (kind : FileKind) : Keeps FileKind.ofJson? kind.toJson kind := by
  cases kind with
  | directory => exact ⟨.string _, rfl⟩
  | regularFile => exact ⟨.string _, rfl⟩

theorem RawPath.ofString_of_toString? {path : RawPath} {text : String}
    (isText : path.toString? = some text) : RawPath.ofString text = path :=
  congrArg RawPath.mk (Text.utf8Bytes_of_ofUtf8? isText)

theorem RawPath.toString?_ofString (text : String) :
    (RawPath.ofString text).toString? = some text :=
  Text.ofUtf8?_utf8Bytes text

namespace FileInfo

/-- The file can be written. -/
structure Storable (info : FileInfo) : Prop where
  path : info.path.toString?.isSome
  modified : ∀ instant, info.modified = some instant → instant.IsTime
  created : ∀ instant, info.created = some instant → instant.IsTime

/-- The fields of a file from what is written for them. -/
def members (info : FileInfo) (path : String) : List (String × Json) :=
  [("path", .string path), ("kind", info.kind.toJson), ("size", Json.ofNat info.size.toNat)] ++
    fieldIfAny "checksum" info.checksum ++
    fieldIfAny "modified" (info.modified.map Instant.display) ++
    fieldIfAny "created" (info.created.map Instant.display)

theorem names_fieldIfAny (name : String) (text : Option String) :
    ((fieldIfAny name text).map Prod.fst).Sublist [name] := by
  cases text with
  | none => exact List.nil_sublist _
  | some text => exact List.Sublist.refl _

theorem names_members (info : FileInfo) (path : String) :
    ((info.members path).map Prod.fst).Sublist fieldNames := by
  simp only [members, List.map_append]
  have checksum := names_fieldIfAny "checksum" info.checksum
  have modified := names_fieldIfAny "modified" (info.modified.map Instant.display)
  have created := names_fieldIfAny "created" (info.created.map Instant.display)
  exact (((List.Sublist.refl ["path", "kind", "size"]).append checksum).append modified).append
    created

theorem plain_fieldIfAny (name : String) (text : Option String) :
    ∀ member ∈ fieldIfAny name text, Plain member.2 := by
  cases text with
  | none => exact List.forall_mem_nil _
  | some text => exact List.forall_mem_singleton.2 (.string text)

theorem lookup_fieldIfAny (name other : String) (text : Option String) :
    (fieldIfAny name text).lookup other = if other = name then text.map Json.string else none := by
  cases text with
  | none => simp [fieldIfAny]
  | some text =>
      rw [fieldIfAny, List.lookup_cons, List.lookup_nil, Option.map_some]
      by_cases same : other = name
      · simp [same]
      · simp [same, beq_eq_false_iff_ne.2 same]

theorem fields?_members (info : FileInfo) (path : String) :
    (ofMembers (info.members path)).fields? fieldNames 6 =
      some [some (.string path), some info.kind.toJson, some (Json.ofNat info.size.toNat),
        info.checksum.map Json.string,
        info.modified.map fun instant => Json.string instant.display,
        info.created.map fun instant => Json.string instant.display] := by
  rw [fields?_ofMembers fieldNames 6 ((names_members info path).nodup (by decide))]
  simp [fieldNames, members, List.lookup_append, lookup_fieldIfAny, List.lookup_cons,
    Function.comp_def]

theorem Storable.exists_keeps {info : FileInfo} (storable : info.Storable) :
    ∃ json, info.toJson? = some json ∧ Keeps ofJson? json info := by
  obtain ⟨path, isText⟩ := Option.isSome_iff_exists.1 storable.path
  refine ⟨ofMembers (info.members path), ?_, .ofMembers ?_, ?_⟩
  · rw [toJson?, isText]
    rfl
  · simp only [members, List.forall_mem_append, List.forall_mem_cons]
    exact ⟨⟨⟨⟨.string path, (keeps_fileKind info.kind).plain, .ofNat _, List.forall_mem_nil _⟩,
      plain_fieldIfAny _ _⟩, plain_fieldIfAny _ _⟩, plain_fieldIfAny _ _⟩
  · have checksum : optional text? (info.checksum.map Json.string) = some info.checksum :=
      optional_map rfl fun text _ => keeps_text text
    have instants {value : Option Instant} (isTime : ∀ instant, value = some instant → instant.IsTime) :
        optional Instant.ofJson? (value.map fun instant => .string instant.display) = some value :=
      optional_map rfl fun instant found => keeps_instant (isTime instant found)
    have modified := instants storable.modified
    have created := instants storable.created
    have size : natBelow? UInt64.size (Json.ofNat info.size.toNat) = some info.size.toNat :=
      natBelow?_ofNat info.size.toNat_lt
    rw [ofJson?, fields?_members, Option.bind_some, ofFields?]
    simp only [needed, text?, (keeps_fileKind info.kind).read, size, checksum, modified, created,
      bind, Option.bind_some, RawPath.ofString_of_toString? isText]
    simp

theorem yields : Yields ofJson? Storable := by
  intro json info read
  obtain ⟨fields, _, read⟩ := Option.bind_eq_some_iff.1 read
  rw [ofFields?.eq_def] at read
  split at read
  next path kind size checksum modified created =>
      obtain ⟨path, isPath, read⟩ := Option.bind_eq_some_iff.1 read
      obtain ⟨kind, isKind, read⟩ := Option.bind_eq_some_iff.1 read
      obtain ⟨size, isSize, read⟩ := Option.bind_eq_some_iff.1 read
      obtain ⟨checksum, isChecksum, read⟩ := Option.bind_eq_some_iff.1 read
      obtain ⟨modified, isModified, read⟩ := Option.bind_eq_some_iff.1 read
      obtain ⟨created, isCreated, read⟩ := Option.bind_eq_some_iff.1 read
      obtain rfl := Option.some.inj read
      refine ⟨?_, yields_instant.optional isModified, yields_instant.optional isCreated⟩
      rw [RawPath.toString?_ofString, Option.isSome_some]
  · exact absurd read (by simp)

end FileInfo

/-! ## Nodes -/

namespace Node

/-- The node can be written. -/
structure Storable (node : Node) : Prop where
  parent : ∀ above, node.parent = some above → above.index < UInt64.size
  children : ∀ child ∈ node.children, child.index < UInt64.size
  relation : ∀ recorded, node.relation = some recorded → recorded.index < UInt32.size
  file : ∀ info, node.file = some info → info.Storable
  nodeType : ∀ recorded, node.nodeType = some recorded → recorded.index < UInt32.size
  subTypes : ∀ recorded ∈ node.subTypes, recorded.index < UInt32.size

theorem fields?_toJsonWith (node : Node) (file : Json) :
    (node.toJsonWith file).fields? fieldNames 10 =
      some [some (.string node.identifier), some (.string node.name),
        some (ofOption NodeId.toJson node.parent),
        some (.array (node.children.map NodeId.toJson)),
        some (ofOption RelationId.toJson node.relation),
        some (ofOption .string node.object), some file,
        some (ofOption NodeTypeId.toJson node.nodeType),
        some (.array (node.subTypes.map NodeTypeId.toJson)), some (.bool node.ignored)] := by
  have distinct : fieldNames.Nodup := by decide
  rw [toJsonWith, fields?_ofMembers fieldNames 10]
  · simp [fieldNames, List.lookup_cons]
  · exact distinct

section Writing

variable {node : Node} (storable : node.Storable)

include storable

theorem Storable.keeps_toJsonWith {file : Json} (plain : Plain file)
    (isFile : optional FileInfo.ofJson? (some file) = some node.file) :
    Keeps ofJson? (node.toJsonWith file) node := by
  have parent := fun above isParent => keeps_nodeId (storable.parent above isParent)
  have relation := fun found isRelation => keeps_relationId (storable.relation found isRelation)
  have object : ∀ text, node.object = some text → Keeps text? (.string text) text :=
    fun text _ => keeps_text text
  have nodeType := fun found isType => keeps_nodeTypeId (storable.nodeType found isType)
  have children := keeps_list fun child member => keeps_nodeId (storable.children child member)
  have subTypes := keeps_list fun type member => keeps_nodeTypeId (storable.subTypes type member)
  constructor
  · refine .ofMembers ?_
    simp only [List.forall_mem_cons]
    exact ⟨.string _, .string _, plain_ofOption parent, children.plain, plain_ofOption relation,
      plain_ofOption object, plain, plain_ofOption nodeType, subTypes.plain, .bool _,
      List.forall_mem_nil _⟩
  · rw [ofJson?, fields?_toJsonWith, Option.bind_some, ofFields?]
    simp only [needed, text?, bool?, optional_ofOption rfl parent, optional_ofOption rfl relation,
      optional_ofOption rfl object, optional_ofOption rfl nodeType, children.read, subTypes.read,
      isFile, bind, Option.bind_some]
    rfl

theorem Storable.exists_keeps :
    ∃ json, node.toJson? = some json ∧ Keeps ofJson? json node := by
  cases isFile : node.file with
  | none =>
      refine ⟨node.toJsonWith .null, by rw [toJson?, isFile], storable.keeps_toJsonWith .null ?_⟩
      rw [isFile]
      rfl
  | some info =>
      obtain ⟨file, written, keeps⟩ := (storable.file info isFile).exists_keeps
      refine ⟨node.toJsonWith file, by rw [toJson?, isFile]; simp [written],
        storable.keeps_toJsonWith keeps.plain ?_⟩
      rw [isFile]
      exact keeps.optional rfl

end Writing

theorem yields : Yields ofJson? Storable := by
  intro json node read
  obtain ⟨fields, _, read⟩ := Option.bind_eq_some_iff.1 read
  rw [ofFields?.eq_def] at read
  split at read
  next identifier name parent children relation object file nodeType subTypes ignored =>
      obtain ⟨identifier, isIdentifier, read⟩ := Option.bind_eq_some_iff.1 read
      obtain ⟨name, isName, read⟩ := Option.bind_eq_some_iff.1 read
      obtain ⟨parent, isParent, read⟩ := Option.bind_eq_some_iff.1 read
      obtain ⟨children, isChildren, read⟩ := Option.bind_eq_some_iff.1 read
      obtain ⟨relation, isRelation, read⟩ := Option.bind_eq_some_iff.1 read
      obtain ⟨object, isObject, read⟩ := Option.bind_eq_some_iff.1 read
      obtain ⟨file, isFile, read⟩ := Option.bind_eq_some_iff.1 read
      obtain ⟨nodeType, isType, read⟩ := Option.bind_eq_some_iff.1 read
      obtain ⟨subTypes, isSubTypes, read⟩ := Option.bind_eq_some_iff.1 read
      obtain ⟨ignored, isIgnored, read⟩ := Option.bind_eq_some_iff.1 read
      obtain rfl := Option.some.inj read
      exact ⟨yields_nodeId.optional isParent, yields_nodeId.list.needed isChildren,
        yields_relationId.optional isRelation, FileInfo.yields.optional isFile,
        yields_nodeTypeId.optional isType, yields_nodeTypeId.list.needed isSubTypes⟩
  · exact absurd read (by simp)

end Node

/-! ## Trees -/

namespace ContentTree

/-- The tree can be written. -/
structure Storable (tree : ContentTree) : Prop where
  node : ∀ id node, tree.get? id = some node → node.Storable
  root : ∀ id, tree.root = some id → id.index < UInt64.size

theorem exists_keeps_slot {slot : Option Node}
    (storable : ∀ node, slot = some node → node.Storable) :
    ∃ json, slotToJson? slot = some json ∧ Keeps slotOfJson? json slot := by
  cases slot with
  | none =>
      exact ⟨.null, rfl, .null, rfl⟩
  | some node =>
      obtain ⟨json, written, keeps⟩ := (storable node rfl).exists_keeps
      refine ⟨json, written, keeps.plain, ?_⟩
      rw [slotOfJson?, keeps.read, Option.map_some]
      exact keeps.ne_null rfl

theorem yields_slot : Yields slotOfJson? fun slot => ∀ node, slot = some node → node.Storable := by
  intro json slot read
  rw [slotOfJson?.eq_def] at read
  split at read
  · obtain rfl := Option.some.inj read
    exact fun node isNode => absurd isNode (by simp)
  · obtain ⟨found, isFound, rfl⟩ := Option.map_eq_some_iff.1 read
    intro node isNode
    obtain rfl := Option.some.inj isNode
    exact Node.yields _ found isFound

theorem get?_eq_some_iff {tree : ContentTree} {id : NodeId} {node : Node} :
    tree.get? id = some node ↔ tree.nodes.toList[id.index]? = some (some node) := by
  rw [get?, Option.join_eq_some_iff, Array.getElem?_toList]

variable {tree : ContentTree}

/-- The text of a tree is read as the tree over its slots. -/
theorem Storable.ofText_toText (storable : tree.Storable) :
    ∃ text, tree.toText = .ok text ∧
      ofText text = .ok (ofSlots tree.nodes tree.root tree.profile) := by
  have slots : ∀ slot ∈ tree.nodes.toList, ∃ json,
      slotToJson? slot = some json ∧ Keeps slotOfJson? json slot := by
    intro slot member
    refine exists_keeps_slot ?_
    rintro node rfl
    obtain ⟨index, inSlot⟩ := List.mem_iff_getElem?.1 member
    exact storable.node ⟨index⟩ node (get?_eq_some_iff.2 inSlot)
  obtain ⟨items, written, keeps⟩ := exists_keeps_list slots
  have root := fun id isRoot => keeps_nodeId (storable.root id isRoot)
  have profile : ∀ text, tree.profile = some text → Keeps text? (.string text) text :=
    fun text _ => keeps_text text
  let json := ofMembers [("nodes", .array items), ("root", ofOption NodeId.toJson tree.root),
    ("profile", ofOption .string tree.profile)]
  have plain : Plain json := by
    refine .ofMembers ?_
    simp only [List.forall_mem_cons]
    exact ⟨keeps.plain, plain_ofOption root, plain_ofOption profile, List.forall_mem_nil _⟩
  have fields : json.fields? fieldNames 2 = some [some (.array items),
      some (ofOption NodeId.toJson tree.root), some (ofOption .string tree.profile)] := by
    have distinct : fieldNames.Nodup := by decide
    rw [fields?_ofMembers fieldNames 2]
    · simp [fieldNames, List.lookup_cons]
    · exact distinct
  refine ⟨json.toText, ?_, ?_⟩
  · rw [toText, toJson?, written]
    rfl
  · rw [ofText, parse?_toText plain, Option.bind_some, ofJson?, fields, Option.bind_some, ofFields?]
    simp only [needed, keeps.read, optional_ofOption rfl root, optional_ofOption rfl profile]
    rfl

theorem storable_of_ofText {text : String} (read : ofText text = .ok tree) :
    tree.Storable ∧ ofSlots tree.nodes tree.root tree.profile = tree := by
  rw [ofText] at read
  split at read
  next found isFound =>
      obtain rfl := Except.ok.inj read
      obtain ⟨json, _, read⟩ := Option.bind_eq_some_iff.1 isFound
      obtain ⟨fields, _, read⟩ := Option.bind_eq_some_iff.1 read
      rw [ofFields?.eq_def] at read
      split at read
      next nodes root profile =>
          obtain ⟨slots, isSlots, read⟩ := Option.bind_eq_some_iff.1 read
          obtain ⟨root, isRoot, read⟩ := Option.bind_eq_some_iff.1 read
          obtain ⟨profile, isProfile, read⟩ := Option.bind_eq_some_iff.1 read
          obtain rfl := Option.some.inj read
          refine ⟨⟨fun id node found => ?_, yields_nodeId.optional isRoot⟩, rfl⟩
          have inSlot := List.mem_of_getElem? (get?_eq_some_iff.1 found)
          exact yields_slot.list.needed isSlots _ inSlot node rfl
      · exact absurd read (by simp)
  · exact absurd read (by simp)

end ContentTree

end ContentTyping

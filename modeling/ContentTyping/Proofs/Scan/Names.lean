import Mathlib.Data.Option.Defs
import ContentTyping.Proofs.Plan.Outline
import ContentTyping.Proofs.Scan.Growth
import ContentTyping.Proofs.Tree.Agreement

/-!
# Names of scanned nodes

The nodes of a scanned tree bear names that are made up on the way. Nothing else in the tree depends on
them: two scans of one place, each with names that do not repeat, end with the same error or with trees
that differ in the names alone.
-/

namespace ContentTyping

/-- Both runs end with the same error, or with results that are related. -/
inductive Alongside {α : Type} (related : α → α → Prop) : Except Error α → Except Error α → Prop
  | ok {first second : α} (alike : related first second) :
      Alongside related (.ok first) (.ok second)
  | error (error : Error) : Alongside related (.error error) (.error error)

theorem Alongside.bind {α β : Type} {related : α → α → Prop} {further : β → β → Prop}
    {first second : Except Error α} {next other : α → Except Error β}
    (alongside : Alongside related first second)
    (step : ∀ one two, first = .ok one → second = .ok two → related one two →
      Alongside further (next one) (other two)) :
    Alongside further (first.bind next) (second.bind other) := by
  cases alongside with
  | ok alike => exact step _ _ rfl rfl alike
  | error error => exact .error error

/-- The node without its name. -/
def Node.unnamed (node : Node) : Node :=
  { node with identifier := "" }

namespace ContentTree

/-- The trees differ at most in the names of their nodes. -/
structure SameButNames (first second : ContentTree) : Prop where
  nodes : AgreeOn Node.unnamed first second
  root : first.root = second.root
  profile : first.profile = second.profile

theorem unnamed_withRoot (node : Node) (id : NodeId) :
    ((withRoot node).2.get? id).map Node.unnamed =
      if id = ⟨0⟩ then some { node.unnamed with parent := none, children := [] } else none := by
  rw [get?_withRoot]
  split <;> rfl

theorem unnamed_withChild {tree : ContentTree} {parent : NodeId}
    (live : tree.contains parent = true) (node : Node) (id : NodeId) :
    ((tree.withChild parent node).get? id).map Node.unnamed =
      if id = ⟨tree.nodes.size⟩ then
        some { node.unnamed with parent := some parent, children := [] }
      else if id = parent then
        ((tree.get? parent).map Node.unnamed).map fun above =>
          { above with children := above.children ++ [⟨tree.nodes.size⟩] }
      else (tree.get? id).map Node.unnamed := by
  rw [get?_withChild live]
  split
  · rfl
  · split
    · rw [Option.map_map, Option.map_map]
      rfl
    · rfl

/-- A child with a new identifier can be added below every node of the tree. -/
theorem addChild_of_fresh {tree : ContentTree} {node : Node}
    (fresh : tree.index.contains node.identifier = false) (parent : NodeId) :
    tree.addChild parent node =
      if tree.contains parent then .ok (⟨tree.nodes.size⟩, tree.withChild parent node)
      else .error (.unknownNode parent) := by
  split
  next live =>
      exact addChild_eq_ok_iff.2 ⟨live, fresh, rfl, rfl⟩
  next notLive =>
      have missing : tree.get? parent = none :=
        Option.not_isSome_iff_eq_none.1 notLive
      rw [addChild, ContentTree.node, missing]
      rfl

theorem sameButNames_withRoot {node other : Node} (same : node.unnamed = other.unnamed) :
    SameButNames (withRoot node).2 (withRoot other).2 where
  nodes :=
    { size := rfl
      get id := by rw [unnamed_withRoot, unnamed_withRoot, same] }
  root := rfl
  profile := rfl

namespace SameButNames

variable {first second : ContentTree}

theorem withChild (alike : SameButNames first second) {parent : NodeId}
    (live : first.contains parent = true) {node other : Node}
    (same : node.unnamed = other.unnamed) :
    SameButNames (first.withChild parent node) (second.withChild parent other) where
  nodes :=
    { size := by rw [size_withChild, size_withChild, alike.nodes.size]
      get id := by
        have otherLive : second.contains parent = true := by rw [← alike.nodes.contains, live]
        rw [unnamed_withChild live, unnamed_withChild otherLive, alike.nodes.get,
          alike.nodes.get, alike.nodes.size, same] }
  root := alike.root
  profile := alike.profile

/-- What plans look at does not show names. -/
theorem sameOutline (alike : SameButNames first second) (start : NodeId) :
    SameOutline first second start := by
  have agree : AgreeOn Node.outline first second :=
    alike.nodes.coarsen fun node other same =>
      show node.unnamed.outline = other.unnamed.outline by rw [same]
  exact fun id _ => agree.get id

end SameButNames

end ContentTree

namespace Scanning

open ContentTree

variable {options : ScanOptions} {scanning first second : Scanning} {visit : Visit}

/-! ## Names that do not repeat -/

/-- The names that are handed out before the bound is reached differ from each other and from those in
the tree. -/
structure FreshUpTo (scanning : Scanning) (bound : Nat) : Prop where
  distinct : Set.InjOn scanning.supply.name (Set.Ico scanning.supply.used bound)
  unused : ∀ tree, scanning.tree = some tree → ∀ turn ∈ Set.Ico scanning.supply.used bound,
    tree.index.contains (scanning.supply.name turn) = false

namespace FreshUpTo

variable {bound : Nat}

/-- A scan that used its next name stays fresh. -/
theorem naming (fresh : scanning.FreshUpTo bound) (room : scanning.supply.used < bound)
    (kind : FileKind) (id : NodeId) {tree : ContentTree}
    (indexed : ∀ name, tree.index.contains name = true →
      name = scanning.supply.draw.1 ∨
        ∃ before, scanning.tree = some before ∧ before.index.contains name = true) :
    (scanning.naming visit kind id tree).FreshUpTo bound where
  distinct turn handedOut other otherHandedOut same :=
    fresh.distinct ⟨Nat.le_of_succ_le handedOut.1, handedOut.2⟩
      ⟨Nat.le_of_succ_le otherHandedOut.1, otherHandedOut.2⟩ same
  unused := by
    intro last isLast turn ⟨later, within⟩
    obtain rfl : tree = last := Option.some.inj isLast
    have handedOut : turn ∈ Set.Ico scanning.supply.used bound := ⟨Nat.le_of_succ_le later, within⟩
    refine Bool.eq_false_iff.2 fun isIndexed => ?_
    rcases indexed _ isIndexed with same | ⟨before, isBefore, wasIndexed⟩
    · have sameTurn := fresh.distinct handedOut ⟨Nat.le_refl _, room⟩ same
      rw [sameTurn] at later
      exact Nat.not_succ_le_self _ later
    · have unused := fresh.unused before isBefore turn handedOut
      exact Bool.false_ne_true (unused.symm.trans wasIndexed)

theorem withRoot (fresh : scanning.FreshUpTo bound) (room : scanning.supply.used < bound)
    (kind : FileKind) :
    (scanning.naming visit kind ⟨0⟩
      (ContentTree.withRoot (visit.node options kind scanning.supply.draw.1)).2).FreshUpTo
        bound := by
  refine fresh.naming room kind _ fun name indexed => .inl ?_
  simp only [ContentTree.withRoot, ContentTree.insert, Std.ExtTreeMap.contains_insert,
    ContentTree.empty, Std.ExtTreeMap.contains_empty, Bool.or_false, beq_iff_eq] at indexed
  exact (Std.LawfulEqCmp.eq_of_compare indexed).symm

theorem withChild (fresh : scanning.FreshUpTo bound) (room : scanning.supply.used < bound)
    (kind : FileKind) {tree : ContentTree} (isTree : scanning.tree = some tree) (parent : NodeId) :
    (scanning.naming visit kind ⟨tree.nodes.size⟩
      (tree.withChild parent (visit.node options kind scanning.supply.draw.1))).FreshUpTo
        bound := by
  refine fresh.naming room kind _ fun name indexed => ?_
  rw [index_withChild, Std.ExtTreeMap.contains_insert, Bool.or_eq_true, beq_iff_eq] at indexed
  rcases indexed with here | before
  · exact .inl (Std.LawfulEqCmp.eq_of_compare here).symm
  · exact .inr ⟨tree, isTree, before⟩

end FreshUpTo

/-! ## Two scans side by side -/

/-- Two scans that have come equally far. -/
structure Alike (first second : Scanning) : Prop where
  directories : first.directories = second.directories
  trees : Option.Rel SameButNames first.tree second.tree

namespace Alike

variable {bound otherBound : Nat}

theorem naming (alike : Alike first second) (kind : FileKind) (id : NodeId)
    {tree other : ContentTree} (same : SameButNames tree other) :
    Alike (first.naming visit kind id tree) (second.naming visit kind id other) where
  directories := by simp only [Scanning.naming, adding, alike.directories]
  trees := .some same

/-- A node is added below a parent on both sides, or refused on both sides. -/
theorem addChild (alike : Alike first second) (kind : FileKind) (fresh : first.FreshUpTo bound)
    (room : first.supply.used < bound) (otherFresh : second.FreshUpTo otherBound)
    (otherRoom : second.supply.used < otherBound) {tree other : ContentTree}
    (isTree : first.tree = some tree) (otherIsTree : second.tree = some other)
    (same : SameButNames tree other) (parent : NodeId) :
    Alongside (fun next other =>
        Alike next other ∧ next.FreshUpTo bound ∧ other.FreshUpTo otherBound)
      ((tree.addChild parent (visit.node options kind first.supply.draw.1)).map fun added =>
        first.naming visit kind added.1 added.2)
      ((other.addChild parent (visit.node options kind second.supply.draw.1)).map fun added =>
        second.naming visit kind added.1 added.2) := by
  have unused : tree.index.contains first.supply.draw.1 = false :=
    fresh.unused tree isTree _ ⟨Nat.le_refl _, room⟩
  have otherUnused : other.index.contains second.supply.draw.1 = false :=
    otherFresh.unused other otherIsTree _ ⟨Nat.le_refl _, otherRoom⟩
  rw [@addChild_of_fresh tree (visit.node options kind first.supply.draw.1) unused,
    @addChild_of_fresh other (visit.node options kind second.supply.draw.1) otherUnused,
    same.nodes.size, ← same.nodes.contains]
  split
  next live =>
      have grown := same.withChild live
        (show (visit.node options kind first.supply.draw.1).unnamed =
          (visit.node options kind second.supply.draw.1).unnamed from rfl)
      refine .ok ⟨alike.naming kind _ grown, ?_,
        otherFresh.withChild otherRoom kind otherIsTree parent⟩
      rw [← same.nodes.size]
      exact fresh.withChild room kind isTree parent
  next notLive =>
      exact .error _

/-- One more entry is taken in on both sides, or refused on both sides. -/
theorem take (alike : Alike first second) {kind : FileKind}
    (isKind : visit.entry.kind? = some kind) (fresh : first.FreshUpTo bound)
    (room : first.supply.used < bound) (otherFresh : second.FreshUpTo otherBound)
    (otherRoom : second.supply.used < otherBound) :
    Alongside (fun next other =>
        Alike next other ∧ next.FreshUpTo bound ∧ other.FreshUpTo otherBound)
      (first.take options visit).1 (second.take options visit).1 := by
  rw [take_fst isKind, take_fst isKind]
  have sameParent : second.parentOf? visit = first.parentOf? visit := by
    rw [parentOf?, parentOf?, alike.directories]
  have trees := alike.trees
  cases isTree : first.tree <;> cases otherIsTree : second.tree <;> rw [isTree, otherIsTree] at trees
  case none.none =>
      exact .ok ⟨alike.naming kind _ (sameButNames_withRoot rfl), fresh.withRoot room kind,
        otherFresh.withRoot otherRoom kind⟩
  case none.some =>
      exact absurd trees (by rintro ⟨⟩)
  case some.none =>
      exact absurd trees (by rintro ⟨⟩)
  case some.some tree other =>
      obtain ⟨same⟩ : Option.Rel SameButNames (some tree) (some other) := trees
      simp only [sameParent]
      cases first.parentOf? visit with
      | none =>
          exact .error _
      | some parent =>
          exact alike.addChild kind fresh room otherFresh otherRoom isTree otherIsTree same parent

/-- Two scans of the same visits end alike. -/
theorem takeAll (alike : Alike first second) (visits : List Visit) (fresh : first.FreshUpTo bound)
    (within : (Scanning.takeAll options visits first).2.used ≤ bound)
    (otherFresh : second.FreshUpTo otherBound)
    (otherWithin : (Scanning.takeAll options visits second).2.used ≤ otherBound) :
    Alongside Alike (Scanning.takeAll options visits first).1
      (Scanning.takeAll options visits second).1 := by
  induction visits generalizing first second with
  | nil =>
      exact .ok alike
  | cons visit rest inductionHypothesis =>
      rw [takeAll_cons_fst, takeAll_cons_fst]
      have taken : Alongside (fun next other =>
            Alike next other ∧ next.FreshUpTo bound ∧ other.FreshUpTo otherBound)
          (first.take options visit).1 (second.take options visit).1 := by
        cases kind : visit.entry.kind? with
        | none =>
            rw [take_of_not_recorded kind, take_of_not_recorded kind]
            exact .ok ⟨alike, fresh, otherFresh⟩
        | some other =>
            exact alike.take kind fresh (Nat.lt_of_lt_of_le (used_lt_takeAll kind rest) within)
              otherFresh (Nat.lt_of_lt_of_le (used_lt_takeAll kind rest) otherWithin)
      refine taken.bind fun next other isNext isOther ⟨nextAlike, nextFresh, nextOtherFresh⟩ => ?_
      rw [takeAll_cons_of_ok isNext] at within
      rw [takeAll_cons_of_ok isOther] at otherWithin
      exact inductionHypothesis nextAlike nextFresh within nextOtherFresh otherWithin

end Alike

end Scanning

/-! ## Scans -/

namespace FileSystem

open ContentTree

variable {system : FileSystem} {options : ScanOptions} {path : RawPath} {supply other : Supply}

/-- Two scans of one place, each with names that do not repeat, end with the same error or with trees
that differ in the names alone. -/
theorem scan_alongside
    (distinct : Set.InjOn supply.name
      (Set.Ico supply.used (system.scan options path supply).2.used))
    (otherDistinct : Set.InjOn other.name
      (Set.Ico other.used (system.scan options path other).2.used)) :
    Alongside SameButNames (system.scan options path supply).1
      (system.scan options path other).1 := by
  cases found : system.pathExists path with
  | false =>
      rw [scan, scan, found]
      exact .error _
  | true =>
      obtain ⟨isRest, scanned⟩ := @scan_of_pathExists system options path found supply
      obtain ⟨isOtherRest, otherScanned⟩ := @scan_of_pathExists system options path found other
      rw [isRest] at distinct
      rw [isOtherRest] at otherDistinct
      rw [scanned, otherScanned]
      have start : Scanning.Alike { supply := supply } { supply := other } := ⟨rfl, .none⟩
      refine (start.takeAll _ ⟨distinct, fun _ nothing => absurd nothing (by simp)⟩ (Nat.le_refl _)
        ⟨otherDistinct, fun _ nothing => absurd nothing (by simp)⟩ (Nat.le_refl _)).bind ?_
      intro last otherLast _ _ alike
      have trees := alike.trees
      cases (system.walk options path).fault? with
      | some fault =>
          exact .error _
      | none =>
          cases isTree : last.tree <;> cases otherIsTree : otherLast.tree <;>
            rw [isTree, otherIsTree] at trees
          · exact .error _
          · exact absurd trees (by rintro ⟨⟩)
          · exact absurd trees (by rintro ⟨⟩)
          · obtain ⟨same⟩ : Option.Rel SameButNames (some _) (some _) := trees
            exact .ok same

end FileSystem

end ContentTyping

import ContentTyping.Proofs.Decisions
import ContentTyping.Proofs.Scan.Intake

/-!
# Growth of scanned trees

A scan that comes to its end has made a root for the first entry that becomes a node, and has added the
nodes of the others one by one. What holds of a root alone and is kept when a node is added holds of
every scanned tree.
-/

namespace ContentTyping

namespace ContentTree

/-- The tree was grown from a root by adding nodes of visits, each with a new identifier. -/
inductive Grown (options : ScanOptions) : ContentTree → Prop
  | root (visit : Visit) (kind : FileKind) (identifier : String) :
      Grown options (withRoot (visit.node options kind identifier)).2
  | child {tree : ContentTree} {parent : NodeId} (before : Grown options tree)
      (live : tree.contains parent = true) (visit : Visit) (kind : FileKind) {identifier : String}
      (fresh : tree.index.contains identifier = false) :
      Grown options (tree.withChild parent (visit.node options kind identifier))

theorem Grown.wellFormed {options : ScanOptions} {tree : ContentTree} (grown : tree.Grown options) :
    tree.WellFormed := by
  induction grown with
  | root =>
      exact wellFormed_withRoot _
  | child _ live _ _ fresh inductionHypothesis =>
      exact inductionHypothesis.withChild live fresh

end ContentTree

/-! ## Taking in visits -/

namespace Scanning

open ContentTree

variable {options : ScanOptions} {scanning next : Scanning} {visit : Visit}

/-- The scan after one more name was used for an entry. -/
def naming (scanning : Scanning) (visit : Visit) (kind : FileKind) (id : NodeId)
    (tree : ContentTree) : Scanning :=
  { scanning with supply := scanning.supply.draw.2 }.adding visit kind id tree

/-- How one more entry is taken in. -/
theorem take_fst {kind : FileKind} (isKind : visit.entry.kind? = some kind) :
    (scanning.take options visit).1 =
      match scanning.tree with
      | none =>
        .ok (scanning.naming visit kind ⟨0⟩
          (withRoot (visit.node options kind scanning.supply.draw.1)).2)
      | some tree =>
        match scanning.parentOf? visit with
        | none => .error (.scan (.orphaned visit.path.display))
        | some parent =>
          (tree.addChild parent (visit.node options kind scanning.supply.draw.1)).map fun added =>
            scanning.naming visit kind added.1 added.2 := by
  rw [take, isKind]
  cases scanning.tree with
  | none => rfl
  | some tree =>
      dsimp only
      cases scanning.parentOf? visit with
      | none => rfl
      | some parent =>
          dsimp only
          rw [Visit.node]
          split
          next failed => rw [failed]; rfl
          next added => rw [added]; rfl

theorem takeAll_cons_fst (options : ScanOptions) (visit : Visit) (rest : List Visit)
    (scanning : Scanning) :
    (takeAll options (visit :: rest) scanning).1 =
      (scanning.take options visit).1.bind fun next => (takeAll options rest next).1 := by
  rw [takeAll]
  split
  next failed => rw [failed]; rfl
  next taken => rw [taken]; rfl

theorem takeAll_cons_of_ok (taken : (scanning.take options visit).1 = .ok next)
    (rest : List Visit) :
    takeAll options (visit :: rest) scanning = takeAll options rest next := by
  rw [takeAll]
  split
  next failed =>
      rw [failed] at taken
      exact absurd taken (by simp)
  next isNext =>
      rw [isNext] at taken
      rw [Except.ok.inj taken]

theorem grown_take (taken : (scanning.take options visit).1 = .ok next)
    (grown : ∀ tree, scanning.tree = some tree → tree.Grown options) :
    ∀ tree, next.tree = some tree → tree.Grown options := by
  cases isKind : visit.entry.kind? with
  | none =>
      rw [take_of_not_recorded isKind] at taken
      obtain rfl : scanning = next := Except.ok.inj taken
      exact grown
  | some kind =>
      rw [take_fst isKind] at taken
      cases isTree : scanning.tree with
      | none =>
          rw [isTree] at taken
          obtain rfl := Except.ok.inj taken
          rintro _ ⟨⟩
          exact .root visit kind _
      | some tree =>
          rw [isTree] at taken
          cases isParent : scanning.parentOf? visit with
          | none =>
              rw [isParent] at taken
              exact absurd taken (by simp)
          | some parent =>
              rw [isParent] at taken
              obtain ⟨added, outcome, rfl⟩ := exists_of_map_eq_ok taken
              obtain ⟨live, fresh, _, isAfter⟩ := addChild_eq_ok_iff.1 outcome
              rintro _ ⟨⟩
              rw [isAfter]
              exact (grown tree isTree).child live visit kind fresh

theorem grown_takeAll {visits : List Visit} {last : Scanning}
    (taken : (takeAll options visits scanning).1 = .ok last)
    (grown : ∀ tree, scanning.tree = some tree → tree.Grown options) :
    ∀ tree, last.tree = some tree → tree.Grown options := by
  induction visits generalizing scanning with
  | nil =>
      obtain rfl : scanning = last := Except.ok.inj taken
      exact grown
  | cons visit rest inductionHypothesis =>
      rw [takeAll_cons_fst] at taken
      obtain ⟨next, isNext, further⟩ := bind_eq_ok_iff.1 taken
      exact inductionHypothesis further (grown_take isNext grown)

end Scanning

/-! ## Scans -/

namespace FileSystem

variable {system : FileSystem} {options : ScanOptions} {path : RawPath} {supply : Supply}

/-- A scan takes in the visits of a walk, unless nothing is there. -/
theorem scan_of_pathExists (found : system.pathExists path = true) (supply : Supply) :
    (system.scan options path supply).2 =
        (Scanning.takeAll options (system.walk options path).visits { supply := supply }).2 ∧
      (system.scan options path supply).1 =
        (Scanning.takeAll options (system.walk options path).visits { supply := supply }).1.bind
          fun scanned =>
            match (system.walk options path).fault?, scanned.tree with
            | some fault, _ => .error (.scan fault)
            | none, some tree => .ok tree
            | none, none => .error (.scan (.nothingToScan path.display)) := by
  rw [scan, found]
  simp only [Bool.not_true, Bool.false_eq_true, if_false]
  rcases Scanning.takeAll options (system.walk options path).visits { supply := supply } with
    ⟨error | scanned, rest⟩
  · exact ⟨rfl, rfl⟩
  · cases fault : (system.walk options path).fault? <;> cases isTree : scanned.tree <;>
      simp [Except.bind, isTree]

theorem grown_scan {tree : ContentTree} (scanned : (system.scan options path supply).1 = .ok tree) :
    tree.Grown options := by
  cases found : system.pathExists path with
  | false =>
      rw [scan, found] at scanned
      exact absurd scanned (by simp)
  | true =>
      rw [(scan_of_pathExists found supply).2] at scanned
      obtain ⟨last, taken, isTree⟩ := bind_eq_ok_iff.1 scanned
      refine Scanning.grown_takeAll taken (fun _ nothing => absurd nothing (by simp)) tree ?_
      split at isTree
      · exact absurd isTree (by simp)
      next isLast =>
          rw [isLast, Except.ok.inj isTree]
      · exact absurd isTree (by simp)

end FileSystem

end ContentTyping

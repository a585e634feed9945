import ContentTyping.FileSystem.Write
import ContentTyping.Proofs.FileSystem.Entries

/-!
# Written files are read back

A file can be written where a path leads to a file already, or to a directory in which it is missing.
The path leads to the file that was written in the same way as it led to its place before: on the way
there are directories and links only, and these stay what they are.
-/

namespace ContentTyping

namespace FileTree

variable {tree entry : FileTree} {location : Location} {name : FileName}

/-! ## Changes at a location -/

/-- An entry without what it holds: its kind, and the target of a link. -/
def bare : FileTree → FileTree
  | file _ _ => file [] {}
  | directory _ _ => directory [] {}
  | other => other

theorem lookup_cons_eq_if (name other : FileName) (entry : FileTree)
    (entries : List (FileName × FileTree)) :
    ((name, entry) :: entries).lookup other =
      if other = name then some entry else entries.lookup other := by
  rw [List.lookup_cons]
  split
  next same => rw [if_pos (beq_iff_eq.1 same)]
  next different => rw [if_neg (beq_eq_false_iff_ne.1 different)]

theorem lookup_insertEntry (name other : FileName) (entry : FileTree)
    (entries : List (FileName × FileTree)) :
    (insertEntry name entry entries).lookup other =
      if other = name then some entry else entries.lookup other := by
  induction entries with
  | nil =>
      exact lookup_cons_eq_if name other entry []
  | cons first entries inductionHypothesis =>
      obtain ⟨key, old⟩ := first
      rw [insertEntry]
      split
      next isKey =>
          subst isKey
          rw [lookup_cons_eq_if, lookup_cons_eq_if]
          split <;> rfl
      next isOther =>
          rw [lookup_cons_eq_if, lookup_cons_eq_if, inductionHypothesis]
          split
          next isKey =>
              subst isKey
              rw [if_neg isOther]
          next => rfl

theorem eq_directory_of_bare_eq {entries : List (FileName × FileTree)} {times : FileTimes}
    (alike : tree.bare = (directory entries times).bare) :
    ∃ entries times, tree = directory entries times := by
  cases tree with
  | directory entries times => exact ⟨entries, times, rfl⟩
  | file => exact absurd alike (by simp [bare])
  | link => exact absurd alike (by simp [bare])
  | special => exact absurd alike (by simp [bare])

theorem eq_link_of_bare_eq {target : RawPath} (alike : tree.bare = (link target).bare) :
    tree = link target := by
  cases tree with
  | link => exact alike
  | file => exact absurd alike (by simp [bare])
  | directory => exact absurd alike (by simp [bare])
  | special => exact absurd alike (by simp [bare])

theorem get?_below {entries : List (FileName × FileTree)} {times : FileTimes}
    (isDirectory : tree.get? location = some (directory entries times)) (name : FileName) :
    tree.get? (location ++ [name]) = entries.lookup name := by
  rw [get?_append, isDirectory, Option.bind_some, get?_singleton]
  rfl

/-- The entries of a tree in which there is something below the top. -/
theorem isDirectory_of_get?_cons (found : tree.get? (name :: location) = some entry) :
    ∃ entries times child, tree = directory entries times ∧ entries.lookup name = some child ∧
      child.get? location = some entry := by
  obtain ⟨child, isChild, below⟩ := Option.bind_eq_some_iff.1 found
  cases tree with
  | directory entries times => exact ⟨entries, times, child, rfl, isChild, below⟩
  | file => exact absurd isChild (by simp [entries])
  | link => exact absurd isChild (by simp [entries])
  | special => exact absurd isChild (by simp [entries])

theorem get?_change (edit : FileTree → FileTree) (found : tree.get? location = some entry) :
    (tree.change edit location).get? location = some (edit entry) := by
  induction location generalizing tree with
  | nil =>
      obtain rfl : tree = entry := Option.some.inj found
      rfl
  | cons name location inductionHypothesis =>
      obtain ⟨entries, times, child, rfl, isChild, below⟩ := isDirectory_of_get?_cons found
      simp only [change, isChild, get?, FileTree.entries, lookup_insertEntry, if_true, Option.bind_some,
        inductionHypothesis below]

/-! ## Files in directories -/

theorem withFile_eq (name : FileName) (contents : List UInt8) (now : FileTimes)
    (entries : List (FileName × FileTree)) (times : FileTimes) :
    ∃ written changed, (directory entries times).withFile name contents now =
      directory (insertEntry name (file contents written) entries) changed := by
  rw [withFile]
  split
  · exact ⟨_, _, rfl⟩
  · exact ⟨_, _, rfl⟩

/-- A directory takes a file with a name: what has the name, if anything, is a file. -/
def TakesFile (tree : FileTree) (directory : Location) (name : FileName) : Prop :=
  ∃ entries times, tree.get? directory = some (.directory entries times) ∧
    ∀ entry, entries.lookup name = some entry → ∃ contents times, entry = file contents times

/-- The file is there after it was written. -/
theorem get?_change_withFile {place : Location} (takes : tree.TakesFile place name)
    (contents : List UInt8) (now : FileTimes) :
    ∃ written, (tree.change (withFile name contents now) place).get? (place ++ [name]) =
      some (file contents written) := by
  obtain ⟨entries, times, isDirectory, _⟩ := takes
  obtain ⟨written, changed, isWritten⟩ := withFile_eq name contents now entries times
  refine ⟨written, ?_⟩
  rw [get?_append, get?_change _ isDirectory, isWritten, Option.bind_some, get?_singleton,
    FileTree.entries, lookup_insertEntry, if_pos rfl]

/-- Everything else is what it was before a file was written. -/
theorem bare_get?_change_withFile {place other : Location} (takes : tree.TakesFile place name)
    (elsewhere : other ≠ place ++ [name]) (contents : List UInt8) (now : FileTimes) :
    ((tree.change (withFile name contents now) place).get? other).map bare =
      (tree.get? other).map bare := by
  obtain ⟨entries, times, isDirectory, isFile⟩ := takes
  induction place generalizing tree other with
  | nil =>
      obtain rfl : tree = directory entries times := Option.some.inj isDirectory
      obtain ⟨written, changed, isWritten⟩ := withFile_eq name contents now entries times
      rw [change, isWritten]
      rcases other with _ | ⟨first, other⟩
      · rfl
      rw [get?, get?, FileTree.entries, FileTree.entries, lookup_insertEntry]
      split
      next same =>
          -- Below a file there is nothing, neither before nor after.
          subst same
          have deeper : other ≠ [] := by
            rintro rfl
            exact elsewhere rfl
          obtain ⟨second, further, rfl⟩ := List.exists_cons_of_ne_nil deeper
          cases found : entries.lookup first with
          | none => rfl
          | some entry =>
              obtain ⟨old, oldTimes, rfl⟩ := isFile entry found
              rfl
      next => rfl
  | cons first place inductionHypothesis =>
      obtain ⟨others, othersTimes, child, rfl, isChild, below⟩ := isDirectory_of_get?_cons isDirectory
      simp only [change, isChild]
      rcases other with _ | ⟨second, other⟩
      · rfl
      rw [get?, get?, FileTree.entries, FileTree.entries, lookup_insertEntry]
      split
      next same =>
          subst same
          rw [isChild, Option.bind_some, Option.bind_some]
          refine inductionHypothesis ?_ below
          rintro rfl
          exact elsewhere rfl
      next => rfl

end FileTree

namespace RawPath

/-- A name as a step, with a dot for a slash at the end. -/
def asStep (name : FileName) : FileName :=
  if name = [] then [dot] else name

theorem map_asStep_stepsToFile (path : RawPath) : path.stepsToFile.map asStep = path.steps := by
  have named : ∀ name ∈ (splitSlashes path.bytes).filter (!·.isEmpty), asStep name = id name := by
    intro name member
    have notEmpty : name ≠ [] := by simpa using (List.mem_filter.1 member).2
    exact if_neg notEmpty
  rw [stepsToFile, steps, List.map_append, List.map_congr_left named, List.map_id]
  split <;> rfl

end RawPath

namespace FileSystem

open FileTree

/-! ## The way to a file -/

/-- A name that is not empty and no dots. -/
def IsPlainName (name : FileName) : Prop :=
  ¬ (name = [] ∨ name = [RawPath.dot]) ∧ name ≠ RawPath.dots

instance (name : FileName) : Decidable (IsPlainName name) :=
  inferInstanceAs (Decidable (_ ∧ _))

/-- Names lead from a location, through at most so many links, to a file with a name in a directory. -/
inductive LeadsToFile (top : FileTree) (place : Location) (last : FileName) :
    Nat → Location → List FileName → Prop
  | here {links : Nat} (isName : IsPlainName last) (takes : top.TakesFile place last)
      (short : top.get? (place ++ [last]) = none → last.length ≤ nameLimit) :
      LeadsToFile top place last links place [last]
  | stay {links : Nat} {location : Location} {name : FileName} {names : List FileName}
      {entries : List (FileName × FileTree)} {times : FileTimes}
      (isDirectory : top.get? location = some (.directory entries times))
      (isDot : name = [] ∨ name = [RawPath.dot])
      (further : LeadsToFile top place last links location names) :
      LeadsToFile top place last links location (name :: names)
  | up {links : Nat} {location : Location} {names : List FileName}
      {entries : List (FileName × FileTree)} {times : FileTimes}
      (isDirectory : top.get? location = some (.directory entries times))
      (further : LeadsToFile top place last links location.dropLast names) :
      LeadsToFile top place last links location (RawPath.dots :: names)
  | down {links : Nat} {location : Location} {name : FileName} {names : List FileName}
      {entries below : List (FileName × FileTree)} {times timesBelow : FileTimes}
      (isDirectory : top.get? location = some (.directory entries times)) (isName : IsPlainName name)
      (isBelow : entries.lookup name = some (.directory below timesBelow))
      (further : LeadsToFile top place last links (location ++ [name]) names) :
      LeadsToFile top place last links location (name :: names)
  | link {links : Nat} {location : Location} {name : FileName} {names : List FileName}
      {entries : List (FileName × FileTree)} {times : FileTimes} {target : RawPath}
      (isDirectory : top.get? location = some (.directory entries times)) (isName : IsPlainName name)
      (isLink : entries.lookup name = some (.link target))
      (further : LeadsToFile top place last links (if target.isAbsolute then [] else location)
        (target.stepsToFile ++ names)) :
      LeadsToFile top place last (links + 1) location (name :: names)

variable {top later : FileTree} {links : Nat} {location place : Location} {names : List FileName}
  {last : FileName}

theorem leadsToFile_of_followToFile
    (followed : followToFile top links location names = .ok (place, last)) :
    LeadsToFile top place last links location names := by
  induction links, location, names using followToFile.induct top with
  | case3 links location name rest entries times isDirectory notLast isDot inductionHypothesis =>
      rw [followToFile, isDirectory] at followed
      simp only [if_neg notLast, if_pos isDot] at followed
      exact .stay isDirectory isDot (inductionHypothesis followed)
  | case4 links location rest entries times isDirectory notLast notDot inductionHypothesis =>
      rw [followToFile, isDirectory] at followed
      simp only [if_neg notLast, if_neg notDot, if_true] at followed
      exact .up isDirectory (inductionHypothesis followed)
  | case6 links location name rest entries times isDirectory notLast notDot notDots found short isEnd =>
      rw [followToFile, isDirectory] at followed
      simp only [if_neg notLast, if_neg notDot, if_neg notDots, found, if_neg short, if_pos isEnd]
        at followed
      obtain ⟨rfl, rfl⟩ := Prod.mk.inj (Except.ok.inj followed)
      obtain rfl := List.isEmpty_iff.1 isEnd
      exact .here ⟨notDot, notDots⟩ ⟨entries, times, isDirectory, by simp [found]⟩ fun _ =>
        Nat.not_lt.1 short
  | case8 links location name rest entries times isDirectory notLast notDot notDots contents old found
      isEnd =>
      rw [followToFile, isDirectory] at followed
      simp only [if_neg notLast, if_neg notDot, if_neg notDots, found, if_pos isEnd] at followed
      obtain ⟨rfl, rfl⟩ := Prod.mk.inj (Except.ok.inj followed)
      obtain rfl := List.isEmpty_iff.1 isEnd
      have isThere : top.get? (location ++ [name]) ≠ none := by
        rw [get?_below isDirectory, found]
        exact Option.some_ne_none _
      exact .here ⟨notDot, notDots⟩ ⟨entries, times, isDirectory, by simp [found]⟩ fun missing =>
        absurd missing isThere
  | case10 links location name rest entries times isDirectory notLast notDot notDots below old found
      inductionHypothesis =>
      rw [followToFile, isDirectory] at followed
      simp only [if_neg notLast, if_neg notDot, if_neg notDots, found] at followed
      exact .down isDirectory ⟨notDot, notDots⟩ found (inductionHypothesis followed)
  | case12 location name rest entries times isDirectory notLast notDot notDots target found links start
      inductionHypothesis =>
      rw [followToFile, isDirectory] at followed
      simp only [if_neg notLast, if_neg notDot, if_neg notDots, found] at followed
      exact .link isDirectory ⟨notDot, notDots⟩ found (inductionHypothesis followed)
  | case14 links location name rest notDirectory =>
      rw [followToFile] at followed
      split at followed
      next entries times isDirectory => exact absurd isDirectory (notDirectory entries times)
      · exact absurd followed (by simp)
  | case7 links location name rest entries times isDirectory notLast notDot notDots found short notEnd =>
      rw [followToFile, isDirectory] at followed
      simp only [if_neg notLast, if_neg notDot, if_neg notDots, found, if_neg short, if_neg notEnd]
        at followed
      exact absurd followed (by simp)
  | case1 | case2 | case5 | case9 | case11 | case13 =>
      -- The walk ends with an error here.
      simp_all [followToFile, -List.lookup_eq_none_iff]

theorem LeadsToFile.ne_nil (leads : LeadsToFile top place last links location names) :
    names ≠ [] := by
  rintro rfl
  cases leads

/-- A slash at the end leads to no file. -/
theorem LeadsToFile.getLast?_ne (leads : LeadsToFile top place last links location names) :
    names.getLast? ≠ some [] := by
  have behind (name : FileName) {names : List FileName} (notEmpty : names ≠ []) :
      (name :: names).getLast? = names.getLast? :=
    List.getLast?_append_of_ne_nil [name] notEmpty
  induction leads with
  | here isName _ _ =>
      exact fun isEmpty => isName.1 (.inl (Option.some.inj isEmpty))
  | stay _ _ further inductionHypothesis =>
      rwa [behind _ further.ne_nil]
  | up _ further inductionHypothesis =>
      rwa [behind _ further.ne_nil]
  | down _ _ _ further inductionHypothesis =>
      rwa [behind _ further.ne_nil]
  | @link links location name names entries times target _ isName _ _ inductionHypothesis =>
      by_cases isEnd : names = []
      · rw [isEnd]
        exact fun isEmpty => isName.1 (.inl (Option.some.inj isEmpty))
      · rwa [List.getLast?_append_of_ne_nil _ isEnd, ← behind name isEnd] at inductionHypothesis

theorem followToFile_of_leadsToFile (leads : LeadsToFile top place last links location names) :
    followToFile top links location names = .ok (place, last) := by
  have notMark {links : Nat} {location : Location} {names : List FileName}
      (further : LeadsToFile top place last links location names) : names ≠ [[]] := by
    rintro rfl
    exact further.getLast?_ne rfl
  induction leads with
  | here isName takes short =>
      obtain ⟨entries, times, isDirectory, isFile⟩ := takes
      rw [get?_below isDirectory] at short
      rw [followToFile, isDirectory]
      simp only [if_neg isName.1, if_neg isName.2]
      cases found : entries.lookup last with
      | none =>
          simp [Nat.not_lt.2 (short found)]
      | some entry =>
          obtain ⟨contents, old, rfl⟩ := isFile entry found
          rfl
  | stay isDirectory isDot further inductionHypothesis =>
      rw [followToFile, isDirectory]
      simp only [if_neg (notMark further), if_pos isDot, inductionHypothesis]
  | up isDirectory further inductionHypothesis =>
      have notDot : ¬ (RawPath.dots = [] ∨ RawPath.dots = [RawPath.dot]) := by decide
      rw [followToFile, isDirectory]
      simp only [if_neg (notMark further), if_neg notDot, if_true, inductionHypothesis]
  | down isDirectory isName isBelow further inductionHypothesis =>
      rw [followToFile, isDirectory]
      simp only [if_neg (notMark further), if_neg isName.1, if_neg isName.2, isBelow,
        inductionHypothesis]
  | @link links location name names entries times target isDirectory isName isLink further
      inductionHypothesis =>
      have notEnd : names ≠ [[]] := by
        rintro rfl
        exact further.getLast?_ne (List.getLast?_append_of_ne_nil _ (List.cons_ne_nil _ _))
      rw [followToFile, isDirectory]
      simp only [if_neg notEnd, if_neg isName.1, if_neg isName.2, isLink, inductionHypothesis]

theorem LeadsToFile.takesFile (leads : LeadsToFile top place last links location names) :
    top.TakesFile place last := by
  induction leads with
  | here _ takes _ => exact takes
  | stay _ _ _ inductionHypothesis => exact inductionHypothesis
  | up _ _ inductionHypothesis => exact inductionHypothesis
  | down _ _ _ _ inductionHypothesis => exact inductionHypothesis
  | link _ _ _ _ inductionHypothesis => exact inductionHypothesis

section Steps

variable {entries : List (FileName × FileTree)} {times : FileTimes} {name : FileName}

theorem follow_stay {followLast : Bool}
    (isDirectory : top.get? location = some (.directory entries times))
    (isDot : name = [] ∨ name = [RawPath.dot]) (names : List FileName) :
    follow top followLast links location (RawPath.asStep name :: names) =
      follow top followLast links location names := by
  have step : RawPath.asStep name = [RawPath.dot] := by
    rcases isDot with rfl | rfl <;> rfl
  rw [step, follow, isDirectory]
  simp only [if_true]

theorem follow_up {followLast : Bool}
    (isDirectory : top.get? location = some (.directory entries times))
    (names : List FileName) :
    follow top followLast links location (RawPath.dots :: names) =
      follow top followLast links location.dropLast names := by
  have notDot : RawPath.dots ≠ [RawPath.dot] := by decide
  rw [follow, isDirectory]
  simp only [if_neg notDot, if_true]

theorem follow_down {followLast : Bool} {entry : FileTree}
    (isDirectory : top.get? location = some (.directory entries times)) (isName : IsPlainName name)
    (isEntry : top.get? (location ++ [name]) = some entry) (notLink : entry.isLink = false)
    (names : List FileName) :
    follow top followLast links location (name :: names) =
      follow top followLast links (location ++ [name]) names := by
  obtain ⟨notDot, notDots⟩ := isName
  rw [get?_below isDirectory] at isEntry
  rw [follow, isDirectory]
  simp only [if_neg (not_or.1 notDot).2, if_neg notDots, isEntry]
  cases entry with
  | link => exact absurd notLink (by simp [FileTree.isLink])
  | file => rfl
  | directory => rfl
  | special => rfl

theorem follow_link {target : RawPath}
    (isDirectory : top.get? location = some (.directory entries times)) (isName : IsPlainName name)
    (isLink : top.get? (location ++ [name]) = some (.link target)) (names : List FileName) :
    follow top true (links + 1) location (name :: names) =
      follow top true links (if target.isAbsolute then [] else location) (target.steps ++ names) := by
  obtain ⟨notDot, notDots⟩ := isName
  rw [get?_below isDirectory] at isLink
  rw [follow, isDirectory]
  simp only [if_neg (not_or.1 notDot).2, if_neg notDots, isLink]
  simp

end Steps

/-- Names lead to the file in every tree that has the file and is the same elsewhere. -/
theorem LeadsToFile.follow_eq (leads : LeadsToFile top place last links location names)
    (same : ∀ other ≠ place ++ [last], (later.get? other).map bare = (top.get? other).map bare)
    {contents : List UInt8} {times : FileTimes}
    (isFile : later.get? (place ++ [last]) = some (.file contents times)) :
    follow later true links location (names.map RawPath.asStep) = .ok (place ++ [last]) := by
  have takes := leads.takesFile
  -- Directories and links are not where the file is, and so they stay what they are.
  have stays {location : Location} {entry : FileTree} (found : top.get? location = some entry)
      (notFile : ∀ contents times, entry ≠ .file contents times) :
      ∃ changed, later.get? location = some changed ∧ changed.bare = entry.bare := by
    have elsewhere : location ≠ place ++ [last] := by
      rintro rfl
      obtain ⟨entries, times, isDirectory, wasFile⟩ := takes
      rw [get?_below isDirectory] at found
      obtain ⟨old, oldTimes, isFile⟩ := wasFile entry found
      exact notFile old oldTimes isFile
    have alike := same location elsewhere
    rwa [found, Option.map_some, Option.map_eq_some_iff] at alike
  have staysDirectory {location : Location} {entries : List (FileName × FileTree)} {times : FileTimes}
      (isDirectory : top.get? location = some (.directory entries times)) :
      ∃ entries times, later.get? location = some (.directory entries times) := by
    obtain ⟨changed, found, alike⟩ := stays isDirectory (by simp)
    obtain ⟨others, timesThere, rfl⟩ := eq_directory_of_bare_eq alike
    exact ⟨others, timesThere, found⟩
  have below {location : Location} {name : FileName} {entries : List (FileName × FileTree)}
      {times : FileTimes} {entry : FileTree}
      (isDirectory : top.get? location = some (.directory entries times))
      (isBelow : entries.lookup name = some entry) : top.get? (location ++ [name]) = some entry := by
    rwa [get?_below isDirectory]
  have plain {name : FileName} (isName : IsPlainName name) : RawPath.asStep name = name :=
    if_neg (not_or.1 isName.1).1
  induction leads with
  | here isName _ _ =>
      obtain ⟨entries, times, isDirectory, _⟩ := takes
      obtain ⟨others, timesThere, found⟩ := staysDirectory isDirectory
      rw [List.map_cons, plain isName, follow_down found isName isFile rfl, List.map_nil, follow]
  | stay isDirectory isDot _ inductionHypothesis =>
      obtain ⟨others, timesThere, found⟩ := staysDirectory isDirectory
      rw [List.map_cons, follow_stay found isDot, inductionHypothesis]
  | up isDirectory _ inductionHypothesis =>
      obtain ⟨others, timesThere, found⟩ := staysDirectory isDirectory
      have step : RawPath.asStep RawPath.dots = RawPath.dots := rfl
      rw [List.map_cons, step, follow_up found, inductionHypothesis]
  | down isDirectory isName isBelow _ inductionHypothesis =>
      obtain ⟨others, timesThere, found⟩ := staysDirectory isDirectory
      obtain ⟨othersBelow, timesBelow, foundBelow⟩ := staysDirectory (below isDirectory isBelow)
      rw [List.map_cons, plain isName, follow_down found isName foundBelow rfl, inductionHypothesis]
  | link isDirectory isName isLink _ inductionHypothesis =>
      obtain ⟨others, timesThere, found⟩ := staysDirectory isDirectory
      obtain ⟨changed, foundBelow, alike⟩ := stays (below isDirectory isLink) (by simp)
      obtain rfl := eq_link_of_bare_eq alike
      rw [List.map_append, RawPath.map_asStep_stepsToFile] at inductionHypothesis
      rw [List.map_cons, plain isName, follow_link found isName foundBelow, inductionHypothesis]

/-! ## Reading after writing -/

theorem locate_eq (system : FileSystem) (followLast : Bool) (path : RawPath) :
    system.locate followLast path =
      match path.fault? with
      | some fault => .error fault
      | none =>
        follow system.top followLast linkLimit (if path.isAbsolute then [] else system.workingDirectory)
          path.steps := by
  rw [locate, RawPath.fault?]
  by_cases isEmpty : path.bytes.isEmpty
  · rw [if_pos isEmpty, if_pos isEmpty]
  by_cases hasZero : 0 ∈ path.bytes
  · rw [if_neg isEmpty, if_neg isEmpty, if_pos hasZero, if_pos hasZero]
  by_cases long : pathLimit ≤ path.bytes.length
  · rw [if_neg isEmpty, if_neg isEmpty, if_neg hasZero, if_neg hasZero, if_pos long, if_pos long]
  · rw [if_neg isEmpty, if_neg isEmpty, if_neg hasZero, if_neg hasZero, if_neg long, if_neg long]

/-- What was written to a file is read from it. -/
theorem read_write {system saved : FileSystem} {path : RawPath} {contents : List UInt8}
    {now : FileTimes} (written : system.write path contents now = .ok saved) :
    saved.read path = .ok contents := by
  rw [write] at written
  cases sound : path.fault? with
  | some fault =>
      rw [sound] at written
      exact absurd written (by simp)
  | none =>
      rw [sound] at written
      simp only at written
      split at written
      · exact absurd written (by simp)
      next place last followed =>
          obtain rfl := Except.ok.inj written
          have leads := leadsToFile_of_followToFile followed
          obtain ⟨times, isFile⟩ := get?_change_withFile leads.takesFile contents now
          have same (other : Location) (elsewhere : other ≠ place ++ [last]) :=
            bare_get?_change_withFile leads.takesFile elsewhere contents now
          have leadsThere := leads.follow_eq same isFile
          rw [RawPath.map_asStep_stepsToFile] at leadsThere
          rw [read, entry, locate_eq, sound]
          simp only [leadsThere, isFile]

/-- A path leads to a file, or to a place for one. -/
def LeadsToWrite (system : FileSystem) (path : RawPath) : Prop :=
  path.fault? = none ∧ ∃ place last, LeadsToFile system.top place last linkLimit
    (if path.isAbsolute then [] else system.workingDirectory) path.stepsToFile

theorem exists_write_iff (system : FileSystem) (path : RawPath) (contents : List UInt8)
    (now : FileTimes) :
    (∃ saved, system.write path contents now = .ok saved) ↔ system.LeadsToWrite path := by
  rw [LeadsToWrite, write]
  cases path.fault? with
  | some fault =>
      simp
  | none =>
      constructor
      · rintro ⟨saved, written⟩
        simp only at written
        split at written
        · exact absurd written (by simp)
        next place last followed => exact ⟨rfl, place, last, leadsToFile_of_followToFile followed⟩
      · rintro ⟨_, place, last, leads⟩
        simp only [followToFile_of_leadsToFile leads]
        exact ⟨_, rfl⟩

theorem pathExists_of_read {system : FileSystem} {path : RawPath} {contents : List UInt8}
    (isRead : system.read path = .ok contents) : system.pathExists path = true := by
  rw [read] at isRead
  rw [pathExists]
  cases found : system.entry true path with
  | error fault =>
      rw [found] at isRead
      exact absurd isRead (by simp)
  | ok entry => rfl

end FileSystem

end ContentTyping

import Mathlib.Data.List.TakeWhile
import ContentTyping.Yaml.Scalar
import ContentTyping.Yaml.Writer

/-!
# Words and gaps

A text is a row of words with gaps between them. A cursor goes over a run of characters of a kind as
far as the run goes, over a gap of spaces without change, and over a gap of line breaks with the
indentation after it, which is not part of the text.
-/

namespace ContentTyping.Yaml

/-! ## Characters -/

theorem isAllowed_of_isPrintable {c : Char} (printable : isPrintable c = true) :
    isAllowed c = true := by
  by_cases isFeed : c = '\n'
  · subst isFeed
    decide
  · simp only [isPrintable, isFeed, decide_false, Bool.false_or, Bool.or_eq_true, Bool.and_eq_true,
      decide_eq_true_eq] at printable
    simp only [isAllowed, Bool.or_eq_true, Bool.and_eq_true, decide_eq_true_eq]
    omega

theorem isSpace_of_isPrintable {c : Char} (printable : isPrintable c = true)
    (blank : isBlank c = true) : isSpace c = true := by
  rw [isBlank, Bool.or_eq_true, decide_eq_true_eq, decide_eq_true_eq] at blank
  rcases blank with rfl | rfl
  · rfl
  · exact absurd printable (by decide)

theorem isBlank_of_isSpace {c : Char} (space : isSpace c = true) : isBlank c = true := by
  rw [isSpace, decide_eq_true_eq] at space
  simp [isBlank, space]

theorem isBlank_of_isBreak {c : Char} (breaks : isBreak c = true) : isBlank c = false := by
  simp only [isBreak, Bool.or_eq_true, decide_eq_true_eq] at breaks
  rcases breaks with (((rfl | rfl) | rfl) | rfl) | rfl <;> rfl

/-- A character between words. -/
def isGap (c : Char) : Bool :=
  isBlank c || isBreak c

theorem isGap_eq_false {c : Char} (printable : isPrintable c = true) (notSpace : isSpace c = false)
    (notBreak : isBreak c = false) : isGap c = false := by
  have notBlank : isBlank c = false := by
    rw [Bool.eq_false_iff]
    intro blank
    exact Bool.false_ne_true (notSpace.symm.trans (isSpace_of_isPrintable printable blank))
  rw [isGap, notBlank, notBreak, Bool.or_self]

/-- A break that is written as it is stands for itself. -/
theorem lineBreak?_of_isPrintable {c : Char} (breaks : isBreak c = true)
    (printable : isPrintable c = true) (rest : List Char) :
    lineBreak? (c :: rest) = some (c, 1, rest) := by
  simp only [isBreak, Bool.or_eq_true, decide_eq_true_eq] at breaks
  rcases breaks with (((rfl | rfl) | rfl) | rfl) | rfl
  · rfl
  · exact absurd printable (by decide)
  · exact absurd printable (by decide)
  · rfl
  · rfl

/-! ## What comes next -/

/-- The text does not begin with a character of this kind. -/
def NoneAhead (kind : Char → Bool) (text : List Char) : Prop :=
  ∀ c ∈ text.head?, kind c = false

variable {kind other : Char → Bool} {run rest text : List Char}

theorem noneAhead_nil (kind : Char → Bool) : NoneAhead kind [] := by
  intro c isHead
  cases isHead

theorem noneAhead_cons {c : Char} : NoneAhead kind (c :: rest) ↔ kind c = false := by
  simp [NoneAhead]

theorem NoneAhead.mono (ahead : NoneAhead kind text)
    (narrower : ∀ c, other c = true → kind c = true) : NoneAhead other text := by
  intro c isHead
  rw [Bool.eq_false_iff]
  intro isOther
  exact Bool.false_ne_true ((ahead c isHead).symm.trans (narrower c isOther))

theorem lineBreak?_eq_none (ahead : NoneAhead isBreak text) : lineBreak? text = none := by
  cases text with
  | nil =>
      rfl
  | cons c rest =>
      have notBreak := noneAhead_cons.1 ahead
      have notSeparator : (decide (c = '\u2028') || decide (c = '\u2029')) = false := by
        rw [isBreak, Bool.or_eq_false_iff, Bool.or_eq_false_iff] at notBreak
        rw [notBreak.1.2, notBreak.2, Bool.or_self]
      rw [lineBreak?, notSeparator, notBreak, if_neg Bool.false_ne_true, if_neg Bool.false_ne_true]
      rintro further rfl
      exact absurd notBreak (by decide)

theorem takeWhile_append_of_noneAhead (each : run.all kind = true) (ahead : NoneAhead kind rest) :
    (run ++ rest).takeWhile kind = run := by
  rw [List.takeWhile_append_of_pos (List.all_eq_true.1 each)]
  cases rest with
  | nil => simp
  | cons c rest => simp [noneAhead_cons.1 ahead]

theorem dropWhile_append_of_noneAhead (each : run.all kind = true) (ahead : NoneAhead kind rest) :
    (run ++ rest).dropWhile kind = rest := by
  rw [List.dropWhile_append_of_pos (List.all_eq_true.1 each)]
  cases rest with
  | nil => rfl
  | cons c rest => simp [noneAhead_cons.1 ahead]

theorem noneAhead_dropWhile (kind : Char → Bool) (text : List Char) :
    NoneAhead kind (text.dropWhile kind) := by
  induction text with
  | nil =>
      exact noneAhead_nil kind
  | cons c rest inductionHypothesis =>
      rw [List.dropWhile_cons]
      split
      next => exact inductionHypothesis
      next notKind => exact noneAhead_cons.2 (Bool.eq_false_iff.2 notKind)

/-! ## Induction on words -/

/-- A text is a word, or a word and a gap before a text that begins with a word. -/
theorem words_induction (separates : Char → Bool) {motive : List Char → Prop}
    (word : ∀ word : List Char, word.all (!separates ·) = true → motive word)
    (more : ∀ word gap rest : List Char, word.all (!separates ·) = true →
      gap.all separates = true → gap ≠ [] → NoneAhead separates rest → motive rest →
      motive (word ++ (gap ++ rest)))
    (text : List Char) : motive text := by
  induction sizeEq : text.length using Nat.strongRecOn generalizing text with
  | _ size inductionHypothesis =>
      have parts : text.takeWhile (!separates ·) ++ text.dropWhile (!separates ·) = text :=
        List.takeWhile_append_dropWhile
      have starts := noneAhead_dropWhile (!separates ·) text
      rcases after : text.dropWhile (!separates ·) with _ | ⟨c, behind⟩
      · rw [after, List.append_nil] at parts
        exact word text (parts ▸ List.all_takeWhile)
      · rw [after] at parts starts
        have isGap : separates c = true := by simpa using noneAhead_cons.1 starts
        have gapAndRest : (c :: behind).takeWhile separates ++ (c :: behind).dropWhile separates =
            c :: behind := List.takeWhile_append_dropWhile
        have gapNotEmpty : (c :: behind).takeWhile separates ≠ [] := by
          simp [isGap]
        have shorter : ((c :: behind).dropWhile separates).length < size := by
          have lengths := congrArg List.length parts
          have gapLengths := congrArg List.length gapAndRest
          have positive := List.length_pos_iff.2 gapNotEmpty
          rw [List.length_append] at lengths gapLengths
          omega
        have step := more _ _ _ (List.all_takeWhile (l := text)) (List.all_takeWhile) gapNotEmpty
          (noneAhead_dropWhile separates (c :: behind))
          (inductionHypothesis _ shorter _ rfl)
        rwa [gapAndRest, parts] at step

/-! ## Neighbours -/

theorem hasNeighbours_append {first second : Char → Bool} {before after : List Char}
    (absent : hasNeighbours first second (before ++ after) = false) :
    hasNeighbours first second before = false ∧ hasNeighbours first second after = false := by
  induction before with
  | nil =>
      exact ⟨rfl, absent⟩
  | cons a before inductionHypothesis =>
      rcases before with _ | ⟨b, before⟩
      · rcases after with _ | ⟨b, after⟩
        · exact ⟨rfl, rfl⟩
        · rw [List.singleton_append, hasNeighbours, Bool.or_eq_false_iff] at absent
          exact ⟨rfl, absent.2⟩
      · rw [List.cons_append, List.cons_append, hasNeighbours, Bool.or_eq_false_iff] at absent
        obtain ⟨inBefore, inAfter⟩ := inductionHypothesis absent.2
        refine ⟨?_, inAfter⟩
        rw [hasNeighbours, absent.1, inBefore, Bool.or_self]

/-- Spaces and breaks that do not meet are spaces only or breaks only. -/
theorem isSpace_or_isBreak_of_not_neighbours {gap : List Char}
    (each : gap.all (fun c => isSpace c || isBreak c) = true)
    (noSpaceBehind : hasNeighbours isBreak isSpace gap = false)
    (noBreakBehind : hasNeighbours isSpace isBreak gap = false) :
    gap.all isSpace = true ∨ gap.all isBreak = true := by
  induction gap with
  | nil =>
      exact .inl rfl
  | cons a gap inductionHypothesis =>
      rw [List.all_cons, Bool.and_eq_true, Bool.or_eq_true] at each
      rcases gap with _ | ⟨b, gap⟩
      · simpa using each.1
      rw [hasNeighbours, Bool.or_eq_false_iff] at noSpaceBehind noBreakBehind
      rcases inductionHypothesis each.2 noSpaceBehind.2 noBreakBehind.2 with spaces | breaks
      · left
        have isSpaceB : isSpace b = true := by
          rw [List.all_cons, Bool.and_eq_true] at spaces
          exact spaces.1
        have notBreakA : isBreak a = false := by simpa [isSpaceB] using noSpaceBehind.1
        have isSpaceA : isSpace a = true := by simpa [notBreakA] using each.1
        rw [List.all_cons, isSpaceA, spaces, Bool.and_self]
      · right
        have isBreakB : isBreak b = true := by
          rw [List.all_cons, Bool.and_eq_true] at breaks
          exact breaks.1
        have notSpaceA : isSpace a = false := by simpa [isBreakB] using noBreakBehind.1
        have isBreakA : isBreak a = true := by simpa [notSpaceA] using each.1
        rw [List.all_cons, isBreakA, breaks, Bool.and_self]

/-! ## Cursors over runs and gaps -/

namespace Cursor

variable (line column index : Nat)

theorem span_append (each : run.all kind = true) (ahead : NoneAhead kind rest) :
    (⟨run ++ rest, line, column, index⟩ : Cursor).span kind =
      (run, ⟨rest, line, column + run.length, index + run.length⟩) := by
  rw [span]
  simp only [takeWhile_append_of_noneAhead each ahead, dropWhile_append_of_noneAhead each ahead]
  rfl

theorem span_of_noneAhead (ahead : NoneAhead kind rest) :
    (⟨rest, line, column, index⟩ : Cursor).span kind = ([], ⟨rest, line, column, index⟩) :=
  @span_append kind [] rest line column index rfl ahead

theorem newLine?_of_isPrintable {c : Char} (breaks : isBreak c = true)
    (printable : isPrintable c = true) :
    (⟨c :: rest, line, column, index⟩ : Cursor).newLine? =
      some (c, ⟨rest, line + 1, 0, index + 1⟩) := by
  simp only [newLine?, lineBreak?_of_isPrintable breaks printable]

theorem newLine?_eq_none (ahead : NoneAhead isBreak rest) :
    (⟨rest, line, column, index⟩ : Cursor).newLine? = none := by
  simp only [newLine?, lineBreak?_eq_none ahead]

theorem atMarker_of_column {cursor : Cursor} (notFirst : cursor.column ≠ 0) (mark : Char) :
    cursor.atMarker mark = false := by
  rw [atMarker]
  split
  · simp [notFirst]
  · rfl

theorem atDocumentMarker_of_column {cursor : Cursor} (notFirst : cursor.column ≠ 0) :
    cursor.atDocumentMarker = false := by
  rw [atDocumentMarker, atMarker_of_column notFirst, atMarker_of_column notFirst, Bool.or_self]

/-- Spaces before a word are the end of a gap. -/
theorem gap_spaces (each : run.all isSpace = true) (ahead : NoneAhead isGap rest)
    (floor steps : Nat) (sofar : Gap) :
    (⟨run ++ rest, line, column, index⟩ : Cursor).gap floor (steps + 1) sofar =
      some (sofar.addBlanks run, ⟨rest, line, column + run.length, index + run.length⟩) := by
  have blanks : run.all isBlank = true :=
    List.all_eq_true.2 fun c member => isBlank_of_isSpace (List.all_eq_true.1 each c member)
  have noBlank : NoneAhead isBlank rest :=
    ahead.mono fun c blank => by rw [isGap, blank, Bool.true_or]
  have noBreak : NoneAhead isBreak rest :=
    ahead.mono fun c breaks => by rw [isGap, breaks, Bool.or_true]
  have spaces : run.takeWhile (· = ' ') = run :=
    List.takeWhile_eq_self_iff.2 (List.all_eq_true.1 each)
  rw [gap]
  simp only [span_append line column index blanks noBlank, spaces, Nat.lt_irrefl, decide_false,
    Bool.and_false, Bool.false_and, newLine?_eq_none _ _ _ noBreak]
  rfl

theorem gap_break {c : Char} (breaks : isBreak c = true) (printable : isPrintable c = true)
    (floor steps : Nat) (sofar : Gap) :
    (⟨c :: rest, line, column, index⟩ : Cursor).gap floor (steps + 1) sofar =
      (⟨rest, line + 1, 0, index + 1⟩ : Cursor).gap floor steps
        ((sofar.addBlanks []).addBreak c) := by
  have noBlank : NoneAhead isBlank (c :: rest) := noneAhead_cons.2 (isBlank_of_isBreak breaks)
  rw [gap]
  simp only [span_of_noneAhead line column index noBlank, List.takeWhile_nil, List.length_nil,
    Nat.lt_irrefl, decide_false, Bool.and_false, Bool.false_and,
    newLine?_of_isPrintable _ _ _ breaks printable]
  rfl

/-- Breaks are kept one after the other, and the indentation after them is not. -/
theorem gap_moreLines {breaks : List Char} (areBreaks : breaks.all isBreak = true)
    (printable : breaks.all isPrintable = true) (spaces : run.all isSpace = true)
    (ahead : NoneAhead isGap rest) (floor : Nat) {steps : Nat} (enough : breaks.length < steps)
    (first : Option Char) (more : List Char) :
    (⟨breaks ++ (run ++ rest), line, 0, index⟩ : Cursor).gap floor steps (.lines first more) =
      some (.lines first (more ++ breaks),
        ⟨rest, line + breaks.length, run.length, index + breaks.length + run.length⟩) := by
  induction breaks generalizing line index steps more with
  | nil =>
      obtain ⟨steps, rfl⟩ := Nat.exists_eq_add_of_lt enough
      rw [List.nil_append, gap_spaces line 0 index spaces ahead, List.append_nil]
      simp [Gap.addBlanks]
  | cons c breaks inductionHypothesis =>
      obtain ⟨steps, rfl⟩ := Nat.exists_eq_add_of_lt enough
      rw [List.all_cons, Bool.and_eq_true] at areBreaks printable
      rw [List.cons_append, gap_break line 0 index areBreaks.1 printable.1,
        Gap.addBlanks, Gap.addBreak, inductionHypothesis (line + 1) (index + 1) areBreaks.2 printable.2]
      · simp only [List.append_assoc, List.singleton_append, List.length_cons, Option.some.injEq,
          Prod.mk.injEq, Cursor.mk.injEq, true_and]
        omega
      · rw [List.length_cons]
        omega

theorem gap_lines {first : Char} {more : List Char} (areBreaks : (first :: more).all isBreak = true)
    (printable : (first :: more).all isPrintable = true) (spaces : run.all isSpace = true)
    (ahead : NoneAhead isGap rest) (floor : Nat) {steps : Nat} (enough : more.length + 1 < steps) :
    (⟨first :: more ++ (run ++ rest), line, column, index⟩ : Cursor).gap floor steps (.blanks []) =
      some (.lines (some first) more,
        ⟨rest, line + 1 + more.length, run.length, index + 1 + more.length + run.length⟩) := by
  obtain ⟨steps, rfl⟩ := Nat.exists_eq_add_of_lt enough
  rw [List.all_cons, Bool.and_eq_true] at areBreaks printable
  rw [List.cons_append, gap_break line column index areBreaks.1 printable.1, Gap.addBlanks,
    Gap.addBreak, gap_moreLines (line + 1) (index + 1) areBreaks.2 printable.2 spaces ahead floor
      (by omega), List.nil_append]

end Cursor

end ContentTyping.Yaml

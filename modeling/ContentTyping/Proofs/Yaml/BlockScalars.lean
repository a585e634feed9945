import Mathlib.Data.List.Basic
import Mathlib.Data.List.Induction
import ContentTyping.Proofs.Yaml.Words

/-!
# Block scalars are read back

The lines of a text that is written in a block of its own are read as that text, when the next line
after the block begins to the left of it. The signs at the head of the block settle its indentation
where the text begins with a gap, and what becomes of the breaks at its end.
-/

namespace ContentTyping.Yaml

/-! ## Lines as they are written -/

theorem blockBody_line (indent : Nat) {word : List Char} (solid : word.all (!isBreak ·) = true)
    (rest : List Char) :
    blockBody indent false (word ++ rest) = word ++ blockBody indent false rest := by
  induction word with
  | nil =>
      rfl
  | cons c word inductionHypothesis =>
      rw [List.all_cons, Bool.and_eq_true] at solid
      have notBreak : isBreak c = false := by simpa using solid.1
      rw [List.cons_append, blockBody, notBreak, inductionHypothesis solid.2]
      rfl

theorem blockBody_start (indent : Nat) {rest : List Char} (ahead : NoneAhead isBreak rest)
    (notEmpty : rest ≠ []) :
    blockBody indent true rest = indentation indent ++ blockBody indent false rest := by
  rcases rest with _ | ⟨c, rest⟩
  · exact absurd rfl notEmpty
  · simp [blockBody, noneAhead_cons.1 ahead]

theorem blockBody_breaks (indent : Nat) {breaks : List Char} (areBreaks : breaks.all isBreak = true)
    (rest : List Char) :
    blockBody indent true (breaks ++ rest) = breaks ++ blockBody indent true rest := by
  induction breaks with
  | nil =>
      rfl
  | cons c breaks inductionHypothesis =>
      rw [List.all_cons, Bool.and_eq_true] at areBreaks
      rw [List.cons_append, blockBody, if_pos areBreaks.1, inductionHypothesis areBreaks.2]
      rfl

theorem blockBody_gap (indent : Nat) {gap rest : List Char} (breaks : gap.all isBreak = true)
    (gapNotEmpty : gap ≠ []) (ahead : NoneAhead isBreak rest) (notEmpty : rest ≠ []) :
    blockBody indent false (gap ++ rest) =
      gap ++ (indentation indent ++ blockBody indent false rest) := by
  rcases gap with _ | ⟨c, gap⟩
  · exact absurd rfl gapNotEmpty
  · rw [List.all_cons, Bool.and_eq_true] at breaks
    rw [List.cons_append, blockBody, if_pos breaks.1, blockBody_breaks indent breaks.2,
      blockBody_start indent ahead notEmpty]
    rfl

theorem blockBody_of_breaks (indent : Nat) {breaks : List Char} (areBreaks : breaks.all isBreak = true)
    (atStart : Bool) : blockBody indent atStart breaks = breaks := by
  induction breaks generalizing atStart with
  | nil =>
      rfl
  | cons c breaks inductionHypothesis =>
      rw [List.all_cons, Bool.and_eq_true] at areBreaks
      rw [blockBody, if_pos areBreaks.1, inductionHypothesis areBreaks.2]

/-- Breaks at the end are written as they are. -/
theorem blockBody_append_breaks (indent : Nat) (text : List Char) {breaks : List Char}
    (areBreaks : breaks.all isBreak = true) (atStart : Bool) :
    blockBody indent atStart (text ++ breaks) = blockBody indent atStart text ++ breaks := by
  induction text generalizing atStart with
  | nil =>
      exact blockBody_of_breaks indent areBreaks atStart
  | cons c text inductionHypothesis =>
      rw [List.cons_append, blockBody, blockBody]
      split
      next => rw [inductionHypothesis, List.cons_append]
      next => rw [inductionHypothesis, List.append_assoc, List.cons_append]

theorem length_le_blockBody (indent : Nat) (text : List Char) (atStart : Bool) :
    text.length ≤ (blockBody indent atStart text).length := by
  induction text generalizing atStart with
  | nil =>
      exact Nat.zero_le _
  | cons c text inductionHypothesis =>
      rw [blockBody]
      split
      next =>
          exact Nat.succ_le_succ (inductionHypothesis true)
      next =>
          have further := inductionHypothesis false
          rw [List.length_append, List.length_cons, List.length_cons]
          omega

theorem noneAhead_blockBody (indent : Nat) {text : List Char} (ahead : NoneAhead isBreak text)
    (notEmpty : text ≠ []) (rest : List Char) :
    NoneAhead isBreak (blockBody indent false text ++ rest) := by
  rcases text with _ | ⟨c, text⟩
  · exact absurd rfl notEmpty
  · have notBreak := noneAhead_cons.1 ahead
    rw [blockBody, notBreak]
    exact noneAhead_cons.2 notBreak

/-! ## Empty lines -/

namespace Cursor

variable {rest : List Char} (line index : Nat)

theorem takeWhile_indentation (width : Nat) (rest : List Char) :
    (indentation width ++ rest).takeWhile (· = ' ') =
      indentation width ++ rest.takeWhile (· = ' ') := by
  rw [List.takeWhile_append_of_pos]
  simp [indentation]

theorem skip_indentation (width column : Nat) :
    (⟨indentation width ++ rest, line, column, index⟩ : Cursor).skip width =
      ⟨rest, line, column + width, index + width⟩ := by
  simp [skip, onLine, indentation]

/-- Indentation up to the column of the block, or less of it before a line that is not of the block. -/
structure LeadsTo (indent width : Nat) (rest : List Char) : Prop where
  noBreak : NoneAhead isBreak rest
  width_le : width ≤ indent
  outside : width < indent → NoneAhead isGap rest

theorem emptyLines_indentation {indent width : Nat} (leads : LeadsTo indent width rest)
    (steps widest : Nat) :
    (⟨indentation width ++ rest, line, 0, index⟩ : Cursor).emptyLines (some indent) (steps + 1)
        widest =
      some ([], max widest width, ⟨rest, line, width, index + width⟩) := by
  have skipped : min (indentation width ++ rest.takeWhile (· = ' ')).length (indent - 0) = width := by
    rw [List.length_append, indentation, List.length_replicate]
    rcases Nat.lt_or_eq_of_le leads.width_le with outside | isSame
    · have noSpace : rest.takeWhile (· = ' ') = [] := by
        have ahead := leads.outside outside
        rcases rest with _ | ⟨c, rest⟩
        · rfl
        · refine List.takeWhile_cons_of_neg ?_
          intro isSpace
          have notGap := noneAhead_cons.1 ahead
          rw [of_decide_eq_true isSpace] at notGap
          exact absurd notGap (by decide)
      rw [noSpace, List.length_nil]
      omega
    · omega
  have noTabulator : (decide (width < indent) &&
      (⟨rest, line, width, index + width⟩ : Cursor).sees '\t') = false := by
    rw [Bool.and_eq_false_imp]
    intro outside
    have ahead := leads.outside (of_decide_eq_true outside)
    refine decide_eq_false fun isTabulator => ?_
    exact absurd (ahead '\t' isTabulator) (by decide)
  rw [emptyLines]
  simp only [takeWhile_indentation, Option.elim_some, skipped, skip_indentation, Nat.zero_add,
    Option.all_some, noTabulator, Bool.false_eq_true, if_false, newLine?_eq_none _ _ _ leads.noBreak]

theorem emptyLines_append {breaks : List Char} (areBreaks : breaks.all isBreak = true)
    (printable : breaks.all isPrintable = true) {indent width : Nat}
    (leads : LeadsTo indent width rest) {steps : Nat} (enough : breaks.length < steps) (widest : Nat) :
    ∃ lastWidest lastLine lastIndex,
      (⟨breaks ++ (indentation width ++ rest), line, 0, index⟩ : Cursor).emptyLines (some indent)
          steps widest =
        some (breaks, lastWidest, ⟨rest, lastLine, width, lastIndex⟩) := by
  induction breaks generalizing line index steps widest with
  | nil =>
      obtain ⟨steps, rfl⟩ := Nat.exists_eq_add_of_lt enough
      exact ⟨_, _, _, emptyLines_indentation line index leads _ widest⟩
  | cons c breaks inductionHypothesis =>
      obtain ⟨steps, rfl⟩ := Nat.exists_eq_add_of_lt enough
      rw [List.all_cons, Bool.and_eq_true] at areBreaks printable
      obtain ⟨lastWidest, lastLine, lastIndex, read⟩ :=
        @inductionHypothesis (line + 1) (index + 1) areBreaks.2 printable.2
          (breaks.length + 1 + steps) (by omega) widest
      refine ⟨lastWidest, lastLine, lastIndex, ?_⟩
      have notSpace : c ≠ ' ' := by
        rintro rfl
        exact absurd areBreaks.1 (by decide)
      have notTabulator : c ≠ '\t' := by
        rintro rfl
        exact absurd areBreaks.1 (by decide)
      have noSpaces : (c :: (breaks ++ (indentation width ++ rest))).takeWhile (· = ' ') = [] :=
        List.takeWhile_cons_of_neg (by simpa using notSpace)
      have noTabulator : (⟨c :: (breaks ++ (indentation width ++ rest)), line, 0, index⟩ :
          Cursor).sees '\t' = false := by
        simpa [sees] using notTabulator
      rw [List.cons_append, emptyLines]
      simp only [noSpaces, List.length_nil, Option.elim_some, Nat.zero_min]
      simp only [skip, onLine, List.drop_zero, Nat.add_zero, Nat.max_zero, noTabulator,
        Bool.and_false, Bool.false_eq_true, if_false,
        newLine?_of_isPrintable _ _ _ areBreaks.1 printable.1]
      rw [List.length_cons, read]
      rfl

/-- Where no indentation is said, the first line sets it. -/
theorem emptyLines_first {c : Char} (printable : isPrintable c = true) (notSpace : isSpace c = false)
    (notBreak : isBreak c = false) (width steps : Nat) :
    (⟨indentation width ++ c :: rest, line, 0, index⟩ : Cursor).emptyLines none (steps + 1) 0 =
      some ([], width, ⟨c :: rest, line, width, index + width⟩) := by
  have noSpaces : (c :: rest).takeWhile (· = ' ') = [] :=
    List.takeWhile_cons_of_neg (by simpa [isSpace] using notSpace)
  have noTabulator : (⟨c :: rest, line, width, index + width⟩ : Cursor).sees '\t' = false := by
    refine decide_eq_false ?_
    rintro ⟨⟩
    exact absurd printable (by decide)
  have noBreak : NoneAhead isBreak (c :: rest) := noneAhead_cons.2 notBreak
  have widthLength : (indentation width).length = width := List.length_replicate
  rw [emptyLines]
  simp only [takeWhile_indentation, noSpaces, List.append_nil, Option.elim_none, widthLength,
    skip_indentation, Nat.zero_add, Nat.zero_max, Option.all_none, noTabulator, Bool.and_false,
    Bool.false_eq_true, if_false, newLine?_eq_none _ _ _ noBreak]

/-! ## Lines -/

theorem blockLines_outside {indent width : Nat} (outside : width < indent) (style : ScalarStyle)
    (chomping : Chomping) (breaks : BlockBreaks) (afterBlank : Bool) (steps : Nat) :
    (⟨rest, line, width, index⟩ : Cursor).blockLines style chomping indent (steps + 1) breaks
        afterBlank =
      some (breaks.chomp chomping, ⟨rest, line, width, index⟩) := by
  rw [blockLines]
  rcases rest with _ | ⟨c, rest⟩
  · rfl
  · exact if_pos (Nat.ne_of_lt outside)

/-- A line, the breaks behind it and the indentation of what comes next. -/
theorem blockLines_line {c : Char} {word breaks : List Char} {first : Char}
    (solid : (c :: word).all (!isBreak ·) = true) (areBreaks : (first :: breaks).all isBreak = true)
    (printable : (first :: breaks).all isPrintable = true) {indent width : Nat}
    (leads : LeadsTo indent width rest) (chomping : Chomping) (before : BlockBreaks)
    (afterBlank : Bool) (steps : Nat) :
    ∃ nextLine nextIndex,
      (⟨c :: word ++ first :: (breaks ++ (indentation width ++ rest)), line, indent, index⟩ :
          Cursor).blockLines .literal chomping indent (steps + 1) before afterBlank =
        ((⟨rest, nextLine, width, nextIndex⟩ : Cursor).blockLines .literal chomping indent steps
          ⟨some first, breaks⟩ (isBlank c)).bind fun (text, last) =>
            some (before.first.toList ++ before.more ++ (c :: word) ++ text, last) := by
  rw [List.all_cons, Bool.and_eq_true] at areBreaks printable
  obtain ⟨widest, nextLine, nextIndex, crossed⟩ :=
    @emptyLines_append rest (line + 1) (index + (word.length + 1) + 1) breaks areBreaks.2 printable.2
      _ _ leads ((breaks ++ (indentation width ++ rest)).length + 1)
      (by rw [List.length_append]; omega) 0
  refine ⟨nextLine, nextIndex, ?_⟩
  have stops : NoneAhead (!isBreak ·) (first :: (breaks ++ (indentation width ++ rest))) :=
    noneAhead_cons.2 (by simp [areBreaks.1])
  rw [blockLines]
  simp only [next?]
  rw [span_append line indent index solid stops]
  simp only [List.cons_append, List.head?_cons, ne_eq, not_true_eq_false, if_false,
    newLine?_of_isPrintable _ _ _ areBreaks.1 printable.1, List.length_cons]
  rw [crossed]
  rfl

/-- The lines of a text, and the breaks behind it as far as they are kept. -/
theorem blockLines_text {text : List Char} (printable : text.all isPrintable = true)
    (starts : NoneAhead isBreak text) (ends : text.getLast?.any isBreak = false) (notEmpty : text ≠ [])
    {first : Char} {more : List Char} (areBreaks : (first :: more).all isBreak = true)
    (printableEnd : (first :: more).all isPrintable = true) {indent width : Nat}
    (outside : width < indent) (ahead : NoneAhead isGap rest) (chomping : Chomping)
    (before : BlockBreaks) (afterBlank : Bool) {steps : Nat} (enough : text.length < steps) :
    ∃ lastLine lastIndex,
      (⟨blockBody indent false text ++ first :: (more ++ (indentation width ++ rest)), line, indent,
          index⟩ : Cursor).blockLines .literal chomping indent steps before afterBlank =
        some (before.first.toList ++ before.more ++ text ++ BlockBreaks.chomp ⟨some first, more⟩ chomping,
          ⟨rest, lastLine, width, lastIndex⟩) := by
  -- A word is a line and a gap the breaks behind it, which are taken over to the next line.
  induction text using words_induction isBreak generalizing line index before afterBlank steps with
  | word word solid =>
      rcases word with _ | ⟨c, word⟩
      · exact absurd rfl notEmpty
      obtain ⟨steps, rfl⟩ := Nat.exists_eq_add_of_lt enough
      have endOfBlock : LeadsTo indent width rest :=
        ⟨ahead.mono fun c breaks => by rw [isGap, breaks, Bool.or_true], Nat.le_of_lt outside,
          fun _ => ahead⟩
      obtain ⟨lastLine, lastIndex, lineRead⟩ :=
        @blockLines_line rest line index c word more first solid areBreaks printableEnd _ _ endOfBlock
          chomping before afterBlank (word.length + steps + 1)
      have written := blockBody_line indent solid []
      rw [List.append_nil, blockBody, List.append_nil] at written
      refine ⟨lastLine, lastIndex, ?_⟩
      rw [written, List.length_cons, Nat.add_right_comm word.length 1 steps, lineRead,
        blockLines_outside _ _ outside]
      rfl
  | more word gap behind solid gaps gapNotEmpty startsBehind inductionHypothesis =>
      rcases gap with _ | ⟨b, gap⟩
      · exact absurd rfl gapNotEmpty
      rcases word with _ | ⟨c, word⟩
      · rw [List.all_cons, Bool.and_eq_true] at gaps
        exact absurd (noneAhead_cons.1 starts) (by simp [gaps.1])
      have behindNotEmpty : behind ≠ [] := by
        rintro rfl
        rw [List.append_nil, List.getLast?_append_of_ne_nil _ gapNotEmpty,
          List.getLast?_eq_some_getLast gapNotEmpty] at ends
        have isLast := List.all_eq_true.1 gaps _ (List.getLast_mem gapNotEmpty)
        exact Bool.false_ne_true (ends.symm.trans isLast)
      obtain ⟨steps, rfl⟩ := Nat.exists_eq_add_of_lt enough
      rw [List.all_append, List.all_append, Bool.and_eq_true, Bool.and_eq_true] at printable
      have endsBehind : behind.getLast?.any isBreak = false := by
        rwa [← List.append_assoc, List.getLast?_append_of_ne_nil _ behindNotEmpty] at ends
      have toNextLine : LeadsTo indent indent
          (blockBody indent false behind ++ first :: (more ++ (indentation width ++ rest))) :=
        ⟨noneAhead_blockBody indent startsBehind behindNotEmpty _, Nat.le_refl _,
          fun inside => absurd inside (Nat.lt_irrefl _)⟩
      obtain ⟨nextLine, nextIndex, lineRead⟩ :=
        @blockLines_line _ line index c word gap b solid gaps printable.2.1 _ _ toNextLine chomping
          before afterBlank ((c :: word ++ (b :: gap ++ behind)).length + steps)
      obtain ⟨lastLine, lastIndex, read⟩ :=
        @inductionHypothesis nextLine nextIndex printable.2.2 startsBehind endsBehind behindNotEmpty
          ⟨some b, gap⟩ (isBlank c) ((c :: word ++ (b :: gap ++ behind)).length + steps)
          (by simp only [List.length_append, List.length_cons]; omega)
      refine ⟨lastLine, lastIndex, ?_⟩
      have written : blockBody indent false (c :: word ++ (b :: gap ++ behind)) ++
            first :: (more ++ (indentation width ++ rest)) =
          c :: word ++ b :: (gap ++ (indentation indent ++ (blockBody indent false behind ++
            first :: (more ++ (indentation width ++ rest))))) := by
        rw [blockBody_line indent solid,
          blockBody_gap indent gaps gapNotEmpty startsBehind behindNotEmpty]
        simp only [List.append_assoc, List.cons_append]
      rw [written, lineRead, read]
      simp

end Cursor

/-! ## The head of a block -/

/-- The text begins with a gap, so that its indentation has to be said. -/
def beginsWithGap (text : List Char) : Bool :=
  text.head?.any fun c => isSpace c || isBreak c

/-- What the head of a block says about the breaks at the end of the text. -/
def blockChomping (text : List Char) : Chomping :=
  match text.reverse with
  | [] => .strip
  | last :: before =>
    if !isBreak last then .strip else if before.head?.all isBreak then .keep else .clip

/-- The sign of a chomping. The common one has none. -/
def Chomping.sign : Chomping → List Char
  | .strip => ['-']
  | .clip => []
  | .keep => ['+']

theorem blockHints_eq (text : List Char) :
    blockHints text =
      (if beginsWithGap text then ['2'] else []) ++ (blockChomping text).sign := by
  rw [blockHints, blockChomping, ← beginsWithGap]
  congr 1
  rcases text.reverse with _ | ⟨last, before⟩
  · rfl
  · simp only
    split
    next => rfl
    split <;> rfl

theorem blockHead?_blockHints (text rest : List Char) :
    blockHead? (blockHints text ++ '\n' :: rest) =
      some (blockChomping text, if beginsWithGap text then some 2 else none,
        (blockHints text).length) := by
  rw [blockHints_eq]
  cases beginsWithGap text <;> cases blockChomping text <;> cases rest <;> rfl

/-! ## Breaks at the end -/

/-- A text is a text without breaks at its end, and breaks. -/
theorem exists_breaks (text : List Char) :
    ∃ before breaks : List Char, text = before ++ breaks ∧ breaks.all isBreak = true ∧
      before.getLast?.any isBreak = false := by
  induction text using List.reverseRecOn with
  | nil =>
      exact ⟨[], [], rfl, rfl, rfl⟩
  | append_singleton init last inductionHypothesis =>
      cases isLast : isBreak last with
      | false =>
          exact ⟨init ++ [last], [], (List.append_nil _).symm, rfl, by simp [isLast]⟩
      | true =>
          obtain ⟨before, breaks, rfl, areBreaks, ends⟩ := inductionHypothesis
          exact ⟨before, breaks ++ [last], List.append_assoc _ _ _, by simp [areBreaks, isLast], ends⟩

theorem getLast?_append_any {breaks : List Char} (areBreaks : breaks.all isBreak = true)
    (notEmpty : breaks ≠ []) (before : List Char) :
    (before ++ breaks).getLast?.any isBreak = true ∧
      (before ++ breaks).getLast?.all isBreak = true := by
  rw [List.getLast?_append_of_ne_nil _ notEmpty, List.getLast?_eq_some_getLast notEmpty]
  have isLast := List.all_eq_true.1 areBreaks _ (List.getLast_mem notEmpty)
  exact ⟨isLast, isLast⟩

theorem blockChomping_concat {last : Char} (breaks : isBreak last = true) (init : List Char) :
    blockChomping (init ++ [last]) = if init.getLast?.all isBreak then .keep else .clip := by
  rw [blockChomping, List.reverse_concat]
  simp [breaks]

/-- The breaks that stand at the end of a block: the text's own, or one that ends its last line. -/
def closingBreaks (breaks : List Char) : List Char :=
  if breaks.isEmpty then ['\n'] else breaks

theorem exists_blockBody_concat (indent : Nat) (init : List Char) {last : Char}
    (notBreak : isBreak last = false) (atStart : Bool) :
    ∃ before, blockBody indent atStart (init ++ [last]) = before ++ [last] := by
  induction init generalizing atStart with
  | nil =>
      exact ⟨if atStart then indentation indent else [], by simp [blockBody, notBreak]⟩
  | cons c init inductionHypothesis =>
      rw [List.cons_append, blockBody]
      split
      next =>
          obtain ⟨before, written⟩ := inductionHypothesis true
          exact ⟨c :: before, by rw [written, List.cons_append]⟩
      next =>
          obtain ⟨before, written⟩ := inductionHypothesis false
          exact ⟨_, by rw [written, ← List.cons_append, ← List.append_assoc]⟩

theorem endLine_blockBody (indent : Nat) {before breaks : List Char} (notEmpty : before ++ breaks ≠ [])
    (areBreaks : breaks.all isBreak = true) (ends : before.getLast?.any isBreak = false) :
    endLine (blockBody indent true (before ++ breaks)) =
      blockBody indent true before ++ closingBreaks breaks := by
  rw [blockBody_append_breaks indent before areBreaks, endLine, closingBreaks]
  rcases breaks with _ | ⟨c, breaks⟩
  · rw [List.append_nil] at notEmpty
    rcases before.eq_nil_or_concat with rfl | ⟨init, last, rfl⟩
    · exact absurd rfl notEmpty
    · have notBreak : isBreak last = false := by simpa using ends
      obtain ⟨start, written⟩ := exists_blockBody_concat indent init notBreak true
      rw [List.concat_eq_append, written]
      simp [notBreak]
  · have isLast :=
      getLast?_append_any areBreaks (List.cons_ne_nil c breaks) (blockBody indent true before)
    rw [if_pos isLast.1]
    rfl

theorem chomp_blockChomping {before breaks more : List Char} {first : Char}
    (areBreaks : breaks.all isBreak = true) (ends : before.getLast?.any isBreak = false)
    (written : closingBreaks breaks = first :: more) :
    BlockBreaks.chomp ⟨some first, more⟩ (blockChomping (before ++ breaks)) = breaks := by
  rcases breaks.eq_nil_or_concat with rfl | ⟨init, last, rfl⟩
  · rcases before.eq_nil_or_concat with rfl | ⟨init, last, rfl⟩
    · rfl
    · rw [List.concat_eq_append] at ends
      have notBreak : isBreak last = false := by simpa using ends
      rw [List.append_nil, List.concat_eq_append, blockChomping, List.reverse_concat]
      simp [notBreak, BlockBreaks.chomp]
  · have own : init ++ [last] = first :: more := by simpa [closingBreaks] using written
    rw [List.concat_eq_append, List.all_append, Bool.and_eq_true] at areBreaks
    have isLast : isBreak last = true := by simpa using areBreaks.2
    rw [List.concat_eq_append, ← List.append_assoc, blockChomping_concat isLast]
    split
    next => exact own.symm
    next single =>
        have isSingle : init = [] := by
          by_contra notEmpty
          exact single (getLast?_append_any areBreaks.1 notEmpty before).2
        subst isSingle
        cases own
        rfl

/-! ## Blocks -/

namespace Cursor

variable {rest body : List Char} {outer width : Nat}

theorem restOfLine_feed (line column index : Nat) :
    (⟨'\n' :: rest, line, column, index⟩ : Cursor).restOfLine =
      some ⟨rest, line + 1, 0, index + 1⟩ := by
  have noBlank : NoneAhead isBlank ('\n' :: rest) := noneAhead_cons.2 rfl
  rw [restOfLine, skipAll, span_of_noneAhead line column index noBlank]
  rfl

/-- The lines below the head of a block, whose indentation is two columns. -/
theorem block_body {text : List Char} {breaks : List Char} {widest line column index : Nat}
    {first : Cursor}
    (crossed : (⟨body, line + 1, 0, index + (blockHints text).length + 1⟩ : Cursor).emptyLines
      (if beginsWithGap text then some (outer + 2) else none) (body.length + 1) 0 =
        some (breaks, widest, first))
    (setsIndent : beginsWithGap text = false → widest = outer + 2) :
    (⟨blockHints text ++ '\n' :: body, line, column, index⟩ : Cursor).block .literal (some outer) =
      first.blockLines .literal (blockChomping text) (outer + 2) (body.length + 1) ⟨none, breaks⟩
        false := by
  have head : (⟨blockHints text ++ '\n' :: body, line, column, index⟩ : Cursor).skip
      (blockHints text).length =
        ⟨'\n' :: body, line, column + (blockHints text).length, index + (blockHints text).length⟩ := by
    simp [skip, onLine]
  rw [block, blockHead?_blockHints]
  simp only [Option.bind_eq_bind, Option.bind_some, head, restOfLine_feed]
  cases withGap : beginsWithGap text with
  | true =>
      rw [withGap, if_pos rfl] at crossed
      simp only [if_true, Option.map_some, Option.getD_some, crossed, Option.bind_some, Option.elim_some]
  | false =>
      rw [withGap, if_neg Bool.false_ne_true] at crossed
      have indent : max (max widest (outer + 1)) 1 = outer + 2 := by
        have isWidest := setsIndent withGap
        omega
      simp only [Bool.false_eq_true, if_false, Option.map_none, crossed, Option.bind_some,
        Option.elim_none, Option.elim_some, indent]

/-- A text of nothing but breaks. -/
theorem block_breaks {text : List Char} (areBreaks : text.all isBreak = true)
    (printable : text.all isPrintable = true) (notEmpty : text ≠ []) (outside : width ≤ outer)
    (ahead : NoneAhead isGap rest) (line column index : Nat) :
    ∃ lastLine lastIndex,
      (⟨blockHints text ++ '\n' :: (text ++ (indentation width ++ rest)), line, column, index⟩ :
          Cursor).block .literal (some outer) =
        some (text, ⟨rest, lastLine, width, lastIndex⟩) := by
  have withGap : beginsWithGap text = true := by
    rcases text with _ | ⟨c, text⟩
    · exact absurd rfl notEmpty
    · rw [List.all_cons, Bool.and_eq_true] at areBreaks
      simp [beginsWithGap, areBreaks.1]
  have chomping : blockChomping text = .keep := by
    rcases text.eq_nil_or_concat with rfl | ⟨init, last, rfl⟩
    · exact absurd rfl notEmpty
    · rw [List.concat_eq_append, List.all_append, Bool.and_eq_true] at areBreaks
      rw [List.concat_eq_append, blockChomping_concat (by simpa using areBreaks.2), if_pos]
      cases isLast : init.getLast? with
      | none => rfl
      | some c => exact List.all_eq_true.1 areBreaks.1 c (List.mem_of_getLast? isLast)
  have leads : LeadsTo (outer + 2) width rest :=
    ⟨ahead.mono fun c breaks => by rw [isGap, breaks, Bool.or_true], by omega, fun _ => ahead⟩
  obtain ⟨widest, lastLine, lastIndex, crossed⟩ :=
    @emptyLines_append rest (line + 1) (index + (blockHints text).length + 1) text areBreaks printable
      _ _ leads ((text ++ (indentation width ++ rest)).length + 1) (by rw [List.length_append]; omega) 0
  refine ⟨lastLine, lastIndex, ?_⟩
  have setsIndent : beginsWithGap text = false → widest = outer + 2 := fun noGap =>
    absurd (noGap.symm.trans withGap) Bool.false_ne_true
  rw [block_body (by rw [if_pos withGap]; exact crossed) setsIndent,
    blockLines_outside _ _ (by omega), chomping]
  rfl

theorem beginsWithGap_append {before : List Char} (notEmpty : before ≠ []) (after : List Char) :
    beginsWithGap (before ++ after) = beginsWithGap before := by
  rcases before with _ | ⟨c, before⟩
  · exact absurd rfl notEmpty
  · rfl

/-- Empty lines at the beginning, and the indentation of the first line behind them. -/
theorem emptyLines_start {lead inner after : List Char} (areBreaks : lead.all isBreak = true)
    (printable : (lead ++ inner).all isPrintable = true) (starts : NoneAhead isBreak inner)
    (notEmpty : inner ≠ []) (indent line index steps : Nat) (enough : lead.length < steps) :
    ∃ widest lastLine lastIndex,
      (⟨blockBody indent true (lead ++ inner) ++ after, line, 0, index⟩ : Cursor).emptyLines
          (if beginsWithGap (lead ++ inner) then some indent else none) steps 0 =
        some (lead, widest, ⟨blockBody indent false inner ++ after, lastLine, indent, lastIndex⟩) ∧
      (beginsWithGap (lead ++ inner) = false → widest = indent) := by
  rw [List.all_append, Bool.and_eq_true] at printable
  rw [blockBody_breaks indent areBreaks, blockBody_start indent starts notEmpty, List.append_assoc,
    List.append_assoc]
  cases withGap : beginsWithGap (lead ++ inner) with
  | true =>
      have leads : LeadsTo indent indent (blockBody indent false inner ++ after) :=
        ⟨noneAhead_blockBody indent starts notEmpty after, Nat.le_refl _,
          fun inside => absurd inside (Nat.lt_irrefl _)⟩
      obtain ⟨widest, lastLine, lastIndex, crossed⟩ :=
        emptyLines_append line index areBreaks printable.1 leads enough 0
      exact ⟨widest, lastLine, lastIndex, by rw [if_pos rfl, crossed], fun noGap =>
        absurd noGap.symm Bool.false_ne_true⟩
  | false =>
      obtain rfl : lead = [] := by
        rcases lead with _ | ⟨c, lead⟩
        · rfl
        · rw [List.all_cons, Bool.and_eq_true] at areBreaks
          simp [beginsWithGap, areBreaks.1] at withGap
      rcases inner with _ | ⟨c, inner⟩
      · exact absurd rfl notEmpty
      obtain ⟨steps, rfl⟩ := Nat.exists_eq_add_of_lt enough
      have notBreak := noneAhead_cons.1 starts
      have notSpace : isSpace c = false := by
        simp only [List.nil_append, beginsWithGap, List.head?_cons, Option.any_some,
          Bool.or_eq_false_iff] at withGap
        exact withGap.1
      rw [List.all_cons, Bool.and_eq_true] at printable
      have written : blockBody indent false (c :: inner) = c :: blockBody indent false inner := by
        rw [blockBody, notBreak]
        rfl
      refine ⟨indent, line, index + indent, ?_, fun _ => rfl⟩
      rw [written, if_neg Bool.false_ne_true, List.nil_append, List.cons_append,
        emptyLines_first line index printable.2.1 notSpace notBreak]

theorem closingBreaks_areBreaks {breaks : List Char} (areBreaks : breaks.all isBreak = true)
    (printable : breaks.all isPrintable = true) :
    (closingBreaks breaks).all isBreak = true ∧ (closingBreaks breaks).all isPrintable = true := by
  rw [closingBreaks]
  split
  next => exact ⟨rfl, rfl⟩
  next => exact ⟨areBreaks, printable⟩

/-- A text with other lines than empty ones, and the breaks at its end. -/
theorem block_lines {before breaks more : List Char} {first : Char} (notEmpty : before ≠ [])
    (areBreaks : breaks.all isBreak = true) (ends : before.getLast?.any isBreak = false)
    (printable : (before ++ breaks).all isPrintable = true)
    (closing : closingBreaks breaks = first :: more) (outside : width ≤ outer)
    (ahead : NoneAhead isGap rest) (line column index : Nat) :
    ∃ lastLine lastIndex,
      (⟨blockHints (before ++ breaks) ++ '\n' :: (blockBody (outer + 2) true before ++
          first :: (more ++ (indentation width ++ rest))), line, column, index⟩ :
          Cursor).block .literal (some outer) =
        some (before ++ breaks, ⟨rest, lastLine, width, lastIndex⟩) := by
  obtain ⟨lead, inner, rfl, leadBreaks, starts⟩ : ∃ lead inner : List Char,
      before = lead ++ inner ∧ lead.all isBreak = true ∧ NoneAhead isBreak inner :=
    ⟨_, _, List.takeWhile_append_dropWhile.symm, List.all_takeWhile, noneAhead_dropWhile isBreak before⟩
  have innerNotEmpty : inner ≠ [] := by
    rintro rfl
    rw [List.append_nil] at notEmpty ends
    have isLast := (getLast?_append_any leadBreaks notEmpty []).1
    exact Bool.false_ne_true (ends.symm.trans isLast)
  have endsInner : inner.getLast?.any isBreak = false := by
    rwa [List.getLast?_append_of_ne_nil _ innerNotEmpty] at ends
  rw [List.all_append, Bool.and_eq_true] at printable
  have innerPrintable : inner.all isPrintable = true := by
    have both := printable.1
    rw [List.all_append, Bool.and_eq_true] at both
    exact both.2
  have length := length_le_blockBody (outer + 2) (lead ++ inner) true
  rw [List.length_append] at length
  have closes := closingBreaks_areBreaks areBreaks printable.2
  rw [closing] at closes
  obtain ⟨widest, startLine, startIndex, crossed, setsIndent⟩ :=
    @emptyLines_start lead inner (first :: (more ++ (indentation width ++ rest))) leadBreaks printable.1
      starts innerNotEmpty (outer + 2) (line + 1)
      (index + (blockHints (lead ++ inner ++ breaks)).length + 1)
      ((blockBody (outer + 2) true (lead ++ inner) ++
        first :: (more ++ (indentation width ++ rest))).length + 1)
      (by rw [List.length_append]; omega)
  have sameStart := beginsWithGap_append notEmpty breaks
  obtain ⟨lastLine, lastIndex, read⟩ :=
    @blockLines_text rest startLine startIndex inner innerPrintable starts endsInner innerNotEmpty first
      more closes.1 closes.2 (outer + 2) width (by omega) ahead
      (blockChomping (lead ++ inner ++ breaks)) ⟨none, lead⟩ false
      ((blockBody (outer + 2) true (lead ++ inner) ++
        first :: (more ++ (indentation width ++ rest))).length + 1)
      (by rw [List.length_append]; omega)
  refine ⟨lastLine, lastIndex, ?_⟩
  rw [block_body (by rw [sameStart]; exact crossed) (by rw [sameStart]; exact setsIndent), read,
    chomp_blockChomping areBreaks ends closing]
  rfl

/-- A text in a block is read up to the next line, which begins to the left of the block. -/
theorem block_read {text : List Char} (printable : text.all isPrintable = true) (notEmpty : text ≠ [])
    (outside : width ≤ outer) (ahead : NoneAhead isGap rest) (line column index : Nat) :
    ∃ lastLine lastIndex,
      (⟨blockHints text ++ '\n' :: (endLine (blockBody (outer + 2) true text) ++
          (indentation width ++ rest)), line, column, index⟩ : Cursor).block .literal (some outer) =
        some (text, ⟨rest, lastLine, width, lastIndex⟩) := by
  obtain ⟨before, breaks, rfl, areBreaks, ends⟩ := exists_breaks text
  rw [endLine_blockBody (outer + 2) notEmpty areBreaks ends]
  rcases before with _ | ⟨c, before⟩
  · have own : closingBreaks breaks = breaks := by
      rw [closingBreaks, if_neg]
      rwa [List.isEmpty_iff]
    rw [own]
    exact block_breaks areBreaks printable notEmpty outside ahead line column index
  · obtain ⟨first, more, closing⟩ : ∃ first more, closingBreaks breaks = first :: more := by
      rcases breaks with _ | ⟨b, breaks⟩
      · exact ⟨_, _, rfl⟩
      · exact ⟨_, _, rfl⟩
    rw [closing, List.append_assoc]
    exact block_lines (List.cons_ne_nil c before) areBreaks ends printable closing outside ahead line
      column index

end Cursor

end ContentTyping.Yaml

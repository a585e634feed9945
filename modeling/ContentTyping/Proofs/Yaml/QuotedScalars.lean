import ContentTyping.Proofs.Text.Digits
import ContentTyping.Proofs.Text.Utf8
import ContentTyping.Proofs.Yaml.Words

/-!
# Quoted scalars are read back

What is written between single or double quotes is read as the text that it was written for.
-/

namespace ContentTyping.Yaml

/-! ## Words in quotes -/

namespace Cursor

/-- The word that comes next in quotes. -/
def quotedWord? (quote : Char) (cursor : Cursor) : Option QuotedWord :=
  if quote = '\'' then some (singleQuotedWord cursor.rest)
  else doubleQuotedWord (cursor.rest.length + 1) cursor.rest

variable {cursor next : Cursor} {quote : Char} {word rest : List Char} {count : Nat}

theorem quoted_word (notFirst : cursor.column ≠ 0)
    (read : cursor.quotedWord? quote = some ⟨word, count, rest, .here⟩) (steps : Nat) :
    cursor.quoted quote (steps + 1) =
      let after := cursor.onLine count rest
      if after.sees quote then some (word, after.skip 1)
      else if rest.isEmpty then none
      else
        (after.gap 0 (rest.length + 1) (.blanks [])).bind fun (gap, next) =>
          (next.quoted quote steps).bind fun (more, last) => some (word ++ gap.text ++ more, last) := by
  rw [quoted, atDocumentMarker_of_column notFirst]
  simp only [Bool.false_eq_true, if_false]
  rw [quotedWord?] at read
  split at read
  next isSingle =>
      rw [if_pos isSingle, Option.some.inj read]
      rfl
  next isDouble =>
      rw [if_neg isDouble, read]
      rfl

theorem quoted_end (notFirst : cursor.column ≠ 0)
    (read : cursor.quotedWord? quote = some ⟨word, count, quote :: rest, .here⟩) (steps : Nat) :
    ∃ line column index,
      cursor.quoted quote (steps + 1) = some (word, ⟨rest, line, column, index⟩) := by
  refine ⟨cursor.line, cursor.column + count + 1, cursor.index + count + 1, ?_⟩
  rw [quoted_word notFirst read]
  simp [sees, onLine, skip]

theorem quoted_gap (notFirst : cursor.column ≠ 0)
    (read : cursor.quotedWord? quote = some ⟨word, count, rest, .here⟩) (goesOn : rest ≠ [])
    (notQuote : rest.head? ≠ some quote) {gap : Gap}
    (crossed : (cursor.onLine count rest).gap 0 (rest.length + 1) (.blanks []) = some (gap, next))
    (steps : Nat) :
    cursor.quoted quote (steps + 1) =
      (next.quoted quote steps).bind fun (more, last) => some (word ++ gap.text ++ more, last) := by
  rw [quoted_word notFirst read]
  have notSeen : (cursor.onLine count rest).sees quote = false :=
    decide_eq_false notQuote
  simp only [notSeen, Bool.false_eq_true, if_false, List.isEmpty_iff, goesOn, crossed, Option.bind_some]

end Cursor

/-! ## Single quotes -/

/-- A word in single quotes. -/
def quotesTwice (word : List Char) : List Char :=
  word.flatMap fun c => if c = '\'' then ['\'', '\''] else [c]

/-- The end of a word in single quotes. -/
def EndsSingle (rest : List Char) : Prop :=
  singleQuotedWord rest = ⟨[], 0, rest, .here⟩

theorem not_mem_head?_of_isGap {quote : Char} (isQuote : isGap quote = false) {gap : List Char}
    (gaps : gap.all isGap = true) (notEmpty : gap ≠ []) (rest : List Char) :
    (gap ++ rest).head? ≠ some quote := by
  rcases gap with _ | ⟨c, gap⟩
  · exact absurd rfl notEmpty
  · rw [List.all_cons, Bool.and_eq_true] at gaps
    rintro ⟨⟩
    exact Bool.false_ne_true (isQuote.symm.trans gaps.1)

theorem endsSingle_of_isGap {gap : List Char} (gaps : gap.all isGap = true) (notEmpty : gap ≠ [])
    (rest : List Char) : EndsSingle (gap ++ rest) := by
  have notQuote := @not_mem_head?_of_isGap '\'' rfl gap gaps notEmpty rest
  rcases gap with _ | ⟨c, gap⟩
  · exact absurd rfl notEmpty
  · rw [List.all_cons, Bool.and_eq_true, isGap] at gaps
    rw [List.cons_append, EndsSingle, singleQuotedWord]
    · rw [Bool.or_assoc, gaps.1, Bool.or_true, if_pos rfl]
    · intro further isQuote
      exact absurd (congrArg some isQuote) notQuote

theorem endsSingle_quote {rest : List Char} (ahead : NoneAhead (· = '\'') rest) :
    EndsSingle ('\'' :: rest) := by
  rw [EndsSingle, singleQuotedWord]
  · simp
  · intro further _ isRest
    subst isRest
    exact absurd (noneAhead_cons.1 ahead) (by decide)

theorem singleQuotedWord_append {word rest : List Char} (solid : word.all (!isGap ·) = true)
    (ends : EndsSingle rest) :
    singleQuotedWord (quotesTwice word ++ rest) =
      ⟨word, (quotesTwice word).length, rest, .here⟩ := by
  induction word with
  | nil =>
      exact ends
  | cons c word inductionHypothesis =>
      rw [List.all_cons, Bool.and_eq_true] at solid
      have read := inductionHypothesis solid.2
      by_cases isQuote : c = '\''
      · subst isQuote
        have written : quotesTwice ('\'' :: word) ++ rest =
            '\'' :: '\'' :: (quotesTwice word ++ rest) := rfl
        rw [written, singleQuotedWord, read]
        rfl
      · have written : quotesTwice (c :: word) = c :: quotesTwice word := by
          simp [quotesTwice, isQuote]
        have notGap : isBlank c = false ∧ isBreak c = false := by simpa [isGap] using solid.1
        rw [written, List.cons_append, singleQuotedWord]
        · rw [read]
          simp [isQuote, notGap]
        · intro further isQuoteToo
          exact absurd isQuoteToo isQuote

theorem singleQuotedBody_word (indent : Nat) {word : List Char} (solid : word.all (!isGap ·) = true)
    (rest : List Char) :
    singleQuotedBody indent false (word ++ rest) =
      quotesTwice word ++ singleQuotedBody indent false rest := by
  induction word with
  | nil =>
      rfl
  | cons c word inductionHypothesis =>
      rw [List.all_cons, Bool.and_eq_true] at solid
      have notBreak : isBreak c = false := by
        have notGap : isBlank c = false ∧ isBreak c = false := by simpa [isGap] using solid.1
        exact notGap.2
      rw [List.cons_append, singleQuotedBody, notBreak, inductionHypothesis solid.2]
      simp [quotesTwice]

theorem singleQuotedBody_spaces (indent : Nat) {gap : List Char} (spaces : gap.all isSpace = true)
    (rest : List Char) :
    singleQuotedBody indent false (gap ++ rest) = gap ++ singleQuotedBody indent false rest := by
  induction gap with
  | nil =>
      rfl
  | cons c gap inductionHypothesis =>
      rw [List.all_cons, Bool.and_eq_true] at spaces
      obtain rfl : c = ' ' := by simpa [isSpace] using spaces.1
      rw [List.cons_append, singleQuotedBody, inductionHypothesis spaces.2]
      rfl

/-- The indentation of a new line comes before its first word. -/
theorem singleQuotedBody_afterBreak (indent : Nat) {rest : List Char} (ahead : NoneAhead isBreak rest) :
    singleQuotedBody indent true rest = indentation indent ++ singleQuotedBody indent false rest := by
  rcases rest with _ | ⟨c, rest⟩
  · simp [singleQuotedBody]
  · have notBreak := noneAhead_cons.1 ahead
    simp [singleQuotedBody, notBreak]

theorem singleQuotedBody_breaks (indent : Nat) {gap rest : List Char} (breaks : gap.all isBreak = true)
    (notEmpty : gap ≠ []) (ahead : NoneAhead isBreak rest) :
    singleQuotedBody indent false (gap ++ rest) =
      gap ++ (indentation indent ++ singleQuotedBody indent false rest) := by
  have further (more : List Char) (areBreaks : more.all isBreak = true) :
      singleQuotedBody indent true (more ++ rest) =
        more ++ (indentation indent ++ singleQuotedBody indent false rest) := by
    induction more with
    | nil =>
        exact singleQuotedBody_afterBreak indent ahead
    | cons c more inductionHypothesis =>
        rw [List.all_cons, Bool.and_eq_true] at areBreaks
        rw [List.cons_append, singleQuotedBody, if_pos areBreaks.1, inductionHypothesis areBreaks.2]
        rfl
  rcases gap with _ | ⟨c, gap⟩
  · exact absurd rfl notEmpty
  · rw [List.all_cons, Bool.and_eq_true] at breaks
    rw [List.cons_append, singleQuotedBody, if_pos breaks.1, further gap breaks.2]
    rfl

theorem length_le_singleQuotedBody (indent : Nat) (text : List Char) (afterBreak : Bool) :
    text.length ≤ (singleQuotedBody indent afterBreak text).length := by
  induction text generalizing afterBreak with
  | nil =>
      exact Nat.zero_le _
  | cons c text inductionHypothesis =>
      rw [singleQuotedBody]
      split
      next =>
          exact Nat.succ_le_succ (inductionHypothesis true)
      next =>
          have further := inductionHypothesis false
          have written : 1 ≤ (if c = '\'' then ['\'', '\''] else [c]).length := by
            split <;> simp
          rw [List.length_append, List.length_append, List.length_cons]
          omega

/-- A text that may stand in single quotes, apart from the feeds that are written otherwise. -/
structure IsSingleQuoted (text : List Char) : Prop where
  printable : text.all isPrintable = true
  noFeed : '\n' ∉ text
  noSpaceBehind : hasNeighbours isBreak isSpace text = false
  noBreakBehind : hasNeighbours isSpace isBreak text = false

namespace IsSingleQuoted

variable {before text after : List Char}

theorem of_append (single : IsSingleQuoted (before ++ after)) :
    IsSingleQuoted before ∧ IsSingleQuoted after := by
  have printable := single.printable
  rw [List.all_append, Bool.and_eq_true] at printable
  have behindBreak := hasNeighbours_append single.noSpaceBehind
  have behindSpace := hasNeighbours_append single.noBreakBehind
  have noFeed := single.noFeed
  rw [List.mem_append, not_or] at noFeed
  exact ⟨⟨printable.1, noFeed.1, behindBreak.1, behindSpace.1⟩,
    ⟨printable.2, noFeed.2, behindBreak.2, behindSpace.2⟩⟩

theorem noneAhead_body (indent : Nat) {behind : List Char} (starts : NoneAhead isGap behind)
    (rest : List Char) :
    NoneAhead isGap (singleQuotedBody indent false behind ++ '\'' :: rest) := by
  rcases behind with _ | ⟨c, behind⟩
  · exact noneAhead_cons.2 rfl
  · have notGap := noneAhead_cons.1 starts
    have notBreak : isBreak c = false := by
      rw [isGap, Bool.or_eq_false_iff] at notGap
      exact notGap.2
    by_cases isQuote : c = '\''
    · subst isQuote
      exact noneAhead_cons.2 rfl
    · rw [singleQuotedBody, notBreak]
      simp [isQuote, noneAhead_cons, notGap]

/-- A gap is read as it is, and the indentation that was written behind its breaks is left out. -/
theorem exists_gap {gap behind : List Char} (single : IsSingleQuoted gap)
    (gaps : gap.all isGap = true) (notEmpty : gap ≠ []) (starts : NoneAhead isGap behind)
    {indent : Nat} (indented : indent ≠ 0) (rest : List Char) (line column index : Nat) :
    ∃ pad read lastLine lastColumn lastIndex,
      singleQuotedBody indent false (gap ++ behind) =
        gap ++ (pad ++ singleQuotedBody indent false behind) ∧
      (∀ steps, gap.length < steps →
        (⟨gap ++ (pad ++ (singleQuotedBody indent false behind ++ '\'' :: rest)), line, column,
            index⟩ : Cursor).gap 0 steps (.blanks []) =
          some (read, ⟨singleQuotedBody indent false behind ++ '\'' :: rest, lastLine, lastColumn,
            lastIndex⟩)) ∧
      read.text = gap ∧ lastColumn ≠ 0 := by
  have ahead := noneAhead_body indent starts rest
  have kinds : gap.all (fun c => isSpace c || isBreak c) = true := by
    refine List.all_eq_true.2 fun c member => ?_
    have kind := List.all_eq_true.1 gaps c member
    rw [isGap, Bool.or_eq_true] at kind
    rw [Bool.or_eq_true]
    exact kind.imp_left
      (isSpace_of_isPrintable (List.all_eq_true.1 single.printable c member))
  rcases isSpace_or_isBreak_of_not_neighbours kinds single.noSpaceBehind single.noBreakBehind with
    spaces | breaks
  · refine ⟨[], .blanks gap, line, column + gap.length, index + gap.length,
      singleQuotedBody_spaces indent spaces behind, fun steps enough => ?_, rfl, ?_⟩
    · obtain ⟨steps, rfl⟩ := Nat.exists_eq_add_of_lt enough
      exact Cursor.gap_spaces line column index spaces ahead 0 _ (.blanks [])
    · have positive := List.length_pos_iff.2 notEmpty
      omega
  · rcases gap with _ | ⟨c, more⟩
    · exact absurd rfl notEmpty
    have notFeed : c ≠ '\n' := by
      rintro rfl
      exact single.noFeed List.mem_cons_self
    have noBreak : NoneAhead isBreak behind :=
      starts.mono fun c breaks => by rw [isGap, breaks, Bool.or_true]
    refine ⟨indentation indent, .lines (some c) more, _, _, _,
      singleQuotedBody_breaks indent breaks notEmpty noBreak,
      fun steps enough => Cursor.gap_lines line column index breaks single.printable
        (by simp [indentation, isSpace]) ahead 0 enough, ?_, ?_⟩
    · rw [Gap.text]
      · rfl
      · rintro ⟨⟩
        exact absurd rfl notFeed
      · rintro ⟨⟩
        exact absurd rfl notFeed
    · simpa [indentation] using indented

theorem read (single : IsSingleQuoted text) {indent : Nat} (indented : indent ≠ 0)
    {rest : List Char} (ahead : NoneAhead (· = '\'') rest) {line column index steps : Nat}
    (notFirst : column ≠ 0) (enough : text.length < steps) :
    ∃ lastLine lastColumn lastIndex,
      (⟨singleQuotedBody indent false text ++ '\'' :: rest, line, column, index⟩ : Cursor).quoted
          '\'' steps =
        some (text, ⟨rest, lastLine, lastColumn, lastIndex⟩) := by
  induction text using words_induction isGap generalizing line column index steps with
  | word word solid =>
      obtain ⟨steps, rfl⟩ := Nat.exists_eq_add_of_lt enough
      have written := singleQuotedBody_word indent solid []
      rw [List.append_nil] at written
      rw [written, singleQuotedBody, if_neg Bool.false_ne_true, List.append_nil]
      apply Cursor.quoted_end notFirst
      rw [Cursor.quotedWord?, if_pos rfl, singleQuotedWord_append solid (endsSingle_quote ahead)]
  | more word gap behind solid gaps gapNotEmpty starts inductionHypothesis =>
      obtain ⟨steps, rfl⟩ := Nat.exists_eq_add_of_lt enough
      have singleBehind := single.of_append.2
      obtain ⟨pad, found, gapLine, gapColumn, gapIndex, written, crossed, text, notFirstNext⟩ :=
        singleBehind.of_append.1.exists_gap gaps gapNotEmpty starts indented rest line
          (column + (quotesTwice word).length) (index + (quotesTwice word).length)
      have gapLength := List.length_pos_iff.2 gapNotEmpty
      have stepsLeft : behind.length < (word ++ (gap ++ behind)).length + steps := by
        rw [List.length_append, List.length_append]
        omega
      obtain ⟨lastLine, lastColumn, lastIndex, read⟩ :=
        @inductionHypothesis singleBehind.of_append.2 gapLine gapColumn gapIndex _ notFirstNext stepsLeft
      refine ⟨lastLine, lastColumn, lastIndex, ?_⟩
      have words : singleQuotedBody indent false (word ++ (gap ++ behind)) ++ '\'' :: rest =
          quotesTwice word ++
            (gap ++ (pad ++ (singleQuotedBody indent false behind ++ '\'' :: rest))) := by
        rw [singleQuotedBody_word indent solid, written, List.append_assoc, List.append_assoc,
          List.append_assoc]
      generalize pad ++ (singleQuotedBody indent false behind ++ '\'' :: rest) = after at words crossed
      have wordRead : (⟨quotesTwice word ++ (gap ++ after), line, column, index⟩ : Cursor).quotedWord?
          '\'' = some ⟨word, (quotesTwice word).length, gap ++ after, .here⟩ :=
        congrArg some (singleQuotedWord_append solid (endsSingle_of_isGap gaps gapNotEmpty after))
      rw [words, Cursor.quoted_gap notFirst wordRead (List.append_ne_nil_of_left_ne_nil gapNotEmpty after)
        (not_mem_head?_of_isGap rfl gaps gapNotEmpty after)
        (crossed _ (by rw [List.length_append]; omega)), read, Option.bind_some, text,
        ← List.append_assoc]

end IsSingleQuoted

/-! ## Escapes -/

theorem hexValue?_toUpper_hexDigit {value : Nat} (small : value < 16) :
    Text.hexValue? (Text.hexDigit value).toUpper = some value := by
  have each : ∀ value < 16, Text.hexValue? (Text.hexDigit value).toUpper = some value := by decide
  exact each value small

/-- The digits of a number are worth the number, as far as there are places for it. -/
theorem mapM_hexValue?_hexDigits (width value : Nat) :
    ∃ values, ((Text.hexDigits width value).map Char.toUpper).mapM Text.hexValue? = some values ∧
      ∀ start, values.foldl (fun n digit => n * 16 + digit) start =
        start * 16 ^ width + value % 16 ^ width := by
  induction width with
  | zero =>
      exact ⟨[], rfl, fun start => by simp [Nat.mod_one]⟩
  | succ width inductionHypothesis =>
      obtain ⟨values, read, worth⟩ := inductionHypothesis
      have digit : value / 16 ^ width % 16 < 16 := Nat.mod_lt _ (by decide)
      refine ⟨value / 16 ^ width % 16 :: values, ?_, fun start => ?_⟩
      · rw [Text.hexDigits, List.map_cons, List.mapM_cons, Nat.pow_eq, hexValue?_toUpper_hexDigit digit,
          read]
        rfl
      · rw [List.foldl_cons, worth, Nat.mod_pow_succ, Nat.pow_succ, Nat.add_mul, Nat.mul_assoc,
          Nat.mul_comm 16, Nat.mul_comm (16 ^ width) (_ % 16)]
        omega

theorem charOfHex?_hexDigits {c : Char} {width : Nat} (fits : c.toNat < 16 ^ width) :
    charOfHex? ((Text.hexDigits width c.toNat).map Char.toUpper) = some c := by
  obtain ⟨values, read, worth⟩ := mapM_hexValue?_hexDigits width c.toNat
  have valid : c.toNat.isValidChar := c.valid
  rw [charOfHex?, read]
  simp only [Option.bind_eq_bind, Option.bind_some, worth, Nat.zero_mul, Nat.zero_add,
    Nat.mod_eq_of_lt fits, if_pos valid, Char.ofNat_toNat]
  rfl

theorem escaped?_of_escapeLetter? {c letter : Char} (isLetter : escapeLetter? c = some letter) :
    escaped? letter = some c ∧ isBreak letter = false := by
  unfold escapeLetter? at isLetter
  split at isLetter <;> cases isLetter <;> decide

/-- A word that goes on with a character, which takes some characters to write. -/
def QuotedWord.after (word : QuotedWord) (c : Char) (count : Nat) : QuotedWord :=
  { word with text := c :: word.text, count := word.count + count }

theorem doubleQuotedWord_letter {c letter : Char} (isLetter : escapeLetter? c = some letter)
    (rest : List Char) (steps : Nat) :
    doubleQuotedWord (steps + 1) ('\\' :: letter :: rest) =
      (doubleQuotedWord steps rest).map (·.after c 2) := by
  obtain ⟨isEscape, notBreak⟩ := escaped?_of_escapeLetter? isLetter
  rw [doubleQuotedWord, notBreak, isEscape]
  rfl

theorem doubleQuotedWord_number {c mark : Char} {width : Nat} (notBreak : isBreak mark = false)
    (notLetter : escaped? mark = none) (isMark : escapeWidth? mark = some width)
    (fits : c.toNat < 16 ^ width) (rest : List Char) (steps : Nat) :
    doubleQuotedWord (steps + 1)
        ('\\' :: mark :: ((Text.hexDigits width c.toNat).map Char.toUpper ++ rest)) =
      (doubleQuotedWord steps rest).map (·.after c (2 + width)) := by
  have length : ((Text.hexDigits width c.toNat).map Char.toUpper).length = width := by
    rw [List.length_map, Text.length_hexDigits]
  have long : ¬ ((Text.hexDigits width c.toNat).map Char.toUpper ++ rest).length < width := by
    rw [List.length_append]
    omega
  rw [doubleQuotedWord, notBreak, notLetter, isMark]
  simp only [Bool.false_eq_true, if_false, if_neg long, List.take_left' length,
    List.drop_left' length, charOfHex?_hexDigits fits]
  cases doubleQuotedWord steps rest with
  | none => rfl
  | some word => simp [QuotedWord.after, Nat.add_assoc]

/-- An escaped character is read as one character. -/
theorem doubleQuotedWord_escape (c : Char) (rest : List Char) (steps : Nat) :
    doubleQuotedWord (steps + 1) (escape c ++ rest) =
      (doubleQuotedWord steps rest).map (·.after c (escape c).length) := by
  have lengths := Text.length_hexDigits
  rw [escape]
  split
  next letter isLetter =>
      exact doubleQuotedWord_letter isLetter rest steps
  split
  next short =>
      have read := @doubleQuotedWord_number c 'x' 2 rfl rfl rfl (by omega) rest steps
      simpa [lengths] using read
  split
  next middle =>
      have read := @doubleQuotedWord_number c 'u' 4 rfl rfl rfl (by omega) rest steps
      simpa [lengths] using read
  next long =>
      have bounds := Text.char_bounds c
      have read := @doubleQuotedWord_number c 'U' 8 rfl rfl rfl (by omega) rest steps
      simpa [lengths] using read

/-! ## Double quotes -/

theorem doubleQuotedBody_append (first second : List Char) :
    doubleQuotedBody (first ++ second) = doubleQuotedBody first ++ doubleQuotedBody second :=
  List.flatMap_append

theorem doubleQuotedBody_spaces {gap : List Char} (spaces : gap.all isSpace = true) :
    doubleQuotedBody gap = gap := by
  induction gap with
  | nil =>
      rfl
  | cons c gap inductionHypothesis =>
      rw [List.all_cons, Bool.and_eq_true] at spaces
      obtain rfl : c = ' ' := by simpa [isSpace] using spaces.1
      rw [← List.singleton_append, doubleQuotedBody_append, inductionHypothesis spaces.2]
      rfl

theorem doubleQuotedWord_plain {c : Char} (notGap : isGap c = false) (notQuote : c ≠ '"')
    (notBackslash : c ≠ '\\') (rest : List Char) (steps : Nat) :
    doubleQuotedWord (steps + 1) (c :: rest) = (doubleQuotedWord steps rest).map (·.after c 1) := by
  rw [isGap, Bool.or_eq_false_iff] at notGap
  rw [doubleQuotedWord]
  · simp only [notGap, notQuote, decide_false, Bool.or_self, Bool.false_eq_true, if_false]
    rfl
  · intro next further isBackslash
    exact absurd isBackslash notBackslash
  · intro isBackslash
    exact absurd isBackslash notBackslash

theorem doubleQuotedBody_singleton (c : Char) :
    doubleQuotedBody [c] =
      if !isPrintable c || isBreak c || c = '"' || c = '\\' then escape c else [c] :=
  List.flatMap_singleton _ c

/-- A character other than a space is read as it was written, escaped or not. -/
theorem doubleQuotedWord_char {c : Char} (notSpace : isSpace c = false) (rest : List Char)
    (steps : Nat) :
    doubleQuotedWord (steps + 1) (doubleQuotedBody [c] ++ rest) =
      (doubleQuotedWord steps rest).map (·.after c (doubleQuotedBody [c]).length) := by
  rw [doubleQuotedBody_singleton]
  split
  next => exact doubleQuotedWord_escape c rest steps
  next isPlain =>
      simp only [Bool.not_eq_true, Bool.or_eq_false_iff, Bool.not_eq_false',
        decide_eq_false_iff_not] at isPlain
      obtain ⟨⟨⟨printable, notBreak⟩, notQuote⟩, notBackslash⟩ := isPlain
      exact doubleQuotedWord_plain (isGap_eq_false printable notSpace notBreak) notQuote notBackslash
        rest steps

/-- The end of a word in double quotes. -/
def EndsDouble (rest : List Char) : Prop :=
  ∀ steps, doubleQuotedWord (steps + 1) rest = some ⟨[], 0, rest, .here⟩

theorem endsDouble_cons {c : Char} (ends : c = '"' ∨ isSpace c = true) (rest : List Char) :
    EndsDouble (c :: rest) := by
  have notBackslash : c ≠ '\\' := by
    rintro rfl
    exact absurd ends (by decide)
  have stops : (c = '"' || isBlank c || isBreak c) = true := by
    rcases ends with rfl | space
    · rfl
    · rw [isBlank_of_isSpace space, Bool.or_true, Bool.true_or]
  intro steps
  rw [doubleQuotedWord]
  · rw [if_pos stops]
  · intro next further isBackslash
    exact absurd isBackslash notBackslash
  · intro isBackslash
    exact absurd isBackslash notBackslash

theorem doubleQuotedWord_append {word rest : List Char} (solid : word.all (!isSpace ·) = true)
    (ends : EndsDouble rest) {steps : Nat} (enough : word.length < steps) :
    doubleQuotedWord steps (doubleQuotedBody word ++ rest) =
      some ⟨word, (doubleQuotedBody word).length, rest, .here⟩ := by
  induction word generalizing steps with
  | nil =>
      obtain ⟨steps, rfl⟩ := Nat.exists_eq_add_of_lt enough
      exact ends _
  | cons c word inductionHypothesis =>
      obtain ⟨steps, rfl⟩ := Nat.exists_eq_add_of_lt enough
      rw [List.all_cons, Bool.and_eq_true] at solid
      have notSpace : isSpace c = false := by simpa using solid.1
      have read := @inductionHypothesis solid.2 (word.length + 1 + steps) (by omega)
      rw [← List.singleton_append, doubleQuotedBody_append, List.append_assoc,
        doubleQuotedWord_char notSpace, List.singleton_append, List.length_cons, read,
        Option.map_some, QuotedWord.after, List.length_append,
        Nat.add_comm (doubleQuotedBody word).length]

theorem exists_escape (c : Char) : ∃ more, escape c = '\\' :: more := by
  rw [escape]
  split
  next => exact ⟨_, rfl⟩
  split
  next => exact ⟨_, rfl⟩
  split <;> exact ⟨_, rfl⟩

/-- A character other than a space begins with no gap, escaped or not. -/
theorem exists_doubleQuotedBody {c : Char} (notSpace : isSpace c = false) :
    ∃ first more, doubleQuotedBody [c] = first :: more ∧ isGap first = false := by
  rw [doubleQuotedBody_singleton]
  split
  next =>
      obtain ⟨more, isEscape⟩ := exists_escape c
      exact ⟨'\\', more, isEscape, rfl⟩
  next isPlain =>
      simp only [Bool.not_eq_true, Bool.or_eq_false_iff, Bool.not_eq_false'] at isPlain
      exact ⟨c, [], rfl, isGap_eq_false isPlain.1.1.1 notSpace isPlain.1.1.2⟩

theorem length_le_doubleQuotedBody (text : List Char) :
    text.length ≤ (doubleQuotedBody text).length := by
  induction text with
  | nil =>
      exact Nat.le_refl _
  | cons c text inductionHypothesis =>
      have notEmpty : doubleQuotedBody [c] ≠ [] := by
        cases space : isSpace c with
        | true =>
            rw [doubleQuotedBody_spaces (by rw [List.all_cons, space]; rfl)]
            exact List.cons_ne_nil _ _
        | false =>
            obtain ⟨first, more, written, _⟩ := exists_doubleQuotedBody space
            rw [written]
            exact List.cons_ne_nil _ _
      have positive := List.length_pos_iff.2 notEmpty
      rw [← List.singleton_append, doubleQuotedBody_append, List.length_append, List.length_append,
        List.length_singleton]
      omega

theorem quotedWord?_double {word rest : List Char} (solid : word.all (!isSpace ·) = true)
    (ends : EndsDouble rest) (line column index : Nat) :
    (⟨doubleQuotedBody word ++ rest, line, column, index⟩ : Cursor).quotedWord? '"' =
      some ⟨word, (doubleQuotedBody word).length, rest, .here⟩ := by
  have enough := length_le_doubleQuotedBody word
  refine doubleQuotedWord_append solid ends ?_
  rw [List.length_append]
  omega

theorem noneAhead_doubleQuotedBody {text : List Char} (starts : NoneAhead isSpace text)
    (rest : List Char) : NoneAhead isGap (doubleQuotedBody text ++ '"' :: rest) := by
  rcases text with _ | ⟨c, text⟩
  · exact noneAhead_cons.2 rfl
  · obtain ⟨first, more, written, notGap⟩ := exists_doubleQuotedBody (noneAhead_cons.1 starts)
    rw [← List.singleton_append, doubleQuotedBody_append, written]
    exact noneAhead_cons.2 notGap

theorem read_doubleQuotedBody (text rest : List Char) {line column index steps : Nat}
    (notFirst : column ≠ 0) (enough : text.length < steps) :
    ∃ lastLine lastColumn lastIndex,
      (⟨doubleQuotedBody text ++ '"' :: rest, line, column, index⟩ : Cursor).quoted '"' steps =
        some (text, ⟨rest, lastLine, lastColumn, lastIndex⟩) := by
  induction text using words_induction isSpace generalizing line column index steps with
  | word word solid =>
      obtain ⟨steps, rfl⟩ := Nat.exists_eq_add_of_lt enough
      exact Cursor.quoted_end notFirst
        (quotedWord?_double solid (endsDouble_cons (.inl rfl) rest) line column index) _
  | more word gap behind solid spaces gapNotEmpty starts inductionHypothesis =>
      obtain ⟨steps, rfl⟩ := Nat.exists_eq_add_of_lt enough
      have gapLength := List.length_pos_iff.2 gapNotEmpty
      have stepsLeft : behind.length < (word ++ (gap ++ behind)).length + steps := by
        rw [List.length_append, List.length_append]
        omega
      have notFirstNext : column + (doubleQuotedBody word).length + gap.length ≠ 0 := by omega
      obtain ⟨lastLine, lastColumn, lastIndex, read⟩ :=
        @inductionHypothesis line _ (index + (doubleQuotedBody word).length + gap.length) _ notFirstNext
          stepsLeft
      refine ⟨lastLine, lastColumn, lastIndex, ?_⟩
      have gaps : gap.all isGap = true := List.all_eq_true.2 fun c member => by
        rw [isGap, isBlank_of_isSpace (List.all_eq_true.1 spaces c member), Bool.true_or]
      have after := noneAhead_doubleQuotedBody starts rest
      have crossed := Cursor.gap_spaces line (column + (doubleQuotedBody word).length)
        (index + (doubleQuotedBody word).length) spaces after 0
        (gap ++ (doubleQuotedBody behind ++ '"' :: rest)).length (.blanks [])
      have ends : EndsDouble (gap ++ (doubleQuotedBody behind ++ '"' :: rest)) := by
        rcases gap with _ | ⟨c, gap⟩
        · exact absurd rfl gapNotEmpty
        · rw [List.all_cons, Bool.and_eq_true] at spaces
          exact endsDouble_cons (.inr spaces.1) _
      rw [doubleQuotedBody_append, doubleQuotedBody_append, doubleQuotedBody_spaces spaces,
        List.append_assoc, List.append_assoc,
        Cursor.quoted_gap notFirst (quotedWord?_double solid ends line column index)
          (List.append_ne_nil_of_left_ne_nil gapNotEmpty _)
          (not_mem_head?_of_isGap rfl gaps gapNotEmpty _) crossed,
        read, Option.bind_some, ← List.append_assoc]
      rfl

end ContentTyping.Yaml

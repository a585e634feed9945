import ContentTyping.Proofs.Yaml.ScalarTokens

/-!
# Written mappings are read as tokens

A document of lines, each with a key and most of them with a value, is read as the tokens of its lines.
What the columns of the lines open and close is the same for the reader as for the writer.
-/

namespace ContentTyping.Yaml

/-! ## Lines -/

/-- What stands behind the colon of a line. -/
inductive LineValue where
  /-- Nothing: the lines of a mapping follow. -/
  | mapping
  | text (value : String)
  | flag (value : Bool)

/-- The lines of a mapping follow. -/
def LineValue.isMapping : LineValue → Bool
  | mapping => true
  | _ => false

/-- A line of a block mapping. The lines of a text in a block of its own count as one. -/
structure Line where
  column : Nat
  key : String
  value : LineValue

namespace Line

/-- The text of a line behind its colon. -/
def rest (line : Line) : List Char :=
  match line.value with
  | .mapping => ['\n']
  | .text value => ' ' :: endLine (writeScalar (line.column + 2) value)
  | .flag value => ' ' :: endLine (toString value).toList

/-- The text of a line behind its indentation. -/
def body (line : Line) : List Char :=
  line.key.toList ++ ':' :: line.rest

/-- The text of a line. -/
def write (line : Line) : List Char :=
  indentation line.column ++ line.body

/-- A word of letters that is short enough to be a key. -/
structure IsKey (key : String) : Prop where
  notEmpty : key.toList ≠ []
  letters : key.toList.all Char.isAlpha = true
  short : key.toList.length ≤ 1024

/-- The columns of the open blocks below a key at a column. -/
def openAt (indents : List Nat) (column : Nat) : List Nat :=
  let left := indents.dropWhile (column < ·)
  if left.head?.any (column ≤ ·) then left else column :: left

/-- The ends of the open blocks that lie deeper than a column. -/
def endTokens (indents : List Nat) (column : Nat) : List Token :=
  (indents.takeWhile (column < ·)).map fun _ => .blockEnd

/-- The tokens of a key with those of the blocks that end and begin before it. -/
def keyTokens (indents : List Nat) (column : Nat) (key : String) : List Token :=
  endTokens indents column ++
    (if (indents.dropWhile (column < ·)).head?.any (column ≤ ·) then [] else [.blockMappingStart]) ++
    [.key, .scalar .plain key, .value]

/-- The token of a value. -/
def valueTokens : LineValue → List Token
  | .mapping => []
  | .text value => [.scalar (styleOf value) value]
  | .flag value => [.scalar .plain (toString value)]

end Line

/-- The text of some lines. -/
def writeLines (lines : List Line) : List Char :=
  lines.flatMap Line.write

/-- The column at which some lines begin. -/
def startColumn (lines : List Line) : Nat :=
  lines.head?.elim 0 Line.column

/-- The text of some lines behind the first indentation. -/
def startText : List Line → List Char
  | [] => []
  | line :: lines => line.body ++ writeLines lines

theorem writeLines_eq (lines : List Line) :
    writeLines lines = indentation (startColumn lines) ++ startText lines := by
  cases lines with
  | nil => rfl
  | cons line lines => exact List.append_assoc _ _ _

theorem endLine_colon (text : List Char) :
    endLine (':' :: ' ' :: text) = ':' :: ' ' :: endLine text := by
  rcases text with _ | ⟨c, text⟩
  · rfl
  · rw [endLine, endLine, List.getLast?_cons_cons, List.getLast?_cons_cons]
    split <;> rfl

theorem writeEntry_eq (column : Nat) (key value : String) :
    writeEntry column key value = (Line.mk column key (.text value)).write := by
  rw [writeEntry, endLine_colon]
  exact List.append_assoc _ _ _

theorem writeFlag_eq (column : Nat) (key : String) (value : Bool) :
    writeFlag column key value = (Line.mk column key (.flag value)).write := by
  rw [writeFlag, endLine_colon]
  exact List.append_assoc _ _ _

theorem writeKey_eq (column : Nat) (key : String) :
    writeKey column key = (Line.mk column key .mapping).write :=
  List.append_assoc _ _ _

/-- The lines have keys, and below a value there is no deeper line. -/
inductive Fit : List Line → Prop
  | nil : Fit []
  | cons {line : Line} {lines : List Line} (isKey : Line.IsKey line.key)
      (outside : line.value.isMapping = false → startColumn lines ≤ line.column) (fit : Fit lines) :
      Fit (line :: lines)

theorem fit_cons {line : Line} {lines : List Line} :
    Fit (line :: lines) ↔ Line.IsKey line.key ∧
      (line.value.isMapping = false → startColumn lines ≤ line.column) ∧ Fit lines :=
  ⟨fun | .cons isKey outside fit => ⟨isKey, outside, fit⟩,
    fun ⟨isKey, outside, fit⟩ => .cons isKey outside fit⟩

/-- The tokens of some lines below open blocks, which are closed at the end. -/
def lineTokens : List Nat → List Line → List Token
  | indents, [] => indents.map fun _ => .blockEnd
  | indents, line :: lines =>
    Line.keyTokens indents line.column line.key ++ Line.valueTokens line.value ++
      lineTokens (Line.openAt indents line.column) lines

theorem openAt_head (indents : List Nat) (column : Nat) :
    ∃ others, Line.openAt indents column = column :: others := by
  rw [Line.openAt]
  split
  next isOpen =>
      rcases left : indents.dropWhile (column < ·) with _ | ⟨top, others⟩
      · rw [left] at isOpen
        exact absurd isOpen Bool.false_ne_true
      · rw [left] at isOpen
        have notDeeper : ¬ column < top := by
          have stops := List.head?_dropWhile_not (column < ·) indents
          rw [left] at stops
          simpa using stops
        have notHigher : column ≤ top := of_decide_eq_true isOpen
        obtain rfl : column = top := by omega
        exact ⟨others, rfl⟩
  next => exact ⟨_, rfl⟩

namespace Lexer

variable {tokens : List Token} {indents : List Nat} {line column index : Nat}

theorem closeBlocks_atLine (cursor : Cursor) (isDeeper : Nat → Bool) :
    (atLine tokens indents cursor).closeBlocks isDeeper =
      atLine (tokens ++ (indents.takeWhile isDeeper).map fun _ => .blockEnd)
        (indents.dropWhile isDeeper) cursor := by
  simp [closeBlocks, atLine, inFlow]

theorem insertIdx_behind (before after : List Token) (token : Token) :
    (before ++ after).toArray.insertIdxIfInBounds before.length token =
      (before ++ token :: after).toArray := by
  have inserted : (before ++ after).insertIdx before.length token = before ++ token :: after := by
    induction before with
    | nil => rfl
    | cons first before inductionHypothesis => exact congrArg (first :: ·) inductionHypothesis
  simp [Array.insertIdxIfInBounds, inserted]

end Lexer

/-! ## Keys -/

section Keys

variable {c : Char} {key rest : List Char}

theorem isPassedOver_of_isAlpha (letter : c.isAlpha = true) : Lexer.isPassedOver c = false := by
  simp only [Lexer.isPassedOver, isGap, isBlank, isBreak, Bool.or_eq_false_iff,
    decide_eq_false_iff_not]
  and_intros
  all_goals
    rintro rfl
    exact absurd letter (by decide)

theorem isGap_of_isAlpha (letter : c.isAlpha = true) : isGap c = false := by
  have passed := isPassedOver_of_isAlpha letter
  rw [Lexer.isPassedOver, Bool.or_eq_false_iff, Bool.or_eq_false_iff] at passed
  exact passed.1.1

theorem beginsPlain_of_isAlpha (letter : c.isAlpha = true) (rest : List Char) : BeginsPlain c rest where
  notGap := isGap_of_isAlpha letter
  notIndicator := by
    simp only [isIndicator, List.mem_cons, List.not_mem_nil, or_false, decide_eq_false_iff_not, not_or]
    and_intros
    all_goals
      rintro rfl
      exact absurd letter (by decide)
  notMark := by
    rw [Bool.and_eq_false_imp]
    intro isMark
    simp only [Bool.or_eq_true, decide_eq_true_eq] at isMark
    rcases isMark with (rfl | rfl) | rfl <;> exact absurd letter (by decide)

theorem hasInnerIndicator_of_isAlpha (letters : key.all Char.isAlpha = true) (before : Char) :
    hasInnerIndicator (before :: key) = false := by
  induction key generalizing before with
  | nil =>
      rfl
  | cons c key inductionHypothesis =>
      rw [List.all_cons, Bool.and_eq_true] at letters
      have notColon : decide (c = ':') = false := by
        refine decide_eq_false ?_
        rintro rfl
        exact absurd letters.1 (by decide)
      have notNumberSign : decide (c = '#') = false := by
        refine decide_eq_false ?_
        rintro rfl
        exact absurd letters.1 (by decide)
      rw [hasInnerIndicator, notColon, notNumberSign, Bool.false_and, Bool.false_and,
        inductionHypothesis letters.2, Bool.or_self, Bool.or_self]

theorem atDocumentMarker_of_isAlpha (letter : c.isAlpha = true) (line column index : Nat) :
    (⟨c :: rest, line, column, index⟩ : Cursor).atDocumentMarker = false := by
  have notMarker (mark : Char) (isMark : mark.isAlpha = false) :
      (⟨c :: rest, line, column, index⟩ : Cursor).atMarker mark = false := by
    have different : c ≠ mark := by
      rintro rfl
      exact Bool.false_ne_true (isMark.symm.trans letter)
    rw [Cursor.atMarker]
    split
    next first _ _ _ isRest =>
        obtain ⟨rfl, _⟩ := List.cons.inj isRest
        simp [different]
    next => rfl
  rw [Cursor.atDocumentMarker, notMarker '-' rfl, notMarker '.' rfl, Bool.or_self]

/-- A word of letters is read as a plain scalar up to the colon behind it. -/
theorem plain_key (notEmpty : key ≠ []) (letters : key.all Char.isAlpha = true)
    (gap : atGap rest = true) (line column index floor steps : Nat) :
    (⟨key ++ ':' :: rest, line, column, index⟩ : Cursor).plain false floor (steps + 1) =
      some (key, ⟨':' :: rest, line, column + key.length, index + key.length⟩, false) := by
  have solid : key.all (!isGap ·) = true := by
    refine List.all_eq_true.2 fun c member => ?_
    rw [isGap_of_isAlpha (List.all_eq_true.1 letters c member)]
    rfl
  have stops : plainWord false (':' :: rest) = some ([], ':' :: rest) := by
    rw [plainWord]
    simp [isBlank, isBreak, gap]
  have read := plainWord_append solid (hasInnerIndicator_of_isAlpha letters ' ') stops
  rcases key with _ | ⟨c, key⟩
  · exact absurd rfl notEmpty
  rw [List.all_cons, Bool.and_eq_true] at letters
  have notSeen : (⟨c :: key ++ ':' :: rest, line, column, index⟩ : Cursor).sees '#' = false := by
    refine decide_eq_false ?_
    rintro ⟨⟩
    exact absurd letters.1 (by decide)
  have stopsThere : ((':' :: rest).isEmpty || !atGap (':' :: rest)) = true := by
    simp [atGap, isBlank, isBreak]
  rw [Cursor.plain, notSeen, List.cons_append, atDocumentMarker_of_isAlpha letters.1]
  rw [List.cons_append] at read
  simp only [Bool.or_self, Bool.false_eq_true, if_false, read, Option.bind_eq_bind, Option.bind_some,
    stopsThere, if_true]
  rfl

end Keys

/-! ## Steps -/

namespace Lexer

variable {lexer ready closed after : Lexer} {tokens : List Token} {indents : List Nat}
  {rest : List Char} {line column index : Nat}

theorem run_of_next (comes : lexer.toNextToken (lexer.cursor.rest.length + 1) = ready)
    (closes : ready.closeBlocks (ready.cursor.column < ·) = closed) {c : Char}
    (isRest : closed.cursor.rest = c :: rest) (next : closed.next c rest = some after) (steps : Nat) :
    lexer.run (steps + 1) = after.run steps := by
  rw [run.eq_def]
  simp only [comes, closes, isRest, next]

theorem closeBlocks_of_not_deeper {isDeeper : Nat → Bool}
    (kept : ∀ top ∈ lexer.indents.head?, isDeeper top = false) : lexer.closeBlocks isDeeper = lexer := by
  have none : lexer.indents.takeWhile isDeeper = [] ∧
      lexer.indents.dropWhile isDeeper = lexer.indents := by
    rcases isOpen : lexer.indents with _ | ⟨top, others⟩
    · exact ⟨rfl, rfl⟩
    · have notDeeper := kept top (by rw [isOpen]; rfl)
      simp [notDeeper]
  rw [closeBlocks, none.1, none.2]
  split
  next => rfl
  next => simp

/-- Before the colon behind a key. -/
def atColon (tokens : List Token) (indents : List Nat) (key : String) (possible : PossibleKey)
    (cursor : Cursor) : Lexer where
  cursor := cursor
  tokens := (tokens ++ [Token.scalar .plain key]).toArray
  indents := indents
  key := some possible
  keyAllowed := false

variable {key : String}

theorem noteKey_atLine (cursor : Cursor) :
    (atLine tokens indents cursor).noteKey =
      some { atLine tokens indents cursor with
        key := some ⟨tokens.length, cursor.line, cursor.column, cursor.index,
          indents.head? = some cursor.column⟩ } :=
  rfl

theorem plainScalar_key (notEmpty : key.toList ≠ []) (letters : key.toList.all Char.isAlpha = true)
    (gap : atGap rest = true) :
    (atLine tokens indents ⟨key.toList ++ ':' :: rest, line, column, index⟩).plainScalar =
      some (atColon tokens indents key
        ⟨tokens.length, line, column, index, indents.head? = some column⟩
        ⟨':' :: rest, line, column + key.toList.length, index + key.toList.length⟩) := by
  rw [plainScalar, noteKey_atLine]
  simp only [atLine, inFlow, List.isEmpty_nil, Bool.not_true, Option.bind_eq_bind, Option.bind_some,
    plain_key notEmpty letters gap]
  simp [atColon, allowKey, emitRead, emit]

theorem next_colon (notFirst : lexer.cursor.column ≠ 0) (gap : atGap rest = true) :
    lexer.next ':' rest = lexer.valueMark := by
  have noMarker := Cursor.atMarker_of_column notFirst
  rw [next]
  simp [noMarker, gap]

/-- The marks of a key and of its mapping go before the key. -/
theorem valueMark_atColon {required : Bool} (short : key.toList.length ≤ 1024) :
    (atColon tokens indents key ⟨tokens.length, line, column, index, required⟩
        ⟨':' :: rest, line, column + key.toList.length, index + key.toList.length⟩).valueMark =
      some (atValue
        (tokens ++ ((if indents.head?.any (column ≤ ·) then [] else [.blockMappingStart]) ++
          [.key, .scalar .plain key, .value]))
        (if indents.head?.any (column ≤ ·) then indents else column :: indents)
        ⟨rest, line, column + key.toList.length + 1, index + key.toList.length + 1⟩) := by
  have reaches : keyReaches ⟨tokens.length, line, column, index, required⟩
      ⟨':' :: rest, line, column + key.toList.length, index + key.toList.length⟩ = true := by
    simp [keyReaches, short]
  rw [valueMark]
  simp only [atColon, Option.filter_some, reaches, if_true, insertIdx_behind]
  simp only [openBlock, inFlow, List.isEmpty_nil, Bool.not_true, Bool.false_or, indent?]
  split
  next =>
      simp [atValue, allowKey, emitMark, skip, emit, Cursor.skip, Cursor.onLine]
  next =>
      simp only [insertIdx_behind]
      simp [atValue, allowKey, emitMark, skip, emit, Cursor.skip, Cursor.onLine]

theorem run_toColon (notEmpty : key.toList ≠ []) (letters : key.toList.all Char.isAlpha = true)
    (gap : atGap rest = true) (comes : lexer.ComesTo tokens indents column (key.toList ++ ':' :: rest))
    (steps : Nat) :
    ∃ line index required, lexer.run (steps + 1) =
      (atColon (tokens ++ Line.endTokens indents column) (indents.dropWhile (column < ·)) key
        ⟨(tokens ++ Line.endTokens indents column).length, line, column, index, required⟩
        ⟨':' :: rest, line, column + key.toList.length, index + key.toList.length⟩).run steps := by
  obtain ⟨line, index, comes⟩ := comes
  obtain ⟨c, more, isKey⟩ := List.exists_cons_of_ne_nil notEmpty
  have letter : c.isAlpha = true := by
    rw [isKey, List.all_cons, Bool.and_eq_true] at letters
    exact letters.1
  have noMarker :
      (⟨key.toList ++ ':' :: rest, line, column, index⟩ : Cursor).atDocumentMarker = false := by
    rw [isKey]
    exact atDocumentMarker_of_isAlpha letter line column index
  have next := (next_of_beginsPlain (beginsPlain_of_isAlpha letter (more ++ ':' :: rest)) noMarker
    rfl).trans (@plainScalar_key (tokens ++ Line.endTokens indents column)
      (indents.dropWhile (column < ·)) rest line column index key notEmpty letters gap)
  exact ⟨line, index, _, run_of_next comes (closeBlocks_atLine _ _)
    (congrArg (· ++ ':' :: rest) isKey) next steps⟩

theorem run_atColon {required : Bool} (notEmpty : key.toList ≠ []) (short : key.toList.length ≤ 1024)
    (gap : atGap rest = true) (kept : ∀ top ∈ indents.head?, top ≤ column) (steps : Nat) :
    (atColon tokens indents key ⟨tokens.length, line, column, index, required⟩
        ⟨':' :: rest, line, column + key.toList.length, index + key.toList.length⟩).run (steps + 1) =
      (atValue
        (tokens ++ ((if indents.head?.any (column ≤ ·) then [] else [.blockMappingStart]) ++
          [.key, .scalar .plain key, .value]))
        (if indents.head?.any (column ≤ ·) then indents else column :: indents)
        ⟨rest, line, column + key.toList.length + 1, index + key.toList.length + 1⟩).run steps := by
  have positive := List.length_pos_iff.2 notEmpty
  have notFirst : column + key.toList.length ≠ 0 := by omega
  refine run_of_next (@toNextToken_spaces _ (':' :: rest) _ _ _ 0 rfl (noneAhead_cons.2 rfl) _)
    (closeBlocks_of_not_deeper ?_) rfl ?_ steps
  · intro top isTop
    have higher := kept top isTop
    refine decide_eq_false ?_
    simp only [not_lt]
    omega
  · exact (next_colon notFirst gap).trans (valueMark_atColon short)

/-- A key and its colon, with the blocks that end and begin before it. -/
theorem run_key (isKey : Line.IsKey key) (gap : atGap rest = true)
    (comes : lexer.ComesTo tokens indents column (key.toList ++ ':' :: rest)) (steps : Nat) :
    ∃ line index, lexer.run (steps + 2) =
      (atValue (tokens ++ Line.keyTokens indents column key) (Line.openAt indents column)
        ⟨rest, line, column + key.toList.length + 1, index⟩).run steps := by
  obtain ⟨notEmpty, letters, short⟩ := isKey
  obtain ⟨line, index, required, toColon⟩ := run_toColon notEmpty letters gap comes (steps + 1)
  have kept : ∀ top ∈ (indents.dropWhile (column < ·)).head?, top ≤ column := by
    intro top isTop
    have stops := List.head?_dropWhile_not (column < ·) indents
    rw [Option.mem_def.1 isTop] at stops
    simpa using stops
  refine ⟨line, index + key.toList.length + 1, ?_⟩
  rw [toColon, run_atColon notEmpty short gap kept, Line.keyTokens, Line.openAt, List.append_assoc,
    List.append_assoc]

theorem run_value {style : ScalarStyle} {text written : List Char} {outer width : Nat}
    {others : List Nat} (reads : ReadsValue written style text outer) (outside : width ≤ outer)
    (ahead : NoneAhead isPassedOver rest) (inside : outer ≤ column) (steps : Nat) :
    ∃ after : Lexer,
      (atValue tokens (outer :: others)
          ⟨' ' :: (written ++ (indentation width ++ rest)), line, column, index⟩).run (steps + 1) =
        after.run steps ∧
      after.ComesTo (tokens ++ [.scalar style (String.ofList text)]) (outer :: others) width rest := by
  obtain ⟨c, more, after, isWritten, opens, next, comes⟩ :=
    reads tokens others width rest line (column + 1) (index + 1) outside ahead (by omega)
  have toValue := @toNextToken_spaces
    (atValue tokens (outer :: others) ⟨' ' :: c :: more, line, column, index⟩) (c :: more) line column
    index 1 rfl (noneAhead_cons.2 opens) (' ' :: c :: more).length
  rw [isWritten]
  refine ⟨after, run_of_next toValue (closeBlocks_of_not_deeper ?_) rfl next steps, comes⟩
  intro top isTop
  obtain rfl : outer = top := Option.some.inj isTop
  refine decide_eq_false ?_
  simp only [not_lt]
  omega

end Lexer

/-! ## Lines one after the other -/

/-- The steps that the lexer takes over a line. -/
def Line.steps (line : Line) : Nat :=
  if line.value.isMapping then 2 else 3

theorem Fit.noneAhead {lines : List Line} (fit : Fit lines) :
    NoneAhead Lexer.isPassedOver (startText lines) := by
  cases fit with
  | nil =>
      exact noneAhead_nil _
  | @cons line lines isKey _ _ =>
      obtain ⟨c, more, isWord⟩ := List.exists_cons_of_ne_nil isKey.notEmpty
      have letters := isKey.letters
      rw [isWord, List.all_cons, Bool.and_eq_true] at letters
      rw [startText, Line.body, isWord]
      exact noneAhead_cons.2 (isPassedOver_of_isAlpha letters.1)

/-- The steps that the lexer takes over some lines. -/
def lineSteps : List Line → Nat
  | [] => 0
  | line :: lines => line.steps + lineSteps lines

namespace Lexer

variable {lexer : Lexer} {tokens : List Token} {indents : List Nat}

/-- A key with a value on its line. -/
theorem run_entry {key : String} {written text rest : List Char} {style : ScalarStyle}
    {column width : Nat} (isKey : Line.IsKey key)
    (reads : ReadsValue written style text column) (outside : width ≤ column)
    (ahead : NoneAhead isPassedOver rest)
    (comes : lexer.ComesTo tokens indents column
      (key.toList ++ ':' :: ' ' :: (written ++ (indentation width ++ rest)))) (steps : Nat) :
    ∃ after : Lexer, lexer.run (steps + 3) = after.run steps ∧
      after.ComesTo
        (tokens ++ (Line.keyTokens indents column key ++ [.scalar style (String.ofList text)]))
        (Line.openAt indents column) width rest := by
  obtain ⟨others, isOpen⟩ := openAt_head indents column
  obtain ⟨line, index, keyRead⟩ := run_key isKey rfl comes (steps + 1)
  have inside : column ≤ column + key.toList.length + 1 := by omega
  obtain ⟨after, valueRead, comesAfter⟩ :=
    @run_value (tokens ++ Line.keyTokens indents column key) rest line (column + key.toList.length + 1)
      index style text written column width others reads outside ahead inside steps
  rw [isOpen] at keyRead ⊢
  rw [← List.append_assoc]
  exact ⟨after, keyRead.trans valueRead, comesAfter⟩

theorem run_line {line : Line} {lines : List Line} (isKey : Line.IsKey line.key)
    (outside : line.value.isMapping = false → startColumn lines ≤ line.column) (fit : Fit lines)
    (comes : lexer.ComesTo tokens indents line.column (startText (line :: lines))) (steps : Nat) :
    ∃ after : Lexer, lexer.run (steps + line.steps) = after.run steps ∧
      after.ComesTo
        (tokens ++ (Line.keyTokens indents line.column line.key ++ Line.valueTokens line.value))
        (Line.openAt indents line.column) (startColumn lines) (startText lines) := by
  have ahead := fit.noneAhead
  obtain ⟨column, key, value⟩ := line
  rw [startText, Line.body, writeLines_eq, List.append_assoc] at comes
  cases value with
  | mapping =>
      obtain ⟨others, isOpen⟩ := openAt_head indents column
      obtain ⟨line, index, keyRead⟩ := run_key isKey rfl comes steps
      rw [Line.valueTokens, List.append_nil]
      exact ⟨_, keyRead, atValue_comesTo ahead⟩
  | text value =>
      have read := run_entry isKey (readsValue_text value column) (outside rfl) ahead
        comes steps
      rwa [String.ofList_toList] at read
  | flag value =>
      have read := run_entry isKey (readsValue_flag value column) (outside rfl) ahead
        comes steps
      rwa [String.ofList_toList] at read

theorem run_end (comes : lexer.ComesTo tokens indents 0 []) (steps : Nat) :
    lexer.run (steps + 1) = some (tokens ++ indents.map fun _ => .blockEnd) := by
  obtain ⟨line, index, comes⟩ := comes
  have all (isDeeper : Nat → Bool) : (indents.takeWhile isDeeper).length +
      ((indents.dropWhile isDeeper).takeWhile fun _ => true).length = indents.length := by
    rw [List.takeWhile_eq_self_iff.2 fun _ _ => rfl, ← List.length_append,
      List.takeWhile_append_dropWhile]
  rw [run.eq_def]
  simp only [comes, closeBlocks_atLine, leaveBlocks, closeAll]
  simp [atLine, dropKey, allowKey, all]

/-- The lexer reads the tokens of all lines, one line after the other. -/
theorem run_lines {lines : List Line} (fit : Fit lines)
    (comes : lexer.ComesTo tokens indents (startColumn lines) (startText lines)) {steps : Nat}
    (enough : lineSteps lines < steps) :
    lexer.run steps = some (tokens ++ lineTokens indents lines) := by
  induction fit generalizing lexer tokens indents steps with
  | nil =>
      obtain ⟨steps, rfl⟩ := Nat.exists_eq_add_of_lt enough
      exact run_end comes _
  | @cons line lines isKey outside fit inductionHypothesis =>
      obtain ⟨left, rfl⟩ : ∃ left, steps = left + line.steps := ⟨steps - line.steps, by
        rw [lineSteps] at enough
        omega⟩
      obtain ⟨after, read, comesAfter⟩ := run_line isKey outside fit comes left
      have enoughLeft : lineSteps lines < left := by
        rw [lineSteps] at enough
        omega
      rw [read, inductionHypothesis comesAfter enoughLeft, lineTokens, List.append_assoc]

end Lexer

theorem steps_le_length_write {line : Line} (isKey : Line.IsKey line.key) :
    line.steps ≤ line.write.length := by
  have positive : 0 < line.key.toList.length := List.length_pos_iff.2 isKey.notEmpty
  have written : line.write.length =
      (indentation line.column).length + (line.key.toList.length + (line.rest.length + 1)) := by
    rw [Line.write, Line.body, List.length_append, List.length_append, List.length_cons]
  have most : line.steps ≤ line.rest.length + 2 := by
    rw [Line.steps, Line.rest]
    cases line.value with
    | mapping => simp [LineValue.isMapping]
    | text value => simp [LineValue.isMapping]
    | flag value => simp [LineValue.isMapping]
  omega

theorem lineSteps_le {lines : List Line} (fit : Fit lines) :
    lineSteps lines ≤ (writeLines lines).length := by
  induction fit with
  | nil =>
      exact Nat.le_refl _
  | @cons line lines isKey _ _ inductionHypothesis =>
      have first := steps_le_length_write isKey
      rw [lineSteps, writeLines, List.flatMap_cons, List.length_append]
      exact Nat.add_le_add first inductionHypothesis

theorem all_isAllowed_write {line : Line} (isKey : Line.IsKey line.key) :
    line.write.all isAllowed = true := by
  have key : line.key.toList.all isAllowed = true := by
    refine List.all_eq_true.2 fun c member => ?_
    have letter := List.all_eq_true.1 isKey.letters c member
    have isLetter : c.isAlpha = (decide (c.val ≥ 'A'.val ∧ c.val ≤ 'Z'.val) ||
        (decide (c.val ≥ 'a'.val) && decide (c.val ≤ 'z'.val))) := rfl
    simp only [isLetter, Bool.or_eq_true, Bool.and_eq_true, decide_eq_true_eq, ge_iff_le,
      UInt32.le_iff_toNat_le, UInt32.reduceToNat, Char.reduceVal] at letter
    have number : c.toNat = c.val.toNat := rfl
    simp only [isAllowed, Bool.or_eq_true, Bool.and_eq_true, decide_eq_true_eq]
    omega
  have rest : line.rest.all isAllowed = true := by
    rw [Line.rest]
    cases line.value with
    | mapping =>
        rfl
    | text value =>
        rw [List.all_cons, all_isAllowed_endLine (all_isAllowed_writeScalar _ value)]
        rfl
    | flag value =>
        cases value <;> rfl
  rw [Line.write, Line.body, List.all_append, List.all_append, List.all_cons,
    all_isAllowed_indentation, key, rest]
  rfl

theorem all_isAllowed_writeLines {lines : List Line} (fit : Fit lines) :
    (writeLines lines).all isAllowed = true := by
  induction fit with
  | nil =>
      rfl
  | @cons line lines isKey _ _ inductionHypothesis =>
      rw [writeLines, List.flatMap_cons, List.all_append, all_isAllowed_write isKey, Bool.true_and]
      exact inductionHypothesis

/-- A document of lines is read as the tokens of its lines. -/
theorem tokenize?_writeLines {lines : List Line} (fit : Fit lines) :
    tokenize? (writeLines lines) = some (lineTokens [] lines) := by
  have start := @Lexer.toNextToken_spaces (Lexer.atLine [] [] ⟨writeLines lines, 0, 0, 0⟩)
    (startText lines) 0 0 0 (startColumn lines) (by rw [writeLines_eq]; rfl) fit.noneAhead
    (writeLines lines).length
  simp only [Nat.zero_add] at start
  rw [tokenize?, if_pos (all_isAllowed_writeLines fit)]
  exact Lexer.run_lines fit ⟨_, _, start⟩ (Nat.lt_succ_of_le (lineSteps_le fit))

end ContentTyping.Yaml

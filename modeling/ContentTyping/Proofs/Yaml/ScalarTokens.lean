import ContentTyping.Proofs.Yaml.BlockScalars
import ContentTyping.Proofs.Yaml.PlainScalars
import ContentTyping.Proofs.Yaml.QuotedScalars
import ContentTyping.Yaml.Lexer

/-!
# Written scalars are read as tokens

Whatever the style in which a text is written as a value, it is read as one token with that style and
the text, and the token after it is the first one of the next line.
-/

namespace ContentTyping.Yaml

/-! ## Ends of lines -/

theorem endLine_append (before : List Char) {text : List Char} (notEmpty : text ≠ []) :
    endLine (before ++ text) = before ++ endLine text := by
  rw [endLine, endLine, List.getLast?_append_of_ne_nil _ notEmpty]
  split
  next => rfl
  next => exact List.append_assoc _ _ _

theorem endLine_of_not_break {text : List Char} (ends : text.getLast?.any isBreak = false) :
    endLine text = text ++ ['\n'] :=
  if_neg (by rw [ends]; exact Bool.false_ne_true)

namespace Lexer

/-! ## The way to the next token -/

/-- A character that may be passed over on the way to the next token. -/
def isPassedOver (c : Char) : Bool :=
  isGap c || c = '#' || c = '\uFEFF'

variable {lexer : Lexer} {rest : List Char} {line column index : Nat}

theorem toNextToken_spaces {width : Nat}
    (isAt : lexer.cursor = ⟨indentation width ++ rest, line, column, index⟩)
    (ahead : NoneAhead isPassedOver rest) (steps : Nat) :
    lexer.toNextToken (steps + 1) =
      { lexer with cursor := ⟨rest, line, column + width, index + width⟩ } := by
  have noGap : NoneAhead isGap rest :=
    ahead.mono fun c gap => by rw [isPassedOver, gap, Bool.true_or, Bool.true_or]
  have notSeen (c : Char) (isPassed : isPassedOver c = true) (line column index : Nat) :
      (⟨rest, line, column, index⟩ : Cursor).sees c = false := by
    refine decide_eq_false fun isHead => ?_
    exact Bool.false_ne_true ((ahead c isHead).symm.trans isPassed)
  have noMark : (⟨indentation width ++ rest, line, column, index⟩ : Cursor).sees '\uFEFF' = false := by
    rcases width with _ | width
    · exact notSeen '\uFEFF' rfl line column index
    · exact decide_eq_false (by rintro ⟨⟩)
  have passes (tabs : Bool) :
      (⟨indentation width ++ rest, line, column, index⟩ : Cursor).skipAll
          (fun c => c = ' ' || (tabs && c = '\t')) = ⟨rest, line, column + width, index + width⟩ := by
    have blanks : (indentation width).all (fun c => c = ' ' || (tabs && c = '\t')) = true := by
      simp [indentation]
    have ends : NoneAhead (fun c => c = ' ' || (tabs && c = '\t')) rest := by
      refine noGap.mono fun c passed => ?_
      simp only [Bool.or_eq_true, Bool.and_eq_true, decide_eq_true_eq] at passed
      rcases passed with rfl | ⟨_, rfl⟩ <;> rfl
    rw [Cursor.skipAll, Cursor.span_append line column index blanks ends, indentation,
      List.length_replicate]
  have noBreak : NoneAhead isBreak rest :=
    noGap.mono fun c breaks => by rw [isGap, breaks, Bool.or_true]
  rw [toNextToken]
  simp only [isAt, noMark, Bool.and_false, Bool.false_eq_true, if_false, passes,
    notSeen '#' rfl, Cursor.newLine?_eq_none _ _ _ noBreak]

theorem toNextToken_feed (isAt : lexer.cursor = ⟨'\n' :: rest, line, column, index⟩)
    (inBlock : lexer.outerKeys = []) (steps : Nat) :
    lexer.toNextToken (steps + 1) =
      toNextToken steps
        { lexer with cursor := ⟨rest, line + 1, 0, index + 1⟩, keyAllowed := true } := by
  have ends (tabs : Bool) : NoneAhead (fun c => c = ' ' || (tabs && c = '\t')) ('\n' :: rest) :=
    noneAhead_cons.2 (by cases tabs <;> rfl)
  have notMark : (⟨'\n' :: rest, line, column, index⟩ : Cursor).sees '\uFEFF' = false := rfl
  have notNumberSign : (⟨'\n' :: rest, line, column, index⟩ : Cursor).sees '#' = false := rfl
  have feed : isBreak '\n' = true ∧ isPrintable '\n' = true := by decide
  have notInFlow : lexer.inFlow = false := by
    rw [inFlow, inBlock]
    rfl
  rw [toNextToken]
  simp only [isAt, notMark, Bool.and_false, Bool.false_eq_true, if_false, Cursor.skipAll,
    Cursor.span_of_noneAhead _ _ _ (ends _), notNumberSign,
    Cursor.newLine?_of_isPrintable _ _ _ feed.1 feed.2, notInFlow, Bool.not_false, Bool.or_true]

/-! ## Places between tokens -/

/-- Before a token that begins a line. -/
def atLine (tokens : List Token) (indents : List Nat) (cursor : Cursor) : Lexer where
  cursor := cursor
  tokens := tokens.toArray
  indents := indents

/-- Before a value on the line of its key. -/
def atValue (tokens : List Token) (indents : List Nat) (cursor : Cursor) : Lexer where
  cursor := cursor
  tokens := tokens.toArray
  indents := indents
  keyAllowed := false

/-- The next token is the first of a line. -/
def ComesTo (lexer : Lexer) (tokens : List Token) (indents : List Nat) (column : Nat)
    (rest : List Char) : Prop :=
  ∃ line index, lexer.toNextToken (lexer.cursor.rest.length + 1) =
    atLine tokens indents ⟨rest, line, column, index⟩

variable {tokens : List Token} {indents : List Nat} {width : Nat}

theorem atLine_comesTo (ahead : NoneAhead isPassedOver rest) :
    (atLine tokens indents ⟨rest, line, column, index⟩).ComesTo tokens indents column rest :=
  ⟨line, index, @toNextToken_spaces (atLine tokens indents ⟨rest, line, column, index⟩) rest line column
    index 0 rfl ahead _⟩

theorem atValue_comesTo (ahead : NoneAhead isPassedOver rest) :
    (atValue tokens indents ⟨'\n' :: (indentation width ++ rest), line, column, index⟩).ComesTo tokens
      indents width rest := by
  refine ⟨line + 1, index + 1 + width, ?_⟩
  rw [toNextToken_feed rfl rfl]
  have spaces := @toNextToken_spaces
    (atLine tokens indents ⟨indentation width ++ rest, line + 1, 0, index + 1⟩) rest (line + 1) 0
    (index + 1) width rfl ahead (indentation width ++ rest).length
  rw [Nat.zero_add] at spaces
  exact spaces

/-! ## Scalars -/

/-- The first character of the next token sets what the token is. -/
theorem next_of_beginsPlain {c : Char} (begins : BeginsPlain c rest)
    (noMarker : lexer.cursor.atDocumentMarker = false) (inBlock : lexer.outerKeys = []) :
    lexer.next c rest = lexer.plainScalar := by
  rw [Cursor.atDocumentMarker, Bool.or_eq_false_iff] at noMarker
  have notInFlow : lexer.inFlow = false := by
    rw [inFlow, inBlock]
    rfl
  obtain ⟨notGap, notIndicator, notMark⟩ := begins
  simp only [isIndicator, List.mem_cons, List.not_mem_nil, or_false, decide_eq_false_iff_not,
    not_or] at notIndicator
  simp only [Bool.and_eq_false_iff, Bool.or_eq_false_iff, decide_eq_false_iff_not] at notMark
  have begins : (beginsPlain c || c = '-' || c = '?' || c = ':') = true := by
    rw [isGap, Bool.or_eq_false_iff] at notGap
    by_cases isMark : c = '-' ∨ c = '?' ∨ c = ':'
    · simpa [or_assoc] using Or.inr isMark
    · simp only [not_or] at isMark
      simp [beginsPlain, notGap, isFlowMark, notIndicator, isMark]
  have notMarked (mark : Char) (isMark : mark = '?' ∨ mark = ':' ∨ mark = '-') :
      (c = mark && atGap rest) = false := by
    rcases notMark with different | noGap
    · rcases isMark with rfl | rfl | rfl <;> simp [different]
    · rw [noGap, Bool.and_false]
  rw [next]
  simp [notIndicator, noMarker, notInFlow, begins, notMarked]

theorem next_of_quote {quote : Char} (isQuote : quote = '\'' ∨ quote = '"')
    (notFirst : lexer.cursor.column ≠ 0) :
    lexer.next quote rest =
      lexer.quotedScalar quote (if quote = '\'' then .singleQuoted else .doubleQuoted) := by
  have noMarker := Cursor.atMarker_of_column notFirst
  rcases isQuote with rfl | rfl
  · rw [next]
    simp [noMarker]
  · rw [next]
    simp [noMarker]

theorem next_of_bar (notFirst : lexer.cursor.column ≠ 0) (inBlock : lexer.outerKeys = []) :
    lexer.next '|' rest = lexer.blockScalar .literal := by
  have noMarker := Cursor.atMarker_of_column notFirst
  have notInFlow : lexer.inFlow = false := by
    rw [inFlow, inBlock]
    rfl
  rw [next]
  simp [noMarker, notInFlow]

variable {outer : Nat} {others : List Nat} {text : List Char}

theorem noteKey_atValue (cursor : Cursor) :
    (atValue tokens indents cursor).noteKey = some (atValue tokens indents cursor) :=
  if_neg Bool.false_ne_true

theorem plainScalar_atValue (plain : IsPlain text) (inside : outer < column) (outside : width ≤ outer)
    (ahead : NoneAhead isGap rest) :
    (atValue tokens (outer :: others)
        ⟨text ++ '\n' :: (indentation width ++ rest), line, column, index⟩).plainScalar =
      some (atLine (tokens ++ [.scalar .plain (String.ofList text)]) (outer :: others)
        ⟨rest, line + 1, width, index + text.length + 1 + width⟩) := by
  have read := @IsPlain.read text rest plain (outer + 1) width (by omega) ahead line column index
    ((text ++ '\n' :: (indentation width ++ rest)).length + 1) (by omega)
    (by rw [List.length_append]; omega)
  rw [plainScalar, noteKey_atValue]
  simp only [atValue, inFlow, floor, indent?, List.isEmpty_nil, Bool.not_true, List.head?_cons,
    Option.elim_some, Option.bind_eq_bind, Option.bind_some, read]
  simp [atLine, allowKey, emitRead, emit]

theorem quotedScalar_atValue {quote : Char} {style : ScalarStyle} {body : List Char}
    {lastLine lastColumn lastIndex : Nat}
    (read : (⟨body, line, column + 1, index + 1⟩ : Cursor).quoted quote (body.length + 1) =
      some (text, ⟨rest, lastLine, lastColumn, lastIndex⟩)) :
    (atValue tokens indents ⟨quote :: body, line, column, index⟩).quotedScalar quote style =
      some (atValue (tokens ++ [.scalar style (String.ofList text)]) indents
        ⟨rest, lastLine, lastColumn, lastIndex⟩) := by
  rw [quotedScalar, noteKey_atValue]
  simp only [atValue, Cursor.skip, Cursor.onLine, List.drop_one, List.tail_cons, Option.bind_eq_bind,
    Option.bind_some, read]
  simp [allowKey, emitRead, emit]

theorem blockScalar_atValue {body : List Char} {lastLine lastColumn lastIndex : Nat}
    (read : (⟨body, line, column + 1, index + 1⟩ : Cursor).block .literal (some outer) =
      some (text, ⟨rest, lastLine, lastColumn, lastIndex⟩)) :
    (atValue tokens (outer :: others) ⟨'|' :: body, line, column, index⟩).blockScalar .literal =
      some (atLine (tokens ++ [.scalar .literal (String.ofList text)]) (outer :: others)
        ⟨rest, lastLine, lastColumn, lastIndex⟩) := by
  rw [blockScalar, dropKey, if_neg (by simp [atValue])]
  simp only [atValue, Cursor.skip, Cursor.onLine, List.drop_one, List.tail_cons, Option.bind_eq_bind,
    Option.bind_some, indent?, List.head?_cons, read]
  simp [atLine, allowKey, emitRead, emit]

/-! ## Values in each style -/

/-- The lexer reads the text at a value as one token, and comes to the next line after it. -/
def ReadsValue (written : List Char) (style : ScalarStyle) (text : List Char) (outer : Nat) : Prop :=
  ∀ (tokens : List Token) (others : List Nat) (width : Nat) (rest : List Char)
    (line column index : Nat), width ≤ outer → NoneAhead isPassedOver rest → outer < column →
    ∃ c more after, written ++ (indentation width ++ rest) = c :: more ∧ isPassedOver c = false ∧
      (atValue tokens (outer :: others) ⟨c :: more, line, column, index⟩).next c more = some after ∧
      after.ComesTo (tokens ++ [.scalar style (String.ofList text)]) (outer :: others) width rest

theorem noneAhead_isGap (ahead : NoneAhead isPassedOver rest) : NoneAhead isGap rest :=
  ahead.mono fun c gap => by rw [isPassedOver, gap, Bool.true_or, Bool.true_or]

theorem atGap_append_feed (text rest : List Char) : atGap (text ++ '\n' :: rest) = atGap text := by
  cases text <;> rfl

theorem readsValue_plain (allowed : allowsPlain text = true) (notEmpty : text ≠ []) (outer : Nat) :
    ReadsValue (text ++ ['\n']) .plain text outer := by
  intro tokens others width rest line column index outside ahead inside
  rcases text with _ | ⟨c, text⟩
  · exact absurd rfl notEmpty
  obtain ⟨notGap, notIndicator, notMark⟩ := beginsPlain_of_allowsPlain allowed
  have opens : isPassedOver c = false := by
    have printable : isPrintable c = true := by
      simp only [allowsPlain, Bool.and_eq_true, List.all_cons] at allowed
      exact allowed.1.1.1.1.1
    have notNumberSign : decide (c = '#') = false := by
      rw [decide_eq_false_iff_not]
      rintro rfl
      exact absurd notIndicator (by decide)
    have notOrderMark : decide (c = '\uFEFF') = false := by
      rw [decide_eq_false_iff_not]
      rintro rfl
      exact absurd printable (by decide)
    rw [isPassedOver, notGap, notNumberSign, notOrderMark, Bool.or_self, Bool.or_self]
  have begins : BeginsPlain c (text ++ '\n' :: (indentation width ++ rest)) :=
    ⟨notGap, notIndicator, by rw [atGap_append_feed, notMark]⟩
  have notFirst : column ≠ 0 := Nat.ne_of_gt (Nat.zero_lt_of_lt inside)
  refine ⟨c, text ++ '\n' :: (indentation width ++ rest),
    atLine _ _ ⟨rest, line + 1, width, index + (c :: text).length + 1 + width⟩, by simp, opens, ?_,
    atLine_comesTo ahead⟩
  rw [next_of_beginsPlain begins (Cursor.atDocumentMarker_of_column notFirst) rfl]
  exact plainScalar_atValue (isPlain_of_allowsPlain allowed) inside outside (noneAhead_isGap ahead)

theorem readsValue_singleQuoted (single : IsSingleQuoted text) (outer : Nat) :
    ReadsValue ('\'' :: singleQuotedBody (outer + 2) false text ++ ['\'', '\n']) .singleQuoted text
      outer := by
  intro tokens others width rest line column index outside ahead inside
  have length := length_le_singleQuotedBody (outer + 2) text false
  obtain ⟨lastLine, lastColumn, lastIndex, read⟩ :=
    @IsSingleQuoted.read text single (outer + 2) (Nat.succ_ne_zero _)
      ('\n' :: (indentation width ++ rest)) (noneAhead_cons.2 rfl) line (column + 1) (index + 1)
      ((singleQuotedBody (outer + 2) false text ++ '\'' :: '\n' :: (indentation width ++ rest)).length + 1)
      (Nat.succ_ne_zero _) (by rw [List.length_append]; omega)
  refine ⟨'\'', singleQuotedBody (outer + 2) false text ++ '\'' :: '\n' :: (indentation width ++ rest),
    atValue _ _ ⟨'\n' :: (indentation width ++ rest), lastLine, lastColumn, lastIndex⟩, by simp, rfl, ?_,
    atValue_comesTo ahead⟩
  rw [next_of_quote (.inl rfl) (Nat.ne_of_gt (Nat.zero_lt_of_lt inside))]
  exact quotedScalar_atValue read

theorem readsValue_doubleQuoted (text : List Char) (outer : Nat) :
    ReadsValue ('"' :: doubleQuotedBody text ++ ['"', '\n']) .doubleQuoted text outer := by
  intro tokens others width rest line column index outside ahead inside
  have length := length_le_doubleQuotedBody text
  obtain ⟨lastLine, lastColumn, lastIndex, read⟩ :=
    @read_doubleQuotedBody text ('\n' :: (indentation width ++ rest)) line (column + 1) (index + 1)
      ((doubleQuotedBody text ++ '"' :: '\n' :: (indentation width ++ rest)).length + 1)
      (Nat.succ_ne_zero _) (by rw [List.length_append]; omega)
  refine ⟨'"', doubleQuotedBody text ++ '"' :: '\n' :: (indentation width ++ rest),
    atValue _ _ ⟨'\n' :: (indentation width ++ rest), lastLine, lastColumn, lastIndex⟩, by simp, rfl, ?_,
    atValue_comesTo ahead⟩
  rw [next_of_quote (.inr rfl) (Nat.ne_of_gt (Nat.zero_lt_of_lt inside))]
  exact quotedScalar_atValue read

theorem readsValue_literal (printable : text.all isPrintable = true) (notEmpty : text ≠ [])
    (outer : Nat) :
    ReadsValue ('|' :: blockHints text ++ '\n' :: endLine (blockBody (outer + 2) true text)) .literal
      text outer := by
  intro tokens others width rest line column index outside ahead inside
  obtain ⟨lastLine, lastIndex, read⟩ :=
    Cursor.block_read printable notEmpty outside (noneAhead_isGap ahead) line (column + 1) (index + 1)
  refine ⟨'|', blockHints text ++ '\n' :: (endLine (blockBody (outer + 2) true text) ++
      (indentation width ++ rest)),
    atLine _ _ ⟨rest, lastLine, width, lastIndex⟩, by simp, rfl, ?_, atLine_comesTo ahead⟩
  rw [next_of_bar (Nat.ne_of_gt (Nat.zero_lt_of_lt inside)) rfl]
  exact blockScalar_atValue read

end Lexer

/-! ## Values -/

/-- The styles of texts, and what they ask of a text. -/
theorem styleOf_cases (text : String) :
    (styleOf text = .literal ∧ allowsBlock text.toList = true ∧ '\n' ∈ text.toList) ∨
    (styleOf text = .plain ∧ allowsPlain text.toList = true ∧ isAmbiguous text = false) ∨
    (styleOf text = .singleQuoted ∧ allowsSingleQuotes text.toList = true ∧ '\n' ∉ text.toList) ∨
    styleOf text = .doubleQuoted := by
  unfold styleOf
  by_cases hasFeed : '\n' ∈ text.toList
  · cases allowed : allowsBlock text.toList with
    | true => exact .inl ⟨by simp [hasFeed, allowed], rfl, hasFeed⟩
    | false => exact .inr (.inr (.inr (by simp [hasFeed, allowed])))
  · by_cases plain : isAmbiguous text = false ∧ allowsPlain text.toList = true
    · exact .inr (.inl ⟨by simp [hasFeed, plain], plain.2, plain.1⟩)
    · have notPlain : (!isAmbiguous text && allowsPlain text.toList) = false := by
        simpa [Bool.and_eq_false_iff, not_and] using plain
      cases allowed : allowsSingleQuotes text.toList with
      | true => exact .inr (.inr (.inl ⟨by simp [hasFeed, notPlain, allowed], rfl, hasFeed⟩))
      | false => exact .inr (.inr (.inr (by simp [hasFeed, notPlain, allowed])))

theorem getLast?_isBreak_of_allowsPlain {text : List Char} (allowed : allowsPlain text = true) :
    text.getLast?.any isBreak = false := by
  simp only [allowsPlain, Bool.and_eq_true, Bool.not_eq_true', List.any_eq_false] at allowed
  cases isLast : text.getLast? with
  | none => rfl
  | some c => exact Bool.eq_false_iff.2 (allowed.1.1.1.2 c (List.mem_of_getLast? isLast))

/-- A text that is written as a value is read as that text. -/
theorem readsValue_text (text : String) (outer : Nat) :
    Lexer.ReadsValue (endLine (writeScalar (outer + 2) text)) (styleOf text) text.toList outer := by
  rcases styleOf_cases text with ⟨style, allowed, hasFeed⟩ | ⟨style, allowed, clear⟩ |
    ⟨style, allowed, noFeed⟩ | style
  · have notEmpty : text.toList ≠ [] := List.ne_nil_of_mem hasFeed
    have printable : text.toList.all isPrintable = true := by
      simp only [allowsBlock, Bool.and_eq_true] at allowed
      exact allowed.1.1
    have bodyNotEmpty : blockBody (outer + 2) true text.toList ≠ [] := by
      have length := length_le_blockBody (outer + 2) text.toList true
      have positive := List.length_pos_iff.2 notEmpty
      exact List.length_pos_iff.1 (by omega)
    have written : endLine (writeScalar (outer + 2) text) =
        '|' :: blockHints text.toList ++ '\n' :: endLine (blockBody (outer + 2) true text.toList) := by
      have ends := endLine_append ('|' :: blockHints text.toList ++ ['\n']) bodyNotEmpty
      simpa [writeScalar, style] using ends
    rw [written, style]
    exact Lexer.readsValue_literal printable notEmpty outer
  · have notEmpty : text.toList ≠ [] := by
      intro isEmpty
      have isNil : text = "" := String.toList_inj.1 isEmpty
      subst isNil
      exact absurd clear (by decide)
    have written : endLine (writeScalar (outer + 2) text) = text.toList ++ ['\n'] := by
      simp only [writeScalar, style]
      exact endLine_of_not_break (getLast?_isBreak_of_allowsPlain allowed)
    rw [written, style]
    exact Lexer.readsValue_plain allowed notEmpty outer
  · have written : endLine (writeScalar (outer + 2) text) =
        '\'' :: singleQuotedBody (outer + 2) false text.toList ++ ['\'', '\n'] := by
      simp only [writeScalar, style]
      rw [endLine_of_not_break (by rw [List.getLast?_concat]; rfl), List.append_assoc]
      rfl
    have single : IsSingleQuoted text.toList := by
      simp only [allowsSingleQuotes, hasSpaceBeforeBreak, Bool.and_eq_true, Bool.not_eq_true'] at allowed
      exact ⟨allowed.1.1, noFeed, allowed.1.2, allowed.2⟩
    rw [written, style]
    exact Lexer.readsValue_singleQuoted single outer
  · have written : endLine (writeScalar (outer + 2) text) =
        '"' :: doubleQuotedBody text.toList ++ ['"', '\n'] := by
      simp only [writeScalar, style]
      rw [endLine_of_not_break (by rw [List.getLast?_concat]; rfl), List.append_assoc]
      rfl
    rw [written, style]
    exact Lexer.readsValue_doubleQuoted text.toList outer

theorem readsValue_flag (value : Bool) (outer : Nat) :
    Lexer.ReadsValue (endLine (toString value).toList) .plain (toString value).toList outer := by
  have allowed : allowsPlain (toString value).toList = true := by
    cases value <;> decide
  have notEmpty : (toString value).toList ≠ [] := by
    cases value <;> decide
  rw [endLine_of_not_break (getLast?_isBreak_of_allowsPlain allowed)]
  exact Lexer.readsValue_plain allowed notEmpty outer

/-! ## The characters that are written -/

theorem all_isAllowed_indentation (width : Nat) : (indentation width).all isAllowed = true := by
  rw [indentation, List.all_replicate]
  split <;> rfl

theorem all_isAllowed_of_isPrintable {text : List Char} (printable : text.all isPrintable = true) :
    text.all isAllowed = true :=
  List.all_eq_true.2 fun c member => isAllowed_of_isPrintable (List.all_eq_true.1 printable c member)

theorem all_isAllowed_singleQuotedBody (indent : Nat) {text : List Char}
    (allowed : text.all isAllowed = true) (afterBreak : Bool) :
    (singleQuotedBody indent afterBreak text).all isAllowed = true := by
  have pad (padded : Bool) : (if padded then indentation indent else []).all isAllowed = true := by
    cases padded with
    | true => exact all_isAllowed_indentation indent
    | false => rfl
  induction text generalizing afterBreak with
  | nil =>
      exact pad afterBreak
  | cons c text inductionHypothesis =>
      rw [List.all_cons, Bool.and_eq_true] at allowed
      rw [singleQuotedBody]
      split
      next =>
          rw [List.all_cons, allowed.1, inductionHypothesis allowed.2 true, Bool.and_self]
      next =>
          have written : (if c = '\'' then ['\'', '\''] else [c]).all isAllowed = true := by
            split
            next => decide
            next => rw [List.all_cons, allowed.1]; rfl
          rw [List.all_append, List.all_append, pad afterBreak, written,
            inductionHypothesis allowed.2 false, Bool.and_self, Bool.and_self]

theorem all_isAllowed_blockBody (indent : Nat) {text : List Char}
    (allowed : text.all isAllowed = true) (atStart : Bool) :
    (blockBody indent atStart text).all isAllowed = true := by
  induction text generalizing atStart with
  | nil =>
      rfl
  | cons c text inductionHypothesis =>
      rw [List.all_cons, Bool.and_eq_true] at allowed
      rw [blockBody]
      split
      next =>
          rw [List.all_cons, allowed.1, inductionHypothesis allowed.2 true, Bool.and_self]
      next =>
          have pad : (if atStart then indentation indent else []).all isAllowed = true := by
            cases atStart with
            | true => exact all_isAllowed_indentation indent
            | false => rfl
          rw [List.all_append, List.all_cons, pad, allowed.1, inductionHypothesis allowed.2 false,
            Bool.and_self, Bool.and_self]

theorem all_isAllowed_blockHints (text : List Char) : (blockHints text).all isAllowed = true := by
  rw [blockHints_eq]
  cases beginsWithGap text <;> cases blockChomping text <;> decide

theorem all_isAllowed_hexDigits (width value : Nat) :
    ((Text.hexDigits width value).map Char.toUpper).all isAllowed = true := by
  have digit : ∀ value < 16, isAllowed (Text.hexDigit value).toUpper = true := by decide
  induction width with
  | zero => rfl
  | succ width inductionHypothesis =>
      rw [Text.hexDigits, List.map_cons, List.all_cons, digit _ (Nat.mod_lt _ (by decide)),
        inductionHypothesis, Bool.and_self]

theorem all_isAllowed_escape (c : Char) : (escape c).all isAllowed = true := by
  have number (mark : Char) (allowed : isAllowed mark = true) (width : Nat) :
      ('\\' :: mark :: (Text.hexDigits width c.toNat).map Char.toUpper).all isAllowed = true := by
    rw [List.all_cons, List.all_cons, allowed, all_isAllowed_hexDigits]
    rfl
  rw [escape]
  split
  next letter isLetter =>
      have allowed : isAllowed letter = true := by
        unfold escapeLetter? at isLetter
        split at isLetter <;> cases isLetter <;> decide
      rw [List.all_cons, List.all_cons, allowed]
      rfl
  split
  next => exact number 'x' rfl 2
  split
  next => exact number 'u' rfl 4
  next => exact number 'U' rfl 8

theorem all_isAllowed_doubleQuotedBody (text : List Char) :
    (doubleQuotedBody text).all isAllowed = true := by
  induction text with
  | nil =>
      rfl
  | cons c text inductionHypothesis =>
      rw [← List.singleton_append, doubleQuotedBody_append, List.all_append, inductionHypothesis,
        Bool.and_true, doubleQuotedBody_singleton]
      split
      next => exact all_isAllowed_escape c
      next isPlain =>
          simp only [Bool.not_eq_true, Bool.or_eq_false_iff, Bool.not_eq_false'] at isPlain
          rw [List.all_cons, isAllowed_of_isPrintable isPlain.1.1.1]
          rfl

theorem all_isAllowed_endLine {text : List Char} (allowed : text.all isAllowed = true) :
    (endLine text).all isAllowed = true := by
  rw [endLine]
  split
  next => exact allowed
  next => rw [List.all_append, allowed]; rfl

/-- A value is written in characters that a document may hold. -/
theorem all_isAllowed_writeScalar (indent : Nat) (text : String) :
    (writeScalar indent text).all isAllowed = true := by
  rcases styleOf_cases text with ⟨style, allowed, _⟩ | ⟨style, allowed, _⟩ | ⟨style, allowed, _⟩ | style
  · simp only [allowsBlock, Bool.and_eq_true] at allowed
    have body := all_isAllowed_blockBody indent (all_isAllowed_of_isPrintable allowed.1.1) true
    simp only [writeScalar, style, List.all_append, List.all_cons, all_isAllowed_blockHints, body]
    rfl
  · simp only [allowsPlain, Bool.and_eq_true] at allowed
    simp only [writeScalar, style, all_isAllowed_of_isPrintable allowed.1.1.1.1]
  · simp only [allowsSingleQuotes, Bool.and_eq_true] at allowed
    have body :=
      all_isAllowed_singleQuotedBody indent (all_isAllowed_of_isPrintable allowed.1.1) false
    simp only [writeScalar, style, List.all_append, List.all_cons, body]
    rfl
  · simp only [writeScalar, style, List.all_append, List.all_cons, all_isAllowed_doubleQuotedBody]
    rfl

end ContentTyping.Yaml

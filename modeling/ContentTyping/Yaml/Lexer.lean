import ContentTyping.Yaml.Property
import ContentTyping.Yaml.Scalar

/-!
# Reading tokens

Tokens are read from left to right. Indentation opens and closes blocks, and a part of a line
turns out to be a key only when the colon after it is met, so that the marks of a key and of its
mapping are put in front of tokens already read.
-/

namespace ContentTyping.Yaml

/-- A token that may turn out to be the beginning of a key. -/
structure PossibleKey where
  /-- The number of tokens before it. -/
  place : Nat
  line : Nat
  column : Nat
  index : Nat
  /-- At the column of its block there can be nothing but a key. -/
  required : Bool

/-- How far a document is read. -/
structure Lexer where
  cursor : Cursor
  tokens : Array Token := #[]
  /-- The columns of the open blocks, the innermost first. -/
  indents : List Nat := []
  /-- The possible key on this level of flow collections. -/
  key : Option PossibleKey := none
  /-- Those on the levels around it. -/
  outerKeys : List (Option PossibleKey) := []
  /-- May a key begin here? -/
  keyAllowed : Bool := true

namespace Lexer

/-! ## Parts of a step -/

/-- The lexer is within a flow collection. -/
def inFlow (lexer : Lexer) : Bool :=
  !lexer.outerKeys.isEmpty

/-- The column of the innermost open block. -/
def indent? (lexer : Lexer) : Option Nat :=
  lexer.indents.head?

/-- The column at which text of the innermost block may begin. -/
def floor (lexer : Lexer) : Nat :=
  lexer.indent?.elim 0 (· + 1)

/-- One more token. -/
def emit (lexer : Lexer) (token : Token) : Lexer :=
  { lexer with tokens := lexer.tokens.push token }

/-- Go on by some characters of a line. -/
def skip (lexer : Lexer) (count : Nat) : Lexer :=
  { lexer with cursor := lexer.cursor.skip count }

/-- Close the innermost blocks as long as their columns are too deep. In a flow collection
columns do not count. -/
def closeBlocks (lexer : Lexer) (isDeeper : Nat → Bool) : Lexer :=
  if lexer.inFlow then lexer
  else
    { lexer with
      tokens := lexer.tokens ++
        (lexer.indents.takeWhile isDeeper).toArray.map fun _ => Token.blockEnd
      indents := lexer.indents.dropWhile isDeeper }

/-- Close all blocks. -/
def closeAll (lexer : Lexer) : Lexer :=
  lexer.closeBlocks fun _ => true

/-- Open a block at a column that lies deeper than the block around it. Its mark goes before
the tokens from `place` on. -/
def openBlock (lexer : Lexer) (column place : Nat) (mark : Token) : Lexer :=
  if lexer.inFlow || lexer.indent?.any (column ≤ ·) then lexer
  else
    { lexer with
      tokens := lexer.tokens.insertIdxIfInBounds place mark
      indents := column :: lexer.indents }

/-- Open a block at the column of the cursor, where a key must be allowed. -/
def openBlockHere (lexer : Lexer) (mark : Token) : Option Lexer :=
  if lexer.inFlow then some lexer
  else if lexer.keyAllowed then
    some (lexer.openBlock lexer.cursor.column lexer.tokens.size mark)
  else none

/-- Give up the possible key, which must not be a required one. -/
def dropKey (lexer : Lexer) : Option Lexer :=
  if lexer.key.any (·.required) then none else some { lexer with key := none }

/-- A key may begin here. -/
def noteKey (lexer : Lexer) : Option Lexer :=
  if lexer.keyAllowed then do
    let dropped ← lexer.dropKey
    let cursor := lexer.cursor
    pure { dropped with
      key := some ⟨lexer.tokens.size, cursor.line, cursor.column, cursor.index,
        !lexer.inFlow && lexer.indent? = some cursor.column⟩ }
  else some lexer

/-- Set whether a key may begin next. -/
def allowKey (lexer : Lexer) (allowed : Bool) : Lexer :=
  { lexer with keyAllowed := allowed }

/-- A key ends on its line, and within 1024 characters. -/
def keyReaches (key : PossibleKey) (cursor : Cursor) : Bool :=
  key.line = cursor.line && cursor.index ≤ key.index + 1024

/-- A token of some characters, with none of them left. -/
def emitMark (lexer : Lexer) (count : Nat) (mark : Token) : Lexer :=
  (lexer.skip count).emit mark

/-- A token that was read by itself. -/
def emitRead (lexer : Lexer) (token : Token) (cursor : Cursor) : Lexer :=
  { lexer with cursor := cursor }.emit token

/-! ## Steps -/

/-- Go on over blanks, comments and empty lines. A tabulator is no blank where a key of a block
may begin. A mark of the byte order at the beginning of a line takes up a column. -/
def toNextToken : Nat → Lexer → Lexer
  | 0, lexer => lexer
  | steps + 1, lexer =>
    let cursor := lexer.cursor
    let cursor := if cursor.column = 0 && cursor.sees '\uFEFF' then cursor.skip 1 else cursor
    let tabs := lexer.inFlow || !lexer.keyAllowed
    let cursor := cursor.skipAll fun c => c = ' ' || (tabs && c = '\t')
    let cursor := if cursor.sees '#' then cursor.skipAll (!isBreak ·) else cursor
    match cursor.newLine? with
    | some (_, next) =>
      toNextToken steps
        { lexer with cursor := next, keyAllowed := lexer.keyAllowed || !lexer.inFlow }
    | none => { lexer with cursor := cursor }

/-- A line that belongs to no block: a directive or a marker. -/
def leaveBlocks (lexer : Lexer) : Option Lexer :=
  lexer.closeAll.dropKey.map (·.allowKey false)

/-- The beginning of a flow collection, which may be a key as a whole. -/
def openFlow (lexer : Lexer) (mark : Token) : Option Lexer :=
  lexer.noteKey.map fun noted =>
    { noted with key := none, outerKeys := noted.key :: noted.outerKeys, keyAllowed := true }
      |>.emitMark 1 mark

/-- The end of a flow collection. -/
def closeFlow (lexer : Lexer) (mark : Token) : Option Lexer :=
  lexer.dropKey.map fun dropped =>
    let left :=
      match dropped.outerKeys with
      | key :: outer => { dropped with key := key, outerKeys := outer }
      | [] => dropped
    (left.allowKey false).emitMark 1 mark

/-- The comma of a flow collection. -/
def flowEntry (lexer : Lexer) : Option Lexer :=
  lexer.dropKey.map fun dropped => (dropped.allowKey true).emitMark 1 .flowEntry

/-- The hyphen of a sequence. -/
def blockEntry (lexer : Lexer) : Option Lexer := do
  let opened ← lexer.openBlockHere .blockSequenceStart
  let dropped ← opened.dropKey
  pure ((dropped.allowKey true).emitMark 1 .blockEntry)

/-- The question mark of a key that is not on one line. -/
def longKey (lexer : Lexer) : Option Lexer := do
  let opened ← lexer.openBlockHere .blockMappingStart
  let dropped ← opened.dropKey
  pure ((dropped.allowKey !lexer.inFlow).emitMark 1 .key)

/-- The colon after a key. -/
def valueMark (lexer : Lexer) : Option Lexer :=
  match lexer.key.filter (keyReaches · lexer.cursor) with
  | some key =>
    let marked :=
      { lexer with tokens := lexer.tokens.insertIdxIfInBounds key.place .key, key := none }
    some (((marked.openBlock key.column key.place .blockMappingStart).allowKey false).emitMark 1
      .value)
  | none => do
    let dropped ← lexer.dropKey
    let opened ← dropped.openBlockHere .blockMappingStart
    pure ((opened.allowKey !lexer.inFlow).emitMark 1 .value)

/-- A name after a mark, an alias or an anchor. -/
def named (lexer : Lexer) (token : String → Token) : Option Lexer := do
  let noted ← lexer.noteKey
  let (name, after) ← (noted.cursor.skip 1).anchorName
  pure ((noted.allowKey false).emitRead (token name) after)

/-- A tag. -/
def tagged (lexer : Lexer) : Option Lexer := do
  let noted ← lexer.noteKey
  let (token, after) ← noted.cursor.tag lexer.inFlow
  pure ((noted.allowKey false).emitRead token after)

/-- A block scalar. -/
def blockScalar (lexer : Lexer) (style : ScalarStyle) : Option Lexer := do
  let dropped ← lexer.dropKey
  let (text, after) ← (dropped.cursor.skip 1).block style lexer.indent?
  pure ((dropped.allowKey true).emitRead (.scalar style (String.ofList text)) after)

/-- A quoted scalar. -/
def quotedScalar (lexer : Lexer) (quote : Char) (style : ScalarStyle) : Option Lexer := do
  let noted ← lexer.noteKey
  let body := noted.cursor.skip 1
  let (text, after) ← body.quoted quote (body.rest.length + 1)
  pure ((noted.allowKey false).emitRead (.scalar style (String.ofList text)) after)

/-- A plain scalar. -/
def plainScalar (lexer : Lexer) : Option Lexer := do
  let noted ← lexer.noteKey
  let (text, after, onNewLine) ←
    noted.cursor.plain lexer.inFlow lexer.floor (noted.cursor.rest.length + 1)
  pure ((noted.allowKey onNewLine).emitRead (.scalar .plain (String.ofList text)) after)

/-- A character that begins a plain scalar wherever it stands. -/
def beginsPlain (c : Char) : Bool :=
  !isBlank c && !isBreak c && !isFlowMark c &&
    c ∉ ['-', '?', ':', '#', '&', '*', '!', '|', '>', '\'', '"', '%', '@', '\x60']

/-- The next token, which begins with the character `c` before `rest`. -/
def next (lexer : Lexer) (c : Char) (rest : List Char) : Option Lexer :=
  let cursor := lexer.cursor
  let inFlow := lexer.inFlow
  if cursor.column = 0 && c = '%' then do
    let left ← lexer.leaveBlocks
    let (token, after) ← (cursor.skip 1).directive
    pure (left.emitRead token after)
  else if cursor.atMarker '-' then lexer.leaveBlocks.map (·.emitMark 3 .documentStart)
  else if cursor.atMarker '.' then lexer.leaveBlocks.map (·.emitMark 3 .documentEnd)
  else if c = '[' then lexer.openFlow .flowSequenceStart
  else if c = '\x7b' then lexer.openFlow .flowMappingStart
  else if c = ']' then lexer.closeFlow .flowSequenceEnd
  else if c = '\x7d' then lexer.closeFlow .flowMappingEnd
  else if c = ',' then lexer.flowEntry
  else if c = '-' && atGap rest then lexer.blockEntry
  else if c = '?' && (inFlow || atGap rest) then lexer.longKey
  else if c = ':' && (inFlow || atGap rest) then lexer.valueMark
  else if c = '*' then lexer.named .alias
  else if c = '&' then lexer.named .anchor
  else if c = '!' then lexer.tagged
  else if c = '|' && !inFlow then lexer.blockScalar .literal
  else if c = '>' && !inFlow then lexer.blockScalar .folded
  else if c = '\'' then lexer.quotedScalar '\'' .singleQuoted
  else if c = '"' then lexer.quotedScalar '"' .doubleQuoted
  else if beginsPlain c || c = '-' || c = '?' || c = ':' then lexer.plainScalar
  else none

/-- The tokens up to the end of the document. -/
def run : Nat → Lexer → Option (List Token)
  | 0, _ => none
  | steps + 1, lexer =>
    let ready := lexer.toNextToken (lexer.cursor.rest.length + 1)
    let ready := ready.closeBlocks (ready.cursor.column < ·)
    match ready.cursor.rest with
    | [] => ready.leaveBlocks.map (·.tokens.toList)
    | c :: rest =>
      match ready.next c rest with
      | some after => run steps after
      | none => none

end Lexer

/-- The tokens of a document. -/
def tokenize? (text : List Char) : Option (List Token) :=
  if text.all isAllowed then Lexer.run (text.length + 1) { cursor := { rest := text } }
  else none

end ContentTyping.Yaml

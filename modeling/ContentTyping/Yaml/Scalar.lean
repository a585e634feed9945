import ContentTyping.Text.Blank
import ContentTyping.Yaml.Cursor
import ContentTyping.Yaml.Token

/-!
# Reading scalars

Plain and quoted scalars may run over several lines, which are folded into one: a single line
break becomes a space, of several the first is dropped. Block scalars keep or fold their lines
and are bounded by their indentation.
-/

namespace ContentTyping.Yaml

/-! ## Gaps between words -/

/-- What lies between two words of a scalar. -/
inductive Gap where
  | blanks (run : List Char)
  /-- Line breaks. The first is missing when it was escaped. -/
  | lines (first : Option Char) (more : List Char)

namespace Gap

/-- The text that a gap stands for. -/
def text : Gap → List Char
  | blanks run => run
  | lines (some '\n') [] => [' ']
  | lines (some '\n') more => more
  | lines first more => first.toList ++ more

/-- The gap goes over the end of a line. -/
def isLines : Gap → Bool
  | blanks _ => false
  | lines _ _ => true

/-- One more line break. -/
def addBreak (char : Char) : Gap → Gap
  | blanks _ => lines (some char) []
  | lines first more => lines first (more ++ [char])

/-- Some more blanks, which count only before the first line break. -/
def addBlanks (run : List Char) : Gap → Gap
  | blanks before => blanks (before ++ run)
  | lines first more => lines first more

end Gap

/-- Go on over blanks and line breaks. On a new line no tabulator may stand before the column
`floor`. -/
def Cursor.gap (floor : Nat) : Nat → Cursor → Gap → Option (Gap × Cursor)
  | 0, _, _ => none
  | steps + 1, cursor, gap =>
    let (run, after) := cursor.span isBlank
    let spaces := run.takeWhile (· = ' ')
    if gap.isLines && spaces.length < run.length && cursor.column + spaces.length < floor then
      none
    else
      match after.newLine? with
      | some (char, next) => next.gap floor steps ((gap.addBlanks run).addBreak char)
      | none => some (gap.addBlanks run, after)

/-! ## Plain scalars -/

/-- The characters of a plain scalar up to a blank, a line break or a mark that ends it. In a
flow collection a colon must not stand right before a mark of the collection. -/
def plainWord (inFlow : Bool) : List Char → Option (List Char × List Char)
  | [] => some ([], [])
  | c :: rest =>
    if isBlank c || isBreak c then some ([], c :: rest)
    else if inFlow && c = ':' && rest.head?.any (fun d => isFlowMark d || d = '?') then none
    else if (c = ':' && atGap rest) || (inFlow && isFlowMark c) then some ([], c :: rest)
    else (plainWord inFlow rest).map fun (word, after) => (c :: word, after)

/-- A plain scalar, the cursor after it, and whether that is on a new line. Outside of flow
collections a line that begins before the column `floor` ends the scalar. -/
def Cursor.plain (inFlow : Bool) (floor : Nat) :
    Nat → Cursor → Option (List Char × Cursor × Bool)
  | 0, _ => none
  | steps + 1, cursor =>
    if cursor.atDocumentMarker || cursor.sees '#' then some ([], cursor, false)
    else do
      let (word, rest) ← plainWord inFlow cursor.rest
      let after := cursor.onLine word.length rest
      if rest.isEmpty || !atGap rest then pure (word, after, false)
      else
        let (gap, next) ← after.gap floor (rest.length + 1) (.blanks [])
        if !inFlow && next.column < floor then pure (word, next, gap.isLines)
        else
          let (more, last, onNewLine) ← next.plain inFlow floor steps
          if more.isEmpty then pure (word, last, gap.isLines)
          else pure (word ++ gap.text ++ more, last, onNewLine)

/-! ## Quoted scalars -/

/-- The character that a letter after a backslash stands for. -/
def escaped? (c : Char) : Option Char :=
  match c with
  | '0' => some '\x00'
  | 'a' => some '\x07'
  | 'b' => some '\x08'
  | 't' => some '\t'
  | '\t' => some '\t'
  | 'n' => some '\n'
  | 'v' => some '\x0b'
  | 'f' => some '\x0c'
  | 'r' => some '\r'
  | 'e' => some '\x1b'
  | ' ' => some ' '
  | '"' => some '"'
  | '/' => some '/'
  | '\\' => some '\\'
  | 'N' => some '\u0085'
  | '_' => some '\u00a0'
  | 'L' => some '\u2028'
  | 'P' => some '\u2029'
  | _ => none

/-- The number of hexadecimal digits that a letter after a backslash asks for. -/
def escapeWidth? (c : Char) : Option Nat :=
  match c with
  | 'x' => some 2
  | 'u' => some 4
  | 'U' => some 8
  | _ => none

/-- The character whose number is written in hexadecimal digits. -/
def charOfHex? (digits : List Char) : Option Char := do
  let values ← digits.mapM Text.hexValue?
  let number := values.foldl (fun n digit => n * 16 + digit) 0
  if number.isValidChar then pure (Char.ofNat number) else none

/-- How a run of characters in quotes goes on. -/
inductive QuotedStop where
  /-- With a blank, a line break, the closing quote or the end of the document. -/
  | here
  /-- With a line break that a backslash stood before. -/
  | escapedBreak
  deriving DecidableEq

/-- Characters in quotes: their text, how many were read, what follows, and how. -/
structure QuotedWord where
  text : List Char
  count : Nat
  rest : List Char
  stop : QuotedStop

/-- Characters in single quotes, in which a quote is written twice. -/
def singleQuotedWord : List Char → QuotedWord
  | '\'' :: '\'' :: rest =>
    let more := singleQuotedWord rest
    { more with text := '\'' :: more.text, count := more.count + 2 }
  | c :: rest =>
    if c = '\'' || isBlank c || isBreak c then ⟨[], 0, c :: rest, .here⟩
    else
      let more := singleQuotedWord rest
      { more with text := c :: more.text, count := more.count + 1 }
  | [] => ⟨[], 0, [], .here⟩

/-- Characters in double quotes, with escapes that begin with a backslash. -/
def doubleQuotedWord : Nat → List Char → Option QuotedWord
  | 0, _ => none
  | steps + 1, '\\' :: c :: rest =>
    if isBreak c then some ⟨[], 1, c :: rest, .escapedBreak⟩
    else
      match escaped? c, escapeWidth? c with
      | some char, _ =>
        (doubleQuotedWord steps rest).map fun more =>
          { more with text := char :: more.text, count := more.count + 2 }
      | none, some width =>
        if rest.length < width then none
        else do
          let char ← charOfHex? (rest.take width)
          let more ← doubleQuotedWord steps (rest.drop width)
          pure { more with text := char :: more.text, count := more.count + 2 + width }
      | none, none => none
  | _ + 1, ['\\'] => none
  | steps + 1, c :: rest =>
    if c = '"' || isBlank c || isBreak c then some ⟨[], 0, c :: rest, .here⟩
    else
      (doubleQuotedWord steps rest).map fun more =>
        { more with text := c :: more.text, count := more.count + 1 }
  | _ + 1, [] => some ⟨[], 0, [], .here⟩

/-- The words of a scalar after its opening quote, and the cursor after the closing one. No
line of the scalar may begin with a document marker. -/
def Cursor.quoted (quote : Char) : Nat → Cursor → Option (List Char × Cursor)
  | 0, _ => none
  | steps + 1, cursor =>
    if cursor.atDocumentMarker then none
    else do
      let word ←
        if quote = '\'' then some (singleQuotedWord cursor.rest)
        else doubleQuotedWord (cursor.rest.length + 1) cursor.rest
      let after := cursor.onLine word.count word.rest
      let (start, after) :=
        match word.stop with
        | .here => (Gap.blanks [], after)
        | .escapedBreak => (Gap.lines none [], after.skipBreak)
      if after.sees quote then pure (word.text, after.skip 1)
      else if after.rest.isEmpty then none
      else
        let (gap, next) ← after.gap 0 (after.rest.length + 1) start
        let (more, last) ← next.quoted quote steps
        pure (word.text ++ gap.text ++ more, last)

/-! ## Block scalars -/

/-- What becomes of the line breaks at the end of a block scalar. -/
inductive Chomping where
  | strip
  | clip
  | keep
  deriving DecidableEq

/-- The chomping that a sign stands for. -/
def Chomping.ofSign? (c : Char) : Option Chomping :=
  if c = '-' then some .strip else if c = '+' then some .keep else none

/-- The signs at the head of a block scalar, in either order: how to chomp, and by how many
columns the scalar is indented when that is said. -/
def blockHead? : List Char → Option (Chomping × Option Nat × Nat)
  | c :: d :: _ =>
    match Chomping.ofSign? c, Chomping.ofSign? d with
    | some chomping, _ =>
      if d = '0' then none
      else if d.isDigit then some (chomping, some (d.toNat - 48), 2)
      else some (chomping, none, 1)
    | none, sign =>
      if c = '0' then none
      else if c.isDigit then
        match sign with
        | some chomping => some (chomping, some (c.toNat - 48), 2)
        | none => some (.clip, some (c.toNat - 48), 1)
      else some (.clip, none, 0)
  | [c] =>
    match Chomping.ofSign? c with
    | some chomping => some (chomping, none, 1)
    | none =>
      if c = '0' then none
      else if c.isDigit then some (.clip, some (c.toNat - 48), 1)
      else some (.clip, none, 0)
  | [] => some (.clip, none, 0)

/-- Go on over indentation and empty lines. Gives the breaks and the widest indentation met.
Without an indentation all spaces count as such; before its end no tabulator may stand. -/
def Cursor.emptyLines (indent : Option Nat) :
    Nat → Nat → Cursor → Option (List Char × Nat × Cursor)
  | 0, _, _ => none
  | steps + 1, widest, cursor =>
    let spaces := (cursor.rest.takeWhile (· = ' ')).length
    let cursor := cursor.skip (indent.elim spaces fun n => min spaces (n - cursor.column))
    let widest := max widest cursor.column
    if indent.all (cursor.column < ·) && cursor.sees '\t' then none
    else
      match cursor.newLine? with
      | none => some ([], widest, cursor)
      | some (char, next) =>
        (next.emptyLines indent steps widest).map fun (breaks, found) => (char :: breaks, found)

/-- The breaks after a line of a block scalar: the one that ends the line, and those of empty
lines. -/
structure BlockBreaks where
  first : Option Char
  more : List Char

/-- The breaks between two lines as text. A folded scalar joins two lines that do not begin
with a blank. -/
def BlockBreaks.join (breaks : BlockBreaks) (isFolded : Bool) : List Char :=
  if isFolded && breaks.first = some '\n' then
    if breaks.more.isEmpty then [' '] else breaks.more
  else breaks.first.toList ++ breaks.more

/-- The breaks at the end of a block scalar as text. -/
def BlockBreaks.chomp (breaks : BlockBreaks) : Chomping → List Char
  | .strip => []
  | .clip => breaks.first.toList
  | .keep => breaks.first.toList ++ breaks.more

/-- The lines of a block scalar with this indentation, after some breaks. `afterBlank` tells
whether the line before began with a blank. -/
def Cursor.blockLines (style : ScalarStyle) (chomping : Chomping) (indent : Nat) :
    Nat → BlockBreaks → Bool → Cursor → Option (List Char × Cursor)
  | 0, _, _, _ => none
  | steps + 1, breaks, afterBlank, cursor =>
    match cursor.next? with
    | none => some (breaks.chomp chomping, cursor)
    | some c =>
      if cursor.column ≠ indent then some (breaks.chomp chomping, cursor)
      else do
        let isFolded := style = .folded && !afterBlank && !isBlank c
        let (line, after) := cursor.span (!isBreak ·)
        let (first, after) :=
          match after.newLine? with
          | some (char, next) => (some char, next)
          | none => (none, after)
        let (more, _, next) ← after.emptyLines (some indent) (after.rest.length + 1) 0
        let (text, last) ←
          next.blockLines style chomping indent steps ⟨first, more⟩ (isBlank c)
        pure (breaks.join isFolded ++ line ++ text, last)

/-- A block scalar after its mark, in a block with this indentation. Where the indentation is
not said, the widest of the first empty lines and the first line of text sets it, but it is
deeper than that of the block around. -/
def Cursor.block (style : ScalarStyle) (outer : Option Nat) (cursor : Cursor) :
    Option (List Char × Cursor) := do
  let (chomping, increment, count) ← blockHead? cursor.rest
  let body ← (cursor.skip count).restOfLine
  let steps := body.rest.length + 1
  let least := outer.elim 0 (· + 1)
  let (breaks, widest, first) ←
    body.emptyLines (increment.map fun n => outer.getD 0 + n) steps 0
  let indent := increment.elim (max (max widest least) 1) fun n => outer.getD 0 + n
  first.blockLines style chomping indent steps ⟨none, breaks⟩ false

end ContentTyping.Yaml

import ContentTyping.Text.Blank
import ContentTyping.Text.Utf8
import ContentTyping.Yaml.Cursor
import ContentTyping.Yaml.Token

/-!
# Reading tags, anchors and directives

The names that nodes are marked with, and the lines at the head of a document that begin with
a percent sign.
-/

namespace ContentTyping.Yaml

/-! ## Tags -/

/-- A character of a tag. In angle brackets the marks of flow sequences may stand too. -/
def isTagChar (inBrackets : Bool) (c : Char) : Bool :=
  isWord c || c ∈ [';', '/', '?', ':', '@', '&', '=', '+', '$', '.', '%', '!', '~', '*', '\'',
    '(', ')'] || (inBrackets && (c = ',' || c = '[' || c = ']'))

/-- The byte that two hexadecimal digits after a percent sign write. -/
def escapedByte? : List Char → Option UInt8
  | '%' :: a :: b :: _ => do
    let high ← Text.hexValue? a
    let low ← Text.hexValue? b
    pure (high * 16 + low).toUInt8
  | _ => none

/-- The number of escaped bytes that make up a character with this first byte. -/
def escapedLength? (first : UInt8) : Option Nat :=
  if first < 0x80 then some 1
  else if 0xC0 ≤ first && first < 0xE0 then some 2
  else if 0xE0 ≤ first && first < 0xF0 then some 3
  else if 0xF0 ≤ first && first < 0xF8 then some 4
  else none

/-- Escaped bytes that go on with a character. -/
def escapedTail : Nat → List Char → Option (List UInt8 × List Char)
  | 0, text => some ([], text)
  | count + 1, text => do
    let byte ← escapedByte? text
    let (bytes, rest) ← escapedTail count (text.drop 3)
    if Text.isContinuation byte then pure (byte :: bytes, rest) else none

/-- A character that is escaped byte by byte. -/
def escapedChar (text : List Char) : Option (List UInt8 × List Char) := do
  let first ← escapedByte? text
  let length ← escapedLength? first
  let (bytes, rest) ← escapedTail (length - 1) (text.drop 3)
  pure (first :: bytes, rest)

/-- The bytes of a tag, and what follows it. -/
def tagBytes (inBrackets : Bool) : Nat → List Char → Option (List UInt8 × List Char)
  | 0, _ => none
  | _ + 1, [] => some ([], [])
  | steps + 1, c :: rest =>
    if !isTagChar inBrackets c then some ([], c :: rest)
    else do
      let (bytes, after) ← if c = '%' then escapedChar (c :: rest)
        else some ([c.toNat.toUInt8], rest)
      let (more, last) ← tagBytes inBrackets steps after
      pure (bytes ++ more, last)

/-- The text of a tag, which ends at a zero byte, and what follows it. -/
def tagText (inBrackets : Bool) (text : List Char) : Option (String × List Char) :=
  (tagBytes inBrackets (text.length + 1) text).map fun (bytes, rest) =>
    (Text.ofUtf8Lossy (bytes.takeWhile (· ≠ 0)), rest)

/-- A handle: a word between exclamation marks, of which the last may be missing. -/
def tagHandle : List Char → Option (List Char × List Char)
  | '!' :: rest =>
    let word := rest.takeWhile isWord
    match rest.dropWhile isWord with
    | '!' :: after => some ('!' :: word ++ ['!'], after)
    | after => some ('!' :: word, after)
  | _ => none

/-- The handle and the suffix of a tag, and what follows it. The tag of a single exclamation
mark has no handle. -/
def tagParts : List Char → Option (Token × List Char)
  | '!' :: '<' :: rest => do
    let (suffix, after) ← tagText true rest
    if after.length = rest.length then none
    else
      match after with
      | '>' :: last => pure (.tag "" suffix, last)
      | _ => none
  | text => do
    let (handle, after) ← tagHandle text
    if 2 ≤ handle.length && handle.getLast? = some '!' then
      let (suffix, last) ← tagText false after
      if last.length = after.length then none
      else pure (.tag (String.ofList handle) suffix, last)
    else
      let (suffix, last) ← tagText false after
      let suffix := String.ofList (handle.drop 1) ++ suffix
      if suffix.isEmpty then pure (.tag "" "!", last) else pure (.tag "!" suffix, last)

/-- A tag. A blank or a line break follows it, in a flow collection a comma may. -/
def Cursor.tag (inFlow : Bool) (cursor : Cursor) : Option (Token × Cursor) := do
  let (token, rest) ← tagParts cursor.rest
  if atGap rest || (inFlow && rest.head? = some ',') then
    pure (token, cursor.onLine (cursor.rest.length - rest.length) rest)
  else none

/-! ## Anchors -/

/-- What may follow the name of an anchor. -/
def endsName : List Char → Bool
  | c :: rest => c ∈ ['?', ':', ',', ']', '\x7d', '%', '@', '\x60'] || atGap (c :: rest)
  | [] => true

/-- The name of an anchor or an alias after its mark. -/
def Cursor.anchorName (cursor : Cursor) : Option (String × Cursor) :=
  let (name, after) := cursor.span isWord
  if name.isEmpty || !endsName after.rest then none else some (String.ofList name, after)

/-! ## Directives -/

/-- A number of at most nine digits. -/
def Cursor.shortNumber (cursor : Cursor) : Option (Nat × Cursor) :=
  let (digits, after) := cursor.span Char.isDigit
  if digits.isEmpty || 9 < digits.length then none
  else some (digits.foldl (fun n digit => n * 10 + (digit.toNat - 48)) 0, after)

/-- The number of the version that a document says it follows. -/
def Cursor.versionNumber (cursor : Cursor) : Option (Token × Cursor) := do
  let (major, after) ← (cursor.skipAll isBlank).shortNumber
  if after.sees '.' then
    let (minor, last) ← (after.skip 1).shortNumber
    pure (.version major minor, last)
  else none

/-- A handle and the beginning of tags that it abbreviates. -/
def Cursor.handleDefinition (cursor : Cursor) : Option (Token × Cursor) := do
  let start := cursor.skipAll isBlank
  let (handle, rest) ← tagHandle start.rest
  let closed := handle = ['!'] || (2 ≤ handle.length && handle.getLast? = some '!')
  let after := start.onLine handle.length rest
  if !closed || !after.next?.any isBlank then none
  else
    let stemStart := after.skipAll isBlank
    let (stem, last) ← tagText true stemStart.rest
    if last.length = stemStart.rest.length || !atGap last then none
    else
      pure (.tagHandle (String.ofList handle) stem,
        stemStart.onLine (stemStart.rest.length - last.length) last)

/-- A directive after its percent sign, with the end of its line. -/
def Cursor.directive (cursor : Cursor) : Option (Token × Cursor) := do
  let (name, after) := cursor.span isWord
  if !atGap after.rest then none
  else
    let (token, last) ←
      if name = ['Y', 'A', 'M', 'L'] then after.versionNumber
      else if name = ['T', 'A', 'G'] then after.handleDefinition
      else none
    pure (token, ← last.restOfLine)

end ContentTyping.Yaml

/-!
# Places in a document

The characters a document may hold, its line breaks and blanks, and a cursor that knows its
line and column.
-/

namespace ContentTyping.Yaml

/-! ## Characters -/

/-- A character that may stand in a document. -/
def isAllowed (c : Char) : Bool :=
  let n := c.toNat
  n = 0x09 || n = 0x0A || n = 0x0D || (0x20 ≤ n && n ≤ 0x7E) || n = 0x85 ||
    (0xA0 ≤ n && n ≤ 0xD7FF) || (0xE000 ≤ n && n ≤ 0xFFFD) || 0x10000 ≤ n

/-- A character that ends a line. -/
def isBreak (c : Char) : Bool :=
  c = '\n' || c = '\r' || c = '\u0085' || c = '\u2028' || c = '\u2029'

/-- A space or a tabulator. -/
def isBlank (c : Char) : Bool :=
  c = ' ' || c = '\t'

/-- A character of a name: an ASCII letter, a digit, a hyphen or an underscore. -/
def isWord (c : Char) : Bool :=
  c.isAlphanum || c = '-' || c = '_'

/-- One of the characters that give a flow collection its form. -/
def isFlowMark (c : Char) : Bool :=
  c = ',' || c = '[' || c = ']' || c = '\x7b' || c = '\x7d'

/-- Nothing but a blank, a line break or the end of the document comes next. -/
def atGap : List Char → Bool
  | [] => true
  | c :: _ => isBlank c || isBreak c

/-- A line break at the beginning of a text: the character it stands for, the number of
characters it takes, and the text after it. Two kinds of break stand for themselves, all others
for a line feed. -/
def lineBreak? : List Char → Option (Char × Nat × List Char)
  | '\r' :: '\n' :: rest => some ('\n', 2, rest)
  | c :: rest =>
    if c = '\u2028' || c = '\u2029' then some (c, 1, rest)
    else if isBreak c then some ('\n', 1, rest)
    else none
  | [] => none

/-! ## Cursors -/

/-- The text that is still to be read, and where it begins. -/
structure Cursor where
  rest : List Char
  line : Nat := 0
  column : Nat := 0
  index : Nat := 0

namespace Cursor

/-- The next character. -/
def next? (cursor : Cursor) : Option Char :=
  cursor.rest.head?

/-- Is this the next character? -/
def sees (cursor : Cursor) (c : Char) : Bool :=
  cursor.rest.head? = some c

/-- Go on by `count` characters of a line, to the text that comes after them. -/
def onLine (cursor : Cursor) (count : Nat) (rest : List Char) : Cursor :=
  ⟨rest, cursor.line, cursor.column + count, cursor.index + count⟩

/-- Go on by some characters of a line. -/
def skip (cursor : Cursor) (count : Nat) : Cursor :=
  cursor.onLine count (cursor.rest.drop count)

/-- The longest run of characters of a kind, and the cursor after it. -/
def span (cursor : Cursor) (kind : Char → Bool) : List Char × Cursor :=
  let run := cursor.rest.takeWhile kind
  (run, cursor.onLine run.length (cursor.rest.dropWhile kind))

/-- Go on over a run of characters of a kind. -/
def skipAll (cursor : Cursor) (kind : Char → Bool) : Cursor :=
  (cursor.span kind).2

/-- A line break, and the cursor at the beginning of the next line. -/
def newLine? (cursor : Cursor) : Option (Char × Cursor) :=
  match lineBreak? cursor.rest with
  | some (char, count, rest) => some (char, ⟨rest, cursor.line + 1, 0, cursor.index + count⟩)
  | none => none

/-- Go on over a line break, if there is one. -/
def skipBreak (cursor : Cursor) : Cursor :=
  match cursor.newLine? with
  | some (_, next) => next
  | none => cursor

/-- Three of these characters and a gap stand at the beginning of the line. -/
def atMarker (cursor : Cursor) (mark : Char) : Bool :=
  match cursor.rest with
  | a :: b :: c :: rest => cursor.column = 0 && a = mark && b = mark && c = mark && atGap rest
  | _ => false

/-- A marker of the beginning or the end of a document comes next. -/
def atDocumentMarker (cursor : Cursor) : Bool :=
  cursor.atMarker '-' || cursor.atMarker '.'

/-- Go on to the next line over blanks and a comment, and over nothing else. -/
def restOfLine (cursor : Cursor) : Option Cursor :=
  let cursor := cursor.skipAll isBlank
  let cursor := if cursor.sees '#' then cursor.skipAll (!isBreak ·) else cursor
  match cursor.rest with
  | [] => some cursor
  | c :: _ => if isBreak c then some cursor.skipBreak else none

end Cursor

end ContentTyping.Yaml

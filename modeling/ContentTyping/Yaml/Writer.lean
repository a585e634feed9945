import ContentTyping.Yaml.Cursor
import ContentTyping.Yaml.Meaning
import ContentTyping.Yaml.Token

/-!
# Writing scalars

A text is written without quotes where it can be. It takes single quotes where it would be read
as something else, double quotes where characters have to be escaped, and a block of its own
where it has several lines.
-/

namespace ContentTyping.Yaml

/-! ## What a text is like -/

/-- A character that is written as it is. -/
def isPrintable (c : Char) : Bool :=
  let n := c.toNat
  c = '\n' || (0x20 ≤ n && n ≤ 0x7E) || (0xA0 ≤ n && n ≤ 0xD7FF) ||
    (0xE000 ≤ n && n ≤ 0xFFFD && n ≠ 0xFEFF) || 0x10000 ≤ n

/-- Two neighbours in a text, the first and the second of these kinds. -/
def hasNeighbours (first second : Char → Bool) : List Char → Bool
  | a :: b :: rest => (first a && second b) || hasNeighbours first second (b :: rest)
  | _ => false

/-- A space, the only blank that is printable. -/
def isSpace (c : Char) : Bool := c = ' '

/-- A character that a plain scalar cannot begin with. -/
def isIndicator (c : Char) : Bool :=
  c ∈ ['#', ',', '[', ']', '\x7b', '\x7d', '&', '*', '!', '|', '>', '\'', '"', '%', '@',
    '\x60']

/-- A colon before a gap, or a number sign after a blank or a break, behind the first
character. -/
def hasInnerIndicator : List Char → Bool
  | a :: b :: rest =>
    (b = ':' && atGap rest) || (b = '#' && (isBlank a || isBreak a)) ||
      hasInnerIndicator (b :: rest)
  | _ => false

/-- The text would be read as structure. -/
def looksLikeStructure (text : List Char) : Bool :=
  text.take 3 = ['-', '-', '-'] || text.take 3 = ['.', '.', '.'] ||
    (match text with
      | c :: rest => isIndicator c || ((c = '?' || c = ':' || c = '-') && atGap rest)
      | [] => false) ||
    hasInnerIndicator text

/-- A space and a break next to each other, the space first. -/
def hasSpaceBeforeBreak (text : List Char) : Bool :=
  hasNeighbours isSpace isBreak text

/-- The text may stand in single quotes. -/
def allowsSingleQuotes (text : List Char) : Bool :=
  text.all isPrintable && !hasNeighbours isBreak isSpace text && !hasSpaceBeforeBreak text

/-- The text may stand without quotes. -/
def allowsPlain (text : List Char) : Bool :=
  text.all isPrintable && !text.any isBreak && !text.head?.any isSpace &&
    !text.getLast?.any isSpace && !looksLikeStructure text

/-- The text may stand in a block of its own. -/
def allowsBlock (text : List Char) : Bool :=
  text.all isPrintable && !text.getLast?.any isSpace && !hasSpaceBeforeBreak text

/-- The style in which a text is written. -/
def styleOf (text : String) : ScalarStyle :=
  let chars := text.toList
  if '\n' ∈ chars then if allowsBlock chars then .literal else .doubleQuoted
  else if !isAmbiguous text && allowsPlain chars then .plain
  else if allowsSingleQuotes chars then .singleQuoted
  else .doubleQuoted

/-! ## The styles -/

/-- Spaces up to a column. -/
def indentation (column : Nat) : List Char :=
  List.replicate column ' '

/-- Text in single quotes: a quote is written twice, and a new line is indented. -/
def singleQuotedBody (indent : Nat) (afterBreak : Bool) : List Char → List Char
  | [] => if afterBreak then indentation indent else []
  | c :: rest =>
    if isBreak c then c :: singleQuotedBody indent true rest
    else
      (if afterBreak then indentation indent else []) ++
        (if c = '\'' then ['\'', '\''] else [c]) ++ singleQuotedBody indent false rest

/-- The letter that stands for a character after a backslash. -/
def escapeLetter? (c : Char) : Option Char :=
  match c with
  | '\x00' => some '0'
  | '\x07' => some 'a'
  | '\x08' => some 'b'
  | '\t' => some 't'
  | '\n' => some 'n'
  | '\x0b' => some 'v'
  | '\x0c' => some 'f'
  | '\r' => some 'r'
  | '\x1b' => some 'e'
  | '"' => some '"'
  | '\\' => some '\\'
  | '\u0085' => some 'N'
  | '\u00a0' => some '_'
  | '\u2028' => some 'L'
  | '\u2029' => some 'P'
  | _ => none

/-- The escape of a character: a letter, or its number in two, four or eight digits. -/
def escape (c : Char) : List Char :=
  let number (width : Nat) : List Char := (Text.hexDigits width c.toNat).map Char.toUpper
  match escapeLetter? c with
  | some letter => ['\\', letter]
  | none =>
    if c.toNat ≤ 0xFF then '\\' :: 'x' :: number 2
    else if c.toNat ≤ 0xFFFF then '\\' :: 'u' :: number 4
    else '\\' :: 'U' :: number 8

/-- Text in double quotes. -/
def doubleQuotedBody (text : List Char) : List Char :=
  text.flatMap fun c =>
    if !isPrintable c || isBreak c || c = '"' || c = '\\' then escape c else [c]

/-- The signs at the head of a block: its indentation when the text begins with a space or a
break, and what becomes of the breaks at its end. -/
def blockHints (text : List Char) : List Char :=
  (if text.head?.any fun c => isSpace c || isBreak c then ['2'] else []) ++
    match text.reverse with
    | [] => ['-']
    | last :: before =>
      if !isBreak last then ['-'] else if before.head?.all isBreak then ['+'] else []

/-- The lines of a block. Empty lines are not indented. -/
def blockBody (indent : Nat) (atStart : Bool) : List Char → List Char
  | [] => []
  | c :: rest =>
    if isBreak c then c :: blockBody indent true rest
    else (if atStart then indentation indent else []) ++ c :: blockBody indent false rest

/-- A text as a scalar of a block with this indentation. -/
def writeScalar (indent : Nat) (text : String) : List Char :=
  let chars := text.toList
  match styleOf text with
  | .plain => chars
  | .singleQuoted => '\'' :: singleQuotedBody indent false chars ++ ['\'']
  | .doubleQuoted => '"' :: doubleQuotedBody chars ++ ['"']
  | _ => '|' :: blockHints chars ++ '\n' :: blockBody indent true chars

/-! ## Mappings -/

/-- A line is brought to its end, unless it ends already. -/
def endLine (text : List Char) : List Char :=
  if text.getLast?.any isBreak then text else text ++ ['\n']

/-- An entry of a mapping at a column. -/
def writeEntry (column : Nat) (key : String) (value : String) : List Char :=
  indentation column ++ key.toList ++
    endLine (':' :: ' ' :: writeScalar (column + 2) value)

/-- An entry of a mapping with a truth value. -/
def writeFlag (column : Nat) (key : String) (value : Bool) : List Char :=
  indentation column ++ key.toList ++ endLine (':' :: ' ' :: (toString value).toList)

/-- The key of an entry whose value is a mapping of its own. -/
def writeKey (column : Nat) (key : String) : List Char :=
  indentation column ++ key.toList ++ [':', '\n']

end ContentTyping.Yaml

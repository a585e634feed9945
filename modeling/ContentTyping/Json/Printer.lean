import ContentTyping.Json.Value
import ContentTyping.Text.Blank

/-!
# Written JSON

The compact form without spaces, and the indented form with one value a line. Quotation marks,
backslashes and control characters are escaped; all other characters stand for themselves.
-/

namespace ContentTyping.Json

/-! ## Strings -/

/-- A character inside quotation marks. -/
def escapeChar (c : Char) : List Char :=
  if c = '"' then ['\\', '"']
  else if c = '\\' then ['\\', '\\']
  else if c = '\x08' then ['\\', 'b']
  else if c = '\x0c' then ['\\', 'f']
  else if c = '\n' then ['\\', 'n']
  else if c = '\r' then ['\\', 'r']
  else if c = '\t' then ['\\', 't']
  else if c.toNat < 0x20 then '\\' :: 'u' :: Text.hexDigits 4 c.toNat
  else [c]

/-- A text in quotation marks. -/
def quote (text : String) : List Char :=
  '"' :: text.toList.flatMap escapeChar ++ ['"']

/-- The name of a member; one that is no text is written as empty. -/
def quoteKey (key : Option String) : List Char :=
  quote (key.getD "")

/-! ## Compact form -/

/-- Texts with commas between them. -/
def joinCommas : List (List Char) → List Char
  | [] => []
  | [only] => only
  | first :: second :: rest => first ++ ',' :: joinCommas (second :: rest)

mutual

/-- A value without any spaces. -/
def compact : Json → List Char
  | .null => "null".toList
  | .bool value => (if value then "true" else "false").toList
  | .number spelling => spelling.toList
  | .string text => quote text
  | .brokenString => quote ""
  | .array items => '[' :: joinCommas (compactItems items) ++ [']']
  | .object members => '\x7b' :: joinCommas (compactMembers members) ++ ['\x7d']

/-- The items of an array, each without spaces. -/
def compactItems : List Json → List (List Char)
  | [] => []
  | item :: rest => compact item :: compactItems rest

/-- The members of an object, each without spaces. -/
def compactMembers : List (Option String × Json) → List (List Char)
  | [] => []
  | (key, value) :: rest => (quoteKey key ++ ':' :: compact value) :: compactMembers rest

end

/-- The compact text of a value. -/
def toText (json : Json) : String :=
  String.ofList json.compact

/-- A character of a written value in ASCII: others are escaped by their 16-bit units. -/
def asciiChar (c : Char) : List Char :=
  let escape (unit : Nat) : List Char := '\\' :: 'u' :: Text.hexDigits 4 unit
  let n := c.toNat
  if n < 0x7f then [c]
  else if n < 0x10000 then escape n
  else escape (0xD800 + (n - 0x10000) / 0x400) ++ escape (0xDC00 + n % 0x400)

/-- The compact text of a value in ASCII. -/
def toAsciiText (json : Json) : String :=
  String.ofList (json.compact.flatMap asciiChar)

/-! ## Indented form -/

/-- A new line, indented by two spaces for each level. -/
def newLine (level : Nat) : List Char :=
  '\n' :: List.replicate (2 * level) ' '

/-- Texts on lines of their own between brackets; nothing between them stays on one line. -/
def block (level : Nat) (opening closing : Char) (lines : List (List Char)) : List Char :=
  if lines.isEmpty then [opening, closing]
  else
    let body := lines.map fun line => newLine (level + 1) ++ line
    opening :: joinCommas body ++ newLine level ++ [closing]

mutual

/-- A value over several lines, inside a number of levels. -/
def indented (level : Nat) : Json → List Char
  | .array items => block level '[' ']' (indentedItems (level + 1) items)
  | .object members => block level '\x7b' '\x7d' (indentedMembers (level + 1) members)
  | .null => "null".toList
  | .bool value => (if value then "true" else "false").toList
  | .number spelling => spelling.toList
  | .string text => quote text
  | .brokenString => quote ""

/-- The items of an array over several lines. -/
def indentedItems (level : Nat) : List Json → List (List Char)
  | [] => []
  | item :: rest => indented level item :: indentedItems level rest

/-- The members of an object over several lines. -/
def indentedMembers (level : Nat) : List (Option String × Json) → List (List Char)
  | [] => []
  | (key, value) :: rest =>
    (quoteKey key ++ ':' :: ' ' :: indented level value) :: indentedMembers level rest

end

/-- The indented text of a value. -/
def toIndentedText (json : Json) : String :=
  String.ofList (json.indented 0)

end ContentTyping.Json

import ContentTyping.Json.Value
import ContentTyping.Text.Blank

/-!
# Reading JSON

A reader of exactly the texts of the grammar: one value with blanks around it and no more.
-/

namespace ContentTyping.Json

/-- A result and the characters that follow it. -/
abbrev Read (α : Type) := Option (α × List Char)

/-- The four characters that may stand between the parts of a value. -/
def isSpace (c : Char) : Bool :=
  c = ' ' || c = '\t' || c = '\n' || c = '\r'

/-- The text without the blanks at its beginning. -/
def skipSpaces (text : List Char) : List Char :=
  text.dropWhile isSpace

/-! ## Strings -/

/-- What a string consists of: characters, and units of surrogate pairs. -/
inductive StringUnit where
  | char (c : Char)
  | surrogate (unit : Nat)

/-- The value of four hexadecimal digits. -/
def hexUnit? (a b c d : Char) : Option Nat := do
  let a ← Text.hexValue? a
  let b ← Text.hexValue? b
  let c ← Text.hexValue? c
  let d ← Text.hexValue? d
  pure (((a * 16 + b) * 16 + c) * 16 + d)

/-- A 16-bit unit as part of a string. -/
def ofUnit (unit : Nat) : StringUnit :=
  if 0xD800 ≤ unit ∧ unit < 0xE000 then .surrogate unit else .char (Char.ofNat unit)

/-- The character that a letter after a backslash stands for. -/
def escaped? (c : Char) : Option Char :=
  if c = '"' ∨ c = '\\' ∨ c = '/' then some c
  else if c = 'b' then some '\x08'
  else if c = 'f' then some '\x0c'
  else if c = 'n' then some '\n'
  else if c = 'r' then some '\r'
  else if c = 't' then some '\t'
  else none

/-- The units of a string up to its closing quotation mark. -/
def readUnits : List Char → Read (List StringUnit)
  | [] => none
  | '"' :: rest => some ([], rest)
  | '\\' :: 'u' :: a :: b :: c :: d :: rest =>
    match hexUnit? a b c d, readUnits rest with
    | some unit, some (units, after) => some (ofUnit unit :: units, after)
    | _, _ => none
  | '\\' :: c :: rest =>
    match escaped? c, readUnits rest with
    | some char, some (units, after) => some (.char char :: units, after)
    | _, _ => none
  | c :: rest =>
    if c.toNat < 0x20 ∨ c = '\\' then none
    else (readUnits rest).map fun parts => (.char c :: parts.1, parts.2)

/-- The character of a surrogate pair. -/
def pairChar? (high low : Nat) : Option Char :=
  if high < 0xDC00 ∧ 0xDC00 ≤ low then
    some (Char.ofNat (0x10000 + (high - 0xD800) * 0x400 + (low - 0xDC00)))
  else none

/-- The text of a row of units, when every surrogate is part of a pair. -/
def joinUnits : List StringUnit → Option (List Char)
  | [] => some []
  | .char c :: rest => (joinUnits rest).map (c :: ·)
  | .surrogate high :: .surrogate low :: rest =>
    match pairChar? high low, joinUnits rest with
    | some c, some text => some (c :: text)
    | _, _ => none
  | .surrogate _ :: _ => none

/-- A string after its opening quotation mark; no text when it holds half a surrogate pair. -/
def readString (text : List Char) : Read (Option String) :=
  (readUnits text).map fun parts => ((joinUnits parts.1).map String.ofList, parts.2)

/-! ## Numbers -/

/-- One digit or more. -/
def readDigits (text : List Char) : Read (List Char) :=
  let digits := text.takeWhile Char.isDigit
  if digits.isEmpty then none else some (digits, text.dropWhile Char.isDigit)

/-- The whole part of a number: a zero alone, or digits that do not begin with one. -/
def readWhole : List Char → Read (List Char)
  | '0' :: rest => if (rest.head?.map Char.isDigit).getD false then none else some (['0'], rest)
  | text => readDigits text

/-- An optional point with digits. -/
def readFraction : List Char → Read (List Char)
  | '.' :: rest => (readDigits rest).map fun parts => ('.' :: parts.1, parts.2)
  | text => some ([], text)

/-- The digits of an exponent after its optional sign. -/
def readSigned : List Char → Read (List Char)
  | '+' :: rest => (readDigits rest).map fun parts => ('+' :: parts.1, parts.2)
  | '-' :: rest => (readDigits rest).map fun parts => ('-' :: parts.1, parts.2)
  | text => readDigits text

/-- An optional exponent. -/
def readExponent : List Char → Read (List Char)
  | 'e' :: rest => (readSigned rest).map fun parts => ('e' :: parts.1, parts.2)
  | 'E' :: rest => (readSigned rest).map fun parts => ('E' :: parts.1, parts.2)
  | text => some ([], text)

/-- A number without its sign. -/
def readUnsigned (text : List Char) : Read (List Char) :=
  (readWhole text).bind fun whole =>
    (readFraction whole.2).bind fun fraction =>
      (readExponent fraction.2).map fun exponent =>
        (whole.1 ++ fraction.1 ++ exponent.1, exponent.2)

/-- A number as it is spelled. -/
def readNumber : List Char → Read String
  | '-' :: rest =>
    (readUnsigned rest).map fun parts => (String.ofList ('-' :: parts.1), parts.2)
  | text => (readUnsigned text).map fun parts => (String.ofList parts.1, parts.2)

/-! ## Values -/

/-- Items with commas between them up to the closing bracket, given a reader for one. -/
def readItems (readItem : List Char → Read Json) :
    Nat → List Char → Read (List Json)
  | 0, _ => none
  | steps + 1, text =>
    match readItem text with
    | none => none
    | some (item, after) =>
      match skipSpaces after with
      | ',' :: rest =>
        (readItems readItem steps rest).map fun parts => (item :: parts.1, parts.2)
      | ']' :: rest => some ([item], rest)
      | _ => none

/-- Members with commas between them up to the closing brace, given a reader for values. -/
def readMembers (readItem : List Char → Read Json) :
    Nat → List Char → Read (List (Option String × Json))
  | 0, _ => none
  | steps + 1, text =>
    match skipSpaces text with
    | '"' :: rest =>
      match readString rest with
      | none => none
      | some (key, afterKey) =>
        match skipSpaces afterKey with
        | ':' :: body =>
          match readItem body with
          | none => none
          | some (value, after) =>
            match skipSpaces after with
            | ',' :: further =>
              (readMembers readItem steps further).map fun parts =>
                ((key, value) :: parts.1, parts.2)
            | '\x7d' :: further => some ([(key, value)], further)
            | _ => none
        | _ => none
    | _ => none

/-- A value with blanks before it. The first number bounds the items of an array or an object,
the second one the nesting. -/
def readValue (breadth : Nat) : Nat → List Char → Read Json
  | 0, _ => none
  | steps + 1, text =>
    match skipSpaces text with
    | 'n' :: 'u' :: 'l' :: 'l' :: rest => some (.null, rest)
    | 't' :: 'r' :: 'u' :: 'e' :: rest => some (.bool true, rest)
    | 'f' :: 'a' :: 'l' :: 's' :: 'e' :: rest => some (.bool false, rest)
    | '"' :: rest =>
      (readString rest).map fun parts =>
        match parts.1 with
        | some text => (.string text, parts.2)
        | none => (.brokenString, parts.2)
    | '[' :: rest =>
      match skipSpaces rest with
      | ']' :: after => some (.array [], after)
      | _ =>
        (readItems (readValue breadth steps) breadth rest).map fun parts =>
          (.array parts.1, parts.2)
    | '\x7b' :: rest =>
      match skipSpaces rest with
      | '\x7d' :: after => some (.object [], after)
      | _ =>
        (readMembers (readValue breadth steps) breadth rest).map fun parts =>
          (.object parts.1, parts.2)
    | other => (readNumber other).map fun parts => (.number parts.1, parts.2)

/-- The value of a text. -/
def parse? (text : String) : Option Json :=
  match readValue (text.length + 1) (text.length + 1) text.toList with
  | some (json, rest) => if (skipSpaces rest).isEmpty then some json else none
  | none => none

end ContentTyping.Json

import ContentTyping.Text.Blank

/-!
# What plain scalars stand for

A plain scalar may stand for nothing, for a truth value or for a number. A text that looks like
one of these needs quotes to be read as a text by everyone.
-/

namespace ContentTyping.Yaml

/-- The spellings of the absent value. -/
def isNull (text : String) : Bool :=
  text ∈ ["null", "Null", "NULL", "~"]

/-- The truth value with a spelling. -/
def bool? (text : String) : Option Bool :=
  if text ∈ ["true", "True", "TRUE"] then some true
  else if text ∈ ["false", "False", "FALSE"] then some false
  else none

/-! ## Whole numbers -/

/-- The value of a digit in a base up to sixteen. -/
def digitIn? (base : Nat) (c : Char) : Option Nat :=
  (Text.hexValue? c).filter (· < base)

/-- The value of at least one digit in a base. -/
def natIn? (base : Nat) (digits : List Char) : Option Nat :=
  if digits.isEmpty then none
  else
    (digits.mapM (digitIn? base)).map fun values =>
      values.foldl (fun n digit => n * base + digit) 0

/-- The digits after the mark of a base other than ten. -/
def markedDigits? : List Char → Option (Nat × List Char)
  | '0' :: 'x' :: digits => some (16, digits)
  | '0' :: 'o' :: digits => some (8, digits)
  | '0' :: 'b' :: digits => some (2, digits)
  | _ => none

/-- A whole number with the mark of a base, which fits 128 bits. -/
def isMarkedInteger : List Char → Bool
  | '-' :: rest =>
    ((markedDigits? rest).bind fun (base, digits) => natIn? base digits).any (· ≤ Nat.pow 2 127)
  | '+' :: rest =>
    ((markedDigits? rest).bind fun (base, digits) => natIn? base digits).any (· < Nat.pow 2 128)
  | text =>
    ((markedDigits? text).bind fun (base, digits) => natIn? base digits).any (· < Nat.pow 2 128)

/-! ## Decimal numbers -/

/-- A text without its sign. -/
def unsigned : List Char → List Char
  | '-' :: rest => rest
  | '+' :: rest => rest
  | text => text

/-- More than one digit, the first of them zero. -/
def hasLeadingZero (text : List Char) : Bool :=
  let digits := unsigned text
  2 ≤ digits.length && digits.head? = some '0' && digits.all Char.isDigit

/-- The exponent of a decimal number: nothing, or a mark and a whole number. -/
def exponent? : List Char → Option Int
  | [] => some 0
  | c :: rest =>
    if c = 'e' || c = 'E' then
      match rest with
      | '-' :: digits => (natIn? 10 digits).map fun n => -(n : Int)
      | '+' :: digits => (natIn? 10 digits).map fun n => (n : Int)
      | digits => (natIn? 10 digits).map fun n => (n : Int)
    else none

/-- The digits of a decimal number with the power of ten that the last of them counts. -/
def decimal? (text : List Char) : Option (List Char × Int) :=
  let whole := text.takeWhile Char.isDigit
  let (fraction, rest) :=
    match text.dropWhile Char.isDigit with
    | '.' :: after => (after.takeWhile Char.isDigit, after.dropWhile Char.isDigit)
    | after => ([], after)
  if whole.isEmpty && fraction.isEmpty then none
  else (exponent? rest).map fun exponent => (whole ++ fraction, exponent - fraction.length)

/-- The least number that rounds to infinity in 64-bit binary floating point. -/
def overflow : Nat := Nat.pow 2 1024 - Nat.pow 2 970

/-- The number with these digits is not rounded to infinity. -/
def isFinite (digits : List Char) (exponent : Int) : Bool :=
  let significant := digits.dropWhile (· = '0')
  let magnitude := significant.length + exponent
  if significant.isEmpty || magnitude ≤ 308 then true
  else if 309 < magnitude then false
  else
    let value := ((natIn? 10 significant).getD 0)
    if 0 ≤ exponent then value * Nat.pow 10 exponent.toNat < overflow
    else value < overflow * Nat.pow 10 (-exponent).toNat

/-- The spellings of infinity, and of what is no number. -/
def isSpecialNumber (text : String) : Bool :=
  text ∈ [".inf", ".Inf", ".INF", "+.inf", "+.Inf", "+.INF", "-.inf", "-.Inf", "-.INF", ".nan",
    ".NaN", ".NAN"]

/-- A finite decimal number, with a sign or without. -/
def isDecimal (text : List Char) : Bool :=
  (decimal? (unsigned text)).any fun (digits, exponent) => isFinite digits exponent

/-- A plain scalar with this text does not stand for the text, or readers differ on it. -/
def isAmbiguous (text : String) : Bool :=
  let chars := text.toList
  text.isEmpty || isNull text || (bool? text).isSome || isMarkedInteger chars ||
    hasLeadingZero chars || isDecimal chars || isSpecialNumber text

end ContentTyping.Yaml

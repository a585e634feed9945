import ContentTyping.Text.Blank
import ContentTyping.Time.Instant

/-!
# Written instants

Instants are written as date and time in UTC with as many groups of three decimals as they
need. The reader is more lenient: it takes blanks between the parts and any offset.
-/

namespace ContentTyping.Instant

/-! ## Writing -/

/-- A year: four digits from 0 to 9999, and outside of that a sign and at least four digits. -/
def displayYear (year : Int) : String :=
  if 0 ≤ year ∧ year ≤ 9999 then Text.padZeros 4 year.toNat
  else if year < 0 then "-" ++ Text.padZeros 4 (-year).toNat
  else "+" ++ Text.padZeros 4 year.toNat

/-- The decimals of a second: none, three, six or nine. -/
def displayNanos (nanos : Nat) : String :=
  if nanos = 0 then ""
  else if nanos % 1000000 = 0 then "." ++ Text.padZeros 3 (nanos / 1000000)
  else if nanos % 1000 = 0 then "." ++ Text.padZeros 6 (nanos / 1000)
  else "." ++ Text.padZeros 9 nanos

/-- The written form of an instant. -/
def display (instant : Instant) : String :=
  let day := CalendarDay.ofEpochDays (instant.seconds / 86400)
  let secondOfDay := (instant.seconds % 86400).toNat
  let leap := instant.nanos / 1000000000
  let hour := Text.padZeros 2 (secondOfDay / 3600)
  let minute := Text.padZeros 2 (secondOfDay / 60 % 60)
  let second := Text.padZeros 2 (secondOfDay % 60 + leap)
  displayYear day.year ++ "-" ++ Text.padZeros 2 day.month ++ "-" ++
    Text.padZeros 2 day.day ++ "T" ++ hour ++ ":" ++ minute ++ ":" ++ second ++
    displayNanos (instant.nanos % 1000000000) ++ "Z"

/-! ## Reading -/

/-- The text without the blanks at its beginning. -/
def skipBlanks (text : List Char) : List Char :=
  text.dropWhile Text.isBlank

/-- The value of a row of digits. -/
def decimalValue (digits : List Char) : Nat :=
  digits.foldl (fun value digit => value * 10 + (digit.toNat - 48)) 0

/-- A number of one digit up to a number of digits. -/
def readNatural (width : Nat) (text : List Char) : Option (Nat × List Char) :=
  let digits := (text.take width).takeWhile Char.isDigit
  if digits.isEmpty then none else some (decimalValue digits, text.drop digits.length)

/-- A number of any length. -/
def readLong (text : List Char) : Option (Nat × List Char) :=
  readNatural text.length text

/-- A year of up to four digits, or of any length after a sign. -/
def readYear (text : List Char) : Option (Int × List Char) :=
  match skipBlanks text with
  | '-' :: rest => (readLong rest).map fun parts => (-(parts.1 : Int), parts.2)
  | '+' :: rest => (readLong rest).map fun parts => ((parts.1 : Int), parts.2)
  | other => (readNatural 4 other).map fun parts => ((parts.1 : Int), parts.2)

/-- A number of up to two digits after blanks. -/
def readPair (text : List Char) : Option (Nat × List Char) :=
  readNatural 2 (skipBlanks text)

/-- A mark after blanks. -/
def readMark (mark : Char) (text : List Char) : Option (List Char) :=
  match skipBlanks text with
  | [] => none
  | c :: rest => if c = mark then some rest else none

/-- The nanoseconds that follow a second, without what goes beyond nine decimals. -/
def readNanos : List Char → Option (Nat × List Char)
  | '.' :: rest =>
    (readNatural 9 rest).map fun parts =>
      let digits := rest.length - parts.2.length
      (parts.1 * Nat.pow 10 (9 - digits), parts.2.dropWhile Char.isDigit)
  | text => some (0, text)

/-- Two digits, of which the first lies below a bound. -/
def readTwoDigits (bound : Nat) : List Char → Option (Nat × List Char)
  | tens :: units :: rest =>
    if tens.isDigit && units.isDigit && tens.toNat - 48 < bound then
      some ((tens.toNat - 48) * 10 + (units.toNat - 48), rest)
    else none
  | _ => none

/-- The minutes and seconds of an offset after its sign, in seconds. -/
def readOffsetSize (text : List Char) : Option (Int × List Char) :=
  (readTwoDigits 10 text).bind fun hours =>
    let afterColon := hours.2.dropWhile fun c => c = ':' || Text.isBlank c
    (readTwoDigits 6 afterColon).map fun minutes =>
      (((hours.1 * 3600 + minutes.1 * 60 : Nat) : Int), minutes.2)

/-- The offset from UTC in seconds. -/
def readOffset (text : List Char) : Option (Int × List Char) :=
  match text with
  | 'Z' :: rest => some (0, rest)
  | 'z' :: rest => some (0, rest)
  | '+' :: rest => readOffsetSize rest
  | '-' :: rest => (readOffsetSize rest).map fun parts => (-parts.1, parts.2)
  | '\u2212' :: rest => (readOffsetSize rest).map fun parts => (-parts.1, parts.2)
  | a :: b :: c :: rest =>
    if (String.ofList [a, b, c]).toUpper = "UTC" then some (0, rest) else none
  | _ => none

/-- The first and the last year that an instant may lie in. -/
def isYearInRange (year : Int) : Bool :=
  -262143 ≤ year && year ≤ 262142

/-- The instant of a day, a time of day and an offset; a sixtieth second is a leap second. -/
def ofParts? (day : CalendarDay) (hour minute second nanos : Nat) (offset : Int) :
    Option Instant :=
  if day.isValid && isYearInRange day.year && hour ≤ 23 && minute ≤ 59 && second ≤ 60 &&
      -86400 < offset && offset < 86400 then
    let leap := second / 60
    let seconds :=
      day.toEpochDays * 86400 + hour * 3600 + minute * 60 + (second - leap : Nat) - offset
    if isYearInRange (CalendarDay.ofEpochDays (seconds / 86400)).year then
      some ⟨seconds, nanos + leap * 1000000000⟩
    else none
  else none

/-- The instant that a text writes. -/
def parse? (text : String) : Option Instant := do
  let (year, rest) ← readYear text.toList
  let rest ← readMark '-' rest
  let (month, rest) ← readPair rest
  let rest ← readMark '-' rest
  let (day, rest) ← readPair rest
  let rest ←
    match rest with
    | 't' :: rest => some rest
    | 'T' :: rest => some rest
    | ' ' :: rest => some rest
    | _ => none
  let (hour, rest) ← readPair rest
  let rest ← readMark ':' rest
  let (minute, rest) ← readPair rest
  let rest ← readMark ':' rest
  let (second, rest) ← readPair rest
  let (nanos, rest) ← readNanos rest
  let (offset, rest) ← readOffset (skipBlanks rest)
  if (skipBlanks rest).isEmpty then ofParts? ⟨year, month, day⟩ hour minute second nanos offset
  else none

end ContentTyping.Instant

/-!
# UTF-8

Bytes of a text, and the reading of bytes that need not be the bytes of any text.
-/

namespace ContentTyping.Text

/-- The bytes of a text. -/
def utf8Bytes (text : List Char) : List UInt8 :=
  text.flatMap String.utf8EncodeChar

/-- A byte that continues a character. -/
def isContinuation (byte : UInt8) : Bool :=
  0x80 ≤ byte && byte ≤ 0xBF

/-- The six bits that a continuation byte carries. -/
def payload (byte : UInt8) : Nat :=
  byte.toNat % 64

/-- May the byte follow this first byte? The bounds leave out overlong forms, surrogates and
what lies above the last code point. -/
def isSecondByte (first second : UInt8) : Bool :=
  if first = 0xE0 then 0xA0 ≤ second && second ≤ 0xBF
  else if first = 0xED then 0x80 ≤ second && second ≤ 0x9F
  else if first = 0xF0 then 0x90 ≤ second && second ≤ 0xBF
  else if first = 0xF4 then 0x80 ≤ second && second ≤ 0x8F
  else isContinuation second

/-- The number of further bytes that a first byte asks for, when it can be one. -/
def followers? (first : UInt8) : Option Nat :=
  if first < 0x80 then some 0
  else if 0xC2 ≤ first && first ≤ 0xDF then some 1
  else if 0xE0 ≤ first && first ≤ 0xEF then some 2
  else if 0xF0 ≤ first && first ≤ 0xF4 then some 3
  else none

/-- The character that begins with `first`, and the number of bytes it takes from `rest`. An
ill-formed beginning gives no character and takes the bytes that could have been its start. -/
def decodeStep (first : UInt8) (rest : List UInt8) : Option Char × Nat :=
  match followers? first with
  | none => (none, 0)
  | some 0 => (some (Char.ofNat first.toNat), 0)
  | some 1 =>
    match rest with
    | second :: _ =>
      if isSecondByte first second then
        (some (Char.ofNat (first.toNat % 32 * 64 + payload second)), 1)
      else (none, 0)
    | [] => (none, 0)
  | some 2 =>
    match rest with
    | second :: third :: _ =>
      if isSecondByte first second then
        if isContinuation third then
          (some (Char.ofNat
            (first.toNat % 16 * 4096 + payload second * 64 + payload third)), 2)
        else (none, 1)
      else (none, 0)
    | [second] => (none, if isSecondByte first second then 1 else 0)
    | [] => (none, 0)
  | some _ =>
    match rest with
    | second :: third :: fourth :: _ =>
      if isSecondByte first second then
        if isContinuation third then
          if isContinuation fourth then
            (some (Char.ofNat (first.toNat % 8 * 262144 + payload second * 4096 +
              payload third * 64 + payload fourth)), 3)
          else (none, 2)
        else (none, 1)
      else (none, 0)
    | [second, third] =>
      (none,
        if isSecondByte first second then if isContinuation third then 2 else 1 else 0)
    | [second] => (none, if isSecondByte first second then 1 else 0)
    | [] => (none, 0)

/-- The characters of a byte sequence, with a gap for each ill-formed part. -/
def decodeUtf8 : List UInt8 → List (Option Char)
  | [] => []
  | first :: rest =>
    let step := decodeStep first rest
    step.1 :: decodeUtf8 (rest.drop step.2)
  termination_by bytes => bytes.length
  decreasing_by simp only [List.length_drop, List.length_cons]; omega

/-- The text of a byte sequence, when it is one. -/
def ofUtf8? (bytes : List UInt8) : Option String :=
  ((decodeUtf8 bytes).mapM id).map String.ofList

/-- The text of a byte sequence, with a replacement character for each ill-formed part. -/
def ofUtf8Lossy (bytes : List UInt8) : String :=
  String.ofList ((decodeUtf8 bytes).map fun char => char.getD '\uFFFD')

end ContentTyping.Text

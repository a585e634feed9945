import ContentTyping.FileSystem.Basic
import ContentTyping.Text.Blank

/-!
# Checksums

The cyclic redundancy check of 32 bits over the bytes of a file, as eight hexadecimal digits.
Bytes are taken in piece by piece; a table holds what becomes of a byte.
-/

namespace ContentTyping

namespace Checksum

/-- The polynomial of the check, the lowest power in the highest bit. -/
def polynomial : UInt32 := 0xEDB88320

/-- Divide by one more power. -/
def shiftBit (register : UInt32) : UInt32 :=
  if register &&& 1 = 1 then (register >>> 1) ^^^ polynomial else register >>> 1

/-- Divide by the powers of a byte. -/
def shiftByte (register : UInt32) : UInt32 :=
  Nat.repeat shiftBit 8 register

/-- What becomes of the lowest byte of a register. -/
def table : Vector UInt32 256 :=
  Vector.ofFn fun i => shiftByte i.val.toUInt32

/-- Take in one byte. -/
def feed (register : UInt32) (byte : UInt8) : UInt32 :=
  let low := (register ^^^ byte.toUInt32) &&& 0xFF
  table.toArray.getD low.toNat 0 ^^^ (register >>> 8)

/-- The checksum of what came before and of some more bytes. -/
def update (sum : UInt32) (bytes : List UInt8) : UInt32 :=
  ~~~(bytes.foldl feed (~~~sum))

/-- The checksum of bytes that come in pieces. -/
def ofPieces (pieces : List (List UInt8)) : UInt32 :=
  pieces.foldl update 0

/-- The number of bytes that are taken in at a time. -/
def pieceLength : Nat := 65536

/-- Bytes in pieces of a length, the last one shorter. -/
def split (length : Nat) : Nat → List UInt8 → List (List UInt8)
  | 0, _ => []
  | steps + 1, bytes =>
    if bytes.isEmpty then []
    else bytes.take length :: split length steps (bytes.drop length)

/-- The eight digits of a checksum. -/
def display (sum : UInt32) : String :=
  String.ofList (Text.hexDigits 8 sum.toNat)

/-- The digits of the checksum of some bytes. -/
def ofBytes (bytes : List UInt8) : String :=
  display (ofPieces (split pieceLength (bytes.length / pieceLength + 1) bytes))

end Checksum

/-- The checksum of the file at the end of a path. -/
def FileSystem.checksum (system : FileSystem) (path : RawPath) : Except Error String :=
  match system.entry true path with
  | .error fault => .error (.system fault)
  | .ok (.file contents _) => .ok (Checksum.ofBytes contents)
  | .ok _ => .error (.scan (.notARegularFile path.display))

end ContentTyping

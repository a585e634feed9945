import ContentTyping.FileSystem.Layout
import ContentTyping.Json.Fields

/-!
# Layouts as JSON

A layout is written as a list of entries. An entry has a path and tells what stands there: the
text or the bytes of a file, a repeated byte, the target of a link, a special file, or nothing
for a directory.
-/

namespace ContentTyping

/-- The bytes that pairs of hexadecimal digits write. -/
def hexBytes? : List Char → Option (List UInt8)
  | [] => some []
  | [_] => none
  | high :: low :: rest => do
    let high ← Text.hexValue? high
    let low ← Text.hexValue? low
    let bytes ← hexBytes? rest
    pure ((high * 16 + low).toUInt8 :: bytes)

/-- The bytes of a member in hexadecimal digits. -/
def hexMember? (json : Json) (name : String) : Option (List UInt8) :=
  ((json.get? name).bind Json.text?).bind fun digits => hexBytes? digits.toList

/-- The text of a member. -/
def textMember? (json : Json) (name : String) : Option String :=
  (json.get? name).bind Json.text?

/-- A byte repeated some times. -/
def repeated? : Json → Option (List UInt8)
  | .array [byte, count] => do
    let byte ← byte.natBelow? 256
    let count ← count.natBelow? UInt64.size
    pure (List.replicate count byte.toUInt8)
  | _ => none

namespace FileTree

/-- What stands at the path of an entry. -/
def ofJson? (times : FileTimes) (json : Json) : Option FileTree :=
  match json.get? "link", json.get? "socket", json.get? "repeat" with
  | some target, _, _ => target.text?.map fun text => link (RawPath.ofString text)
  | none, some _, _ => some special
  | none, none, some run => (repeated? run).map fun bytes => file bytes times
  | none, none, none =>
    match textMember? json "text", hexMember? json "hex" with
    | some text, _ => some (file (Text.utf8Bytes text.toList) times)
    | none, some bytes => some (file bytes times)
    | none, none => some (directory [] times)

end FileTree

/-- The path of an entry, as text or in hexadecimal digits. -/
def RawPath.ofJson? (json : Json) : Option RawPath :=
  ((textMember? json "path").map RawPath.ofString).or
    ((hexMember? json "path_hex").map RawPath.mk)

/-- The file system of a written layout, in a working directory of its own. -/
def FileSystem.ofJson? (times : FileTimes) (json : Json) : Option FileSystem := do
  let entries ← Json.list? some json
  let placed ← entries.mapM fun entry => do
    pure (← RawPath.ofJson? entry, ← FileTree.ofJson? times entry)
  let home := RawPath.ofString "work"
  pure (FileSystem.ofEntries times home.components placed)

end ContentTyping

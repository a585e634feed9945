import ContentTyping.Text.Blank

/-!
# Identifiers of profiles

A profile names its elements by absolute IRIs, but only their outline is checked: a scheme, a
colon, and at least one further character, none of them white space or an angle bracket.
-/

namespace ContentTyping.Iri

/-- A character that may follow the first letter of a scheme. -/
def isSchemeChar (c : Char) : Bool :=
  c.isAlpha || c.isDigit || c = '+' || c = '.' || c = '-'

/-- A character that may follow the scheme of an identifier. -/
def isLooseChar (c : Char) : Bool :=
  !Text.isBlank c && c ≠ '<' && c ≠ '>'

/-- The text after `scheme:`, when the text begins with a scheme and a colon. -/
def afterScheme? : List Char → Option (List Char)
  | [] => none
  | first :: rest =>
    if first.isAlpha then
      match rest.dropWhile isSchemeChar with
      | ':' :: body => some body
      | _ => none
    else none

/-- The outline of an absolute IRI: a scheme and a colon before a body without blanks. -/
def isLoose (value : String) : Bool :=
  match afterScheme? value.toList with
  | some body => !body.isEmpty && body.all isLooseChar
  | none => false

end ContentTyping.Iri

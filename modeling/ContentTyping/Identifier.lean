import ContentTyping.Text.Blank

/-!
# Fresh identifiers

New nodes and new objects are named by identifiers that were never used before. Where they come
from is left open: a supply is any sequence of names, handed out in order. The usual names are
random identifiers of 122 free bits.
-/

namespace ContentTyping

/-- A sequence of names and the number of those already handed out. -/
structure Supply where
  name : Nat → String
  used : Nat

/-- The next name, and the supply without it. -/
def Supply.draw (supply : Supply) : String × Supply :=
  (supply.name supply.used, { supply with used := supply.used + 1 })

namespace RandomName

/-- The groups of a random identifier with the free digits as `x`. The version is four, and the
digit `v` has two free bits. -/
def shape : List Char :=
  "urn:uuid:xxxxxxxx-xxxx-4xxx-vxxx-xxxxxxxxxxxx".toList

/-- The identifier made of a number: its hexadecimal digits in the free places, the last ones
in the last place. -/
def ofNat (bits : Nat) : String :=
  let marks := shape.drop 9
  let fill (mark : Char) (state : List Char × Nat) : List Char × Nat :=
    if mark = 'x' then (Text.hexDigit (state.2 % 16) :: state.1, state.2 / 16)
    else if mark = 'v' then (Text.hexDigit (8 + state.2 % 4) :: state.1, state.2 / 4)
    else (mark :: state.1, state.2)
  String.ofList (shape.take 9 ++ (marks.foldr fill ([], bits)).1)

/-- May the character stand in this place of a random identifier? -/
def fits (mark c : Char) : Bool :=
  if mark = 'x' then c.isDigit || ('a' ≤ c && c ≤ 'f')
  else if mark = 'v' then c = '8' || c = '9' || c = 'a' || c = 'b'
  else c = mark

/-- The text after a random identifier at its beginning. -/
def after? (text : List Char) : Option (List Char) :=
  if shape.length ≤ text.length && (shape.zip text).all fun place => fits place.1 place.2 then
    some (text.drop shape.length)
  else none

end RandomName

end ContentTyping

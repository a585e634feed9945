/-!
# Cardinalities

Inclusive bounds on a number of occurrences. Both bounds are 32-bit words; a missing upper
bound means that any number from the lower bound on is accepted.
-/

namespace ContentTyping

/-- Inclusive bounds `[min, max]`; without `max` there is no upper bound. -/
structure Cardinality where
  min : UInt32
  max : Option UInt32
  deriving DecidableEq, Hashable

namespace Cardinality

/-- Any number of occurrences. -/
def any : Cardinality := ⟨0, none⟩

/-- Exactly `n` occurrences. -/
def exactly (n : UInt32) : Cardinality := ⟨n, some n⟩

/-- At least `n` occurrences. -/
def atLeast (n : UInt32) : Cardinality := ⟨n, none⟩

/-- Read the signed convention in which an upper bound of `-1` means that there is none.
Bounds are compared as given and then kept modulo `2 ^ 32`. -/
def ofSigned (min max : Int) : Option Cardinality :=
  if min < 0 ∨ max < -1 ∨ (0 ≤ max ∧ max < min) then none
  else some ⟨min.toNat.toUInt32, if max = -1 then none else some max.toNat.toUInt32⟩

/-- Does a number of occurrences lie within the bounds? -/
def contains (cardinality : Cardinality) (count : Nat) : Bool :=
  cardinality.min.toNat ≤ count &&
    match cardinality.max with
    | none => true
    | some max => count ≤ max.toNat

/-- At least one occurrence is asked for. -/
def isRequired (cardinality : Cardinality) : Bool :=
  0 < cardinality.min

/-- The lower bound does not exceed the upper one. -/
def isOrdered (cardinality : Cardinality) : Bool :=
  match cardinality.max with
  | none => true
  | some max => cardinality.min ≤ max

/-- The written form, such as `[0, *]` or `[1, 3]`. -/
def display (cardinality : Cardinality) : String :=
  match cardinality.max with
  | none => s!"[{cardinality.min}, *]"
  | some max => s!"[{cardinality.min}, {max}]"

end Cardinality

end ContentTyping

import Mathlib.Algebra.Ring.Int.Defs
import ContentTyping.Profile.Cardinality

/-!
# Signed bounds

Bounds may be given in a signed convention, in which an upper bound of `-1` means that there is none.
They are compared as they are given, but kept in 32-bit words. So a cardinality means what was written
when both bounds fit into a word, and only then.
-/

namespace ContentTyping.Cardinality

/-- The number lies between the bounds as they are written. -/
def WithinSigned (min max : Int) (count : Nat) : Prop :=
  min ≤ count ∧ (max = -1 ∨ count ≤ max)

variable {min max : Int} {cardinality : Cardinality}

theorem ofSigned_eq_some_iff :
    ofSigned min max = some cardinality ↔
      0 ≤ min ∧ (max = -1 ∨ min ≤ max) ∧
        cardinality = ⟨min.toNat.toUInt32, if max = -1 then none else some max.toNat.toUInt32⟩ := by
  rw [ofSigned]
  by_cases refused : min < 0 ∨ max < -1 ∨ (0 ≤ max ∧ max < min)
  · rw [if_pos refused]
    constructor
    · intro built
      exact absurd built (by simp)
    · rintro ⟨nonneg, inOrder, _⟩
      omega
  · rw [if_neg refused, Option.some_inj]
    constructor
    · intro same
      exact ⟨by omega, by omega, same.symm⟩
    · rintro ⟨_, _, same⟩
      exact same.symm

theorem toNat_toUInt32 {bound : Int} (nonneg : 0 ≤ bound) :
    (bound.toNat.toUInt32.toNat : Int) = bound % 2 ^ 32 := by
  rw [Nat.toUInt32_eq, UInt32.toNat_ofNat']
  omega

/-- Of each bound only the part below `2 ^ 32` counts. -/
theorem contains_of_ofSigned (built : ofSigned min max = some cardinality) (count : Nat) :
    cardinality.contains count = true ↔
      WithinSigned (min % 2 ^ 32) (if max = -1 then -1 else max % 2 ^ 32) count := by
  obtain ⟨nonneg, inOrder, rfl⟩ := ofSigned_eq_some_iff.1 built
  have lower := toNat_toUInt32 nonneg
  rw [contains, Bool.and_eq_true, decide_eq_true_eq, WithinSigned]
  by_cases unbounded : max = -1
  · simp only [if_pos unbounded, true_or, and_true]
    omega
  · have upper := @toNat_toUInt32 max (by omega)
    simp only [if_neg unbounded, decide_eq_true_eq]
    omega

/-- A cardinality that is built from signed bounds keeps them modulo `2 ^ 32`. It accepts the numbers
between the bounds as they are written when both of them are smaller than that, and only then. -/
theorem ofSigned_means_bounds_iff (built : ofSigned min max = some cardinality) :
    (∀ count, cardinality.contains count = true ↔
        WithinSigned (min % 2 ^ 32) (if max = -1 then -1 else max % 2 ^ 32) count) ∧
      ((∀ count, cardinality.contains count = true ↔ WithinSigned min max count) ↔
        min < 2 ^ 32 ∧ max < 2 ^ 32) := by
  have kept := contains_of_ofSigned built
  obtain ⟨nonneg, inOrder, _⟩ := ofSigned_eq_some_iff.1 built
  refine ⟨kept, ?_⟩
  constructor
  · intro means
    by_cases unbounded : max = -1
    · -- The least number that is accepted tells the lower bound from its remainder.
      have least := (means (min % 2 ^ 32).toNat).1 ((kept _).2 ⟨by omega, .inl (if_pos unbounded)⟩)
      have belowLeast := least.1
      omega
    · -- The upper bound itself is meant to be accepted, and is more than its remainder if it is too large.
      have greatest := (kept max.toNat).1 ((means _).2 ⟨by omega, .inr (by omega)⟩)
      rw [if_neg unbounded] at greatest
      have aboveGreatest := greatest.2
      omega
  · rintro ⟨lowerFits, upperFits⟩ count
    rw [kept, WithinSigned, WithinSigned, Int.emod_eq_of_lt nonneg lowerFits]
    by_cases unbounded : max = -1
    · rw [if_pos unbounded, unbounded]
    · rw [if_neg unbounded, Int.emod_eq_of_lt (by omega) upperFits]

/-- Some bounds that fit. -/
theorem ofSigned_means_bounds_three_to_seven :
    ofSigned 3 7 = some ⟨3, some 7⟩ ∧
      ∀ count, contains ⟨3, some 7⟩ count = true ↔ WithinSigned 3 7 count := by
  have built : ofSigned 3 7 = some ⟨3, some 7⟩ := by decide
  exact ⟨built, (ofSigned_means_bounds_iff built).2.2 (by decide)⟩

/-- Bounds that are too large for a word come out as others: at most `2 ^ 32` as none at all, and at least
`2 ^ 32` as any number. -/
theorem ofSigned_drops_high_bits :
    (ofSigned 0 (2 ^ 32) = some (exactly 0) ∧
        ¬((exactly 0).contains 1 = true ↔ WithinSigned 0 (2 ^ 32) 1)) ∧
      (ofSigned (2 ^ 32) (-1) = some any ∧
        ¬(any.contains 0 = true ↔ WithinSigned (2 ^ 32) (-1) 0)) := by
  unfold WithinSigned
  decide

end ContentTyping.Cardinality

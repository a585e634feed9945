import Mathlib.Algebra.Group.Nat.Defs
import Mathlib.Data.List.Basic
import ContentTyping.Json.Fields
import ContentTyping.Time.Rfc3339

/-!
# Numbers in digits

The decimal and hexadecimal digits of a number give back the number, and a reader that takes digits as
long as there are any takes exactly those that were written.
-/

namespace ContentTyping

namespace Text

/-- The text does not begin with a digit. -/
def NoDigitAhead (text : List Char) : Prop :=
  ∀ c ∈ text.head?, c.isDigit = false

theorem all_isDigit_toDigits (value : Nat) : (Nat.toDigits 10 value).all Char.isDigit = true :=
  List.all_eq_true.2 fun _ member =>
    Nat.isDigit_of_mem_toDigits (by decide) (Nat.le_refl _) member

theorem takeWhile_isDigit_append {digits rest : List Char} (allDigits : digits.all Char.isDigit = true)
    (ends : NoDigitAhead rest) : (digits ++ rest).takeWhile Char.isDigit = digits := by
  rw [List.takeWhile_append_of_pos (List.all_eq_true.1 allDigits)]
  cases rest with
  | nil => simp
  | cons c rest => simp [ends c rfl]

theorem dropWhile_isDigit_append {digits rest : List Char} (allDigits : digits.all Char.isDigit = true)
    (ends : NoDigitAhead rest) : (digits ++ rest).dropWhile Char.isDigit = rest := by
  rw [List.dropWhile_append_of_pos (List.all_eq_true.1 allDigits)]
  cases rest with
  | nil => rfl
  | cons c rest => simp [ends c rfl]

/-- Only zero begins with a zero. -/
theorem head?_toDigits_ne_zero {value : Nat} (positive : value ≠ 0) :
    (Nat.toDigits 10 value).head? ≠ some '0' := by
  induction value using Nat.strongRecOn with
  | _ value inductionHypothesis =>
      rcases Nat.lt_or_ge value 10 with small | large
      · rw [Nat.toDigits_of_lt_base small]
        have digits : ∀ digit < 10, digit ≠ 0 → [digit.digitChar].head? ≠ some '0' := by decide
        exact digits value small positive
      · rw [Nat.toDigits_of_base_le (by decide) large, List.head?_append_of_ne_nil _ Nat.toDigits_ne_nil]
        exact inductionHypothesis (value / 10) (by omega) (by omega)

theorem digitsValue_eq (digits : List Char) :
    Json.digitsValue digits = Nat.ofDigitChars 10 digits 0 := by
  rw [Json.digitsValue, Nat.ofDigitChars]
  congr
  funext sofar digit
  rw [Nat.mul_comm]
  rfl

theorem digitsValue_toDigits (value : Nat) : Json.digitsValue (Nat.toDigits 10 value) = value := by
  rw [digitsValue_eq, Nat.ofDigitChars_ten_toDigits]

theorem isDigit_iff {c : Char} : c.isDigit = true ↔ 48 ≤ c.toNat ∧ c.toNat ≤ 57 := by
  simp [Char.isDigit, UInt32.le_iff_toNat_le]

/-- A row of digits is worth less than the power of ten with so many zeros. -/
theorem digitsValue_lt {digits : List Char} (allDigits : digits.all Char.isDigit = true) :
    Json.digitsValue digits < 10 ^ digits.length := by
  rw [digitsValue_eq]
  induction digits with
  | nil =>
      decide
  | cons c digits inductionHypothesis =>
      rw [List.all_cons, Bool.and_eq_true] at allDigits
      have isDigit := isDigit_iff.1 allDigits.1
      have rest := inductionHypothesis allDigits.2
      rw [Nat.ofDigitChars_cons, Nat.ofDigitChars_eq_ofDigitChars_zero, List.length_cons, Nat.pow_succ,
        Nat.mul_zero, Nat.zero_add]
      have leading : c.toNat - '0'.toNat ≤ 9 := by
        have zero : '0'.toNat = 48 := rfl
        omega
      have most := Nat.mul_le_mul_left (10 ^ digits.length) leading
      omega

/-! ## Padded numbers -/

theorem toList_padZeros (width value : Nat) :
    (padZeros width value).toList =
      List.replicate (width - (Nat.toDigits 10 value).length) '0' ++ Nat.toDigits 10 value := by
  rw [padZeros, String.toList_ofList]

theorem all_isDigit_padZeros (width value : Nat) :
    (padZeros width value).toList.all Char.isDigit = true := by
  rw [toList_padZeros, List.all_append, all_isDigit_toDigits, Bool.and_true, List.all_replicate]
  split <;> rfl

theorem decimalValue_padZeros (width value : Nat) :
    Instant.decimalValue (padZeros width value).toList = value := by
  have same (digits : List Char) : Instant.decimalValue digits = Json.digitsValue digits := rfl
  rw [toList_padZeros, same, digitsValue_eq, Nat.ofDigitChars_append,
    Nat.ofDigitChars_replicate_zero, Nat.mul_zero, Nat.ofDigitChars_ten_toDigits]

theorem length_padZeros {width value : Nat} (positive : 0 < width) (small : value < 10 ^ width) :
    (padZeros width value).toList.length = width := by
  have short := (Nat.length_toDigits_le_iff (by decide) positive).2 small
  rw [toList_padZeros, List.length_append, List.length_replicate]
  omega

theorem toList_padZeros_ne_nil (width value : Nat) : (padZeros width value).toList ≠ [] := by
  rw [toList_padZeros]
  exact List.append_ne_nil_of_right_ne_nil _ Nat.toDigits_ne_nil

/-! ## Hexadecimal digits -/

theorem hexValue?_hexDigit {value : Nat} (small : value < 16) :
    hexValue? (hexDigit value) = some value := by
  have each : ∀ value < 16, hexValue? (hexDigit value) = some value := by decide
  exact each value small

theorem hexDigit_eq_digitChar {value : Nat} (small : value < 16) : hexDigit value = value.digitChar := by
  have each : ∀ value < 16, hexDigit value = value.digitChar := by decide
  exact each value small

/-- A hexadecimal digit that is no capital letter. -/
def IsLowerHex (c : Char) : Prop :=
  c.isDigit = true ∨ ('a' ≤ c ∧ c ≤ 'f')

theorem isLowerHex_hexDigit {value : Nat} (small : value < 16) : IsLowerHex (hexDigit value) := by
  have each : ∀ value < 16,
      (hexDigit value).isDigit = true ∨ ('a' ≤ hexDigit value ∧ hexDigit value ≤ 'f') := by decide
  exact each value small

theorem length_hexDigits (width value : Nat) : (hexDigits width value).length = width := by
  induction width with
  | zero => rfl
  | succ width inductionHypothesis => rw [hexDigits, List.length_cons, inductionHypothesis]

theorem isLowerHex_of_mem_hexDigits {width value : Nat} {c : Char} (member : c ∈ hexDigits width value) :
    IsLowerHex c := by
  induction width with
  | zero =>
      exact absurd member List.not_mem_nil
  | succ width inductionHypothesis =>
      rw [hexDigits, List.mem_cons] at member
      rcases member with rfl | further
      · exact isLowerHex_hexDigit (Nat.mod_lt _ (by decide))
      · exact inductionHypothesis further

theorem hexDigits_zero (width : Nat) : hexDigits width 0 = List.replicate width '0' := by
  induction width with
  | zero =>
      rfl
  | succ width inductionHypothesis =>
      rw [hexDigits, inductionHypothesis, Nat.zero_div, List.replicate_succ]
      rfl

/-- The lowest digit stands last. -/
theorem hexDigits_succ (width value : Nat) :
    hexDigits (width + 1) value = hexDigits width (value / 16) ++ [hexDigit (value % 16)] := by
  induction width with
  | zero =>
      rw [hexDigits, hexDigits, hexDigits, Nat.pow_eq, Nat.pow_zero, Nat.div_one]
      rfl
  | succ width inductionHypothesis =>
      rw [hexDigits, inductionHypothesis, hexDigits, List.cons_append, Nat.pow_eq, Nat.pow_eq,
        Nat.div_div_eq_div_mul, Nat.pow_succ, Nat.mul_comm]

/-- The digits of a number that has places enough are its digits to base sixteen after zeros. -/
theorem hexDigits_eq_leftpad {width value : Nat} (positive : 0 < width) (small : value < 16 ^ width) :
    hexDigits width value = (Nat.toDigits 16 value).leftpad width '0' := by
  induction width generalizing value with
  | zero =>
      exact absurd positive (Nat.lt_irrefl 0)
  | succ width inductionHypothesis =>
      rw [hexDigits_succ, List.leftpad]
      rcases Nat.lt_or_ge value 16 with oneDigit | more
      · rw [Nat.toDigits_of_lt_base oneDigit, Nat.div_eq_of_lt oneDigit, Nat.mod_eq_of_lt oneDigit,
          hexDigits_zero, hexDigit_eq_digitChar oneDigit, List.length_singleton, Nat.add_sub_cancel]
      · have lowest : value % 16 < 16 := Nat.mod_lt _ (by decide)
        have rest : value / 16 < 16 ^ width := by
          rw [Nat.pow_succ] at small
          exact Nat.div_lt_of_lt_mul (by rwa [Nat.mul_comm])
        have furtherDigits : 0 < width := by
          refine Nat.pos_of_ne_zero fun none => ?_
          rw [none] at small
          omega
        rw [Nat.toDigits_of_base_le (by decide) more, inductionHypothesis furtherDigits rest, List.leftpad,
          hexDigit_eq_digitChar lowest, List.length_append, List.length_singleton, Nat.add_sub_add_right,
          List.append_assoc]

end Text

end ContentTyping

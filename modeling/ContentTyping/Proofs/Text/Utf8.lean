import Mathlib.Data.List.Basic
import ContentTyping.Text.Utf8

/-!
# Texts as bytes

A text is read back from its bytes, and bytes that are read as a text are the bytes of that text. So
texts and well-formed byte sequences belong to each other one to one.
-/

namespace ContentTyping.Text

/-! ## Single characters -/

theorem followers?_eq {first : UInt8} :
    followers? first =
      if first.toNat < 0x80 then some 0
      else if 0xC2 ≤ first.toNat ∧ first.toNat ≤ 0xDF then some 1
      else if 0xE0 ≤ first.toNat ∧ first.toNat ≤ 0xEF then some 2
      else if 0xF0 ≤ first.toNat ∧ first.toNat ≤ 0xF4 then some 3
      else none := by
  simp [followers?, UInt8.lt_iff_toNat_lt, UInt8.le_iff_toNat_le]

theorem isContinuation_iff {byte : UInt8} :
    isContinuation byte = true ↔ 0x80 ≤ byte.toNat ∧ byte.toNat ≤ 0xBF := by
  simp [isContinuation, UInt8.le_iff_toNat_le]

theorem isSecondByte_iff {first second : UInt8} :
    isSecondByte first second = true ↔
      (0x80 ≤ second.toNat ∧ second.toNat ≤ 0xBF) ∧
        (first.toNat = 0xE0 → 0xA0 ≤ second.toNat) ∧
        (first.toNat = 0xED → second.toNat ≤ 0x9F) ∧
        (first.toNat = 0xF0 → 0x90 ≤ second.toNat) ∧
        (first.toNat = 0xF4 → second.toNat ≤ 0x8F) := by
  simp only [isSecondByte, isContinuation, ← UInt8.toNat_inj, UInt8.le_iff_toNat_le]
  simp only [UInt8.reduceToNat]
  repeat' split
  all_goals
    simp only [Bool.and_eq_true, decide_eq_true_eq]
    omega

theorem toNat_ofNat {value : Nat} (valid : value < 0xD800 ∨ 0xDFFF < value ∧ value < 0x110000) :
    (Char.ofNat value).toNat = value := by
  rw [Char.ofNat, dif_pos (show value.isValidChar from valid)]
  rfl

theorem char_bounds (c : Char) : c.toNat < 0xD800 ∨ 0xDFFF < c.toNat ∧ c.toNat < 0x110000 :=
  c.valid

/-- The bytes of a character, by its number. -/
theorem utf8EncodeChar_eq (c : Char) :
    String.utf8EncodeChar c =
      if c.toNat ≤ 0x7F then [UInt8.ofNat c.toNat]
      else if c.toNat ≤ 0x7FF then
        [UInt8.ofNat (c.toNat / 64 % 32 + 0xC0), UInt8.ofNat (c.toNat % 64 + 0x80)]
      else if c.toNat ≤ 0xFFFF then
        [UInt8.ofNat (c.toNat / 4096 % 16 + 0xE0), UInt8.ofNat (c.toNat / 64 % 64 + 0x80),
          UInt8.ofNat (c.toNat % 64 + 0x80)]
      else
        [UInt8.ofNat (c.toNat / 262144 % 8 + 0xF0), UInt8.ofNat (c.toNat / 4096 % 64 + 0x80),
          UInt8.ofNat (c.toNat / 64 % 64 + 0x80), UInt8.ofNat (c.toNat % 64 + 0x80)] :=
  rfl

/-- The bytes spell a character with this number. -/
inductive Spells : List UInt8 → Nat → Prop
  | one {first : UInt8} (isFirst : first.toNat < 0x80) : Spells [first] first.toNat
  | two {first second : UInt8} (isFirst : 0xC2 ≤ first.toNat ∧ first.toNat ≤ 0xDF)
      (isSecond : isSecondByte first second = true) :
      Spells [first, second] (first.toNat % 32 * 64 + payload second)
  | three {first second third : UInt8} (isFirst : 0xE0 ≤ first.toNat ∧ first.toNat ≤ 0xEF)
      (isSecond : isSecondByte first second = true) (isThird : isContinuation third = true) :
      Spells [first, second, third]
        (first.toNat % 16 * 4096 + payload second * 64 + payload third)
  | four {first second third fourth : UInt8} (isFirst : 0xF0 ≤ first.toNat ∧ first.toNat ≤ 0xF4)
      (isSecond : isSecondByte first second = true) (isThird : isContinuation third = true)
      (isFourth : isContinuation fourth = true) :
      Spells [first, second, third, fourth]
        (first.toNat % 8 * 262144 + payload second * 4096 + payload third * 64 + payload fourth)

theorem Spells.decodeStep {first : UInt8} {more : List UInt8} {value : Nat}
    (spells : Spells (first :: more) value) (rest : List UInt8) :
    decodeStep first (more ++ rest) = (some (Char.ofNat value), more.length) := by
  cases spells with
  | one isFirst =>
      have one : followers? first = some 0 := by
        rw [followers?_eq, if_pos isFirst]
      simp [Text.decodeStep, one]
  | two isFirst isSecond =>
      have two : followers? first = some 1 := by
        rw [followers?_eq, if_neg (by omega), if_pos isFirst]
      simp [Text.decodeStep, two, isSecond]
  | three isFirst isSecond isThird =>
      have three : followers? first = some 2 := by
        rw [followers?_eq, if_neg (by omega), if_neg (by omega), if_pos isFirst]
      simp [Text.decodeStep, three, isSecond, isThird]
  | four isFirst isSecond isThird isFourth =>
      have four : followers? first = some 3 := by
        rw [followers?_eq, if_neg (by omega), if_neg (by omega), if_neg (by omega), if_pos isFirst]
      simp [Text.decodeStep, four, isSecond, isThird, isFourth]

/-- A step that finds a character has found bytes that spell it. -/
theorem exists_spells_of_decodeStep {first : UInt8} {rest : List UInt8} {c : Char} {taken : Nat}
    (step : decodeStep first rest = (some c, taken)) :
    ∃ more after value, rest = more ++ after ∧ taken = more.length ∧
      Spells (first :: more) value ∧ c = Char.ofNat value := by
  have kinds := @followers?_eq first
  split at kinds
  next isFirst =>
      simp only [decodeStep, kinds, Prod.mk.injEq, Option.some.injEq] at step
      exact ⟨[], rest, _, rfl, step.2.symm, .one isFirst, step.1.symm⟩
  split at kinds
  next isFirst =>
      rcases rest with _ | ⟨second, rest⟩
      · simp [decodeStep, kinds] at step
      cases isSecond : isSecondByte first second with
      | false =>
          simp [decodeStep, kinds, isSecond] at step
      | true =>
          simp only [decodeStep, kinds, isSecond, if_true, Prod.mk.injEq, Option.some.injEq] at step
          exact ⟨[second], rest, _, rfl, step.2.symm, .two isFirst isSecond, step.1.symm⟩
  split at kinds
  next isFirst =>
      rcases rest with _ | ⟨second, _ | ⟨third, rest⟩⟩
      · simp [decodeStep, kinds] at step
      · simp [decodeStep, kinds] at step
      cases isSecond : isSecondByte first second with
      | false =>
          simp [decodeStep, kinds, isSecond] at step
      | true =>
          cases isThird : isContinuation third with
          | false =>
              simp [decodeStep, kinds, isSecond, isThird] at step
          | true =>
              simp only [decodeStep, kinds, isSecond, isThird, if_true, Prod.mk.injEq,
                Option.some.injEq] at step
              exact ⟨[second, third], rest, _, rfl, step.2.symm, .three isFirst isSecond isThird,
                step.1.symm⟩
  split at kinds
  next isFirst =>
      rcases rest with _ | ⟨second, _ | ⟨third, _ | ⟨fourth, rest⟩⟩⟩
      · simp [decodeStep, kinds] at step
      · simp [decodeStep, kinds] at step
      · simp [decodeStep, kinds] at step
      cases isSecond : isSecondByte first second with
      | false =>
          simp [decodeStep, kinds, isSecond] at step
      | true =>
          cases isThird : isContinuation third with
          | false =>
              simp [decodeStep, kinds, isSecond, isThird] at step
          | true =>
              cases isFourth : isContinuation fourth with
              | false =>
                  simp [decodeStep, kinds, isSecond, isThird, isFourth] at step
              | true =>
                  simp only [decodeStep, kinds, isSecond, isThird, isFourth, if_true,
                    Prod.mk.injEq, Option.some.injEq] at step
                  exact ⟨[second, third, fourth], rest, _, rfl, step.2.symm,
                    .four isFirst isSecond isThird isFourth, step.1.symm⟩
  · simp [decodeStep, kinds] at step

/-! ## Numbers of characters -/

theorem byte_eq {byte : UInt8} {value : Nat} (same : value = byte.toNat) :
    UInt8.ofNat value = byte := by
  rw [same, UInt8.ofNat_toNat]

theorem Spells.utf8EncodeChar {bytes : List UInt8} {value : Nat} (spells : Spells bytes value) :
    String.utf8EncodeChar (Char.ofNat value) = bytes := by
  cases spells with
  | one isFirst =>
      rw [utf8EncodeChar_eq, toNat_ofNat (by omega), if_pos (by omega), byte_eq rfl]
  | @two first second isFirst isSecond =>
      obtain ⟨isTail, _⟩ := isSecondByte_iff.1 isSecond
      simp only [payload]
      rw [utf8EncodeChar_eq, toNat_ofNat (by omega), if_neg (by omega), if_pos (by omega)]
      rw [@byte_eq first _ (by omega), @byte_eq second _ (by omega)]
  | @three first second third isFirst isSecond isThird =>
      obtain ⟨isTail, leads⟩ := isSecondByte_iff.1 isSecond
      have isTailToo := isContinuation_iff.1 isThird
      simp only [payload]
      rw [utf8EncodeChar_eq, toNat_ofNat (by omega), if_neg (by omega), if_neg (by omega),
        if_pos (by omega)]
      rw [@byte_eq first _ (by omega), @byte_eq second _ (by omega), @byte_eq third _ (by omega)]
  | @four first second third fourth isFirst isSecond isThird isFourth =>
      obtain ⟨isTail, leads⟩ := isSecondByte_iff.1 isSecond
      have isTailToo := isContinuation_iff.1 isThird
      have isLastTail := isContinuation_iff.1 isFourth
      simp only [payload]
      rw [utf8EncodeChar_eq, toNat_ofNat (by omega), if_neg (by omega), if_neg (by omega),
        if_neg (by omega)]
      rw [@byte_eq first _ (by omega), @byte_eq second _ (by omega), @byte_eq third _ (by omega),
        @byte_eq fourth _ (by omega)]

theorem spells_utf8EncodeChar (c : Char) : Spells (String.utf8EncodeChar c) c.toNat := by
  have bounds := char_bounds c
  have byte (value : Nat) (small : value < 256) :
      ∃ byte : UInt8, UInt8.ofNat value = byte ∧ byte.toNat = value :=
    ⟨_, rfl, by rw [UInt8.toNat_ofNat', Nat.mod_eq_of_lt small]⟩
  rw [utf8EncodeChar_eq]
  split
  next one =>
      obtain ⟨first, isFirst, firstValue⟩ := byte c.toNat (by omega)
      rw [isFirst, ← firstValue]
      exact .one (by omega)
  split
  next two =>
      obtain ⟨first, isFirst, firstValue⟩ := byte (c.toNat / 64 % 32 + 0xC0) (by omega)
      obtain ⟨second, isSecond, secondValue⟩ := byte (c.toNat % 64 + 0x80) (by omega)
      have value : first.toNat % 32 * 64 + payload second = c.toNat := by
        rw [payload]
        omega
      have follows := (@isSecondByte_iff first second).2 (by omega)
      rw [isFirst, isSecond, ← value]
      exact .two (by omega) follows
  split
  next three =>
      obtain ⟨first, isFirst, firstValue⟩ := byte (c.toNat / 4096 % 16 + 0xE0) (by omega)
      obtain ⟨second, isSecond, secondValue⟩ := byte (c.toNat / 64 % 64 + 0x80) (by omega)
      obtain ⟨third, isThird, thirdValue⟩ := byte (c.toNat % 64 + 0x80) (by omega)
      have value : first.toNat % 16 * 4096 + payload second * 64 + payload third = c.toNat := by
        rw [payload, payload]
        omega
      have follows := (@isSecondByte_iff first second).2 (by omega)
      have continues := (@isContinuation_iff third).2 (by omega)
      rw [isFirst, isSecond, isThird, ← value]
      exact .three (by omega) follows continues
  next four =>
      obtain ⟨first, isFirst, firstValue⟩ := byte (c.toNat / 262144 % 8 + 0xF0) (by omega)
      obtain ⟨second, isSecond, secondValue⟩ := byte (c.toNat / 4096 % 64 + 0x80) (by omega)
      obtain ⟨third, isThird, thirdValue⟩ := byte (c.toNat / 64 % 64 + 0x80) (by omega)
      obtain ⟨fourth, isFourth, fourthValue⟩ := byte (c.toNat % 64 + 0x80) (by omega)
      have value : first.toNat % 8 * 262144 + payload second * 4096 + payload third * 64 +
          payload fourth = c.toNat := by
        rw [payload, payload, payload]
        omega
      have follows := (@isSecondByte_iff first second).2 (by omega)
      have continues := (@isContinuation_iff third).2 (by omega)
      have ends := (@isContinuation_iff fourth).2 (by omega)
      rw [isFirst, isSecond, isThird, isFourth, ← value]
      exact .four (by omega) follows continues ends

/-! ## Texts -/

theorem decodeUtf8_of_spells {first : UInt8} {more rest : List UInt8} {value : Nat}
    (spells : Spells (first :: more) value) :
    decodeUtf8 (first :: more ++ rest) = some (Char.ofNat value) :: decodeUtf8 rest := by
  rw [List.cons_append, decodeUtf8, spells.decodeStep, List.drop_left]

theorem decodeUtf8_utf8Bytes (text : List Char) :
    decodeUtf8 (utf8Bytes text) = text.map some := by
  induction text with
  | nil =>
      rw [utf8Bytes, List.flatMap_nil, decodeUtf8]
      rfl
  | cons c text inductionHypothesis =>
      have spells := spells_utf8EncodeChar c
      rw [utf8Bytes, List.flatMap_cons, ← utf8Bytes, List.map_cons, ← inductionHypothesis]
      cases bytes : String.utf8EncodeChar c with
      | nil =>
          exact absurd bytes String.utf8EncodeChar_ne_nil
      | cons first more =>
          rw [bytes] at spells
          rw [decodeUtf8_of_spells spells, Char.ofNat_toNat]

/-- A text is read back from its bytes. -/
theorem ofUtf8?_utf8Bytes (text : String) : ofUtf8? (utf8Bytes text.toList) = some text := by
  have each (chars : List Char) : (chars.map some).mapM id = some chars := by
    induction chars with
    | nil => rfl
    | cons c chars inductionHypothesis => simp [inductionHypothesis]
  rw [ofUtf8?, decodeUtf8_utf8Bytes, each, Option.map_some, String.ofList_toList]

theorem mapM_id_cons_eq_some_iff {first : Option Char} {rest : List (Option Char)}
    {chars : List Char} :
    (first :: rest).mapM id = some chars ↔
      ∃ c others, first = some c ∧ rest.mapM id = some others ∧ chars = c :: others := by
  cases first with
  | none =>
      simp
  | some c =>
      cases isRest : rest.mapM id with
      | none => simp [isRest]
      | some others => simp [isRest, eq_comm]

/-- What is read as a text are the bytes of that text. -/
theorem utf8Bytes_of_ofUtf8? {bytes : List UInt8} {text : String}
    (isText : ofUtf8? bytes = some text) : utf8Bytes text.toList = bytes := by
  obtain ⟨chars, decoded, rfl⟩ := Option.map_eq_some_iff.1 isText
  rw [String.toList_ofList]
  clear isText
  induction bytes using decodeUtf8.induct generalizing chars with
  | case1 =>
      rw [decodeUtf8] at decoded
      obtain rfl : [] = chars := Option.some.inj decoded
      rfl
  | case2 first rest step inductionHypothesis =>
      rw [decodeUtf8, mapM_id_cons_eq_some_iff] at decoded
      obtain ⟨c, others, isChar, isRest, rfl⟩ := decoded
      obtain ⟨more, after, value, rfl, taken, spells, rfl⟩ :=
        exists_spells_of_decodeStep (Prod.ext isChar rfl)
      have dropped : (more ++ after).drop (decodeStep first (more ++ after)).2 = after :=
        (congrArg (fun count => (more ++ after).drop count) taken).trans List.drop_left
      have further := inductionHypothesis others isRest
      rw [dropped] at further
      rw [utf8Bytes, List.flatMap_cons, ← utf8Bytes, further, spells.utf8EncodeChar, List.cons_append]

end ContentTyping.Text

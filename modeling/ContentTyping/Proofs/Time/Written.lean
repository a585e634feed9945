import ContentTyping.Proofs.Text.Digits
import ContentTyping.Proofs.Time.Calendar

/-!
# Written instants are read back

Every instant of the calendar is read back from its written form, and whatever is read as an instant is
one of the calendar.
-/

namespace ContentTyping

/-- An instant of the years that are counted. A leap second ends a minute. -/
structure Instant.IsTime (instant : Instant) : Prop where
  year_inRange : isYearInRange (CalendarDay.ofEpochDays (instant.seconds / 86400)).year = true
  nanos_lt : instant.nanos < 2000000000
  leap : 1000000000 ≤ instant.nanos → instant.seconds % 60 = 59

namespace Instant

/-! ## Blanks -/

theorem isBlank_of_isDigit {c : Char} (isDigit : c.isDigit = true) : Text.isBlank c = false := by
  have bounds := Text.isDigit_iff.1 isDigit
  simp only [Text.isBlank, Bool.or_eq_false_iff, Bool.and_eq_false_iff, decide_eq_false_iff_not]
  omega

theorem skipBlanks_cons {c : Char} (notBlank : Text.isBlank c = false) (rest : List Char) :
    skipBlanks (c :: rest) = c :: rest := by
  rw [skipBlanks, List.dropWhile_cons_of_neg (by simp [notBlank])]

theorem skipBlanks_append {digits : List Char} (allDigits : digits.all Char.isDigit = true)
    (nonempty : digits ≠ []) (rest : List Char) : skipBlanks (digits ++ rest) = digits ++ rest := by
  obtain ⟨c, more, rfl⟩ := List.exists_cons_of_ne_nil nonempty
  have isDigit := List.all_eq_true.1 allDigits c List.mem_cons_self
  exact skipBlanks_cons (isBlank_of_isDigit isDigit) _

/-! ## Numbers -/

theorem readNatural_append {width : Nat} {digits rest : List Char}
    (allDigits : digits.all Char.isDigit = true) (nonempty : digits ≠ [])
    (short : digits.length ≤ width) (ends : digits.length = width ∨ Text.NoDigitAhead rest) :
    readNatural width (digits ++ rest) = some (decimalValue digits, rest) := by
  have taken : ((digits ++ rest).take width).takeWhile Char.isDigit = digits := by
    rw [List.take_append, List.take_of_length_le short]
    refine Text.takeWhile_isDigit_append allDigits ?_
    rcases ends with full | ends
    · rw [full, Nat.sub_self, List.take_zero]
      exact fun c none => absurd none (by simp)
    · intro c isHead
      rw [List.head?_take] at isHead
      split at isHead
      · exact absurd isHead (by simp)
      · exact ends c isHead
  rw [readNatural, taken, List.drop_left]
  simp [nonempty]

theorem readPair_padZeros {value : Nat} (small : value < 100) (rest : List Char) :
    readPair ((Text.padZeros 2 value).toList ++ rest) = some (value, rest) := by
  have digits := Text.all_isDigit_padZeros 2 value
  have nonempty := Text.toList_padZeros_ne_nil 2 value
  have length := @Text.length_padZeros 2 value (by decide) small
  rw [readPair, skipBlanks_append digits nonempty,
    readNatural_append digits nonempty (Nat.le_of_eq length) (.inl length),
    Text.decimalValue_padZeros]

theorem readMark_cons {mark : Char} (notBlank : Text.isBlank mark = false) (rest : List Char) :
    readMark mark (mark :: rest) = some rest := by
  rw [readMark, skipBlanks_cons notBlank]
  exact if_pos rfl

theorem noDigitAhead_cons {c : Char} (notDigit : c.isDigit = false) (rest : List Char) :
    Text.NoDigitAhead (c :: rest) := by
  intro other isHead
  obtain rfl : c = other := Option.some.inj isHead
  exact notDigit

/-- A year is read up to the mark behind it. -/
theorem readYear_displayYear (year : Int) (rest : List Char) :
    readYear ((displayYear year).toList ++ '-' :: rest) = some (year, '-' :: rest) := by
  have ends := noDigitAhead_cons (show Char.isDigit '-' = false from rfl) rest
  have digits (value : Nat) := Text.all_isDigit_padZeros 4 value
  have nonempty (value : Nat) := Text.toList_padZeros_ne_nil 4 value
  have long (value : Nat) : readLong ((Text.padZeros 4 value).toList ++ '-' :: rest) =
      some (value, '-' :: rest) := by
    rw [readLong, readNatural_append (digits value) (nonempty value) (by simp) (.inr ends),
      Text.decimalValue_padZeros]
  rw [displayYear]
  split
  next fourDigits =>
      have length := @Text.length_padZeros 4 year.toNat (by decide) (by omega)
      have natural : readNatural 4 ((Text.padZeros 4 year.toNat).toList ++ '-' :: rest) =
          some (year.toNat, '-' :: rest) := by
        rw [readNatural_append (digits _) (nonempty _) (Nat.le_of_eq length) (.inl length),
          Text.decimalValue_padZeros]
      have noSign {mark : Char} (notDigit : mark.isDigit = false) {text : List Char} :
          (Text.padZeros 4 year.toNat).toList ++ '-' :: rest ≠ mark :: text := by
        intro begins
        obtain ⟨c, more, isDigits⟩ := List.exists_cons_of_ne_nil (nonempty year.toNat)
        rw [isDigits] at begins
        have isDigit := List.all_eq_true.1 (digits year.toNat) c (by rw [isDigits]; simp)
        rw [(List.cons.inj begins).1, notDigit] at isDigit
        exact absurd isDigit (by simp)
      rw [readYear, skipBlanks_append (digits _) (nonempty _)]
      split
      next begins => exact absurd begins (noSign rfl)
      next begins => exact absurd begins (noSign rfl)
      · rw [natural, Option.map_some, Int.toNat_of_nonneg fourDigits.1]
  split
  next negative =>
      rw [String.toList_append, show "-".toList = ['-'] from rfl, List.singleton_append,
        List.cons_append, readYear, skipBlanks_cons (show Text.isBlank '-' = false from rfl)]
      simp only [long, Option.map_some, Int.toNat_of_nonneg (show 0 ≤ -year by omega), Int.neg_neg]
  next large =>
      rw [String.toList_append, show "+".toList = ['+'] from rfl, List.singleton_append,
        List.cons_append, readYear, skipBlanks_cons (show Text.isBlank '+' = false from rfl)]
      simp only [long, Option.map_some, Int.toNat_of_nonneg (show 0 ≤ year by omega)]

/-! ## Decimals -/

/-- The decimals of a second are read up to the mark of the time zone. -/
theorem readNanos_displayNanos {nanos : Nat} (small : nanos < 1000000000) :
    readNanos ((displayNanos nanos).toList ++ ['Z']) = some (nanos, ['Z']) := by
  have ends := noDigitAhead_cons (show Char.isDigit 'Z' = false from rfl) []
  have decimals {width value : Nat} (positive : 0 < width) (few : width ≤ 9)
      (fits : value < 10 ^ width) :
      readNanos ('.' :: ((Text.padZeros width value).toList ++ ['Z'])) =
        some (value * 10 ^ (9 - width), ['Z']) := by
    have length := Text.length_padZeros positive fits
    rw [readNanos, readNatural_append (Text.all_isDigit_padZeros width value)
      (Text.toList_padZeros_ne_nil width value) (by rw [length]; exact few) (.inr ends),
      Text.decimalValue_padZeros]
    simp [length]
  rw [displayNanos]
  split
  next none =>
      rw [none]
      rfl
  split
  next millis =>
      have read := @decimals 3 (nanos / 1000000) (by decide) (by decide) (by omega)
      rw [show 10 ^ (9 - 3) = 1000000 from rfl,
        Nat.div_mul_cancel (Nat.dvd_of_mod_eq_zero millis)] at read
      rwa [String.toList_append]
  split
  next micros =>
      have read := @decimals 6 (nanos / 1000) (by decide) (by decide) (by omega)
      rw [show 10 ^ (9 - 6) = 1000 from rfl,
        Nat.div_mul_cancel (Nat.dvd_of_mod_eq_zero micros)] at read
      rwa [String.toList_append]
  next =>
      have read := @decimals 9 nanos (by decide) (by decide) small
      rw [Nat.sub_self, Nat.pow_zero, Nat.mul_one] at read
      rwa [String.toList_append]

theorem readNanos_lt {text rest : List Char} {nanos : Nat}
    (read : readNanos text = some (nanos, rest)) : nanos < 1000000000 := by
  rw [readNanos.eq_def] at read
  split at read
  next decimals =>
      obtain ⟨⟨value, after⟩, natural, isNanos⟩ := Option.map_eq_some_iff.1 read
      rw [readNatural] at natural
      split at natural
      · exact absurd natural (by simp)
      next =>
          obtain ⟨isValue, isAfter⟩ := Prod.mk.inj (Option.some.inj natural)
          obtain ⟨rfl, -⟩ := Prod.mk.inj isNanos
          generalize isDigits : (decimals.take 9).takeWhile Char.isDigit = digits at isValue isAfter
          have few : digits.length ≤ 9 ∧ digits.length ≤ decimals.length := by
            have taken := (List.takeWhile_prefix Char.isDigit (l := decimals.take 9)).length_le
            rw [isDigits, List.length_take] at taken
            omega
          have value_lt : value < 10 ^ digits.length := by
            have allDigits := List.all_takeWhile (p := Char.isDigit) (l := decimals.take 9)
            rw [isDigits] at allDigits
            rw [← isValue]
            exact Text.digitsValue_lt allDigits
          have count : decimals.length - after.length = digits.length := by
            rw [← isAfter, List.length_drop]
            omega
          have power : 10 ^ digits.length * 10 ^ (9 - digits.length) = 1000000000 := by
            rw [← Nat.pow_add, Nat.add_sub_cancel' few.1]
          rw [count, ← power]
          exact Nat.mul_lt_mul_of_pos_right value_lt (Nat.pow_pos (by decide))
  · obtain ⟨rfl, -⟩ := Prod.mk.inj (Option.some.inj read)
    decide

/-! ## Offsets -/

theorem readOffsetSize_dvd {text rest : List Char} {offset : Int}
    (read : readOffsetSize text = some (offset, rest)) : 60 ∣ offset := by
  obtain ⟨hours, _, minutesRead⟩ := Option.bind_eq_some_iff.1 read
  obtain ⟨minutes, _, isOffset⟩ := Option.map_eq_some_iff.1 minutesRead
  obtain ⟨rfl, -⟩ := Prod.mk.inj isOffset
  omega

/-- Offsets are whole minutes. -/
theorem readOffset_dvd {text rest : List Char} {offset : Int}
    (read : readOffset text = some (offset, rest)) : 60 ∣ offset := by
  rw [readOffset.eq_def] at read
  split at read
  · obtain ⟨rfl, -⟩ := Prod.mk.inj (Option.some.inj read)
    exact Int.dvd_zero _
  · obtain ⟨rfl, -⟩ := Prod.mk.inj (Option.some.inj read)
    exact Int.dvd_zero _
  · exact readOffsetSize_dvd read
  · obtain ⟨parts, size, isOffset⟩ := Option.map_eq_some_iff.1 read
    obtain ⟨rfl, -⟩ := Prod.mk.inj isOffset
    exact Int.dvd_neg.2 (readOffsetSize_dvd size)
  · obtain ⟨parts, size, isOffset⟩ := Option.map_eq_some_iff.1 read
    obtain ⟨rfl, -⟩ := Prod.mk.inj isOffset
    exact Int.dvd_neg.2 (readOffsetSize_dvd size)
  · split at read
    · obtain ⟨rfl, -⟩ := Prod.mk.inj (Option.some.inj read)
      exact Int.dvd_zero _
    · exact absurd read (by simp)
  · exact absurd read (by simp)

/-! ## Instants -/

theorem isTime_of_ofParts? {day : CalendarDay} {hour minute second nanos : Nat} {offset : Int}
    {instant : Instant} (wholeMinutes : 60 ∣ offset) (small : nanos < 1000000000)
    (made : ofParts? day hour minute second nanos offset = some instant) : instant.IsTime := by
  rw [ofParts?] at made
  split at made
  next valid =>
      dsimp only at made
      split at made
      next inRange =>
          obtain rfl := Option.some.inj made
          simp only [Bool.and_eq_true, decide_eq_true_eq] at valid
          have atMost : second ≤ 60 := valid.1.1.2
          refine ⟨inRange, ?_, fun isLeap => ?_⟩
          · dsimp only
            omega
          · dsimp only at isLeap ⊢
            obtain rfl : second = 60 := by omega
            omega
      · exact absurd made (by simp)
  · exact absurd made (by simp)

/-- Whatever is read as an instant is one of the calendar. -/
theorem isTime_of_parse? {text : String} {instant : Instant} (read : parse? text = some instant) :
    instant.IsTime := by
  rw [parse?] at read
  obtain ⟨⟨year, rest⟩, _, read⟩ := Option.bind_eq_some_iff.1 read
  obtain ⟨rest, _, read⟩ := Option.bind_eq_some_iff.1 read
  obtain ⟨⟨month, rest⟩, _, read⟩ := Option.bind_eq_some_iff.1 read
  obtain ⟨rest, _, read⟩ := Option.bind_eq_some_iff.1 read
  obtain ⟨⟨day, rest⟩, _, read⟩ := Option.bind_eq_some_iff.1 read
  dsimp only at read
  split at read
  case h_4 =>
      exact absurd read (by simp)
  all_goals
    obtain ⟨rest, _, read⟩ := Option.bind_eq_some_iff.1 read
    obtain ⟨⟨hour, rest⟩, _, read⟩ := Option.bind_eq_some_iff.1 read
    obtain ⟨rest, _, read⟩ := Option.bind_eq_some_iff.1 read
    obtain ⟨⟨minute, rest⟩, _, read⟩ := Option.bind_eq_some_iff.1 read
    obtain ⟨rest, _, read⟩ := Option.bind_eq_some_iff.1 read
    obtain ⟨⟨second, rest⟩, _, read⟩ := Option.bind_eq_some_iff.1 read
    obtain ⟨⟨nanos, rest⟩, nanosRead, read⟩ := Option.bind_eq_some_iff.1 read
    obtain ⟨⟨offset, rest⟩, offsetRead, read⟩ := Option.bind_eq_some_iff.1 read
    dsimp only at read
    split at read
    · exact isTime_of_ofParts? (readOffset_dvd offsetRead) (readNanos_lt nanosRead) read
    · exact absurd read (by simp)

/-! ## Written instants -/

theorem bind_of_eq_some {α β : Type} {first : Option α} {value : α} (isValue : first = some value)
    (next : α → Option β) : first >>= next = next value := by
  rw [isValue]
  rfl

/-- A text of date and time in UTC is read part by part. -/
theorem parse?_of_parts {text : String} {date : CalendarDay} {hour minute second nanos : Nat}
    (dateSmall : date.month < 100 ∧ date.day < 100) (timeSmall : hour < 100 ∧ minute < 100 ∧ second < 100)
    (nanosSmall : nanos < 1000000000)
    (parts : text.toList =
      (displayYear date.year).toList ++ '-' :: ((Text.padZeros 2 date.month).toList ++ '-' ::
        ((Text.padZeros 2 date.day).toList ++ 'T' :: ((Text.padZeros 2 hour).toList ++ ':' ::
          ((Text.padZeros 2 minute).toList ++ ':' :: ((Text.padZeros 2 second).toList ++
            ((displayNanos nanos).toList ++ ['Z']))))))) :
    parse? text = ofParts? date hour minute second nanos 0 := by
  have dash (rest : List Char) := readMark_cons (show Text.isBlank '-' = false from rfl) rest
  have colon (rest : List Char) := readMark_cons (show Text.isBlank ':' = false from rfl) rest
  have zone : readOffset (skipBlanks ['Z']) = some (0, []) := rfl
  rw [parse?, parts]
  refine (bind_of_eq_some (readYear_displayYear _ _) _).trans ?_
  refine (bind_of_eq_some (dash _) _).trans ?_
  refine (bind_of_eq_some (readPair_padZeros dateSmall.1 _) _).trans ?_
  refine (bind_of_eq_some (dash _) _).trans ?_
  refine (bind_of_eq_some (readPair_padZeros dateSmall.2 _) _).trans ?_
  refine (bind_of_eq_some rfl _).trans ?_
  refine (bind_of_eq_some (readPair_padZeros timeSmall.1 _) _).trans ?_
  refine (bind_of_eq_some (colon _) _).trans ?_
  refine (bind_of_eq_some (readPair_padZeros timeSmall.2.1 _) _).trans ?_
  refine (bind_of_eq_some (colon _) _).trans ?_
  refine (bind_of_eq_some (readPair_padZeros timeSmall.2.2 _) _).trans ?_
  refine (bind_of_eq_some (readNanos_displayNanos nanosSmall) _).trans ?_
  refine (bind_of_eq_some zone _).trans ?_
  rfl

/-- The parts of a written instant give the instant. -/
theorem ofParts?_of_isTime {instant : Instant} (isTime : instant.IsTime) :
    ofParts? (CalendarDay.ofEpochDays (instant.seconds / 86400))
      ((instant.seconds % 86400).toNat / 3600) ((instant.seconds % 86400).toNat / 60 % 60)
      ((instant.seconds % 86400).toNat % 60 + instant.nanos / 1000000000)
      (instant.nanos % 1000000000) 0 = some instant := by
  obtain ⟨inRange, few, leap⟩ := isTime
  obtain ⟨seconds, nanos⟩ := instant
  dsimp only at inRange few leap ⊢
  have valid := CalendarDay.isValid_ofEpochDays (seconds / 86400)
  have leapSecond : ((seconds % 86400).toNat % 60 + nanos / 1000000000) / 60 = nanos / 1000000000 := by
    omega
  have seconds_eq : CalendarDay.toEpochDays (CalendarDay.ofEpochDays (seconds / 86400)) * 86400 +
      ((seconds % 86400).toNat / 3600 : Nat) * 3600 + ((seconds % 86400).toNat / 60 % 60 : Nat) * 60 +
        ((seconds % 86400).toNat % 60 + nanos / 1000000000 - nanos / 1000000000 : Nat) - 0 =
          seconds := by
    rw [CalendarDay.toEpochDays_ofEpochDays]
    omega
  have inBounds : (seconds % 86400).toNat / 3600 ≤ 23 ∧ (seconds % 86400).toNat / 60 % 60 ≤ 59 ∧
      (seconds % 86400).toNat % 60 + nanos / 1000000000 ≤ 60 := by
    omega
  rw [ofParts?, if_pos (by simp [valid, inRange, inBounds])]
  simp only [leapSecond, seconds_eq, inRange, if_true]
  congr
  omega

/-- An instant of the calendar is read back from its written form. -/
theorem parse?_display {instant : Instant} (isTime : instant.IsTime) :
    parse? instant.display = some instant := by
  have few := isTime.nanos_lt
  have valid := CalendarDay.isValid_ofEpochDays (instant.seconds / 86400)
  rw [← ofParts?_of_isTime isTime]
  refine parse?_of_parts ?_ ?_ (Nat.mod_lt _ (by decide)) ?_
  · exact CalendarDay.small_of_isValid valid
  · omega
  · simp [display, String.toList_append]

end Instant

end ContentTyping

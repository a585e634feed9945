import Mathlib.Data.List.Basic
import ContentTyping.Json.Parser
import ContentTyping.Json.Printer
import ContentTyping.Proofs.Text.Digits

/-!
# Written values are read back

The compact text of a value whose numbers are natural numbers is read back as that value.
-/

namespace ContentTyping.Json

/-! ## Strings -/

theorem hexUnit?_hexDigits {unit : Nat} (small : unit < 0x10000) :
    ∃ a b c d, Text.hexDigits 4 unit = [a, b, c, d] ∧ hexUnit? a b c d = some unit := by
  refine ⟨_, _, _, _, rfl, ?_⟩
  have digit (value : Nat) : Text.hexValue? (Text.hexDigit (value % 16)) = some (value % 16) :=
    Text.hexValue?_hexDigit (Nat.mod_lt _ (by decide))
  simp only [hexUnit?, digit, bind, Option.bind_some, pure]
  simp only [Option.some.injEq, Nat.pow_eq]
  omega

theorem readUnits_escape {letter c : Char} (notHex : letter ≠ 'u') (isLetter : escaped? letter = some c)
    (rest : List Char) :
    readUnits ('\\' :: letter :: rest) =
      (readUnits rest).map fun parts => (.char c :: parts.1, parts.2) := by
  rw [readUnits]
  · rw [isLetter]
    cases readUnits rest with
    | none => rfl
    | some parts => rfl
  · intro a b c d further hex
    exact absurd hex notHex

theorem readUnits_hex {unit : Nat} (control : unit < 0x20) (rest : List Char) :
    readUnits ('\\' :: 'u' :: Text.hexDigits 4 unit ++ rest) =
      (readUnits rest).map fun parts => (.char (Char.ofNat unit) :: parts.1, parts.2) := by
  obtain ⟨a, b, c, d, isHex, value⟩ := @hexUnit?_hexDigits unit (by omega)
  rw [isHex]
  simp only [List.cons_append, List.nil_append]
  have isChar : ofUnit unit = .char (Char.ofNat unit) := if_neg (by omega)
  rw [readUnits, value]
  cases readUnits rest with
  | none => rfl
  | some parts => simp only [isChar, Option.map_some]

theorem readUnits_plain {c : Char} (notQuote : c ≠ '"') (notBackslash : c ≠ '\\')
    (notControl : ¬ c.toNat < 0x20) (rest : List Char) :
    readUnits (c :: rest) = (readUnits rest).map fun parts => (.char c :: parts.1, parts.2) := by
  rw [readUnits]
  · rw [if_neg (by simp [notControl, notBackslash])]
  · exact notQuote
  · intro a b c d further isBackslash
    exact absurd isBackslash notBackslash
  · intro c further isBackslash
    exact absurd isBackslash notBackslash

/-- An escaped character is read as one unit. -/
theorem readUnits_escapeChar (c : Char) (rest : List Char) :
    readUnits (escapeChar c ++ rest) =
      (readUnits rest).map fun parts => (.char c :: parts.1, parts.2) := by
  rw [escapeChar]
  split
  next isQuote => rw [isQuote]; exact readUnits_escape (by decide) rfl rest
  split
  next isBackslash => rw [isBackslash]; exact readUnits_escape (by decide) rfl rest
  split
  next isBackspace => rw [isBackspace]; exact readUnits_escape (by decide) rfl rest
  split
  next isFormFeed => rw [isFormFeed]; exact readUnits_escape (by decide) rfl rest
  split
  next isNewLine => rw [isNewLine]; exact readUnits_escape (by decide) rfl rest
  split
  next isReturn => rw [isReturn]; exact readUnits_escape (by decide) rfl rest
  split
  next isTab => rw [isTab]; exact readUnits_escape (by decide) rfl rest
  split
  next isControl =>
      have hex := readUnits_hex isControl rest
      rwa [Char.ofNat_toNat] at hex
  next notQuote notBackslash _ _ _ _ _ notControl =>
      exact readUnits_plain notQuote notBackslash notControl rest

theorem readUnits_quoted (text rest : List Char) :
    readUnits (text.flatMap escapeChar ++ '"' :: rest) = some (text.map .char, rest) := by
  induction text with
  | nil =>
      rfl
  | cons c text inductionHypothesis =>
      rw [List.flatMap_cons, List.append_assoc, readUnits_escapeChar, inductionHypothesis]
      rfl

theorem joinUnits_chars (text : List Char) : joinUnits (text.map .char) = some text := by
  induction text with
  | nil =>
      rfl
  | cons c text inductionHypothesis =>
      rw [List.map_cons, joinUnits, inductionHypothesis]
      rfl

theorem readString_quoted (text : String) (rest : List Char) :
    readString (text.toList.flatMap escapeChar ++ '"' :: rest) = some (some text, rest) := by
  rw [readString, readUnits_quoted, Option.map_some, joinUnits_chars, Option.map_some,
    String.ofList_toList]

/-! ## Numbers -/

/-- The text does not go on with a number. -/
def EndsNumber (text : List Char) : Prop :=
  ∀ c ∈ text.head?, c.isDigit = false ∧ c ≠ '.' ∧ c ≠ 'e' ∧ c ≠ 'E'

theorem EndsNumber.noDigitAhead {rest : List Char} (ends : EndsNumber rest) :
    Text.NoDigitAhead rest :=
  fun c isHead => (ends c isHead).1

theorem endsNumber_cons {c : Char} (notDigit : c.isDigit = false)
    (notMark : c ≠ '.' ∧ c ≠ 'e' ∧ c ≠ 'E') (rest : List Char) : EndsNumber (c :: rest) := by
  intro other isHead
  obtain rfl : c = other := Option.some.inj isHead
  exact ⟨notDigit, notMark⟩

theorem readDigits_toDigits (value : Nat) {rest : List Char} (ends : Text.NoDigitAhead rest) :
    readDigits (Nat.toDigits 10 value ++ rest) = some (Nat.toDigits 10 value, rest) := by
  have digits := Text.all_isDigit_toDigits value
  rw [readDigits, Text.takeWhile_isDigit_append digits ends,
    Text.dropWhile_isDigit_append digits ends, if_neg]
  simp

theorem readWhole_toDigits (value : Nat) {rest : List Char} (ends : Text.NoDigitAhead rest) :
    readWhole (Nat.toDigits 10 value ++ rest) = some (Nat.toDigits 10 value, rest) := by
  by_cases isZero : value = 0
  · subst isZero
    rw [Nat.toDigits_zero, List.singleton_append, readWhole, if_neg]
    cases rest with
    | nil => simp
    | cons c rest => simp [ends c rfl]
  · rw [readWhole]
    · exact readDigits_toDigits value ends
    · intro further begins
      have head := congrArg List.head? begins
      rw [List.head?_append_of_ne_nil _ Nat.toDigits_ne_nil] at head
      exact Text.head?_toDigits_ne_zero isZero head

theorem readFraction_of_ends {rest : List Char} (ends : EndsNumber rest) :
    readFraction rest = some ([], rest) := by
  rw [readFraction]
  rintro further rfl
  exact (ends '.' rfl).2.1 rfl

theorem readExponent_of_ends {rest : List Char} (ends : EndsNumber rest) :
    readExponent rest = some ([], rest) := by
  rw [readExponent]
  · rintro further rfl
    exact (ends 'e' rfl).2.2.1 rfl
  · rintro further rfl
    exact (ends 'E' rfl).2.2.2 rfl

theorem readNumber_toDigits (value : Nat) {rest : List Char} (ends : EndsNumber rest) :
    readNumber (Nat.toDigits 10 value ++ rest) = some (toString value, rest) := by
  have unsigned : readUnsigned (Nat.toDigits 10 value ++ rest) =
      some (Nat.toDigits 10 value, rest) := by
    rw [readUnsigned, readWhole_toDigits value ends.noDigitAhead, Option.bind_some,
      readFraction_of_ends ends, Option.bind_some, readExponent_of_ends ends, Option.map_some,
      List.append_nil, List.append_nil]
  rw [readNumber]
  · rw [unsigned, Option.map_some, Nat.toString_eq_ofList_toDigits]
  · intro further begins
    have head := congrArg List.head? begins
    rw [List.head?_append_of_ne_nil _ Nat.toDigits_ne_nil] at head
    have isDigit := Nat.isDigit_of_mem_toDigits (by decide) (Nat.le_refl _)
      (List.mem_of_head? head)
    exact absurd isDigit (by decide)

/-! ## Values -/

/-- The numbers of the value are natural numbers, and its texts and names are all known. -/
inductive Plain : Json → Prop
  | null : Plain .null
  | bool (value : Bool) : Plain (.bool value)
  | ofNat (value : Nat) : Plain (.ofNat value)
  | string (text : String) : Plain (.string text)
  | array {items : List Json} (each : ∀ item ∈ items, Plain item) : Plain (.array items)
  | ofMembers {members : List (String × Json)} (each : ∀ member ∈ members, Plain member.2) :
      Plain (.ofMembers members)

theorem compactItems_eq (items : List Json) : compactItems items = items.map compact := by
  induction items with
  | nil => rfl
  | cons item items inductionHypothesis => rw [compactItems, inductionHypothesis, List.map_cons]

/-- A member without spaces. -/
def compactMember (member : String × Json) : List Char :=
  quote member.1 ++ ':' :: compact member.2

theorem compactMembers_eq (members : List (String × Json)) :
    compactMembers (members.map fun member => (some member.1, member.2)) =
      members.map compactMember := by
  induction members with
  | nil => rfl
  | cons member members inductionHypothesis =>
      rw [List.map_cons, compactMembers, inductionHypothesis, List.map_cons]
      rfl

theorem compact_ofNat (value : Nat) : compact (.ofNat value) = Nat.toDigits 10 value := by
  rw [ofNat, compact, Nat.toString_eq_ofList_toDigits, String.toList_ofList]

theorem isSpace_of_isDigit {c : Char} (isDigit : c.isDigit = true) : isSpace c = false := by
  cases space : isSpace c with
  | false => rfl
  | true =>
      simp only [isSpace, Bool.or_eq_true, decide_eq_true_eq] at space
      rcases space with ((rfl | rfl) | rfl) | rfl
      all_goals exact absurd isDigit (by decide)

/-- A written value begins with no space and with no closing bracket. -/
theorem Plain.head?_compact {json : Json} (plain : Plain json) :
    ∃ c more, compact json = c :: more ∧ isSpace c = false ∧ c ≠ ']' := by
  cases plain with
  | null => exact ⟨'n', _, rfl, rfl, by decide⟩
  | bool value =>
      cases value with
      | false => exact ⟨'f', _, rfl, rfl, by decide⟩
      | true => exact ⟨'t', _, rfl, rfl, by decide⟩
  | ofNat value =>
      rw [compact_ofNat]
      cases digits : Nat.toDigits 10 value with
      | nil =>
          exact absurd digits Nat.toDigits_ne_nil
      | cons c more =>
          have isDigit : c.isDigit = true :=
            Nat.isDigit_of_mem_toDigits (by decide) (Nat.le_refl 10) (digits ▸ List.mem_cons_self)
          refine ⟨c, more, rfl, isSpace_of_isDigit isDigit, ?_⟩
          rintro rfl
          exact absurd isDigit (by decide)
  | string text => exact ⟨'"', _, rfl, rfl, by decide⟩
  | array each => exact ⟨'[', _, rfl, rfl, by decide⟩
  | ofMembers each => exact ⟨'\x7b', _, rfl, rfl, by decide⟩

theorem skipSpaces_cons {c : Char} (notSpace : isSpace c = false) (rest : List Char) :
    skipSpaces (c :: rest) = c :: rest := by
  rw [skipSpaces, List.dropWhile_cons_of_neg (by simp [notSpace])]

theorem endsNumber_comma (rest : List Char) : EndsNumber (',' :: rest) :=
  endsNumber_cons (by decide) (by decide) rest

/-! ## Rows of items and members -/

theorem exists_joinCommas_cons (first : List Char) (rest : List (List Char)) :
    ∃ further, joinCommas (first :: rest) = first ++ further := by
  cases rest with
  | nil => exact ⟨[], (List.append_nil first).symm⟩
  | cons second rest => exact ⟨_, rfl⟩

section Rows

variable {readItem : List Char → Read Json} {steps : Nat}

theorem joinCommas_cons_cons (first second : List Char) (rest : List (List Char)) :
    joinCommas (first :: second :: rest) = first ++ ',' :: joinCommas (second :: rest) :=
  rfl

/-- Items that are read one by one are read in a row. -/
theorem readItems_compact {items : List Json} (nonempty : items ≠ [])
    (reads : ∀ item ∈ items, ∀ rest, EndsNumber rest →
      readItem (compact item ++ rest) = some (item, rest))
    (enough : items.length ≤ steps) (rest : List Char) :
    readItems readItem steps (joinCommas (items.map compact) ++ ']' :: rest) =
      some (items, rest) := by
  induction items generalizing steps with
  | nil =>
      exact absurd rfl nonempty
  | cons item items inductionHypothesis =>
      obtain ⟨itemReads, restReads⟩ := List.forall_mem_cons.1 reads
      cases steps with
      | zero =>
          exact absurd enough (Nat.not_succ_le_zero _)
      | succ steps =>
          cases items with
          | nil =>
              have last := itemReads (']' :: rest) (endsNumber_cons (by decide) (by decide) rest)
              rw [readItems, List.map_singleton, joinCommas, last]
              simp only [skipSpaces_cons (show isSpace ']' = false from rfl)]
          | cons second items =>
              have further := inductionHypothesis (List.cons_ne_nil _ _) restReads
                (Nat.le_of_succ_le_succ enough)
              rw [readItems, List.map_cons, List.map_cons, joinCommas_cons_cons, ← List.map_cons,
                List.append_assoc, List.cons_append, itemReads _ (endsNumber_comma _)]
              simp only [skipSpaces_cons (show isSpace ',' = false from rfl), further,
                Option.map_some]

/-- Members whose values are read one by one are read in a row. -/
theorem readMembers_compact {members : List (String × Json)} (nonempty : members ≠ [])
    (reads : ∀ member ∈ members, ∀ rest, EndsNumber rest →
      readItem (compact member.2 ++ rest) = some (member.2, rest))
    (enough : members.length ≤ steps) (rest : List Char) :
    readMembers readItem steps (joinCommas (members.map compactMember) ++ '\x7d' :: rest) =
      some (members.map fun member => (some member.1, member.2), rest) := by
  have key (member : String × Json) (after : List Char) :
      compactMember member ++ after = '"' :: (member.1.toList.flatMap escapeChar ++
        '"' :: ':' :: (compact member.2 ++ after)) := by
    simp [compactMember, quote]
  induction members generalizing steps with
  | nil =>
      exact absurd rfl nonempty
  | cons member members inductionHypothesis =>
      obtain ⟨memberReads, restReads⟩ := List.forall_mem_cons.1 reads
      cases steps with
      | zero =>
          exact absurd enough (Nat.not_succ_le_zero _)
      | succ steps =>
          have quoteMark (after : List Char) := skipSpaces_cons (show isSpace '"' = false from rfl) after
          have colon (after : List Char) := skipSpaces_cons (show isSpace ':' = false from rfl) after
          cases members with
          | nil =>
              have last := memberReads ('\x7d' :: rest) (endsNumber_cons (by decide) (by decide) rest)
              rw [readMembers, List.map_singleton, joinCommas, key, quoteMark]
              simp only [readString_quoted, colon, last,
                skipSpaces_cons (show isSpace '\x7d' = false from rfl), List.map_singleton]
          | cons second members =>
              have further := inductionHypothesis (List.cons_ne_nil _ _) restReads
                (Nat.le_of_succ_le_succ enough)
              have value := memberReads _ (endsNumber_comma
                (joinCommas ((second :: members).map compactMember) ++ '\x7d' :: rest))
              rw [readMembers, List.map_cons, List.map_cons, joinCommas_cons_cons, ← List.map_cons,
                List.append_assoc, List.cons_append, key, quoteMark]
              simp only [readString_quoted, colon, value,
                skipSpaces_cons (show isSpace ',' = false from rfl), further, Option.map_some]
              rfl

end Rows

theorem length_le_joinCommas {piece : List Char} {pieces : List (List Char)}
    (member : piece ∈ pieces) : piece.length ≤ (joinCommas pieces).length := by
  induction pieces using joinCommas.induct with
  | case1 =>
      exact absurd member List.not_mem_nil
  | case2 only =>
      obtain rfl := List.mem_singleton.1 member
      exact Nat.le_refl _
  | case3 first second rest inductionHypothesis =>
      rw [joinCommas_cons_cons, List.length_append, List.length_cons]
      rcases List.mem_cons.1 member with rfl | later
      · exact Nat.le_add_right _ _
      · have bound := inductionHypothesis later
        omega

theorem length_pieces_le_joinCommas (pieces : List (List Char)) :
    pieces.length ≤ (joinCommas pieces).length + 1 := by
  induction pieces using joinCommas.induct with
  | case1 => exact Nat.zero_le _
  | case2 only => exact Nat.le_add_left _ _
  | case3 first second rest inductionHypothesis =>
      simp only [joinCommas_cons_cons, List.length_append, List.length_cons]
        at inductionHypothesis ⊢
      omega

/-! ## Values in a text -/

section Values

variable {breadth steps : Nat}

theorem readValue_digit {c : Char} (isDigit : c.isDigit = true) (rest : List Char) :
    readValue breadth (steps + 1) (c :: rest) =
      (readNumber (c :: rest)).map fun parts => (.number parts.1, parts.2) := by
  rw [readValue, skipSpaces_cons (isSpace_of_isDigit isDigit)]
  split
  next begins => exact absurd ((List.cons.inj begins).1 ▸ isDigit) (by decide)
  next begins => exact absurd ((List.cons.inj begins).1 ▸ isDigit) (by decide)
  next begins => exact absurd ((List.cons.inj begins).1 ▸ isDigit) (by decide)
  next begins => exact absurd ((List.cons.inj begins).1 ▸ isDigit) (by decide)
  next begins => exact absurd ((List.cons.inj begins).1 ▸ isDigit) (by decide)
  next begins => exact absurd ((List.cons.inj begins).1 ▸ isDigit) (by decide)
  · rfl

theorem readValue_array {c : Char} {body : List Char} (notSpace : isSpace c = false)
    (notClosing : c ≠ ']') :
    readValue breadth (steps + 1) ('[' :: c :: body) =
      (readItems (readValue breadth steps) breadth (c :: body)).map fun parts =>
        (.array parts.1, parts.2) := by
  rw [readValue, skipSpaces_cons (show isSpace '[' = false from rfl)]
  simp only [skipSpaces_cons notSpace]
  split
  next begins => exact absurd (List.cons.inj begins).1 notClosing
  · rfl

theorem readValue_object (body : List Char) :
    readValue breadth (steps + 1) ('\x7b' :: '"' :: body) =
      (readMembers (readValue breadth steps) breadth ('"' :: body)).map fun parts =>
        (.object parts.1, parts.2) := by
  rw [readValue, skipSpaces_cons (show isSpace '\x7b' = false from rfl)]
  simp only [skipSpaces_cons (show isSpace '"' = false from rfl)]
  split
  next begins => exact absurd (List.cons.inj begins).1 (by decide)
  · rfl

theorem readValue_compact_array {items : List Json} (each : ∀ item ∈ items, Plain item)
    (reads : ∀ item ∈ items, ∀ rest, EndsNumber rest →
      readValue breadth steps (compact item ++ rest) = some (item, rest))
    (wideEnough : items.length ≤ breadth) (rest : List Char) :
    readValue breadth (steps + 1) (compact (.array items) ++ rest) = some (.array items, rest) := by
  rw [compact, compactItems_eq]
  cases items with
  | nil =>
      rfl
  | cons item items =>
      have row := readItems_compact (List.cons_ne_nil item items) reads wideEnough rest
      obtain ⟨c, more, begins, notSpace, notClosing⟩ := (each item List.mem_cons_self).head?_compact
      obtain ⟨further, isRow⟩ := exists_joinCommas_cons (compact item) (items.map compact)
      have joined : joinCommas ((item :: items).map compact) = c :: (more ++ further) := by
        rw [List.map_cons, isRow, begins, List.cons_append]
      have text : '[' :: (c :: (more ++ further)) ++ [']'] ++ rest =
          '[' :: c :: (more ++ further ++ ']' :: rest) := by
        simp
      rw [joined, List.cons_append] at row
      rw [joined, text, readValue_array notSpace notClosing, row]
      rfl

theorem readValue_compact_object {members : List (String × Json)}
    (reads : ∀ member ∈ members, ∀ rest, EndsNumber rest →
      readValue breadth steps (compact member.2 ++ rest) = some (member.2, rest))
    (wideEnough : members.length ≤ breadth) (rest : List Char) :
    readValue breadth (steps + 1) (compact (.ofMembers members) ++ rest) =
      some (.ofMembers members, rest) := by
  rw [ofMembers, compact, compactMembers_eq]
  cases members with
  | nil =>
      rfl
  | cons member members =>
      have row := readMembers_compact (List.cons_ne_nil member members) reads wideEnough rest
      obtain ⟨further, isRow⟩ :=
        exists_joinCommas_cons (compactMember member) (members.map compactMember)
      obtain ⟨body, begins⟩ : ∃ body, compactMember member = '"' :: body := ⟨_, rfl⟩
      have joined : joinCommas ((member :: members).map compactMember) =
          '"' :: (body ++ further) := by
        rw [List.map_cons, isRow, begins, List.cons_append]
      have text : '\x7b' :: ('"' :: (body ++ further)) ++ ['\x7d'] ++ rest =
          '\x7b' :: '"' :: (body ++ further ++ '\x7d' :: rest) := by
        simp
      rw [joined, List.cons_append] at row
      rw [joined, text, readValue_object, row]
      rfl

/-- One step goes to each level of a value, and a value is shorter than the one that it stands in. -/
theorem readValue_compact {json : Json} (plain : Plain json) {breadth steps : Nat}
    (deepEnough : (compact json).length < steps) (wideEnough : (compact json).length < breadth)
    {rest : List Char} (ends : EndsNumber rest) :
    readValue breadth steps (compact json ++ rest) = some (json, rest) := by
  obtain ⟨steps, rfl⟩ := Nat.exists_eq_succ_of_ne_zero (Nat.ne_zero_of_lt deepEnough)
  induction plain generalizing steps rest with
  | null =>
      rfl
  | bool value =>
      cases value with
      | false => rfl
      | true => rfl
  | ofNat value =>
      have read := readNumber_toDigits value ends
      rw [compact_ofNat]
      cases digits : Nat.toDigits 10 value with
      | nil =>
          exact absurd digits Nat.toDigits_ne_nil
      | cons c more =>
          have isDigit : c.isDigit = true :=
            Nat.isDigit_of_mem_toDigits (by decide) (Nat.le_refl 10) (digits ▸ List.mem_cons_self)
          rw [digits, List.cons_append] at read
          rw [List.cons_append, readValue_digit isDigit, read]
          rfl
  | string text =>
      have quoted : compact (.string text) ++ rest =
          '"' :: (text.toList.flatMap escapeChar ++ '"' :: rest) := by
        simp [compact, quote]
      rw [quoted, readValue, skipSpaces_cons (show isSpace '"' = false from rfl)]
      simp only [readString_quoted, Option.map_some]
  | @array items each inductionHypothesis =>
      rw [compact, compactItems_eq] at deepEnough wideEnough
      simp only [List.length_append, List.length_cons, List.length_nil] at deepEnough wideEnough
      have few := length_pieces_le_joinCommas (items.map compact)
      rw [List.length_map] at few
      refine readValue_compact_array each (fun item member after ends => ?_) (by omega) rest
      have short := length_le_joinCommas (List.mem_map_of_mem (f := compact) member)
      obtain ⟨fewer, rfl⟩ : ∃ fewer, steps = fewer + 1 :=
        Nat.exists_eq_succ_of_ne_zero (by omega)
      exact inductionHypothesis item member (by omega) ends fewer (by omega)
  | @ofMembers members each inductionHypothesis =>
      rw [ofMembers, compact, compactMembers_eq] at deepEnough wideEnough
      simp only [List.length_append, List.length_cons, List.length_nil] at deepEnough wideEnough
      have few := length_pieces_le_joinCommas (members.map compactMember)
      rw [List.length_map] at few
      refine readValue_compact_object (fun item member after ends => ?_) (by omega) rest
      have short := length_le_joinCommas (List.mem_map_of_mem (f := compactMember) member)
      simp only [compactMember, List.length_append, List.length_cons] at short
      obtain ⟨fewer, rfl⟩ : ∃ fewer, steps = fewer + 1 :=
        Nat.exists_eq_succ_of_ne_zero (by omega)
      exact inductionHypothesis item member (by omega) ends fewer (by omega)

end Values

/-- A plain value is read back from its text. -/
theorem parse?_toText {json : Json} (plain : Plain json) : parse? json.toText = some json := by
  have read := @readValue_compact json plain (json.toText.length + 1) (json.toText.length + 1)
    (by simp [toText]) (by simp [toText]) [] (by simp [EndsNumber])
  rw [List.append_nil] at read
  have isText : json.toText.toList = compact json := by
    rw [toText, String.toList_ofList]
  rw [parse?, isText, read]
  rfl

end ContentTyping.Json

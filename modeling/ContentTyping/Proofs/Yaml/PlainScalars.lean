import ContentTyping.Proofs.Yaml.Words

/-!
# Plain scalars are read back

A text that may stand without quotes is read as it is when the next line begins to the left of it.
-/

namespace ContentTyping.Yaml

/-! ## Indicators -/

theorem hasInnerIndicator_of_append {before after : List Char}
    (absent : hasInnerIndicator (before ++ after) = false) : hasInnerIndicator after = false := by
  induction before with
  | nil =>
      exact absent
  | cons a before inductionHypothesis =>
      apply inductionHypothesis
      rcases joined : before ++ after with _ | ⟨b, rest⟩
      · rfl
      · rw [List.cons_append, joined, hasInnerIndicator, Bool.or_eq_false_iff] at absent
        exact absent.2

/-- The end of a word is a gap as the blank or the break behind it is one. -/
theorem hasInnerIndicator_of_append_gap {before after : List Char}
    (absent : hasInnerIndicator (before ++ after) = false) (gap : atGap after = true) :
    hasInnerIndicator before = false := by
  induction before with
  | nil =>
      rfl
  | cons a before inductionHypothesis =>
      rcases before with _ | ⟨b, before⟩
      · rfl
      rw [List.cons_append, List.cons_append, hasInnerIndicator, Bool.or_eq_false_iff,
        Bool.or_eq_false_iff] at absent
      have inner := inductionHypothesis absent.2
      have colon : (decide (b = ':') && atGap before) = false := by
        rcases before with _ | ⟨c, before⟩
        · rw [List.nil_append, gap] at absent
          exact absent.1.1
        · exact absent.1.1
      rw [hasInnerIndicator, colon, absent.1.2, inner]
      rfl

/-! ## Words -/

theorem plainWord_of_atGap {rest : List Char} (gap : atGap rest = true) :
    plainWord false rest = some ([], rest) := by
  rcases rest with _ | ⟨c, rest⟩
  · rfl
  · have isGap : (isBlank c || isBreak c) = true := gap
    rw [plainWord, if_pos isGap]

/-- A word without an indicator in it goes on to what ends it. -/
theorem plainWord_append {before : Char} {word rest : List Char} (solid : word.all (!isGap ·) = true)
    (absent : hasInnerIndicator (before :: word) = false)
    (stops : plainWord false rest = some ([], rest)) :
    plainWord false (word ++ rest) = some (word, rest) := by
  induction word generalizing before with
  | nil =>
      exact stops
  | cons c word inductionHypothesis =>
      rw [List.all_cons, Bool.and_eq_true] at solid
      rw [hasInnerIndicator, Bool.or_eq_false_iff, Bool.or_eq_false_iff] at absent
      have notGap : (isBlank c || isBreak c) = false := by simpa [isGap] using solid.1
      have notMark : (decide (c = ':') && atGap (word ++ rest)) = false := by
        rcases word with _ | ⟨d, word⟩
        · have notColon : decide (c = ':') = false := by simpa [atGap] using absent.1.1
          rw [notColon, Bool.false_and]
        · rw [List.all_cons, Bool.and_eq_true] at solid
          have ahead : atGap (d :: word ++ rest) = false := by simpa [atGap, isGap] using solid.2.1
          rw [ahead, Bool.and_false]
      rw [List.cons_append, plainWord, notGap, notMark, inductionHypothesis solid.2 absent.2]
      rfl

/-- A word before a gap is the last one when the line after the gap begins outside. -/
theorem Cursor.plain_word {cursor next : Cursor} {word rest : List Char} {gap : Gap}
    (notFirst : cursor.column ≠ 0) (noComment : cursor.sees '#' = false)
    (read : plainWord false cursor.rest = some (word, rest)) (notEmpty : rest ≠ [])
    (isGap : atGap rest = true) {floor : Nat}
    (crossed : (cursor.onLine word.length rest).gap floor (rest.length + 1) (.blanks []) =
      some (gap, next)) (steps : Nat) :
    cursor.plain false floor (steps + 1) =
      if next.column < floor then some (word, next, gap.isLines)
      else (next.plain false floor steps).map fun (more, last, onNewLine) =>
        if more.isEmpty then (word, last, gap.isLines)
        else (word ++ gap.text ++ more, last, onNewLine) := by
  have goesOn : (rest.isEmpty || !atGap rest) = false := by simp [notEmpty, isGap]
  rw [plain, atDocumentMarker_of_column notFirst, noComment]
  simp only [Bool.or_self, Bool.false_eq_true, if_false, read, Option.bind_eq_bind, Option.bind_some,
    goesOn, crossed, Bool.not_false, Bool.true_and, decide_eq_true_eq]
  split
  · rfl
  · cases next.plain false floor steps with
    | none => rfl
    | some found =>
        simp only [Option.bind_some, Option.map_some]
        split <;> rfl

/-! ## Scalars -/

/-- A text that is read as it is. -/
structure IsPlain (text : List Char) : Prop where
  blank : ∀ c ∈ text, isGap c = true → isSpace c = true
  starts : NoneAhead isSpace text
  ends : text.getLast?.any isSpace = false
  inner : hasInnerIndicator (' ' :: text) = false

theorem atGap_append {gap : List Char} (spaces : gap.all isSpace = true) (notEmpty : gap ≠ [])
    (rest : List Char) : atGap (gap ++ rest) = true := by
  rcases gap with _ | ⟨c, gap⟩
  · exact absurd rfl notEmpty
  · rw [List.all_cons, Bool.and_eq_true] at spaces
    rw [List.cons_append, atGap, isBlank_of_isSpace spaces.1, Bool.true_or]

theorem exists_concat_of_isSpace {gap : List Char} (spaces : gap.all isSpace = true)
    (notEmpty : gap ≠ []) : ∃ init, gap = init ++ [' '] := by
  rcases gap.eq_nil_or_concat with rfl | ⟨init, last, rfl⟩
  · exact absurd rfl notEmpty
  · have isLast : last = ' ' := by simpa [isSpace] using List.all_eq_true.1 spaces last (by simp)
    exact ⟨init, by rw [isLast, List.concat_eq_append]⟩

namespace IsPlain

variable {text after : List Char}

theorem of_append_space {before : List Char} (plain : IsPlain (before ++ ' ' :: text))
    (starts : NoneAhead isSpace text) : IsPlain text where
  blank c member := plain.blank c (by simp [member])
  starts := starts
  ends := by
    have ends := plain.ends
    rw [List.getLast?_append, List.getLast?_cons] at ends
    rcases text.eq_nil_or_concat with rfl | ⟨init, last, rfl⟩
    · rfl
    · simpa using ends
  inner := by
    have inner := plain.inner
    rw [← List.cons_append] at inner
    exact hasInnerIndicator_of_append inner

theorem not_sees (plain : IsPlain text) (line column index : Nat) (rest : List Char) :
    (⟨text ++ '\n' :: rest, line, column, index⟩ : Cursor).sees '#' = false := by
  rcases text with _ | ⟨c, text⟩
  · rfl
  · have inner := plain.inner
    rw [hasInnerIndicator, Bool.or_eq_false_iff, Bool.or_eq_false_iff] at inner
    have notMark : c ≠ '#' := by
      rintro rfl
      exact absurd inner.1.2 (by decide)
    simp [Cursor.sees, notMark]

theorem word_isSolid {word rest : List Char} (plain : IsPlain (word ++ rest))
    (solid : word.all (!isSpace ·) = true) : word.all (!isGap ·) = true := by
  refine List.all_eq_true.2 fun c member => ?_
  have notSpace := List.all_eq_true.1 solid c member
  cases gap : isGap c with
  | false => rfl
  | true => simp [plain.blank c (List.mem_append_left rest member) gap] at notSpace

/-- The text up to the end of the line, then the break and the indentation of the next line. -/
theorem read (plain : IsPlain text) {floor indent : Nat} (outside : indent < floor)
    (ahead : NoneAhead isGap after) {line column index steps : Nat} (inside : floor ≤ column)
    (enough : text.length < steps) :
    (⟨text ++ '\n' :: (indentation indent ++ after), line, column, index⟩ : Cursor).plain false
        floor steps =
      some (text, ⟨after, line + 1, indent, index + text.length + 1 + indent⟩, true) := by
  have notFirst : column ≠ 0 := by omega
  -- Word by word: behind a gap of spaces there is a text of the same kind, further to the right.
  induction text using words_induction isSpace generalizing line column index steps with
  | word word solid =>
      obtain ⟨steps, rfl⟩ := Nat.exists_eq_add_of_lt enough
      have read := plainWord_append (@word_isSolid _ [] (by simpa using plain) solid) plain.inner
        (@plainWord_of_atGap ('\n' :: (indentation indent ++ after)) rfl)
      have crossed := @Cursor.gap_lines (indentation indent) after line (column + word.length)
        (index + word.length) '\n' [] rfl rfl (by simp [indentation, isSpace]) ahead floor
        (('\n' :: (indentation indent ++ after)).length + 1)
        (by simp [indentation])
      rw [Cursor.plain_word notFirst (plain.not_sees ..) read (List.cons_ne_nil _ _) rfl crossed,
        if_pos (by simpa [indentation] using outside)]
      simp [Gap.isLines, indentation]
  | more word gap rest solid spaces gapNotEmpty starts inductionHypothesis =>
      obtain ⟨steps, rfl⟩ := Nat.exists_eq_add_of_lt enough
      have restPlain : IsPlain rest := by
        obtain ⟨init, rfl⟩ := exists_concat_of_isSpace spaces gapNotEmpty
        exact @of_append_space rest (word ++ init) (by simpa using plain) starts
      have restNotEmpty : rest ≠ [] := by
        rintro rfl
        have ends := plain.ends
        obtain ⟨init, rfl⟩ := exists_concat_of_isSpace spaces gapNotEmpty
        simp [isSpace] at ends
      have restAhead : NoneAhead isGap (rest ++ '\n' :: (indentation indent ++ after)) := by
        rcases rest with _ | ⟨c, rest⟩
        · exact absurd rfl restNotEmpty
        · rw [List.cons_append, noneAhead_cons, Bool.eq_false_iff]
          intro gap
          have space := restPlain.blank c List.mem_cons_self gap
          rw [noneAhead_cons.1 starts] at space
          exact Bool.false_ne_true space
      have read := plainWord_append (plain.word_isSolid solid)
        (@hasInnerIndicator_of_append_gap (' ' :: word) _ plain.inner
          (atGap_append spaces gapNotEmpty rest))
        (plainWord_of_atGap
          (atGap_append spaces gapNotEmpty (rest ++ '\n' :: (indentation indent ++ after))))
      have crossed := Cursor.gap_spaces line (column + word.length) (index + word.length) spaces
        restAhead floor (gap ++ (rest ++ '\n' :: (indentation indent ++ after))).length (.blanks [])
      have sees := plain.not_sees line column index (indentation indent ++ after)
      simp only [List.append_assoc] at sees ⊢
      rw [Cursor.plain_word notFirst sees read (by simp [gapNotEmpty])
        (atGap_append spaces gapNotEmpty _) crossed]
      have gapLength := List.length_pos_iff.2 gapNotEmpty
      have stepsLeft : rest.length < (word ++ (gap ++ rest)).length + steps := by
        rw [List.length_append, List.length_append]
        omega
      have insideAfter : floor ≤ column + word.length + gap.length := by omega
      rw [if_neg (Nat.not_lt.2 insideAfter),
        inductionHypothesis restPlain insideAfter stepsLeft (by omega)]
      simp [restNotEmpty, Gap.addBlanks, Gap.text]
      omega

end IsPlain

/-! ## Texts that may stand without quotes -/

/-- A text that may stand without quotes does not begin with a mark of structure. -/
structure BeginsPlain (c : Char) (rest : List Char) : Prop where
  notGap : isGap c = false
  notIndicator : isIndicator c = false
  notMark : ((c = '?' || c = ':' || c = '-') && atGap rest) = false

theorem beginsPlain_of_allowsPlain {c : Char} {rest : List Char}
    (allowed : allowsPlain (c :: rest) = true) : BeginsPlain c rest := by
  simp only [allowsPlain, looksLikeStructure, Bool.and_eq_true, Bool.not_eq_true',
    Bool.or_eq_false_iff] at allowed
  obtain ⟨⟨⟨⟨printable, noBreak⟩, noSpace⟩, _⟩, ⟨_, notIndicator, notMark⟩, _⟩ := allowed
  rw [List.all_cons, Bool.and_eq_true] at printable
  rw [List.any_cons, Bool.or_eq_false_iff] at noBreak
  exact ⟨isGap_eq_false printable.1 noSpace noBreak.1, notIndicator, notMark⟩

theorem isPlain_of_allowsPlain {text : List Char} (allowed : allowsPlain text = true) :
    IsPlain text where
  blank c member gap := by
    simp only [allowsPlain, Bool.and_eq_true, Bool.not_eq_true', List.all_eq_true,
      List.any_eq_false] at allowed
    rw [isGap, Bool.or_eq_true] at gap
    rcases gap with blank | breaks
    · exact isSpace_of_isPrintable (allowed.1.1.1.1 c member) blank
    · exact absurd breaks (allowed.1.1.1.2 c member)
  starts c isHead := by
    simp only [allowsPlain, Bool.and_eq_true, Bool.not_eq_true'] at allowed
    have noSpace := allowed.1.1.2
    rwa [Option.mem_def.1 isHead] at noSpace
  ends := by
    simp only [allowsPlain, Bool.and_eq_true, Bool.not_eq_true'] at allowed
    exact allowed.1.2
  inner := by
    rcases text with _ | ⟨c, rest⟩
    · rfl
    · obtain ⟨_, notIndicator, notMark⟩ := beginsPlain_of_allowsPlain allowed
      simp only [allowsPlain, looksLikeStructure, Bool.and_eq_true, Bool.not_eq_true',
        Bool.or_eq_false_iff] at allowed
      have notNumberSign : decide (c = '#') = false := by
        rw [decide_eq_false_iff_not]
        rintro rfl
        exact absurd notIndicator (by decide)
      have notColon : (decide (c = ':') && atGap rest) = false := by
        cases gap : atGap rest with
        | false => rw [Bool.and_false]
        | true =>
            rw [gap, Bool.and_true, Bool.or_eq_false_iff, Bool.or_eq_false_iff] at notMark
            rw [notMark.1.2, Bool.false_and]
      rw [hasInnerIndicator, notColon, notNumberSign, allowed.2.2, Bool.false_and, Bool.or_self,
        Bool.or_self]

end ContentTyping.Yaml

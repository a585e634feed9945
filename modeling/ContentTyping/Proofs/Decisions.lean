import ContentTyping.Error

/-!
# Sequences of decisions

What it takes that a sequence of steps, each of which may fail, goes through.
-/

namespace ContentTyping

/-- Deciding item by item with an early end gives the same as looking at all items. -/
theorem mapM_option_eq_ite {α β : Type} (decision : α → Option β) (items : List α) :
    items.mapM decision =
      if items.all fun item => (decision item).isSome then some (items.filterMap decision)
      else none := by
  induction items with
  | nil =>
      rfl
  | cons item items inductionHypothesis =>
      rw [List.mapM_cons, inductionHypothesis]
      cases decided : decision item with
      | none =>
          simp [decided]
      | some value =>
          cases rest : items.all fun item => (decision item).isSome with
          | false => simp [decided, rest]
          | true => simp [decided, rest]

theorem bind_eq_ok_iff {ε α β : Type} {step : Except ε α} {next : α → Except ε β} {result : β} :
    (step >>= next) = .ok result ↔ ∃ value, step = .ok value ∧ next value = .ok result := by
  cases step with
  | error error => simp [Bind.bind, Except.bind]
  | ok value => simp [Bind.bind, Except.bind]

theorem exists_of_map_eq_ok {ε α β : Type} {step : Except ε α} {view : α → β} {result : β}
    (mapped : step.map view = .ok result) : ∃ value, step = .ok value ∧ view value = result := by
  cases step with
  | error error => exact absurd mapped (by simp [Except.map])
  | ok value => exact ⟨value, rfl, Except.ok.inj mapped⟩

theorem map_eq_error_iff {ε α β : Type} {step : Except ε α} {view : α → β} {error : ε} :
    step.map view = .error error ↔ step = .error error := by
  cases step with
  | error other => simp [Except.map]
  | ok value => simp [Except.map]

theorem exists_of_isOk {ε α : Type} {step : Except ε α} (isOk : step.isOk = true) :
    ∃ value, step = .ok value := by
  cases step with
  | error error => exact absurd isOk (by simp [Except.isOk, Except.toBool])
  | ok value => exact ⟨value, rfl⟩

theorem forM_eq_ok_iff {ε α : Type} {check : α → Except ε Unit} {items : List α} :
    items.forM check = .ok () ↔ ∀ item ∈ items, check item = .ok () := by
  induction items with
  | nil =>
      simp [List.forM_nil, Pure.pure, Except.pure]
  | cons item items inductionHypothesis =>
      rw [List.forM_eq_forM] at inductionHypothesis ⊢
      rw [List.forM_cons, bind_eq_ok_iff, List.forall_mem_cons, ← inductionHypothesis]
      constructor
      · rintro ⟨_, first, rest⟩
        exact ⟨first, rest⟩
      · rintro ⟨first, rest⟩
        exact ⟨(), first, rest⟩

end ContentTyping

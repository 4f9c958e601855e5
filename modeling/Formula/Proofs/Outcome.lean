import Formula.Error
import Mathlib.Data.List.Basic

/-!
# Outcomes

A computation that may fail is taken apart at its steps, and judged by its results and its errors.
-/

namespace Formula

variable {ε α β : Type}

theorem bind_eq_ok_iff {first : Except ε α} {next : α → Except ε β} {result : β} :
    first >>= next = .ok result ↔ ∃ value, first = .ok value ∧ next value = .ok result := by
  cases first <;> simp [bind, Except.bind]

theorem bind_eq_error_iff {first : Except ε α} {next : α → Except ε β} {error : ε} :
    first >>= next = .error error ↔
      first = .error error ∨ ∃ value, first = .ok value ∧ next value = .error error := by
  cases first <;> simp [bind, Except.bind]

theorem map_eq_ok_iff {first : Except ε α} {change : α → β} {result : β} :
    change <$> first = .ok result ↔ ∃ value, first = .ok value ∧ change value = result := by
  cases first <;> simp [Functor.map, Except.map]

theorem map_eq_error_iff {first : Except ε α} {change : α → β} {error : ε} :
    change <$> first = .error error ↔ first = .error error := by
  cases first <;> simp [Functor.map, Except.map]

theorem mapM_eq_error {step : α → Except ε β} {items : List α} {error : ε}
    (failed : items.mapM step = .error error) : ∃ item ∈ items, step item = .error error := by
  induction items with
  | nil => simp [pure, Except.pure] at failed
  | cons item items ih =>
      rw [List.mapM_cons, bind_eq_error_iff] at failed
      rcases failed with first | ⟨value, -, failed⟩
      · exact ⟨item, by simp, first⟩
      · rcases bind_eq_error_iff.mp failed with later | ⟨values, -, impossible⟩
        · obtain ⟨other, member, fails⟩ := ih later
          exact ⟨other, List.mem_cons_of_mem _ member, fails⟩
        · simp [pure, Except.pure] at impossible

/-! ## Results -/

/-- A computation whose result, if it has one, is good. -/
def Gives (good : α → Prop) (outcome : Except Error α) : Prop :=
  ∀ result, outcome = .ok result → good result

namespace Gives

variable {good : α → Prop} {good' : β → Prop}

theorem ok {result : α} (isGood : good result) : Gives good (.ok result) := by
  rintro _ ⟨⟩
  exact isGood

theorem error (error : Error) : Gives good (.error error) :=
  fun _ impossible => nomatch impossible

theorem bind {outcome : Except Error α} {next : α → Except Error β} (gives : Gives good outcome)
    (rest : ∀ result, good result → Gives good' (next result)) :
    Gives good' (outcome >>= next) := by
  cases outcome with
  | ok result => exact rest result (gives result rfl)
  | error error => exact .error error

theorem map {outcome : Except Error α} {change : α → β} (gives : Gives good outcome)
    (changes : ∀ result, good result → good' (change result)) :
    Gives good' (outcome.map change) := by
  cases outcome with
  | ok result => exact .ok (changes result (gives result rfl))
  | error error => exact .error error

/-- The first step does not matter. -/
theorem of_bind {outcome : Except Error α} {next : α → Except Error β}
    (rest : ∀ result, Gives good' (next result)) : Gives good' (outcome >>= next) := by
  cases outcome with
  | ok result => exact rest result
  | error error => exact .error error

theorem of_map {outcome : Except Error α} {change : α → β}
    (changes : ∀ result, good' (change result)) : Gives good' (outcome.map change) := by
  cases outcome with
  | ok result => exact .ok (changes result)
  | error error => exact .error error

end Gives

/-! ## Errors -/

variable {allowed : Error → Prop}

/-- A computation that has no other errors than those allowed. -/
def FailsWithin (allowed : Error → Prop) (outcome : Except Error α) : Prop :=
  ∀ error, outcome = .error error → allowed error

namespace FailsWithin

theorem ok (result : α) : FailsWithin allowed (.ok result) :=
  fun _ impossible => nomatch impossible

theorem error {error : Error} (isAllowed : allowed error) :
    FailsWithin allowed (.error error : Except Error α) := by
  rintro _ ⟨⟩
  exact isAllowed

theorem mono {wider : Error → Prop} {outcome : Except Error α}
    (widens : ∀ error, allowed error → wider error) (within : FailsWithin allowed outcome) :
    FailsWithin wider outcome :=
  fun error failed => widens error (within error failed)

theorem bind {outcome : Except Error α} {next : α → Except Error β}
    (within : FailsWithin allowed outcome) (rest : ∀ result, FailsWithin allowed (next result)) :
    FailsWithin allowed (outcome >>= next) := by
  cases outcome with
  | ok result => exact rest result
  | error error => exact .error (within error rfl)

theorem map {outcome : Except Error α} (change : α → β) (within : FailsWithin allowed outcome) :
    FailsWithin allowed (outcome.map change) := by
  cases outcome with
  | ok result => exact .ok _
  | error error => exact .error (within error rfl)

end FailsWithin

end Formula

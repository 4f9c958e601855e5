import Formula.Proofs.Number.Order
import Mathlib.Data.Set.Basic

/-!
# Where the strict order is transitive

Rounding can bring two integers level with the double between them, so that level numbers need not
be level with the same numbers.  It never turns strictly ordered numbers around.  Without decimals,
and also without floats, the strict order is therefore transitive.
-/

namespace Formula.Number

/-- Of the numbers, one that is below another is below all that this one is below. -/
def HasStrictOrder (numbers : Set Number) : Prop :=
  ∀ low ∈ numbers, ∀ middle ∈ numbers, ∀ high ∈ numbers,
    low.order middle = .lt → middle.order high = .lt → low.order high = .lt

variable {left right : Number} {numbers : Set Number}

theorem HasStrictOrder.mono {fewer : Set Number} (strict : HasStrictOrder numbers)
    (among : fewer ⊆ numbers) : HasStrictOrder fewer :=
  fun low isLow middle isMiddle high isHigh =>
    strict low (among isLow) middle (among isMiddle) high (among isHigh)

theorem order_eq_lt_iff {scale : Scale} (meets : left.scale right = scale) :
    left.order right = .lt ↔ left.place scale < right.place scale := by
  rw [order_eq_compare, meets, compare_lt_iff_lt]

/-- Integers and decimals are ordered by their exact values. -/
theorem hasStrictOrder_of_exact (exact_ : ∀ number ∈ numbers, number.type.isFloat = false) :
    HasStrictOrder numbers := by
  intro low isLow middle isMiddle high isHigh below below'
  have isExact := exact_ low isLow
  have isExact' := exact_ middle isMiddle
  have isExact'' := exact_ high isHigh
  rw [order_eq_compare_decimalPlace isExact isExact', compare_lt_iff_lt] at below
  rw [order_eq_compare_decimalPlace isExact' isExact'', compare_lt_iff_lt] at below'
  rw [order_eq_compare_decimalPlace isExact isExact'', compare_lt_iff_lt]
  exact below.trans below'

theorem place_double_le_of_lt (leftPlain : left.type ≠ .decimal)
    (rightPlain : right.type ≠ .decimal) (below : left.order right = .lt) :
    left.place .double ≤ right.place .double := by
  by_cases integers : left.type.isInteger = true ∧ right.type.isInteger = true
  · have whole := (order_eq_lt_iff (scale_eq_whole_iff.mpr integers)).mp below
    exact place_double_mono integers.1 integers.2 whole.le
  · have meets := (scale_eq_double_iff leftPlain rightPlain).mpr integers
    exact ((order_eq_lt_iff meets).mp below).le

/-- Among doubles a step that is not between two integers is strict, and of three numbers that are
not all integers there is such a step. -/
theorem hasStrictOrder_of_plain (plain : ∀ number ∈ numbers, number.type ≠ .decimal) :
    HasStrictOrder numbers := by
  intro low isLow middle isMiddle high isHigh below below'
  have lowPlain := plain low isLow
  have middlePlain := plain middle isMiddle
  have highPlain := plain high isHigh
  have first := place_double_le_of_lt lowPlain middlePlain below
  have second := place_double_le_of_lt middlePlain highPlain below'
  have strict (float : ¬ (low.type.isInteger = true ∧ middle.type.isInteger = true)) :
      low.place .double < middle.place .double :=
    (order_eq_lt_iff ((scale_eq_double_iff lowPlain middlePlain).mpr float)).mp below
  have strict' (float : ¬ (middle.type.isInteger = true ∧ high.type.isInteger = true)) :
      middle.place .double < high.place .double :=
    (order_eq_lt_iff ((scale_eq_double_iff middlePlain highPlain).mpr float)).mp below'
  by_cases integers : low.type.isInteger = true ∧ high.type.isInteger = true
  · obtain ⟨lowInteger, highInteger⟩ := integers
    rw [order_eq_lt_iff (scale_eq_whole_iff.mpr ⟨lowInteger, highInteger⟩)]
    by_cases middleInteger : middle.type.isInteger = true
    · have whole := (order_eq_lt_iff (scale_eq_whole_iff.mpr ⟨lowInteger, middleInteger⟩)).mp below
      have whole' :=
        (order_eq_lt_iff (scale_eq_whole_iff.mpr ⟨middleInteger, highInteger⟩)).mp below'
      exact whole.trans whole'
    · have apart := (strict (by simp [middleInteger])).trans (strict' (by simp [middleInteger]))
      by_contra above
      have downward := place_double_mono highInteger lowInteger (not_lt.mp above)
      omega
  · rw [order_eq_lt_iff ((scale_eq_double_iff lowPlain highPlain).mpr integers)]
    by_cases lowFloat : low.type.isInteger = true
    · have := strict' (by grind)
      omega
    · have := strict (by simp [lowFloat])
      omega

/-- A decimal steps from a double to an integer that rounds to this double. -/
theorem not_hasStrictOrder : ¬ HasStrictOrder Set.univ := by
  intro strict
  have level : (float64 twoPow53).order (.int64 9007199254740993) = .eq := by decide +kernel
  have below := strict (.float64 twoPow53) trivial
    (.decimal ⟨false, 90071992547409925, 1, by decide, by decide⟩) trivial
    (.int64 9007199254740993) trivial (by decide +kernel) (by decide +kernel)
  cases level.symm.trans below

end Formula.Number

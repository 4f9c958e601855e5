import Formula.Proofs.Number.Value
import Formula.Proofs.Outcome

/-!
# Conversion to integers

A conversion to an integer type gives the integer nearest to the exact value, or fails.  The one
number that it changes is 2 ^ 63 as a float: the range of 64-bit integers is tested among doubles,
where the largest integer is rounded up to 2 ^ 63, so this number passes and is then cut to the
largest integer.
-/

namespace Formula

/-! ## Integers within their range -/

namespace Number

theorem int32?_eq_some_iff {whole : ℤ} {value : Int32} :
    int32? whole = some value ↔ value.toInt = whole := by
  have lower := value.minValue_le_toInt
  have upper := value.toInt_le
  simp only [int32?, fitsInt32, Bool.and_eq_true, decide_eq_true_eq]
  constructor
  · intro fits
    split at fits
    · next range =>
        cases fits
        exact Int32.toInt_ofInt_of_le range.1 (Int.lt_of_le_of_lt range.2 (by decide))
    · cases fits
  · rintro rfl
    rw [if_pos ⟨lower, upper⟩, Int32.ofInt_toInt]

theorem int64?_eq_some_iff {whole : ℤ} {value : Int64} :
    int64? whole = some value ↔ value.toInt = whole := by
  have lower := value.minValue_le_toInt
  have upper := value.toInt_le
  simp only [int64?, fitsInt64, Bool.and_eq_true, decide_eq_true_eq]
  constructor
  · intro fits
    split at fits
    · next range =>
        cases fits
        exact Int64.toInt_ofInt_of_le range.1 (Int.lt_of_le_of_lt range.2 (by decide))
    · cases fits
  · rintro rfl
    rw [if_pos ⟨lower, upper⟩, Int64.ofInt_toInt]

theorem int64?_of_toInt (value : Int64) : int64? value.toInt = some value :=
  int64?_eq_some_iff.mpr rfl

theorem saturate_toInt (value : Int64) : saturate value.toInt = value := by
  have lower := value.minValue_le_toInt
  have upper := value.toInt_le
  rw [saturate, min_eq_left upper, max_eq_right lower, Int64.ofInt_toInt]

variable {source number : Number}

theorem exists_int32?_iff {whole : ℤ} :
    (∃ value, int32? whole = some value ∧ number = .int32 value) ↔
      number.type = .int32 ∧ number.value? = some (whole : ℚ) := by
  constructor
  · rintro ⟨value, fits, rfl⟩
    rw [← int32?_eq_some_iff.mp fits]
    exact ⟨rfl, rfl⟩
  · rintro ⟨isInt32, isWhole⟩
    cases number with
    | int32 value => exact ⟨value, int32?_eq_some_iff.mpr (by simpa [value?] using isWhole), rfl⟩
    | float32 | float64 | decimal | int64 => cases isInt32

theorem exists_int64?_iff {whole : ℤ} :
    (∃ value, int64? whole = some value ∧ number = .int64 value) ↔
      number.type = .int64 ∧ number.value? = some (whole : ℚ) := by
  constructor
  · rintro ⟨value, fits, rfl⟩
    rw [← int64?_eq_some_iff.mp fits]
    exact ⟨rfl, rfl⟩
  · rintro ⟨isInt64, isWhole⟩
    cases number with
    | int64 value => exact ⟨value, int64?_eq_some_iff.mpr (by simpa [value?] using isWhole), rfl⟩
    | float32 | float64 | decimal | int32 => cases isInt64

/-! ## Conversions -/

/-- The number of the type that is nearest to the exact value. -/
def RoundsTo (target : NumericType) (source number : Number) : Prop :=
  ∃ (exact_ : ℚ) (whole : ℤ), source.value? = some exact_ ∧ IsNearestEven exact_ whole ∧
    number.type = target ∧ number.value? = some (whole : ℚ)

/-- The float just above the largest 64-bit integer, to be converted to that type. -/
def IsJustAbove (target : NumericType) (source : Number) : Prop :=
  target = .int64 ∧ source.type.isFloat = true ∧ source.value? = some (2 ^ 63)

/-- The nearest number of the type; the float just above the largest integer becomes that one. -/
def ConvertsTo (target : NumericType) (source number : Number) : Prop :=
  source.RoundsTo target number ∨
    source.IsJustAbove target ∧ number = .int64 Int64.maxValue

variable {target : NumericType}

theorem roundsTo_iff_of_nearest {exact_ : ℚ} {whole : ℤ} (isExact : source.value? = some exact_)
    (nearest : IsNearestEven exact_ whole) :
    source.RoundsTo target number ↔ number.type = target ∧ number.value? = some (whole : ℚ) := by
  constructor
  · rintro ⟨exact', whole', isExact', nearest', converted⟩
    obtain rfl : exact_ = exact' := Option.some.inj (isExact.symm.trans isExact')
    rwa [nearest.unique nearest']
  · exact fun converted => ⟨exact_, whole, isExact, nearest, converted⟩

theorem convertsTo_iff_of_notFloat (notFloat : source.type.isFloat = false) :
    source.ConvertsTo target number ↔ source.RoundsTo target number := by
  simp [ConvertsTo, IsJustAbove, notFloat]

/-- Of floats with the same value one converts as the other. -/
theorem convertsTo_congr {source' : Number} (sameValue : source.value? = source'.value?)
    (sameKind : source.type.isFloat = source'.type.isFloat) :
    source.ConvertsTo target number ↔ source'.ConvertsTo target number := by
  simp only [ConvertsTo, RoundsTo, IsJustAbove, sameValue, sameKind]

theorem map_orUnrepresentable_eq_ok_iff {α : Type} {text : String} {result : Option α}
    {make : α → Number} :
    (orUnrepresentable text target result).map make = .ok number ↔
      ∃ value, result = some value ∧ number = make value := by
  cases result <;> simp [orUnrepresentable, Except.map, eq_comm]

end Number

/-! ## Floats -/

/-- Doubles of this size are integers. -/
theorem Binary.value?_of_nearest {value : Double} {exact_ : ℚ} {whole : ℤ}
    (isExact : value.value? = some exact_) (nearest : IsNearestEven exact_ whole)
    (large : 2 ^ 53 ≤ whole.natAbs) : exact_ = whole := by
  cases value with
  | nan => cases isExact
  | infinity => cases isExact
  | finite negative significand exponent admitted =>
      obtain rfl := Option.some.inj isExact
      rcases exponent.eq_nat_or_neg with ⟨power, rfl | rfl⟩
      · have isWhole : (signed negative significand : ℚ) * 2 ^ (power : ℤ) =
            ((signed negative significand * 2 ^ power : ℤ) : ℚ) := by
          push_cast
          rw [zpow_natCast]
        rw [isWhole] at nearest ⊢
        rw [nearest.eq_of_intCast]
      · exfalso
        have bounded : (significand : ℚ) + 1 ≤ 2 ^ 53 := by
          exact_mod_cast Nat.succ_le_of_lt admitted.1
        have small : |(signed negative significand : ℚ) * 2 ^ (-(power : ℤ))| ≤ significand := by
          rw [abs_mul, abs_signed, abs_of_pos (by positivity)]
          apply mul_le_of_le_one_right (Nat.cast_nonneg _)
          rw [zpow_neg, zpow_natCast]
          exact inv_le_one_of_one_le₀ (one_le_pow₀ one_le_two)
        have large' : (2 : ℚ) ^ 53 ≤ |(whole : ℚ)| := by
          rw [← Int.cast_abs, Int.abs_eq_natAbs]
          exact_mod_cast large
        have triangle := abs_sub_abs_le_abs_sub (whole : ℚ)
          ((signed negative significand : ℚ) * 2 ^ (-(power : ℤ)))
        have near := nearest.near
        rw [abs_sub_comm] at near
        linarith

theorem Binary.toInt?_eq_two_pow_63_iff {value : Double} :
    value.toInt? .nearestEven = some (2 ^ 63) ↔ value.value? = some (2 ^ 63) := by
  rw [toInt?_nearestEven_iff]
  constructor
  · rintro ⟨exact_, isExact, nearest⟩
    rw [isExact, value?_of_nearest isExact nearest (by decide)]
    norm_num
  · intro isExact
    refine ⟨_, isExact, ?_⟩
    have nearest := IsNearestEven.intCast (2 ^ 63)
    push_cast at nearest
    exact nearest

namespace Number

variable {target : NumericType} {source number : Number}

theorem int64OfDouble?_eq_some_iff {value : Double} {converted : Int64} :
    int64OfDouble? value = some converted ↔
      (∃ whole, value.toInt? .nearestEven = some whole ∧ int64? whole = some converted) ∨
        value.toInt? .nearestEven = some (2 ^ 63) ∧ converted = Int64.maxValue := by
  have greatest : Int64.maxValue.toInt = 2 ^ 63 - 1 := by decide
  have lower := converted.minValue_le_toInt
  have upper := converted.toInt_le
  unfold int64OfDouble?
  cases value.toInt? .nearestEven with
  | none => simp
  | some whole =>
      simp only [Option.some.injEq, exists_eq_left', int64?_eq_some_iff]
      constructor
      · intro fits
        split at fits
        · next range =>
            cases fits
            by_cases above : whole = 2 ^ 63
            · subst above
              exact .inr ⟨rfl, by decide⟩
            · left
              rw [saturate, min_eq_left (by omega), max_eq_right range.1,
                Int64.toInt_ofInt_of_le range.1 (by omega)]
        · cases fits
      · rintro (rfl | ⟨rfl, rfl⟩)
        · rw [if_pos ⟨lower, by omega⟩, saturate_toInt]
        · decide

theorem ofDouble_eq_ok_iff (integer : target.isInteger = true) {value : Double} :
    ofDouble target value = .ok number ↔ (float64 value).ConvertsTo target number := by
  -- Rounding is the same for both types; they differ in what they take of the integers.
  have rounds : (∃ whole, value.toInt? .nearestEven = some whole ∧
      number.type = target ∧ number.value? = some (whole : ℚ)) ↔
        (float64 value).RoundsTo target number := by
    simp only [Binary.toInt?_nearestEven_iff, RoundsTo, value?]
    constructor
    · rintro ⟨whole, ⟨exact_, isExact, nearest⟩, converted⟩
      exact ⟨exact_, whole, isExact, nearest, converted⟩
    · rintro ⟨exact_, whole, isExact, nearest, converted⟩
      exact ⟨whole, ⟨exact_, isExact, nearest⟩, converted⟩
  cases target with
  | int32 =>
      have notAbove : ¬ (float64 value).IsJustAbove .int32 := fun ⟨isInt64, _⟩ => nomatch isInt64
      rw [ofDouble, map_orUnrepresentable_eq_ok_iff, ConvertsTo, ← rounds]
      simp only [notAbove, false_and, or_false, ← exists_int32?_iff, int32OfDouble?]
      cases value.toInt? .nearestEven <;> simp
  | int64 =>
      have above : (float64 value).IsJustAbove .int64 ↔ value.value? = some (2 ^ 63) := by
        simp [IsJustAbove, type, NumericType.isFloat, value?]
      rw [ofDouble, map_orUnrepresentable_eq_ok_iff, ConvertsTo, ← rounds, above,
        ← Binary.toInt?_eq_two_pow_63_iff]
      simp only [← exists_int64?_iff, int64OfDouble?_eq_some_iff]
      constructor
      · rintro ⟨converted, ⟨whole, isNearest, fits⟩ | ⟨isAbove, rfl⟩, rfl⟩
        · exact .inl ⟨whole, isNearest, converted, fits, rfl⟩
        · exact .inr ⟨isAbove, rfl⟩
      · rintro (⟨whole, isNearest, converted, fits, rfl⟩ | ⟨isAbove, rfl⟩)
        · exact ⟨converted, .inl ⟨whole, isNearest, fits⟩, rfl⟩
        · exact ⟨_, .inr ⟨isAbove, rfl⟩, rfl⟩
  | float32 | float64 | decimal => cases integer

/-! ## Every representation -/

theorem castDecimal_eq_ok_iff (integer : target.isInteger = true) {value : Decimal} :
    castDecimal target value = .ok number ↔ (decimal value).RoundsTo target number := by
  have nearest : IsNearestEven value.value (value.integral .nearestEven).toInt := by
    simpa [Decimal.integral, Decimal.toInt, Decimal.value] using
      Rounding.isNearestEven_magnitude value.negative value.mantissa
        (Nat.pow_pos (n := value.scale) (show 0 < 10 by decide))
  rw [roundsTo_iff_of_nearest rfl nearest]
  cases target with
  | int32 => rw [castDecimal, map_orUnrepresentable_eq_ok_iff, exists_int32?_iff]
  | int64 => rw [castDecimal, map_orUnrepresentable_eq_ok_iff, exists_int64?_iff]
  | float32 | float64 | decimal => cases integer

theorem castInt64_eq_ok_iff (integer : target.isInteger = true) {value : Int64} :
    castInt64 target value = .ok number ↔ (int64 value).RoundsTo target number := by
  rw [roundsTo_iff_of_nearest rfl (.intCast value.toInt)]
  cases target with
  | int32 => rw [castInt64, map_orUnrepresentable_eq_ok_iff, exists_int32?_iff]
  | int64 =>
      rw [← exists_int64?_iff, int64?_of_toInt]
      simp [castInt64, ofInt64, eq_comm]
  | float32 | float64 | decimal => cases integer

theorem cast_int32 (value : Int32) :
    (int32 value).cast target = castInt64 target value.toInt64 := by
  cases target with
  | int32 =>
      have fits : int32? value.toInt = some value := int32?_eq_some_iff.mpr rfl
      simp [cast, castInt64, ofInt64, fits, orUnrepresentable, Except.map]
  | float32 | float64 | decimal | int64 => rfl

theorem cast_eq_ok_iff (integer : target.isInteger = true) :
    source.cast target = .ok number ↔ source.ConvertsTo target number := by
  cases source with
  | float64 value => exact ofDouble_eq_ok_iff integer
  | float32 value =>
      have other : target ≠ .float32 := by
        rintro rfl
        cases integer
      rw [cast, if_neg other, ofDouble_eq_ok_iff integer]
      exact convertsTo_congr (Binary.value?_convert_double value) rfl
  | decimal value =>
      exact (castDecimal_eq_ok_iff integer).trans (convertsTo_iff_of_notFloat rfl).symm
  | int64 value =>
      exact (castInt64_eq_ok_iff integer).trans (convertsTo_iff_of_notFloat rfl).symm
  | int32 value =>
      have sameValue : (int64 value.toInt64).value? = (int32 value).value? := by
        simp [value?, value.toInt_toInt64]
      rw [cast_int32, castInt64_eq_ok_iff integer, ← convertsTo_iff_of_notFloat rfl]
      exact convertsTo_congr sameValue rfl

end Number

end Formula

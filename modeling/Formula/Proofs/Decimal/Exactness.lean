import Formula.Decimal.Reading
import Formula.Proofs.Number.Value

/-!
# Exact decimal arithmetic

Moving the point of a decimal never rounds: either the result has room for all digits or there is
none.
-/

namespace Formula.Decimal

variable {value : Decimal}

/-! ## Values -/

theorem make?_of_lt {mantissa scale : ℕ} (negative : Bool) (bounded : mantissa < 2 ^ 96)
    (scale_le : scale ≤ 28) :
    make? negative mantissa scale = some ⟨negative, mantissa, scale, bounded, scale_le⟩ :=
  dif_pos ⟨bounded, scale_le⟩

theorem make?_eq_some {negative : Bool} {mantissa scale : ℕ}
    (made : make? negative mantissa scale = some value) :
    value.negative = negative ∧ value.mantissa = mantissa ∧ value.scale = scale := by
  unfold make? at made
  split at made
  · cases made
    exact ⟨rfl, rfl, rfl⟩
  · cases made

theorem value_of_make? {negative : Bool} {mantissa scale : ℕ}
    (made : make? negative mantissa scale = some value) :
    value.value = signed negative mantissa / (10 ^ scale : ℕ) := by
  obtain ⟨rfl, rfl, rfl⟩ := make?_eq_some made
  rfl

theorem value_dropSignOfZero (value : Decimal) : value.dropSignOfZero.value = value.value := by
  obtain ⟨negative, mantissa, scale, _, _⟩ := value
  by_cases zero : mantissa = 0
  · cases negative <;> simp [dropSignOfZero, Decimal.value, zero, signed]
  · have kept : (mantissa != 0) = true := by simpa using zero
    simp [dropSignOfZero, Decimal.value, kept]

theorem value_eq_intCast_iff {whole : ℤ} :
    value.value = whole ↔ value.isWhole = true ∧ value.toInt = whole := by
  obtain ⟨negative, mantissa, scale, _, _⟩ := value
  have positive : 0 < 10 ^ scale := Nat.pow_pos (by decide)
  have positive' : ((10 ^ scale : ℕ) : ℚ) ≠ 0 := by exact_mod_cast positive.ne'
  have parts : (signed negative mantissa : ℚ) / (10 ^ scale : ℕ) = whole ↔
      signed negative mantissa = whole * (10 ^ scale : ℕ) := by
    rw [div_eq_iff positive']
    exact_mod_cast Iff.rfl
  simp only [Decimal.value, parts, isWhole, toInt, beq_iff_eq]
  constructor
  · intro isMultiple
    obtain ⟨quotient, rfl⟩ : 10 ^ scale ∣ mantissa := by
      rw [← natAbs_signed negative mantissa, isMultiple, Int.natAbs_mul]
      exact Nat.dvd_mul_left _ _
    refine ⟨Nat.mul_mod_right _ _, ?_⟩
    rw [Nat.mul_comm, signed_mul] at isMultiple
    rw [Nat.mul_div_cancel_left _ positive]
    exact Int.eq_of_mul_eq_mul_right (by exact_mod_cast positive.ne') isMultiple
  · rintro ⟨isMultiple, rfl⟩
    rw [← signed_mul, Nat.div_mul_cancel (Nat.dvd_of_mod_eq_zero isMultiple)]

/-- The result is exact, and there is none only where the whole part has more than 96 bits. -/
def Gives (result : Option Decimal) (exact_ : ℚ) : Prop :=
  (∃ value, result = some value ∧ value.value = exact_) ∨ result = none ∧ 2 ^ 96 ≤ |exact_|

namespace Gives

variable {result : Option Decimal} {exact_ : ℚ}

theorem map {change : Decimal → Decimal} (gives : Gives result exact_)
    (same : ∀ value, (change value).value = value.value) : Gives (result.map change) exact_ := by
  rcases gives with ⟨value, rfl, rfl⟩ | ⟨rfl, large⟩
  · exact .inl ⟨_, rfl, same value⟩
  · exact .inr ⟨rfl, large⟩

theorem value_eq (gives : Gives result exact_) (some_ : result = some value) :
    value.value = exact_ := by
  rcases gives with ⟨value', same, isExact⟩ | ⟨none_, -⟩
  · obtain rfl := Option.some.inj (some_.symm.trans same)
    exact isExact
  · cases some_.symm.trans none_

theorem exists_of_small (gives : Gives result exact_) (small : |exact_| < 2 ^ 96) :
    ∃ value, result = some value ∧ value.value = exact_ :=
  gives.resolve_right fun ⟨_, large⟩ => absurd small (not_lt.mpr large)

end Gives

theorem gives_make? {mantissa scale : ℕ} {exact_ : ℚ} (negative : Bool)
    (bounded : mantissa < 2 ^ 96) (scale_le : scale ≤ 28)
    (same : (signed negative mantissa : ℚ) / (10 ^ scale : ℕ) = exact_) :
    Gives (make? negative mantissa scale) exact_ :=
  .inl ⟨_, make?_of_lt negative bounded scale_le, same⟩

/-! ## Quotients with few places -/

section Quotient

variable {numerator denominator result places scale : ℕ}

theorem signed_div_eq {mantissa : ℕ} (negative : Bool) (positive : 0 < denominator)
    (same : mantissa * denominator = numerator * 10 ^ scale) :
    (signed negative mantissa : ℚ) / (10 ^ scale : ℕ) =
      signed negative numerator / denominator := by
  rw [div_eq_div_iff (by positivity) (by positivity)]
  have products := congrArg (signed negative) same
  rw [signed_mul, signed_mul] at products
  exact_mod_cast products

/-- The quotient has `result` as its mantissa at `places`; at more places it has zeros behind. -/
theorem magnitude_of_exact (negative : Bool) (positive : 0 < denominator)
    (exact_ : numerator * 10 ^ places = result * denominator) (within : places ≤ scale) :
    Rounding.nearestEven.magnitude negative (numerator * 10 ^ scale) denominator =
      result * 10 ^ (scale - places) := by
  have more : numerator * 10 ^ scale = result * 10 ^ (scale - places) * denominator := by
    rw [Nat.mul_right_comm, ← exact_, Nat.mul_assoc, ← Nat.pow_add, Nat.add_sub_cancel' within]
  rw [more, Rounding.magnitude_mul_self _ positive]

/-- A quotient that needs no more places than there may be is not rounded. -/
theorem gives_ofRatio? (negative : Bool) (positive : 0 < denominator)
    (exact_ : numerator * 10 ^ places = result * denominator) (within : places ≤ scale)
    (scale_le : scale ≤ 28) (bounded : places = 0 ∨ result < 2 ^ 96) :
    Gives (ofRatio? negative numerator denominator scale)
      (signed negative numerator / denominator) := by
  induction scale with
  | zero =>
      obtain rfl := Nat.le_zero.mp within
      have magnitude := magnitude_of_exact negative positive exact_ within
      rw [Nat.pow_zero, Nat.mul_one] at magnitude exact_
      have value : (signed negative result : ℚ) / (10 ^ 0 : ℕ) =
          signed negative numerator / denominator :=
        signed_div_eq negative positive (by rw [exact_, Nat.pow_zero, Nat.mul_one])
      rw [ofRatio?, magnitude, Nat.mul_one, ← value]
      rcases Nat.lt_or_ge result (2 ^ 96) with small | large
      · exact gives_make? negative small scale_le rfl
      · refine .inr ⟨dif_neg fun both => absurd both.1 (Nat.not_lt.mpr large), ?_⟩
        rw [Nat.pow_zero, Nat.cast_one, div_one, abs_signed]
        exact_mod_cast large
  | succ scale ih =>
      rw [ofRatio?, magnitude_of_exact negative positive exact_ within]
      split
      · next value made =>
          refine .inl ⟨value, rfl, ?_⟩
          rw [value_of_make? made]
          apply signed_div_eq negative positive
          rw [Nat.mul_right_comm, ← exact_, Nat.mul_assoc, ← Nat.pow_add,
            Nat.add_sub_cancel' within]
      · next failed =>
          have fewer : places ≤ scale := by
            by_contra all
            obtain rfl : places = scale + 1 := by omega
            rw [Nat.sub_self, Nat.pow_zero, Nat.mul_one,
              make?_of_lt negative (bounded.resolve_left (by omega)) scale_le] at failed
            cases failed
          exact ih fewer (by omega)

end Quotient

/-! ## Dropping and appending places -/

theorem signed_dropPlaces_div (negative : Bool) (mantissa scale : ℕ) :
    (signed negative (dropPlaces mantissa scale).1 : ℚ) /
        (10 ^ (dropPlaces mantissa scale).2 : ℕ) =
      signed negative mantissa / (10 ^ scale : ℕ) := by
  fun_induction dropPlaces mantissa scale with
  | case1 => rfl
  | case2 mantissa scale isMultiple ih =>
      rw [ih]
      apply signed_div_eq negative (Nat.pow_pos (by decide))
      rw [Nat.pow_succ', ← Nat.mul_assoc,
        Nat.div_mul_cancel (Nat.dvd_of_mod_eq_zero isMultiple)]
  | case3 => rfl

theorem value_normalize (value : Decimal) : value.normalize.value = value.value := by
  rw [← value_dropSignOfZero value]
  exact signed_dropPlaces_div _ _ _

theorem aligned_eq_mul {scale : ℕ} (within : value.scale ≤ scale) :
    (value.aligned scale : ℚ) = value.value * 10 ^ scale := by
  have parts : (10 : ℚ) ^ scale = 10 ^ value.scale * 10 ^ (scale - value.scale) := by
    rw [← pow_add, Nat.add_sub_cancel' within]
  rw [aligned, signed_mul, Decimal.value, parts]
  push_cast
  field_simp

/-- The order compares values, whatever scales they are written with. -/
theorem order_eq_eq_iff {left right : Decimal} :
    left.order right = .eq ↔ left.value = right.value := by
  unfold order
  dsimp only
  rw [compare_eq_iff_eq, ← @Int.cast_inj ℚ, aligned_eq_mul (le_max_left _ _),
    aligned_eq_mul (le_max_right _ _), mul_left_inj' (by positivity)]

/-! ## Moving the point -/

section Shift

variable {factor : Decimal} {power : ℕ}

theorem value_zero : zero.value = 0 := by simp [zero, Decimal.value, signed]

theorem value_of_mantissa_eq_zero (isZero : value.mantissa = 0) : value.value = 0 := by
  rw [Decimal.value, isZero]
  cases value.negative <;> simp [signed]

/-- The places that remain hold all digits, since the factor has none. -/
theorem gives_mul?_powerOfTen (value : Decimal)
    (isPower : make? false (10 ^ power) 0 = some factor) :
    Gives (value.mul? factor) (value.value * 10 ^ power) := by
  obtain ⟨unsigned, isPower, noPlaces⟩ := make?_eq_some isPower
  unfold mul?
  dsimp only
  rw [unsigned, isPower, noPlaces, Bool.bne_false, Nat.add_zero]
  split
  · next isZero =>
      have isZero := isZero.resolve_right (by positivity)
      rw [value_of_mantissa_eq_zero isZero, zero_mul, ← value_zero]
      exact .inl ⟨_, rfl, rfl⟩
  · -- The places that the factor leaves show every digit; none are left of a whole product.
    have places : value.mantissa * 10 ^ power * 10 ^ (value.scale - power) =
        value.mantissa * 10 ^ (power - value.scale) * 10 ^ value.scale := by
      rw [Nat.mul_assoc, Nat.mul_assoc, ← Nat.pow_add, ← Nat.pow_add]
      congr 2
      omega
    have bounded : value.scale - power = 0 ∨
        value.mantissa * 10 ^ (power - value.scale) < 2 ^ 96 := by
      rcases Nat.le_total value.scale power with fewer | more
      · exact .inl (Nat.sub_eq_zero_of_le fewer)
      · right
        rw [Nat.sub_eq_zero_of_le more, Nat.pow_zero, Nat.mul_one]
        exact value.mantissa_lt
    have within : value.scale - power ≤ min maxScale value.scale :=
      le_min (le_trans (Nat.sub_le _ _) value.scale_le) (Nat.sub_le _ _)
    have product := gives_ofRatio? value.negative (by positivity) places within
      (min_le_left _ _) bounded
    have same : (signed value.negative (value.mantissa * 10 ^ power) : ℚ) /
        (10 ^ value.scale : ℕ) = value.value * 10 ^ power := by
      rw [signed_mul, Decimal.value]
      push_cast
      ring
    rw [same] at product
    refine product.map fun product => ?_
    split
    · exact value_dropSignOfZero product
    · rfl

theorem gives_shiftLeft? (power_le : power ≤ 28) :
    Gives (value.shiftLeft? power) (value.value * 10 ^ power) := by
  have made (power : ℕ) (power_le : power ≤ 28) : make? false (10 ^ power) 0 =
      some ⟨false, 10 ^ power, 0, lt_of_le_of_lt (Nat.pow_le_pow_right (by decide) power_le)
        (by decide), by decide⟩ := make?_of_lt _ _ _
  unfold shiftLeft?
  split
  · rw [made power power_le]
    exact gives_mul?_powerOfTen value (made power power_le)
  · next long =>
      have split_ : (10 : ℚ) ^ power = 10 ^ 19 * 10 ^ (power - 19) := by
        rw [← pow_add]
        congr 1
        omega
      rw [made 19 (by decide), made (power - 19) (by omega), split_, ← mul_assoc]
      rcases gives_mul?_powerOfTen value (made 19 (by decide)) with
        ⟨shifted, isShifted, same⟩ | ⟨failed, large⟩
      · have twice := gives_mul?_powerOfTen shifted (made (power - 19) (by omega))
        rw [same] at twice
        simpa [isShifted] using twice
      · refine .inr ⟨by simp [failed], ?_⟩
        rw [abs_mul]
        refine le_trans large (le_mul_of_one_le_right (abs_nonneg _) ?_)
        rw [abs_of_pos (by positivity)]
        exact one_le_pow₀ (by norm_num)

/-- The point may move by 28 places, and not beyond the largest scale. -/
theorem gives_scaled? {exponent : ℤ} (exponent_le : exponent ≤ 28)
    (places_le : value.scale ≤ 28 + exponent) :
    Gives (value.scaled? exponent) (value.value * 10 ^ exponent) := by
  have scale_le := value.scale_le
  unfold scaled? maxScale
  split
  · next below =>
      obtain ⟨steps, rfl⟩ : ∃ steps : ℕ, exponent = -steps := ⟨exponent.natAbs, by omega⟩
      rw [Int.natAbs_neg, Int.natAbs_natCast, zpow_neg, zpow_natCast]
      apply gives_make? _ value.mantissa_lt (by omega)
      rw [Decimal.value, Nat.pow_add]
      push_cast
      field_simp
  · next above =>
      obtain ⟨power, rfl⟩ := Int.eq_ofNat_of_zero_le (Int.not_lt.mp above)
      rw [Int.toNat_natCast, zpow_natCast]
      split
      · next fewer =>
          apply gives_make? _ value.mantissa_lt (by omega)
          have parts : 10 ^ value.scale = 10 ^ (value.scale - power) * 10 ^ power := by
            rw [← Nat.pow_add, Nat.sub_add_cancel fewer]
          rw [Decimal.value, parts]
          push_cast
          field_simp
      · rw [if_pos (by omega)]
        exact gives_shiftLeft? (by omega)

theorem bounds_of_scaled? {exponent : ℤ} {scaled : Decimal}
    (some_ : value.scaled? exponent = some scaled) :
    exponent ≤ 28 ∧ value.scale ≤ 28 + exponent := by
  have scale_le := value.scale_le
  have scaled_le := scaled.scale_le
  unfold scaled? maxScale at some_
  split at some_
  · have := (make?_eq_some some_).2.2
    omega
  · split at some_
    · omega
    · split at some_
      · omega
      · cases some_

end Shift

end Formula.Decimal

import Formula.Numeral.Number
import Formula.Proofs.Decimal.Reading
import Formula.Proofs.Number.Conversion
import Formula.Proofs.Numeral.Spelling

/-!
# Integers from text

A text becomes an integer through a decimal wherever it has a fraction or an exponent.  The decimal
is rounded to its room before it is asked whether it is whole, so a text may become an integer that
it does not spell: that is so exactly if a digit other than zero is dropped.
-/

namespace Formula

open Lexer (AllDigits)

namespace Numeral

/-! ## Values -/

/-- The number that is spelled. -/
def value (numeral : Numeral) : ℚ :=
  signed numeral.negative numeral.digits * 10 ^ numeral.power

/-- There are neither fraction digits nor an exponent. -/
def IsPlain (numeral : Numeral) : Prop :=
  numeral.fraction = [] ∧ numeral.exponent = none

instance (numeral : Numeral) : Decidable numeral.IsPlain :=
  inferInstanceAs (Decidable (_ ∧ _))

/-- The count of fraction digits that a decimal has room for. -/
def places (numeral : Numeral) : ℕ :=
  Decimal.keptPlaces numeral.whole numeral.fraction

/-- The fraction digits that a decimal has no room for. -/
def dropped (numeral : Numeral) : List Char :=
  numeral.fraction.drop numeral.places

/-- What is spelled without the dropped digits, rounded half up by the first of them. -/
def rounded (numeral : Numeral) : ℚ :=
  signed numeral.negative (Decimal.roundedMantissa numeral.whole numeral.fraction) *
    10 ^ (numeral.exponent.getD 0 - numeral.places)

/-- The whole digits fit into a decimal, and the point moves by no more places than it has. -/
structure FitsDecimal (numeral : Numeral) : Prop where
  whole_lt : Text.ofDigits numeral.whole < 2 ^ 96
  exponent_le : numeral.exponent.getD 0 ≤ 28
  places_le : numeral.places ≤ 28 + numeral.exponent.getD 0

instance (numeral : Numeral) : Decidable numeral.FitsDecimal :=
  decidable_of_iff
    (Text.ofDigits numeral.whole < 2 ^ 96 ∧ numeral.exponent.getD 0 ≤ 28 ∧
      numeral.places ≤ 28 + numeral.exponent.getD 0)
    ⟨fun ⟨whole, exponent, places⟩ => ⟨whole, exponent, places⟩,
      fun fits => ⟨fits.whole_lt, fits.exponent_le, fits.places_le⟩⟩

variable {numeral : Numeral}

theorem places_le_length : numeral.places ≤ numeral.fraction.length :=
  le_trans (Decimal.keptPlaces_le _ _) (min_le_right _ _)

theorem length_dropped : numeral.dropped.length = numeral.fraction.length - numeral.places :=
  List.length_drop

/-- The digits that are kept, as a number. -/
def kept (numeral : Numeral) : ℕ :=
  Decimal.mantissaAt numeral.whole numeral.fraction numeral.places

theorem digits_eq_kept : numeral.digits =
    10 ^ numeral.dropped.length * numeral.kept + Text.ofDigits numeral.dropped := by
  rw [kept, Decimal.mantissaAt, ← Text.ofDigits_append, List.append_assoc, dropped,
    List.take_append_drop, digits]

theorem roundedMantissa_eq_kept : Decimal.roundedMantissa numeral.whole numeral.fraction =
    numeral.kept + if Decimal.RoundsUp numeral.dropped then 1 else 0 := rfl

/-- The digits before and after rounding, counted in units of the last one. -/
theorem rounded_eq_mul : numeral.rounded =
    signed numeral.negative (Decimal.roundedMantissa numeral.whole numeral.fraction *
      10 ^ numeral.dropped.length) * 10 ^ numeral.power := by
  have places := numeral.places_le_length
  have power : numeral.exponent.getD 0 - numeral.places =
      (numeral.dropped.length : ℤ) + numeral.power := by
    rw [length_dropped, Numeral.power]
    omega
  rw [rounded, power, zpow_add₀ (by norm_num), signed_mul, zpow_natCast]
  push_cast
  ring

theorem rounded_eq_value_iff (all : AllDigits numeral.fraction) :
    numeral.rounded = numeral.value ↔ ∀ digit ∈ numeral.dropped, digit = '0' := by
  have allDropped : AllDigits numeral.dropped := fun digit member =>
    all digit (List.mem_of_mem_drop member)
  have remainder_lt := Text.ofDigits_lt allDropped
  have same : numeral.rounded = numeral.value ↔
      Decimal.roundedMantissa numeral.whole numeral.fraction * 10 ^ numeral.dropped.length =
        numeral.digits := by
    rw [rounded_eq_mul, value, mul_left_inj' (by positivity), Int.cast_inj, signed_inj]
  rw [same, ← Text.ofDigits_eq_zero_iff allDropped, digits_eq_kept, roundedMantissa_eq_kept,
    Nat.add_mul, Nat.mul_comm numeral.kept, Nat.add_left_cancel_iff]
  constructor
  · intro carried
    split at carried
    · omega
    · omega
  · intro zero
    have noCarry : ¬ Decimal.RoundsUp numeral.dropped := by
      rintro ⟨digit, first, atLeast⟩
      have member := List.mem_of_mem_head? first
      rw [Text.ofDigits_eq_zero_iff allDropped] at zero
      rw [zero digit member] at atLeast
      contradiction
    rw [if_neg noCarry, zero, Nat.zero_mul]

/-! ## Decimals -/

theorem gives_toDecimal? (fits : numeral.FitsDecimal)
    (small : Decimal.roundedMantissa numeral.whole numeral.fraction < 2 ^ 96) :
    Decimal.Gives numeral.toDecimal? numeral.rounded := by
  obtain ⟨base, isBase, isScale, isValue⟩ :=
    Decimal.ofDigits?_of_lt numeral.negative fits.whole_lt small
  change base.scale = numeral.places at isScale
  have same : numeral.rounded = base.value * 10 ^ numeral.exponent.getD 0 := by
    rw [rounded, isValue, zpow_sub₀ (by norm_num), zpow_natCast]
    push_cast
    rw [places]
    ring
  have exponent_le := fits.exponent_le
  have places_le := fits.places_le
  rw [same, toDecimal?, isBase, Option.bind_eq_bind, Option.bind_some]
  cases exponent : numeral.exponent with
  | none => exact .inl ⟨base, rfl, by simp⟩
  | some power =>
      rw [exponent, Option.getD_some] at exponent_le places_le
      exact Decimal.gives_scaled? exponent_le (by omega)

theorem base_of_toDecimal? {result : Decimal} (some_ : numeral.toDecimal? = some result) :
    ∃ base, Decimal.ofDigits? numeral.negative numeral.whole numeral.fraction = some base ∧
      numeral.exponent.getD 0 ≤ 28 ∧ base.scale ≤ 28 + numeral.exponent.getD 0 ∧
        result.value = base.value * 10 ^ numeral.exponent.getD 0 := by
  obtain ⟨base, isBase, scaled⟩ := Option.bind_eq_some_iff.mp some_
  have scale_le := base.scale_le
  refine ⟨base, isBase, ?_⟩
  cases exponent : numeral.exponent with
  | none =>
      rw [exponent] at scaled
      cases scaled
      simp
      omega
  | some power =>
      rw [exponent] at scaled
      dsimp only at scaled
      obtain ⟨exponent_le, places_le⟩ := Decimal.bounds_of_scaled? scaled
      exact ⟨exponent_le, places_le,
        (Decimal.gives_scaled? exponent_le places_le).value_eq scaled⟩

/-! ## Integers -/

/-- A long number without the factor five is not a 64-bit integer, wherever its point is. -/
theorem ne_intCast_of_large {magnitude : ℕ} (large : 2 ^ 64 ≤ magnitude)
    (notMultiple : magnitude % 5 ≠ 0) (negative : Bool) (power : ℤ) {whole : ℤ}
    (small : whole.natAbs < 2 ^ 64) : (signed negative magnitude : ℚ) * 10 ^ power ≠ whole := by
  intro same
  have magnitudes : (magnitude : ℚ) * 10 ^ power = whole.natAbs := by
    rw [← abs_signed negative magnitude, ← abs_of_pos (zpow_pos (by norm_num : (0 : ℚ) < 10) power),
      ← abs_mul, same, Nat.cast_natAbs, Int.cast_abs]
  rcases power.eq_nat_or_neg with ⟨steps, rfl | rfl⟩
  · rw [zpow_natCast] at magnitudes
    have magnitudes : magnitude * 10 ^ steps = whole.natAbs := by exact_mod_cast magnitudes
    have := Nat.le_mul_of_pos_right magnitude (Nat.pow_pos (n := steps) (show 0 < 10 by decide))
    omega
  · rw [zpow_neg, zpow_natCast, ← div_eq_mul_inv, div_eq_iff (by positivity)] at magnitudes
    have magnitudes : magnitude = whole.natAbs * 10 ^ steps := by exact_mod_cast magnitudes
    cases steps with
    | zero => omega
    | succ steps =>
        apply notMultiple
        rw [magnitudes]
        exact Nat.mod_eq_zero_of_dvd
          ((dvd_pow (by decide : 5 ∣ 10) (Nat.succ_ne_zero steps)).mul_left _)

theorem rounded_of_isPlain (plain : numeral.IsPlain) :
    numeral.rounded = signed numeral.negative (Text.ofDigits numeral.whole) := by
  obtain ⟨noFraction, noExponent⟩ := plain
  have places : numeral.places = 0 := by
    have := numeral.places_le_length
    rw [noFraction] at this
    exact Nat.le_zero.mp this
  have dropped : numeral.dropped = [] := by rw [Numeral.dropped, noFraction, List.drop_nil]
  rw [rounded, roundedMantissa_eq_kept, kept, noExponent, places, dropped, Decimal.mantissaAt_zero]
  simp [Decimal.RoundsUp]

theorem toInt?_of_isPlain (plain : numeral.IsPlain) :
    numeral.toInt? = some (signed numeral.negative (Text.ofDigits numeral.whole)) :=
  if_pos plain

theorem toInt?_eq_some_of_not_isPlain (notPlain : ¬ numeral.IsPlain) {whole : ℤ} :
    numeral.toInt? = some whole ↔
      ∃ result, numeral.toDecimal? = some result ∧ result.value = whole := by
  change (if numeral.IsPlain then _ else _) = _ ↔ _
  rw [if_neg notPlain]
  cases numeral.toDecimal? with
  | none => simp
  | some result => simp [Decimal.value_eq_intCast_iff]

theorem kept_lt (fits : Text.ofDigits numeral.whole < 2 ^ 96) : numeral.kept < 2 ^ 96 :=
  Decimal.mantissaAt_lt fits le_rfl

section Carry

variable {whole : ℤ} (small : whole.natAbs < 2 ^ 64)
  (carried : 2 ^ 96 ≤ Decimal.roundedMantissa numeral.whole numeral.fraction)
include small carried

/-- A carry into the bit after the last leaves no 64-bit integer in the rounded value. -/
theorem rounded_ne_of_carry (whole_lt : Text.ofDigits numeral.whole < 2 ^ 96) :
    numeral.rounded ≠ whole := by
  have least : Decimal.roundedMantissa numeral.whole numeral.fraction = 2 ^ 96 := by
    have kept_lt := kept_lt whole_lt
    rw [roundedMantissa_eq_kept] at carried ⊢
    split_ifs at carried ⊢ <;> omega
  rw [rounded, least]
  exact ne_intCast_of_large (by decide) (by decide) _ _ small

/-- The decimal gives up its last digit then, and does not hold one either. -/
theorem value_ne_of_carry {result : Decimal} (some_ : numeral.toDecimal? = some result) :
    result.value ≠ whole := by
  obtain ⟨base, isBase, -, -, scaled⟩ := base_of_toDecimal? some_
  have same : result.value = signed base.negative ((2 ^ 96 + 4) / 10) *
      10 ^ (numeral.exponent.getD 0 - base.scale) := by
    rw [scaled, Decimal.value, Decimal.mantissa_of_ofDigits? carried isBase,
      zpow_sub₀ (by norm_num), zpow_natCast]
    push_cast
    ring
  rw [same]
  exact ne_intCast_of_large (by decide) (by decide) _ _ small

end Carry

theorem fits_of_toDecimal?
    (fitting : Decimal.roundedMantissa numeral.whole numeral.fraction < 2 ^ 96) {result : Decimal}
    (some_ : numeral.toDecimal? = some result) : numeral.FitsDecimal := by
  obtain ⟨base, isBase, exponent_le, scale_le, -⟩ := base_of_toDecimal? some_
  have whole_lt := Decimal.fits_of_ofDigits? isBase
  obtain ⟨base', isBase', isScale, -⟩ :=
    Decimal.ofDigits?_of_lt numeral.negative whole_lt fitting
  obtain rfl : base = base' := Option.some.inj (isBase.symm.trans isBase')
  exact ⟨whole_lt, exponent_le, by rwa [places, ← isScale]⟩

theorem exists_toDecimal?_iff {whole : ℤ} (small : whole.natAbs < 2 ^ 64) :
    (∃ result, numeral.toDecimal? = some result ∧ result.value = whole) ↔
      numeral.FitsDecimal ∧ numeral.rounded = whole := by
  rcases Nat.lt_or_ge (Decimal.roundedMantissa numeral.whole numeral.fraction) (2 ^ 96) with
    fitting | carried
  · constructor
    · rintro ⟨result, isResult, isWhole⟩
      have fits := fits_of_toDecimal? fitting isResult
      exact ⟨fits, ((gives_toDecimal? fits fitting).value_eq isResult).symm.trans isWhole⟩
    · rintro ⟨fits, same⟩
      rw [← same]
      refine (gives_toDecimal? fits fitting).exists_of_small ?_
      rw [same, ← Int.cast_abs, Int.abs_eq_natAbs]
      exact_mod_cast lt_trans small (by decide)
  · constructor
    · rintro ⟨result, isResult, isWhole⟩
      cases value_ne_of_carry small carried isResult isWhole
    · rintro ⟨fits, same⟩
      cases rounded_ne_of_carry small carried fits.whole_lt same

theorem toInt?_eq_some_iff {whole : ℤ} (small : whole.natAbs < 2 ^ 64) :
    numeral.toInt? = some whole ↔
      (numeral.IsPlain ∨ numeral.FitsDecimal) ∧ numeral.rounded = whole := by
  by_cases plain : numeral.IsPlain
  · rw [toInt?_of_isPlain plain, rounded_of_isPlain plain, Option.some_inj, Int.cast_inj]
    simp [plain]
  · rw [toInt?_eq_some_of_not_isPlain plain, exists_toDecimal?_iff small]
    simp [plain]

/-- A number of an integer type is read off the rounded digits, where a decimal has room. -/
def IsReadAs (numeral : Numeral) (target : NumericType) (number : Number) : Prop :=
  (numeral.IsPlain ∨ numeral.FitsDecimal) ∧
    number.type = target ∧ number.value? = some numeral.rounded

end Numeral

namespace Number

variable {target : NumericType} {number : Number}

theorem exists_intCast (integer : number.type.isInteger = true) :
    ∃ whole : ℤ, whole.natAbs < 2 ^ 64 ∧ number.value? = some (whole : ℚ) := by
  cases number with
  | int32 value =>
      have lower := value.le_toInt
      have upper := value.toInt_lt
      exact ⟨value.toInt, by omega, rfl⟩
  | int64 value =>
      have lower := value.le_toInt
      have upper := value.toInt_lt
      exact ⟨value.toInt, by omega, rfl⟩
  | float32 | float64 | decimal => cases integer

end Number

namespace Numeral

variable {numeral : Numeral} {target : NumericType} {number : Number}

theorem toNumber?_eq_some_iff_toInt? (integer : target.isInteger = true) :
    toNumber? target numeral = some number ↔
      ∃ whole, numeral.toInt? = some whole ∧ number.type = target ∧
        number.value? = some (whole : ℚ) := by
  cases target with
  | int32 =>
      simp only [← Number.exists_int32?_iff, toNumber?, Option.map_eq_some_iff,
        Option.bind_eq_bind, Option.bind_eq_some_iff]
      grind
  | int64 =>
      simp only [← Number.exists_int64?_iff, toNumber?, Option.map_eq_some_iff,
        Option.bind_eq_bind, Option.bind_eq_some_iff]
      grind
  | float32 | float64 | decimal => cases integer

theorem toNumber?_eq_some_iff (integer : target.isInteger = true) :
    toNumber? target numeral = some number ↔ numeral.IsReadAs target number := by
  rw [toNumber?_eq_some_iff_toInt? integer, IsReadAs]
  constructor
  · rintro ⟨whole, isWhole, rfl, value⟩
    obtain ⟨whole', small, value'⟩ := Number.exists_intCast integer
    obtain rfl : whole = whole' := by
      rw [value, Option.some_inj, Int.cast_inj] at value'
      exact value'
    obtain ⟨fits, same⟩ := (toInt?_eq_some_iff small).mp isWhole
    exact ⟨fits, rfl, by rw [value, same]⟩
  · rintro ⟨fits, rfl, value⟩
    obtain ⟨whole, small, value'⟩ := Number.exists_intCast integer
    have same : numeral.rounded = whole := Option.some.inj (value.symm.trans value')
    exact ⟨whole, (toInt?_eq_some_iff small).mpr ⟨fits, same⟩, rfl, value'⟩

theorem IsReadAs.exponentFits (readAs : numeral.IsReadAs target number) :
    numeral.ExponentFits := by
  intro exponent isExponent
  rcases readAs.1 with plain | fits
  · rw [plain.2] at isExponent
    cases isExponent
  · have exponent_le := fits.exponent_le
    have places_le := fits.places_le
    rw [Option.mem_def.mp isExponent, Option.getD_some] at exponent_le places_le
    have range : Int64.minValue.toInt ≤ exponent ∧ exponent ≤ Int64.maxValue.toInt := by
      change -2 ^ 63 ≤ exponent ∧ exponent ≤ 2 ^ 63 - 1
      omega
    simpa [exponentInRange] using range

theorem Spells.allDigits_fraction {format : NumberFormat} {text : List Char}
    (spelled : Spells format numeral text) : AllDigits numeral.fraction := by
  cases spelled with
  | intro isSign isWhole isFraction =>
      cases isFraction with
      | absent => exact nofun
      | present all => exact all

end Numeral

/-! ## Texts -/

namespace Number

variable {target : NumericType} {format : NumberFormat}

theorem read?_eq_some_iff (integer : target.isInteger = true) {text : String} {number : Number} :
    read? target format text = some number ↔
      ∃ numeral, Numeral.read? format text = some numeral ∧ numeral.IsReadAs target number := by
  simp only [read?, Option.bind_eq_bind, Option.bind_eq_some_iff,
    Numeral.toNumber?_eq_some_iff integer]

/-- A text becomes the integer that its digits spell after rounding; this is the number that the
text spells exactly if the digits that are dropped are zeros. -/
theorem read?_integer (integer : target.isInteger = true) (unambiguous : format.Unambiguous)
    (text : String) (number : Number) :
    (read? target format text = some number ↔
      ∃ numeral : Numeral, numeral.IsSpelledBy format text ∧ numeral.IsReadAs target number) ∧
    ∀ numeral : Numeral, numeral.IsSpelledBy format text →
      read? target format text = some number →
        (number.value? = some numeral.value ↔ ∀ digit ∈ numeral.dropped, digit = '0') := by
  rw [read?_eq_some_iff integer]
  simp only [Numeral.read?_eq_some_iff unambiguous]
  constructor
  · constructor
    · rintro ⟨numeral, ⟨spelled, -⟩, readAs⟩
      exact ⟨numeral, spelled, readAs⟩
    · rintro ⟨numeral, spelled, readAs⟩
      exact ⟨numeral, ⟨spelled, readAs.exponentFits⟩, readAs⟩
  · rintro numeral spelled ⟨other, read, -, -, value⟩
    obtain rfl := Numeral.eq_of_isSpelledBy unambiguous spelled
      ((Numeral.read?_eq_some_iff unambiguous).mpr read)
    rw [value, Option.some_inj]
    exact other.rounded_eq_value_iff spelled.allDigits_fraction

theorem read?_integer_of_exponent :
    NumericType.int32.isInteger = true ∧ NumberFormat.invariant.Unambiguous ∧
      ∃ numeral : Numeral, numeral.IsSpelledBy .invariant "-1,250.0e-1" ∧
        numeral.IsReadAs .int32 (.int32 (-125)) :=
  ⟨rfl, by decide, (read?_integer rfl (by decide) "-1,250.0e-1" (.int32 (-125))).1.mp (by decide)⟩

/-- One and a digit in the last of 29 places. -/
def justAboveOne : Numeral := ⟨false, ['1'], List.replicate 28 '0' ++ ['1'], none⟩

theorem not_read?_integer_exact :
    ¬ ∀ {target : NumericType} {format : NumberFormat}, target.isInteger = true →
      format.Unambiguous → ∀ (text : String) (number : Number),
        read? target format text = some number →
          ∀ numeral : Numeral, numeral.IsSpelledBy format text →
            number.value? = some numeral.value := by
  intro always
  have read : read? .int32 .invariant "1.00000000000000000000000000001" = some (.int32 1) := by
    decide
  have spelled : justAboveOne.IsSpelledBy .invariant "1.00000000000000000000000000001" :=
    (Numeral.isSpelledBy_of_read? (by decide)).1
  have value := always rfl (by decide) _ _ read justAboveOne spelled
  have digits : justAboveOne.digits = 10 ^ 29 + 1 := by decide
  have power : justAboveOne.power = -29 := by decide
  have isOne : (int32 1).value? = some 1 := congrArg some Int.cast_one
  rw [isOne, Numeral.value, digits, power] at value
  norm_num [justAboveOne, signed] at value

end Number

end Formula

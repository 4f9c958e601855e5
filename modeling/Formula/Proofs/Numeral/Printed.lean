import Formula.Operators.Standard
import Formula.Proofs.Numeral.Canonical
import Formula.Proofs.Numeral.Mirror

/-!
# Numbers as strings

A number that is no float is written as the canonical text of a numeral.  Canonical text has no
comma and at most one period, so its format is guessed right, unless a lone period shall group
thousands; and it has no more digits than the representation has room for.  The string that a number
is turned into therefore becomes that number again.
-/

namespace Formula

open Lexer (AllDigits)

theorem Text.length_toDigits_pos (value : ℕ) : 0 < (toDigits value).length :=
  List.length_pos_iff.mpr Nat.toDigits_ne_nil

/-! ## Guessing -/

theorem DecimalMark.guessTrimmed_eq_period {text : List Char} (noComma : ',' ∉ text)
    (single : text.count '.' ≤ 1) : guessTrimmed text false = .period := by
  unfold guessTrimmed
  rw [lastOffset?_eq_none_iff.mpr noComma]
  cases lastOffset? '.' text with
  | none => rfl
  | some periodAt =>
      dsimp only
      rw [if_neg (Nat.not_lt.mpr single), Bool.and_false, if_neg Bool.false_ne_true]

namespace Numeral

variable {numeral : Numeral}

theorem guess_canonical (hasDigits : numeral.HasDigits) :
    DecimalMark.guess numeral.canonical false = .period := by
  have visible := (spells_canonical hasDigits ',').visible
  unfold DecimalMark.guess
  rw [Text.trim_of_visible visible]
  apply DecimalMark.guessTrimmed_eq_period (notMem_canonical hasDigits (by decide))
  rw [count_canonical hasDigits]
  split <;> decide

/-! ## Digits at a scale -/

theorem value_of_noExponent (noExponent : numeral.exponent = none) :
    numeral.value =
      signed numeral.negative numeral.digits / (10 ^ numeral.fraction.length : ℕ) := by
  have shift : numeral.power = -(numeral.fraction.length : ℤ) := by
    rw [power, noExponent]
    exact Int.zero_sub _
  rw [value, shift, zpow_neg, zpow_natCast, ← div_eq_mul_inv]
  push_cast
  rfl

/-- The numeral of `± digits / 10 ^ places`, with at least one whole digit. -/
def ofPlaces (negative : Bool) (digits places : ℕ) : Numeral :=
  let padded := List.replicate (places + 1 - (Text.toDigits digits).length) '0' ++
    Text.toDigits digits
  ⟨negative, padded.take (padded.length - places), padded.drop (padded.length - places), none⟩

variable (negative : Bool) (digits places : ℕ)

theorem hasDigits_ofPlaces : (ofPlaces negative digits places).HasDigits := by
  have all : AllDigits (List.replicate (places + 1 - (Text.toDigits digits).length) '0' ++
      Text.toDigits digits) := by
    refine List.forall_mem_append.mpr ⟨fun digit member => ?_, fun digit member => ?_⟩
    · rw [List.eq_of_mem_replicate member]
      rfl
    · exact Text.isDigit_of_mem_toDigits member
  exact ⟨fun digit member => all digit (List.mem_of_mem_take member),
    fun digit member => all digit (List.mem_of_mem_drop member)⟩

theorem digits_ofPlaces : (ofPlaces negative digits places).digits = digits := by
  unfold Numeral.digits ofPlaces
  rw [List.take_append_drop, Text.ofDigits_zeros_append, Text.ofDigits_toDigits]

theorem whole_ofPlaces_ne_nil : (ofPlaces negative digits places).whole ≠ [] := by
  have present := Text.length_toDigits_pos digits
  apply List.ne_nil_of_length_pos
  simp only [ofPlaces, List.length_take, List.length_append, List.length_replicate]
  omega

theorem length_fraction_ofPlaces : (ofPlaces negative digits places).fraction.length = places := by
  simp only [ofPlaces, List.length_drop, List.length_append, List.length_replicate]
  omega

theorem value_ofPlaces : (ofPlaces negative digits places).value =
    signed negative digits / (10 ^ places : ℕ) := by
  have unscaled := @value_of_noExponent (ofPlaces negative digits places) rfl
  rwa [digits_ofPlaces, length_fraction_ofPlaces] at unscaled

theorem padded_ofPlaces :
    (ofPlaces negative digits places).padded = ofPlaces negative digits places := by
  rw [padded, if_neg (whole_ofPlaces_ne_nil negative digits places)]

theorem canonical_ofPlaces : (ofPlaces negative digits places).canonical =
    Text.positional negative digits (-places) := by
  unfold canonical Text.positional
  rw [if_neg (whole_ofPlaces_ne_nil negative digits places)]
  cases places with
  | zero =>
      have present : 1 ≤ (Text.toDigits digits).length := Text.length_toDigits_pos digits
      simp [ofPlaces, exponentText, Nat.sub_eq_zero_of_le present]
  | succ places =>
      have pointed : (ofPlaces negative digits (places + 1)).fraction ≠ [] := by
        apply List.ne_nil_of_length_pos
        rw [length_fraction_ofPlaces]
        exact Nat.succ_pos places
      rw [if_neg pointed, if_neg (by omega), Int.neg_neg, Int.toNat_natCast]
      simp [ofPlaces, exponentText, Text.pointed]

/-! ## Room in a decimal -/

/-- A decimal is read exactly where it has room for all digits. -/
theorem exists_toDecimal? (noExponent : numeral.exponent = none)
    (small : numeral.digits < 2 ^ 96) (short : numeral.fraction.length ≤ 28) :
    ∃ result, numeral.toDecimal? = some result ∧ result.value = numeral.value := by
  have atEnd : Decimal.mantissaAt numeral.whole numeral.fraction numeral.fraction.length =
      numeral.digits := by
    rw [Decimal.mantissaAt, List.take_length, digits]
  have every : numeral.places = numeral.fraction.length := by
    apply le_antisymm places_le_length
    exact Nat.le_findGreatest (le_min short le_rfl) (atEnd ▸ small)
  have nothing : numeral.dropped = [] := by rw [dropped, every, List.drop_length]
  have whole_lt : Text.ofDigits numeral.whole < 2 ^ 96 := by
    have wholeDigits := @Decimal.mantissaAt_zero numeral.whole numeral.fraction
    rw [← wholeDigits]
    exact lt_of_le_of_lt (Decimal.mantissaAt_mono (Nat.zero_le _)) (atEnd ▸ small)
  have notUp : ¬ Decimal.RoundsUp numeral.dropped := by simp [nothing, Decimal.RoundsUp]
  have mantissa : Decimal.roundedMantissa numeral.whole numeral.fraction = numeral.digits := by
    rw [roundedMantissa_eq_kept, if_neg notUp, Nat.add_zero, kept, every, atEnd]
  obtain ⟨result, isResult, -, isValue⟩ :=
    Decimal.ofDigits?_of_lt numeral.negative whole_lt (mantissa ▸ small)
  refine ⟨result, ?_, ?_⟩
  · rw [toDecimal?, isResult, noExponent]
    rfl
  · change result.value = _ / (10 ^ numeral.places : ℕ) at isValue
    rw [isValue, mantissa, every, value_of_noExponent noExponent]

/-- Every decimal has room for its own digits. -/
theorem exists_toDecimal?_ofPlaces (value : Decimal) :
    ∃ result, (ofPlaces value.negative value.mantissa value.scale).toDecimal? = some result ∧
      result.value = value.value := by
  obtain ⟨result, isResult, isValue⟩ :=
    @exists_toDecimal? (ofPlaces value.negative value.mantissa value.scale) rfl
      (by rw [digits_ofPlaces]; exact value.mantissa_lt)
      (by rw [length_fraction_ofPlaces]; exact value.scale_le)
  rw [value_ofPlaces] at isValue
  exact ⟨result, isResult, isValue⟩

/-! ## Integers -/

def ofInt (value : ℤ) : Numeral :=
  ofPlaces (decide (value < 0)) value.natAbs 0

theorem canonical_ofInt (value : ℤ) : (ofInt value).canonical = Text.ofInt value := by
  rw [ofInt, canonical_ofPlaces]
  simp [Text.positional, Text.ofInt]

theorem isPlain_ofInt (value : ℤ) : (ofInt value).IsPlain :=
  ⟨List.eq_nil_of_length_eq_zero (length_fraction_ofPlaces _ _ 0), rfl⟩

theorem value_ofInt (value : ℤ) : (ofInt value).value = value := by
  rw [ofInt, value_ofPlaces, signed_natAbs, Nat.pow_zero, Nat.cast_one, div_one]

theorem toNumber?_ofInt {value : ℤ} {number : Number} (integer : number.type.isInteger = true)
    (isValue : number.value? = some (value : ℚ)) :
    (ofInt value).toNumber? number.type = some number := by
  rw [toNumber?_of_isPlain (isPlain_ofInt value) integer, value_ofInt]
  exact ⟨rfl, isValue⟩

end Numeral

/-! ## Numbers -/

namespace Number

/-- Numbers of one type that have one value are the same, unless they are floats. -/
theorem same_of_value?_eq {left right : Number} (notFloat : left.type.isFloat = false)
    (sameType : left.type = right.type) (sameValue : left.value? = right.value?) :
    left.same right = true := by
  cases left with
  | float32 | float64 => cases notFloat
  | decimal left =>
      cases right with
      | decimal right =>
          have isEqual : left.order right = .eq :=
            Decimal.order_eq_eq_iff.mpr (Option.some.inj sameValue)
          exact beq_iff_eq.mpr isEqual
      | float32 | float64 | int32 | int64 => cases sameType
  | int32 left =>
      cases right with
      | int32 right =>
          have isEqual : left.toInt = right.toInt := by simpa [value?] using sameValue
          exact beq_iff_eq.mpr (compare_eq_iff_eq.mpr isEqual)
      | float32 | float64 | decimal | int64 => cases sameType
  | int64 left =>
      cases right with
      | int64 right =>
          have isEqual : left.toInt = right.toInt := by simpa [value?] using sameValue
          exact beq_iff_eq.mpr (compare_eq_iff_eq.mpr isEqual)
      | float32 | float64 | decimal | int32 => cases sameType

/-- A number that is no float is written as a numeral that becomes the number again. -/
theorem exists_canonical_eq_text {number : Number} (notFloat : number.type.isFloat = false) :
    ∃ negative digits places,
      (Numeral.ofPlaces negative digits places).canonical = number.text ∧
        ∃ result, (Numeral.ofPlaces negative digits places).toNumber? number.type = some result ∧
          result.type = number.type ∧ result.value? = number.value? := by
  cases number with
  | float32 | float64 => cases notFloat
  | decimal value =>
      obtain ⟨result, isResult, isValue⟩ := Numeral.exists_toDecimal?_ofPlaces value.normalize
      refine ⟨_, _, _, Numeral.canonical_ofPlaces _ _ _, .decimal result, ?_, rfl, ?_⟩
      · exact congrArg (Option.map Number.decimal) isResult
      · rw [value?, value?, isValue, Decimal.value_normalize]
  | int32 value =>
      exact ⟨_, _, _, Numeral.canonical_ofInt value.toInt, .int32 value,
        Numeral.toNumber?_ofInt rfl rfl, rfl, rfl⟩
  | int64 value =>
      exact ⟨_, _, _, Numeral.canonical_ofInt value.toInt, .int64 value,
        Numeral.toNumber?_ofInt rfl rfl, rfl, rfl⟩

end Number

/-! ## Conversion -/

namespace Conventions

section

variable {conventions : Conventions} (guessed : conventions.numberFormat = none)
  (notGrouping : conventions.ambiguousAsThousands = false)
include guessed notGrouping

theorem read?_canonical {numeral : Numeral} (hasDigits : numeral.HasDigits)
    (fits : numeral.ExponentFits) (target : NumericType) :
    Number.read? target (conventions.formatOf numeral.canonical) numeral.canonical =
      numeral.padded.toNumber? target := by
  have period : conventions.formatOf numeral.canonical = .invariant := by
    rw [formatOf, guessed, notGrouping, Numeral.guess_canonical hasDigits]
    rfl
  have isRead : Numeral.read? .invariant numeral.canonical = some numeral.padded :=
    (Numeral.read?_eq_some_iff (by decide)).mpr
      ⟨Numeral.isSpelledBy_canonical hasDigits ',', fits⟩
  rw [period, Number.read?, isRead]
  rfl

/-- A number joined to an empty string gives a string that becomes the number again, in the same
type and with the same value. -/
theorem convert_text (parses : conventions.parsesStrings = true) {number : Number}
    (type : number.type = conventions.numericType) (notFloat : number.type.isFloat = false) :
    Standard.add conventions (.string "") (.number number) = .ok (.string number.text) ∧
      ∃ result, conventions.convert (.string number.text) = .number result ∧
        result.type = number.type ∧ result.value? = number.value? ∧
          result.same number = true := by
  obtain ⟨negative, digits, places, isText, result, isResult, sameType, sameValue⟩ :=
    Number.exists_canonical_eq_text notFloat
  have isRead : conventions.readString? number.text = some result := by
    have read := read?_canonical guessed notGrouping
      (Numeral.hasDigits_ofPlaces negative digits places) nofun conventions.numericType
    rw [Numeral.padded_ofPlaces, isText, ← type, isResult] at read
    rw [readString?, ← type, read]
  refine ⟨by simp [Standard.add, Value.text], result, (convert_eq_number_iff parses).mpr isRead,
    sameType, sameValue, Number.same_of_value?_eq ?_ sameType sameValue⟩
  rw [sameType]
  exact notFloat

end

/-- The last place of `-0.1250` is not written. -/
theorem convert_text_of_decimal :
    let number : Number := .decimal ⟨true, 1250, 4, by decide, by decide⟩
    (ofType .decimal).numberFormat = none ∧ (ofType .decimal).ambiguousAsThousands = false ∧
      (ofType .decimal).parsesStrings = true ∧ number.type = (ofType .decimal).numericType ∧
        number.type.isFloat = false ∧ number.text = "-0.125" ∧
          ∃ result, (ofType .decimal).convert (.string "-0.125") = .number result ∧
            result.same number = true := by
  intro number
  have isText : number.text = "-0.125" := by decide
  obtain ⟨-, result, converts, -, -, same⟩ :=
    @convert_text (ofType .decimal) rfl rfl rfl number rfl rfl
  rw [isText] at converts
  exact ⟨rfl, rfl, rfl, rfl, rfl, isText, result, converts, same⟩

/-- On request the period of such a text groups thousands. -/
example : (Conventions.mk .decimal none true true).readString? "1.234" =
    some (.decimal ⟨false, 1234, 0, by decide, by decide⟩) := by
  decide

end Conventions

end Formula

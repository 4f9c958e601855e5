import Formula.Proofs.Numeral.Integer

/-!
# Numeric strings among integers

Where the numbers are integers, a numeric string becomes an integer or a double.  It becomes a
double whenever it is not read as an integer, not only where it spells a fraction: also where the
integer is beyond the type, or has more digits or a greater exponent than a decimal takes.
-/

namespace Formula

open Lexer (AllDigits)

namespace Numeral

variable {numeral : Numeral}

/-! ## Whole numbers -/

theorem abs_value_eq : |numeral.value| = numeral.digits * 10 ^ numeral.power := by
  rw [value, abs_mul, abs_signed, abs_of_pos (by positivity)]

theorem abs_rounded_eq : |numeral.rounded| =
    (Decimal.roundedMantissa numeral.whole numeral.fraction * 10 ^ numeral.dropped.length : ℕ) *
      10 ^ numeral.power := by
  rw [rounded_eq_mul, abs_mul, abs_signed, abs_of_pos (by positivity)]

/-- Digits are dropped for want of places, or of bits after more than 64 are used. -/
theorem room_of_drops (all : AllDigits numeral.fraction) (drops : numeral.dropped ≠ []) :
    numeral.places = Decimal.maxScale ∨ 2 ^ 64 ≤ numeral.kept := by
  have fewer : Decimal.keptPlaces numeral.whole numeral.fraction < numeral.fraction.length := by
    have positive := List.length_pos_of_ne_nil drops
    rw [length_dropped, places] at positive
    omega
  refine (Decimal.room_of_keptPlaces_lt fewer).imp_right fun large => ?_
  have digit_lt := Text.digitValue_lt (all _ (List.getElem_mem fewer))
  rw [Decimal.mantissaAt_succ fewer] at large
  rw [kept, places]
  omega

/-- Where digits are dropped from a number of 64 bits, the point stays before the last place. -/
theorem exponent_le_places (all : AllDigits numeral.fraction) (fits : numeral.FitsDecimal)
    (drops : numeral.dropped ≠ []) {magnitude : ℕ}
    (atLeast : numeral.kept * 10 ^ numeral.dropped.length ≤ magnitude)
    (small : (magnitude : ℚ) * 10 ^ numeral.power < 2 ^ 64) :
    numeral.exponent.getD 0 ≤ numeral.places := by
  rcases numeral.room_of_drops all drops with greatest | wide
  · rw [greatest]
    exact fits.exponent_le
  · by_contra beyond
    have places := numeral.places_le_length
    have shift : (0 : ℤ) ≤ numeral.dropped.length + numeral.power := by
      rw [length_dropped, power]
      omega
    have large : (2 : ℚ) ^ 64 ≤ magnitude * 10 ^ numeral.power := by
      calc (2 : ℚ) ^ 64 ≤ numeral.kept := by exact_mod_cast wide
        _ ≤ numeral.kept * 10 ^ ((numeral.dropped.length : ℤ) + numeral.power) :=
            le_mul_of_one_le_right (Nat.cast_nonneg _) (one_le_zpow₀ (by norm_num) shift)
        _ = (numeral.kept * 10 ^ numeral.dropped.length : ℕ) * 10 ^ numeral.power := by
            rw [zpow_add₀ (by norm_num), zpow_natCast]
            push_cast
            ring
        _ ≤ magnitude * 10 ^ numeral.power := by gcongr
    linarith

/-- The digits behind the last place of a whole number are zeros. -/
theorem dropped_eq_zero_of_whole (all : AllDigits numeral.fraction)
    (within : numeral.exponent.getD 0 ≤ numeral.places) {whole : ℤ}
    (isWhole : numeral.value = whole) : ∀ digit ∈ numeral.dropped, digit = '0' := by
  have allDropped : AllDigits numeral.dropped := fun digit member =>
    all digit (List.mem_of_mem_drop member)
  have places := numeral.places_le_length
  -- All digits together are a multiple of the unit of the last place, and so are those before it.
  obtain ⟨steps, isPower⟩ : ∃ steps : ℕ, numeral.power = -(numeral.dropped.length + steps : ℕ) :=
    ⟨(numeral.places - numeral.exponent.getD 0).toNat, by rw [length_dropped, power]; omega⟩
  have magnitudes : numeral.digits = whole.natAbs * 10 ^ (numeral.dropped.length + steps) := by
    have := numeral.abs_value_eq
    rw [isWhole, isPower, zpow_neg, zpow_natCast, ← div_eq_mul_inv, eq_div_iff (by positivity),
      ← Int.cast_abs, Int.abs_eq_natAbs] at this
    exact_mod_cast this.symm
  have divides : 10 ^ numeral.dropped.length ∣ Text.ofDigits numeral.dropped := by
    rw [← Nat.dvd_add_right (Nat.dvd_mul_right _ numeral.kept), ← digits_eq_kept, magnitudes,
      Nat.pow_add]
    exact (Nat.dvd_mul_right _ _).mul_left _
  rw [← Text.ofDigits_eq_zero_iff allDropped]
  exact Nat.eq_zero_of_dvd_of_lt divides (Text.ofDigits_lt allDropped)

/-- An integer is not rounded on the way to a 64-bit integer. -/
theorem rounded_eq_value_of_whole (all : AllDigits numeral.fraction)
    (accepted : numeral.IsPlain ∨ numeral.FitsDecimal) {whole : ℤ} (isWhole : numeral.value = whole)
    (small : |numeral.rounded| < 2 ^ 64 ∨ |numeral.value| < 2 ^ 64) :
    numeral.rounded = numeral.value := by
  rw [rounded_eq_value_iff all]
  by_cases drops : numeral.dropped = []
  · rw [drops]
    exact nofun
  · have fits : numeral.FitsDecimal := by
      refine accepted.resolve_left fun plain => drops ?_
      rw [dropped, plain.1, List.drop_nil]
    rw [abs_rounded_eq, abs_value_eq] at small
    refine dropped_eq_zero_of_whole all ?_ isWhole
    rcases small with small | small
    · refine exponent_le_places all fits drops (Nat.mul_le_mul_right _ ?_) small
      rw [roundedMantissa_eq_kept]
      exact Nat.le_add_right _ _
    · refine exponent_le_places all fits drops ?_ small
      rw [digits_eq_kept, Nat.mul_comm]
      exact Nat.le_add_right _ _

variable {target : NumericType} {number : Number}

/-- An integer is read as itself or not at all. -/
theorem isReadAs_iff_of_whole (integer : target.isInteger = true)
    (all : AllDigits numeral.fraction) {whole : ℤ} (isWhole : numeral.value = whole) :
    numeral.IsReadAs target number ↔ (numeral.IsPlain ∨ numeral.FitsDecimal) ∧
      number.type = target ∧ number.value? = some (whole : ℚ) := by
  have small {other : ℤ} (bound : other.natAbs < 2 ^ 64) : |(other : ℚ)| < 2 ^ 64 := by
    rw [← Int.cast_abs, Int.abs_eq_natAbs]
    exact_mod_cast bound
  refine and_congr_right fun accepted => and_congr_right ?_
  rintro rfl
  obtain ⟨other, bound, isOther⟩ := Number.exists_intCast integer
  rw [isOther, Option.some_inj, Option.some_inj, ← isWhole]
  constructor
  · intro same
    rw [same, rounded_eq_value_of_whole all accepted isWhole (.inl (same ▸ small bound))]
  · intro same
    rw [same, rounded_eq_value_of_whole all accepted isWhole (.inr (same ▸ small bound))]

/-- What a numeral becomes where the numbers are integers. -/
inductive Becomes (numeral : Numeral) (target : NumericType) : Number → Prop
  | integer {number : Number} (readAs : numeral.IsReadAs target number) :
      numeral.Becomes target number
  | double (noInteger : ∀ number, ¬ numeral.IsReadAs target number)
      (fits : numeral.ExponentFits) : numeral.Becomes target (.float64 numeral.toBinary)

theorem Becomes.exponentFits (becomes : numeral.Becomes target number) : numeral.ExponentFits := by
  cases becomes with
  | integer readAs => exact readAs.exponentFits
  | double _ fits => exact fits

end Numeral

namespace Conventions

variable {conventions : Conventions} (integer : conventions.numericType.isInteger = true)
  (unambiguous : ∀ format ∈ conventions.numberFormat, format.Unambiguous)

include unambiguous in
theorem unambiguous_formatOf (text : String) : (conventions.formatOf text).Unambiguous := by
  unfold formatOf
  cases explicit : conventions.numberFormat with
  | none => exact NumberFormat.unambiguous_of_mark _
  | some format => exact unambiguous format explicit

include integer in
theorem readString?_eq_some_iff {text : String} {number : Number} :
    conventions.readString? text = some number ↔
      ∃ numeral, Numeral.read? (conventions.formatOf text) text = some numeral ∧
        numeral.Becomes conventions.numericType number := by
  have readsAs {number : Number} {numeral : Numeral}
      (isRead : Numeral.read? (conventions.formatOf text) text = some numeral)
      (readAs : numeral.IsReadAs conventions.numericType number) :
      Number.read? conventions.numericType (conventions.formatOf text) text = some number :=
    (Number.read?_eq_some_iff integer).mpr ⟨numeral, isRead, readAs⟩
  unfold readString?
  dsimp only
  cases read : Number.read? conventions.numericType (conventions.formatOf text) text with
  | some value =>
      constructor
      · rintro ⟨⟩
        obtain ⟨numeral, isRead, readAs⟩ := (Number.read?_eq_some_iff integer).mp read
        exact ⟨numeral, isRead, .integer readAs⟩
      · rintro ⟨numeral, isRead, becomes⟩
        cases becomes with
        | integer readAs => exact read.symm.trans (readsAs isRead readAs)
        | double noInteger =>
            obtain ⟨other, isRead', readAs⟩ := (Number.read?_eq_some_iff integer).mp read
            obtain rfl : numeral = other := Option.some.inj (isRead.symm.trans isRead')
            cases noInteger value readAs
  | none =>
      dsimp only
      rw [if_pos integer, Number.read?]
      constructor
      · intro double
        obtain ⟨numeral, isRead, ⟨⟩⟩ := Option.bind_eq_some_iff.mp double
        refine ⟨numeral, isRead, .double ?_ (Numeral.isSpelledBy_of_read? isRead).2⟩
        intro number readAs
        rw [readsAs isRead readAs] at read
        cases read
      · rintro ⟨numeral, isRead, becomes⟩
        cases becomes with
        | integer readAs =>
            rw [readsAs isRead readAs] at read
            cases read
        | double => exact Option.bind_eq_some_iff.mpr ⟨numeral, isRead, rfl⟩

include integer unambiguous in
theorem readString?_eq_some_iff_spelled {text : String} {number : Number} :
    conventions.readString? text = some number ↔
      ∃ numeral : Numeral, numeral.IsSpelledBy (conventions.formatOf text) text ∧
        numeral.Becomes conventions.numericType number := by
  simp only [readString?_eq_some_iff integer,
    Numeral.read?_eq_some_iff (unambiguous_formatOf unambiguous text), and_assoc]
  refine exists_congr fun numeral => and_congr_right fun _ => ?_
  exact ⟨And.right, fun becomes => ⟨becomes.exponentFits, becomes⟩⟩

theorem convert_of_readString?_eq_some (parses : conventions.parsesStrings = true) {text : String}
    {number : Number} (read : conventions.readString? text = some number) :
    conventions.convert (.string text) = .number number := by
  simp only [convert, parses, if_true, read]

theorem convert_of_readString?_eq_none {text : String}
    (notRead : conventions.readString? text = none) :
    conventions.convert (.string text) = .string text := by
  simp only [convert, notRead, ite_self]

theorem convert_eq_number_iff (parses : conventions.parsesStrings = true) {text : String}
    {number : Number} :
    conventions.convert (.string text) = .number number ↔
      conventions.readString? text = some number := by
  cases read : conventions.readString? text with
  | none => simp [convert_of_readString?_eq_none read]
  | some value => simp [convert_of_readString?_eq_some parses read]

include integer unambiguous in
/-- What becomes of a string among integers: first in general, and then of one that spells an
integer.  That one is kept as it is spelled wherever the type has it and a decimal has room for its
digits; otherwise it becomes a double, or stays a string if its exponent is too large. -/
theorem convert_numericString (parses : conventions.parsesStrings = true) (text : String) :
    (∀ number, conventions.convert (.string text) = .number number ↔
      ∃ numeral : Numeral, numeral.IsSpelledBy (conventions.formatOf text) text ∧
        numeral.Becomes conventions.numericType number) ∧
    ((∀ number, conventions.convert (.string text) ≠ .number number) →
      conventions.convert (.string text) = .string text) ∧
    ∀ numeral : Numeral, numeral.IsSpelledBy (conventions.formatOf text) text →
      ∀ whole : ℤ, numeral.value = whole →
        (∀ number : Number, number.type = conventions.numericType →
          number.value? = some (whole : ℚ) → numeral.IsPlain ∨ numeral.FitsDecimal →
            conventions.convert (.string text) = .number number) ∧
        ((∀ number : Number, number.type = conventions.numericType →
          number.value? ≠ some (whole : ℚ)) ∨ ¬ (numeral.IsPlain ∨ numeral.FitsDecimal) →
            conventions.convert (.string text) =
              if numeral.ExponentFits then .number (.float64 numeral.toBinary)
              else .string text) := by
  have becomes_iff {number : Number} : conventions.convert (.string text) = .number number ↔
      ∃ numeral : Numeral, numeral.IsSpelledBy (conventions.formatOf text) text ∧
        numeral.Becomes conventions.numericType number :=
    (convert_eq_number_iff parses).trans (readString?_eq_some_iff_spelled integer unambiguous)
  have unchanged (noNumber : ∀ number, conventions.convert (.string text) ≠ .number number) :
      conventions.convert (.string text) = .string text := by
    apply convert_of_readString?_eq_none
    rw [Option.eq_none_iff_forall_ne_some]
    exact fun number read => noNumber number ((convert_eq_number_iff parses).mpr read)
  refine ⟨fun _ => becomes_iff, unchanged, fun numeral spelled whole isWhole => ⟨?_, ?_⟩⟩
  · intro number isInteger value accepted
    have readAs := (Numeral.isReadAs_iff_of_whole integer spelled.allDigits_fraction isWhole).mpr
      ⟨accepted, isInteger, value⟩
    exact becomes_iff.mpr ⟨numeral, spelled, .integer readAs⟩
  · intro none_
    have noInteger (number : Number) : ¬ numeral.IsReadAs conventions.numericType number := by
      rw [Numeral.isReadAs_iff_of_whole integer spelled.allDigits_fraction isWhole]
      rintro ⟨accepted, isInteger, value⟩
      exact none_.elim (fun absent => absent number isInteger value) (· accepted)
    split
    · next fits => exact becomes_iff.mpr ⟨numeral, spelled, .double noInteger fits⟩
    · next beyond =>
        refine unchanged fun number converted => ?_
        rw [convert_eq_number_iff parses, readString?_eq_some_iff integer] at converted
        obtain ⟨other, isRead, becomes⟩ := converted
        obtain rfl :=
          Numeral.eq_of_isSpelledBy (unambiguous_formatOf unambiguous text) spelled isRead
        exact beyond becomes.exponentFits

/-- The numeral of `1,000`. -/
def thousand : Numeral := ⟨false, "1000".toList, [], none⟩

theorem convert_numericString_of_grouped :
    (Conventions.ofType .int32).numericType.isInteger = true ∧
      (∀ format ∈ (Conventions.ofType .int32).numberFormat, format.Unambiguous) ∧
        (Conventions.ofType .int32).parsesStrings = true ∧
          (Conventions.ofType .int32).convert (.string "1,000") = .number (.int32 1000) := by
  have guessed : ∀ format ∈ (Conventions.ofType .int32).numberFormat, format.Unambiguous := by
    rintro _ ⟨⟩
  have spelled : thousand.IsSpelledBy ((Conventions.ofType .int32).formatOf "1,000") "1,000" :=
    (Numeral.isSpelledBy_of_read? (by decide)).1
  have digits : thousand.digits = 1000 := by decide
  have power : thousand.power = 0 := by decide
  have isWhole : thousand.value = (1000 : ℤ) := by
    rw [Numeral.value, digits, power]
    norm_num [thousand, signed]
  exact ⟨rfl, guessed, rfl,
    ((convert_numericString rfl guessed rfl "1,000").2.2 _ spelled 1000 isWhole).1
      (.int32 1000) rfl rfl (.inl (by decide))⟩

/-- The integer after 2 ^ 53, which no double is equal to. -/
def afterTwoPow53 : Numeral := ⟨false, "9007199254740993".toList, [], none⟩

theorem not_convert_numericString_exact :
    ¬ ∀ conventions : Conventions, conventions.numericType.isInteger = true →
      conventions.parsesStrings = true →
        (∀ format ∈ conventions.numberFormat, format.Unambiguous) →
          ∀ (text : String) (value : Double),
            conventions.convert (.string text) = .number (.float64 value) →
              ∀ numeral : Numeral, numeral.IsSpelledBy (conventions.formatOf text) text →
                ∀ whole : ℤ, numeral.value ≠ whole := by
  intro always
  have converted : (Conventions.ofType .int32).convert (.string "9007199254740993") =
      .number (.float64 afterTwoPow53.toBinary) :=
    (convert_eq_number_iff rfl).mpr (by decide)
  have spelled : afterTwoPow53.IsSpelledBy
      ((Conventions.ofType .int32).formatOf "9007199254740993") "9007199254740993" :=
    (Numeral.isSpelledBy_of_read? (by decide)).1
  have digits : afterTwoPow53.digits = 9007199254740993 := by decide
  have power : afterTwoPow53.power = 0 := by decide
  refine always _ rfl rfl (by rintro _ ⟨⟩) _ _ converted afterTwoPow53 spelled 9007199254740993 ?_
  rw [Numeral.value, digits, power]
  norm_num [afterTwoPow53, signed]

end Conventions

end Formula

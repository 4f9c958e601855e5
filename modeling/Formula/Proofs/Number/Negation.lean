import Formula.Number.Arithmetic
import Formula.Proofs.Binary.Exactness

/-!
# Adding what was subtracted from zero

Subtracting a number from the zero of an integer type gives a number that adds as the first one
subtracts.  It fails to do so where the zero widens the result, where the least integer has no
opposite before it is promoted, where a zero shows its sign, and where a decimal cannot be made of
the number, since then the error names it.
-/

namespace Formula

/-! ## Opposites in one representation -/

/-- What is left of a float that was subtracted from a positive zero: its opposite, or itself when
it is the positive zero. -/
def Binary.Offsets {format : Binary.Format} (value opposite : Binary format) : Prop :=
  opposite = value.neg ∨ value = zero false ∧ opposite = zero false

namespace Binary.Offsets

variable {format : Format} {value opposite : Binary format}

theorem zero_sub (value : Binary format) : value.Offsets ((zero false).sub value) := by
  cases isZero : value.isZero with
  | false =>
      have notZero : value.neg.isZero = false := by
        cases value <;> exact isZero
      exact .inl (zero_add_of_not_isZero notZero)
  | true =>
      obtain ⟨negative, rfl⟩ := eq_zero_of_isZero isZero
      have total : (zero false : Binary format).sub (zero negative) = zero false := by
        simp [sub, add, neg, zero, aligned, signed]
      cases negative with
      | false => exact .inr ⟨rfl, total⟩
      | true => exact .inl total

theorem convert (offsets : value.Offsets opposite) (target : Format) :
    (value.convert target).Offsets (opposite.convert target) := by
  rcases offsets with rfl | ⟨rfl, rfl⟩
  · exact .inl (convert_neg target value)
  · exact .inr ⟨convert_zero target false, convert_zero target false⟩

theorem ofInt (value : Int) : (Binary.ofInt value : Binary format).Offsets (.ofInt (-value)) := by
  by_cases nonzero : value = 0
  · subst nonzero
    exact .inr ⟨ofInt_zero, ofInt_zero⟩
  · exact .inl (ofInt_neg nonzero)

/-- A negative zero on the left tells a positive zero from its opposite. -/
theorem add_sub (offsets : value.Offsets opposite) {left : Binary format}
    (apart : left = zero true → value ≠ zero false) :
    left.add opposite = left.sub value ∧ left.sub opposite = left.add value := by
  rcases offsets with rfl | ⟨rfl, rfl⟩
  · exact ⟨rfl, by rw [sub, neg_neg]⟩
  · have notNegativeZero : left ≠ zero true := fun same => apart same rfl
    exact ⟨add_zero_eq notNegativeZero _ _, add_zero_eq notNegativeZero _ _⟩

end Binary.Offsets

namespace Decimal

theorem neg_neg (value : Decimal) : value.neg.neg = value := by
  unfold neg
  split
  · rfl
  · simp

theorem ofInt64_of_toInt_eq_neg {value opposite : Int64} (negated : opposite.toInt = -value.toInt) :
    ofInt64 opposite = (ofInt64 value).neg := by
  by_cases nonzero : value.toInt = 0
  · simp [ofInt64, neg, negated, nonzero]
  · have sign : decide (0 < value.toInt) = !decide (value.toInt < 0) := by
      rw [← decide_not]
      exact decide_eq_decide.mpr (by omega)
    simp [ofInt64, neg, negated, nonzero, sign]

theorem dropPlaces_eq_zero {mantissa scale : Nat} (dropped : (dropPlaces mantissa scale).1 = 0) :
    mantissa = 0 := by
  induction scale generalizing mantissa with
  | zero => exact dropped
  | succ scale ih =>
      unfold dropPlaces at dropped
      split at dropped
      · have := ih dropped
        omega
      · exact dropped

theorem normalize_not {mantissa scale : Nat} {bounds : mantissa < 2 ^ (96 : Nat)}
    {places : scale ≤ 28} (negative : Bool) :
    normalize ⟨!negative, mantissa, scale, bounds, places⟩ =
      (normalize ⟨negative, mantissa, scale, bounds, places⟩).neg := by
  by_cases nonzero : mantissa = 0
  · subst nonzero
    have vanished : (dropPlaces 0 scale).1 = 0 := by
      have := (dropPlaces_le 0 scale).1
      omega
    simp [normalize, neg, vanished]
  · have remains : (dropPlaces mantissa scale).1 ≠ 0 := fun dropped =>
      nonzero (dropPlaces_eq_zero dropped)
    have present : (mantissa != 0) = true := by simpa using nonzero
    simp [normalize, neg, present, remains]

theorem ofDouble?_neg {value : Double} {converted : Decimal}
    (converts : ofDouble? value = some converted) : ofDouble? value.neg = some converted.neg := by
  cases value with
  | nan => cases converts
  | infinity => cases converts
  | finite negative significand exponent admitted =>
      unfold ofDouble? at converts
      unfold Binary.neg ofDouble?
      dsimp only at converts ⊢
      split at converts
      · next vanished =>
          cases converts
          simp only [vanished, if_true]
          rfl
      · next present =>
          simp only [present, if_false]
          obtain ⟨scaled, multiplied, converts⟩ := Option.bind_eq_some_iff.mp converts
          obtain ⟨mantissa, shifted, converts⟩ := Option.bind_eq_some_iff.mp converts
          obtain ⟨made, isMade, rfl⟩ := Option.map_eq_some_iff.mp converts
          refine Option.bind_eq_some_iff.mpr ⟨scaled, multiplied,
            Option.bind_eq_some_iff.mpr ⟨mantissa, shifted, ?_⟩⟩
          unfold make? at isMade ⊢
          split at isMade
          · next bounds =>
              cases isMade
              rw [dif_pos bounds, Option.map_some, normalize_not]
          · cases isMade

end Decimal

namespace Number

/-! ## Opposites of matched numbers -/

/-- The same left number, and on the right the opposite as far as the left one can tell. -/
inductive Matched.Offset : Matched → Matched → Prop
  | float32 {left right opposite : Single} (offsets : right.Offsets opposite)
      (apart : left = .zero true → right ≠ .zero false) :
      Offset (.float32 left right) (.float32 left opposite)
  | float64 {left right opposite : Double} (offsets : right.Offsets opposite)
      (apart : left = .zero true → right ≠ .zero false) :
      Offset (.float64 left right) (.float64 left opposite)
  | decimal (left right : Decimal) : Offset (.decimal left right) (.decimal left right.neg)
  | int32 (left right : Int32) : Offset (.int32 left right) (.int32 left (-right))
  | int64 (left right : Int64) : Offset (.int64 left right) (.int64 left (-right))

/-- Meeting the number or its opposite fails in the same way or makes opposites of them. -/
def Meets (left right opposite : Number) : Prop :=
  (∃ error, left.unify right = .error error ∧ left.unify opposite = .error error) ∨
    ∃ matched matched', left.unify right = .ok matched ∧ left.unify opposite = .ok matched' ∧
      matched.Offset matched'

theorem decimalOr_eq {operator operator' : String} {result : Option Decimal}
    (noOverflow : decimalOr operator result ≠ .error (.overflow operator)) :
    decimalOr operator' result = decimalOr operator result := by
  cases result with
  | none => exact absurd rfl noOverflow
  | some => rfl

variable {left right opposite : Number}

theorem Meets.add_eq_sub (meets : Meets left right opposite)
    (noOverflow : left.sub right ≠ .error (.overflow "-")) :
    left.add opposite = left.sub right := by
  rcases meets with ⟨error, failed, failed'⟩ | ⟨matched, matched', unified, unified', offset⟩
  · simp only [add, sub, failed, failed']
    rfl
  · simp only [add, sub, unified, unified', bind, Except.bind] at noOverflow ⊢
    cases offset with
    | float32 offsets apart => exact congrArg (Except.ok ∘ float32) (offsets.add_sub apart).1
    | float64 offsets apart => exact congrArg (Except.ok ∘ float64) (offsets.add_sub apart).1
    | decimal left right => exact decimalOr_eq noOverflow
    | int32 left right => simp only [Int32.sub_eq_add_neg]
    | int64 left right => simp only [Int64.sub_eq_add_neg]

theorem Meets.sub_eq_add (meets : Meets left right opposite)
    (noOverflow : left.add right ≠ .error (.overflow "+")) :
    left.sub opposite = left.add right := by
  rcases meets with ⟨error, failed, failed'⟩ | ⟨matched, matched', unified, unified', offset⟩
  · simp only [add, sub, failed, failed']
    rfl
  · simp only [add, sub, unified, unified', bind, Except.bind] at noOverflow ⊢
    cases offset with
    | float32 offsets apart => exact congrArg (Except.ok ∘ float32) (offsets.add_sub apart).2
    | float64 offsets apart => exact congrArg (Except.ok ∘ float64) (offsets.add_sub apart).2
    | decimal left right =>
        simp only [Decimal.sub?, Decimal.neg_neg]
        exact decimalOr_eq noOverflow
    | int32 left right => simp [Int32.sub_eq_add_neg]
    | int64 left right => simp [Int64.sub_eq_add_neg]

/-! ## Where the difference to zero is an opposite -/

/-- An integer that is its own opposite and not zero. -/
def IsLeastInteger : Number → Prop
  | .int32 value => value = Int32.minValue
  | .int64 value => value = Int64.minValue
  | _ => False

def IsNegativeZero : Number → Prop
  | .float32 value => value = .zero true
  | .float64 value => value = .zero true
  | _ => False

/-- Subtracting the right number from the zero of the type first makes no difference to the left
one. -/
structure Offsettable (target : NumericType) (left right : Number) : Prop where
  notWidened : target.rank ≤ max left.type.rank right.type.rank
  hasOpposite : target.rank ≤ right.type.rank → right.type.rank < left.type.rank →
    ¬ right.IsLeastInteger
  hidesSign : left.IsNegativeZero → right.isZero = true →
    right.IsNegativeZero ∨ right.type = .decimal
  convertible : left.type = .decimal →
    right.isNaN = true ∨ ∃ value, right.toDecimal = .ok value

/-! ## Decimals on the right -/

theorem unify_decimal_right (left : Number) (right : Decimal) :
    left.unify (.decimal right) = left.toDecimal.map (Matched.decimal · right) := by
  cases left <;> rfl

theorem meets_decimal (left : Number) (right : Decimal) :
    Meets left (.decimal right) (.decimal right.neg) := by
  unfold Meets
  rw [unify_decimal_right, unify_decimal_right]
  cases left.toDecimal with
  | error error => exact .inl ⟨error, rfl, rfl⟩
  | ok left => exact .inr ⟨_, _, rfl, rfl, .decimal left right⟩

/-! ## Floats on the right -/

section Floats

variable {value opposite : Double}

theorem doubleToDecimal_of_offsets (offsets : value.Offsets opposite)
    (convertible : value.isNaN = true ∨ ∃ converted, doubleToDecimal value = .ok converted) :
    (∃ error, doubleToDecimal value = .error error ∧ doubleToDecimal opposite = .error error) ∨
      ∃ converted, doubleToDecimal value = .ok converted ∧
        doubleToDecimal opposite = .ok converted.neg := by
  rcases convertible with isNaN | ⟨converted, converts⟩
  · obtain rfl : value = .nan := by
      cases value with
      | nan => rfl
      | infinity | finite => cases isNaN
    rcases offsets with rfl | ⟨isZero, -⟩
    · exact .inl ⟨_, rfl, rfl⟩
    · cases isZero
  · refine .inr ⟨converted, converts, ?_⟩
    rcases offsets with rfl | ⟨rfl, rfl⟩
    · cases inRange : Decimal.ofDouble? value with
      | none =>
          rw [doubleToDecimal, inRange] at converts
          cases converts
      | some made =>
          rw [doubleToDecimal, inRange] at converts
          cases converts
          rw [doubleToDecimal, Decimal.ofDouble?_neg inRange]
          rfl
    · cases converts
      rfl

theorem meets_decimal_of_offsets {right opposite' : Number} (left : Decimal)
    (converts : right.toDecimal = doubleToDecimal value)
    (converts' : opposite'.toDecimal = doubleToDecimal opposite) (offsets : value.Offsets opposite)
    (convertible : value.isNaN = true ∨ ∃ converted, doubleToDecimal value = .ok converted) :
    Meets (.decimal left) right opposite' := by
  have unified (right : Number) : (Number.decimal left).unify right =
      right.toDecimal.map (Matched.decimal left ·) := by
    cases right <;> rfl
  unfold Meets
  rw [unified, unified, converts, converts']
  rcases doubleToDecimal_of_offsets offsets convertible with
    ⟨error, failed, failed'⟩ | ⟨converted, converted', converted''⟩
  · exact .inl ⟨error, by rw [failed]; rfl, by rw [failed']; rfl⟩
  · exact .inr ⟨_, _, by rw [converted']; rfl, by rw [converted'']; rfl, .decimal left converted⟩

theorem Offsettable.float64_apart {left : Number} {target : NumericType}
    (offsettable : Offsettable target left (.float64 value)) (negativeZero : left.IsNegativeZero) :
    value ≠ .zero false := by
  rintro rfl
  rcases offsettable.hidesSign negativeZero rfl with same | decimal
  · cases same
  · cases decimal

theorem Offsettable.float32_apart {left : Number} {target : NumericType} {value : Single}
    (offsettable : Offsettable target left (.float32 value)) (negativeZero : left.IsNegativeZero) :
    value ≠ .zero false := by
  rintro rfl
  rcases offsettable.hidesSign negativeZero rfl with same | decimal
  · cases same
  · cases decimal

theorem meets_float64 {left : Number} {target : NumericType} (offsets : value.Offsets opposite)
    (offsettable : Offsettable target left (.float64 value)) :
    Meets left (.float64 value) (.float64 opposite) := by
  have ofInt_apart (whole : Int) : (Binary.ofInt whole : Double) = .zero true →
      value ≠ .zero false :=
    fun same => absurd same (Binary.ofInt_ne_zero_true (by decide) whole)
  cases left with
  | float32 left =>
      refine .inr ⟨_, _, rfl, rfl, .float64 offsets fun same => ?_⟩
      exact offsettable.float64_apart (Binary.eq_zero_of_convert (by decide) same)
  | float64 left => exact .inr ⟨_, _, rfl, rfl, .float64 offsets offsettable.float64_apart⟩
  | decimal left =>
      exact meets_decimal_of_offsets left rfl rfl offsets (offsettable.convertible rfl)
  | int32 left | int64 left => exact .inr ⟨_, _, rfl, rfl, .float64 offsets (ofInt_apart _)⟩

theorem meets_float32 {left : Number} {target : NumericType} {value opposite : Single}
    (offsets : value.Offsets opposite) (offsettable : Offsettable target left (.float32 value)) :
    Meets left (.float32 value) (.float32 opposite) := by
  have ofInt_apart (whole : Int) : (Binary.ofInt whole : Single) = .zero true →
      value ≠ .zero false :=
    fun same => absurd same (Binary.ofInt_ne_zero_true (by decide) whole)
  cases left with
  | float32 left => exact .inr ⟨_, _, rfl, rfl, .float32 offsets offsettable.float32_apart⟩
  | float64 left =>
      refine .inr ⟨_, _, rfl, rfl, .float64 (offsets.convert _) fun same vanished => ?_⟩
      exact offsettable.float32_apart same (Binary.eq_zero_of_convert (by decide) vanished)
  | decimal left =>
      refine meets_decimal_of_offsets left rfl rfl (offsets.convert .double) ?_
      rcases offsettable.convertible rfl with isNaN | converts
      · cases value with
        | nan => exact .inl rfl
        | infinity | finite => cases isNaN
      · exact .inr converts
  | int32 left | int64 left => exact .inr ⟨_, _, rfl, rfl, .float32 offsets (ofInt_apart _)⟩

end Floats

/-! ## Integers on the right -/

section Integers

variable {left : Number} {target : NumericType}

/-- The integer that a number of an integer type is. -/
inductive IsWhole : Number → Int → Prop
  | int32 (value : Int32) : IsWhole (.int32 value) value.toInt
  | int64 (value : Int64) : IsWhole (.int64 value) value.toInt

theorem meets_whole {right opposite : Number} {value : Int} (whole : right.IsWhole value)
    (whole' : opposite.IsWhole (-value)) (notInteger : left.type.isInteger = false)
    (apart : left.IsNegativeZero → value ≠ 0) : Meets left right opposite := by
  have ofInt_apart {format : Binary.Format} (nonzero : value ≠ 0)
      (starts : format.minExponent ≤ 0) :
      (Binary.ofInt value : Binary format) ≠ .zero false :=
    Binary.ofScaled_ne_zero (Int.natAbs_ne_zero.mpr nonzero) starts _ _
  cases left with
  | float32 left =>
      have toSingle {number : Number} {value : Int} (whole : number.IsWhole value) :
          (Number.float32 left).unify number = .ok (.float32 left (.ofInt value)) := by
        cases whole <;> rfl
      exact .inr ⟨_, _, toSingle whole, toSingle whole', .float32 (.ofInt value) fun same =>
        ofInt_apart (apart same) (by decide)⟩
  | float64 left =>
      have toDouble {number : Number} {value : Int} (whole : number.IsWhole value) :
          (Number.float64 left).unify number = .ok (.float64 left (.ofInt value)) := by
        cases whole <;> rfl
      exact .inr ⟨_, _, toDouble whole, toDouble whole', .float64 (.ofInt value) fun same =>
        ofInt_apart (apart same) (by decide)⟩
  | decimal left =>
      have toDecimal {number : Number} {value : Int} (whole : number.IsWhole value) :
          ∃ same : Int64, same.toInt = value ∧
            (Number.decimal left).unify number = .ok (.decimal left (.ofInt64 same)) := by
        cases whole with
        | int32 value => exact ⟨value.toInt64, value.toInt_toInt64, rfl⟩
        | int64 value => exact ⟨value, rfl, rfl⟩
      obtain ⟨right, rfl, unified⟩ := toDecimal whole
      obtain ⟨opposite, negated, unified'⟩ := toDecimal whole'
      rw [Decimal.ofInt64_of_toInt_eq_neg negated] at unified'
      exact .inr ⟨_, _, unified, unified', .decimal left _⟩
  | int32 | int64 => cases notInteger

theorem toInt_neg_int64 {value : Int64} (notLeast : value ≠ Int64.minValue) :
    (-value).toInt = -value.toInt := by
  have lower : Int64.minValue.toInt < value.toInt :=
    Int.lt_iff_le_and_ne.mpr
      ⟨value.minValue_le_toInt, fun same => notLeast (Int64.toInt.inj same.symm)⟩
  have upper := value.toInt_lt
  have least : Int64.minValue.toInt = -2 ^ 63 := by decide
  rw [Int64.toInt_neg, Int.bmod_eq_of_le (by omega) (by omega)]

theorem toInt_neg_int32 {value : Int32} (notLeast : value ≠ Int32.minValue) :
    (-value).toInt = -value.toInt := by
  have lower : Int32.minValue.toInt < value.toInt :=
    Int.lt_iff_le_and_ne.mpr
      ⟨value.minValue_le_toInt, fun same => notLeast (Int32.toInt.inj same.symm)⟩
  have upper := value.toInt_lt
  have least : Int32.minValue.toInt = -2 ^ 31 := by decide
  rw [Int32.toInt_neg, Int.bmod_eq_of_le (by omega) (by omega)]

theorem Offsettable.whole_apart {right : Number} {value : Int} (whole : right.IsWhole value)
    (offsettable : Offsettable target left right) (negativeZero : left.IsNegativeZero) :
    value ≠ 0 := by
  intro isZero
  cases whole with
  | int32 value =>
      obtain rfl : value = 0 := Int32.toInt.inj isZero
      rcases offsettable.hidesSign negativeZero rfl with none | decimal
      · exact none
      · cases decimal
  | int64 value =>
      obtain rfl : value = 0 := Int64.toInt.inj isZero
      rcases offsettable.hidesSign negativeZero rfl with none | decimal
      · exact none
      · cases decimal

end Integers

/-! ## All numbers -/

/-- Behind the zero of its own type an integer wraps around, so only promotion shows that the least
one has no opposite. -/
theorem meets_neg_int32 {left : Number} {value : Int32}
    (offsettable : Offsettable .int32 left (.int32 value)) :
    Meets left (.int32 value) (.int32 (-value)) := by
  have hasOpposite (wider : 0 < left.type.rank) : value ≠ Int32.minValue :=
    offsettable.hasOpposite (Nat.le_refl _) wider
  cases left with
  | int32 left => exact .inr ⟨_, _, rfl, rfl, .int32 left value⟩
  | int64 left =>
      have negated : (-value).toInt64 = -value.toInt64 :=
        Int32.toInt64_neg_of_ne (hasOpposite (by simp [type, NumericType.rank]))
      refine .inr ⟨_, _, rfl, rfl, ?_⟩
      rw [negated]
      exact .int64 left value.toInt64
  | float32 | float64 | decimal =>
      have opposite := IsWhole.int32 (-value)
      rw [toInt_neg_int32 (hasOpposite (by simp [type, NumericType.rank]))] at opposite
      exact meets_whole (.int32 value) opposite rfl (offsettable.whole_apart (.int32 value))

theorem meets_neg_int64 {left : Number} {target : NumericType} {value : Int64}
    (integer : target.isInteger = true) (offsettable : Offsettable target left (.int64 value)) :
    Meets left (.int64 value) (.int64 (-value)) := by
  have rank_le : target.rank ≤ 1 := by
    cases target with
    | int32 | int64 => decide
    | float32 | float64 | decimal => cases integer
  have hasOpposite (wider : 1 < left.type.rank) : value ≠ Int64.minValue :=
    offsettable.hasOpposite rank_le wider
  cases left with
  | int32 | int64 => exact .inr ⟨_, _, rfl, rfl, .int64 _ value⟩
  | float32 | float64 | decimal =>
      have opposite := IsWhole.int64 (-value)
      rw [toInt_neg_int64 (hasOpposite (by simp [type, NumericType.rank]))] at opposite
      exact meets_whole (.int64 value) opposite rfl (offsettable.whole_apart (.int64 value))

/-- Behind the zero of the larger type even the least integer has an opposite. -/
theorem meets_widened_neg {left : Number} {value : Int32}
    (offsettable : Offsettable .int64 left (.int32 value)) :
    Meets left (.int32 value) (.int64 (-value.toInt64)) := by
  have bounds : -2 ^ 31 ≤ value.toInt ∧ value.toInt < 2 ^ 31 := ⟨value.le_toInt, value.toInt_lt⟩
  have hasOpposite : value.toInt64 ≠ Int64.minValue := by
    intro same
    have same := congrArg Int64.toInt same
    have least : Int64.minValue.toInt = -2 ^ 63 := by decide
    rw [Int32.toInt_toInt64, least] at same
    omega
  cases left with
  | int32 => exact absurd offsettable.notWidened (by simp [type, NumericType.rank])
  | int64 left => exact .inr ⟨_, _, rfl, rfl, .int64 left value.toInt64⟩
  | float32 | float64 | decimal =>
      have opposite := IsWhole.int64 (-value.toInt64)
      rw [toInt_neg_int64 hasOpposite, Int32.toInt_toInt64] at opposite
      exact meets_whole (.int32 value) opposite rfl (offsettable.whole_apart (.int32 value))

theorem exists_zero_sub {target : NumericType} (integer : target.isInteger = true)
    (right : Number) :
    ∃ opposite, (zero target).sub right = .ok opposite ∧
      ∀ left, Offsettable target left right → Meets left right opposite := by
  have isInteger : target = .int32 ∨ target = .int64 := by
    cases target with
    | int32 => exact .inl rfl
    | int64 => exact .inr rfl
    | float32 | float64 | decimal => cases integer
  have zero_sub_int64 (value : Int64) :
      (zero target).sub (.int64 value) = .ok (.int64 (-value)) := by
    rw [← Int64.zero_sub]
    rcases isInteger with rfl | rfl <;> rfl
  cases right with
  | decimal value =>
      refine ⟨.decimal value.neg, ?_, fun left _ => meets_decimal left value⟩
      rcases isInteger with rfl | rfl <;> rfl
  | float32 value =>
      refine ⟨.float32 ((Binary.zero false).sub value), ?_, fun left =>
        meets_float32 (.zero_sub value)⟩
      rw [← Binary.ofInt_zero]
      rcases isInteger with rfl | rfl <;> rfl
  | float64 value =>
      refine ⟨.float64 ((Binary.zero false).sub value), ?_, fun left =>
        meets_float64 (.zero_sub value)⟩
      rw [← Binary.ofInt_zero]
      rcases isInteger with rfl | rfl <;> rfl
  | int64 value => exact ⟨_, zero_sub_int64 value, fun left => meets_neg_int64 integer⟩
  | int32 value =>
      rcases isInteger with rfl | rfl
      · refine ⟨.int32 (-value), ?_, fun left => meets_neg_int32⟩
        rw [← Int32.zero_sub]
        rfl
      · refine ⟨.int64 (-value.toInt64), ?_, fun left => meets_widened_neg⟩
        rw [← Int64.zero_sub]
        rfl

end Number

end Formula

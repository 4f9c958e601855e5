import Formula.Proofs.Number.Representation
import Formula.Proofs.Number.Value

/-!
# Promotion

Two numbers meet in the type of the operand with the higher rank.  Casting both of them there gives
two numbers of one representation, and these are the ones that arithmetic takes.  Promotion fails
only for a float that decimals cannot hold, whichever operand it is, and without floats it changes
no value.
-/

namespace Formula

/-! ## Ranks -/

namespace NumericType

variable {left right : NumericType}

theorem promoted_comm (left right : NumericType) : right.promoted left = left.promoted right := by
  cases left <;> cases right <;> rfl

theorem promoted_eq_or (left right : NumericType) :
    left.promoted right = left ∨ left.promoted right = right := by
  unfold promoted
  split
  · exact .inr rfl
  · exact .inl rfl

theorem rank_le_promoted (left right : NumericType) :
    left.rank ≤ (left.promoted right).rank ∧ right.rank ≤ (left.promoted right).rank := by
  unfold promoted
  split <;> omega

theorem isFloat_promoted (leftExact : left.isFloat = false) (rightExact : right.isFloat = false) :
    (left.promoted right).isFloat = false := by
  rcases left.promoted_eq_or right with same | same
  · rw [same, leftExact]
  · rw [same, rightExact]

theorem isInteger_of_promoted (meets : left.promoted right = .int64) :
    left.isInteger = true ∧ right.isInteger = true := by
  have isInteger {type : NumericType} (low : type.rank ≤ rank .int64) : type.isInteger = true := by
    cases type with
    | int32 | int64 => rfl
    | float32 | float64 | decimal => contradiction
  have ⟨leftRank, rightRank⟩ := rank_le_promoted left right
  rw [meets] at leftRank rightRank
  exact ⟨isInteger leftRank, isInteger rightRank⟩

theorem eq_int32_of_promoted (meets : left.promoted right = .int32) :
    left = .int32 ∧ right = .int32 := by
  have isInt32 {type : NumericType} (lowest : type.rank ≤ rank .int32) : type = .int32 := by
    cases type with
    | int32 => rfl
    | float32 | float64 | decimal | int64 => contradiction
  have ⟨leftRank, rightRank⟩ := rank_le_promoted left right
  rw [meets] at leftRank rightRank
  exact ⟨isInt32 leftRank, isInt32 rightRank⟩

end NumericType

theorem Decimal.value_ofInt64 (value : Int64) : (ofInt64 value).value = value.toInt := by
  simp [Decimal.value, ofInt64, signed_natAbs]

namespace Number

variable {left right left' right' : Number} {target : NumericType} {error : Error}

/-! ## Pairs of one representation -/

namespace Matched

def numbers (matched : Matched) : Number × Number :=
  (matched.left, matched.right)

/-- Numbers of different representations are no pair to compute with. -/
def ofNumbers? : Number × Number → Option Matched
  | (.float32 left, .float32 right) => some (.float32 left right)
  | (.float64 left, .float64 right) => some (.float64 left right)
  | (.decimal left, .decimal right) => some (.decimal left right)
  | (.int32 left, .int32 right) => some (.int32 left right)
  | (.int64 left, .int64 right) => some (.int64 left right)
  | _ => none

theorem ofNumbers?_numbers (matched : Matched) : ofNumbers? matched.numbers = some matched := by
  cases matched with
  | float32 | float64 | decimal | int32 | int64 => rfl

theorem type_right (matched : Matched) : matched.right.type = matched.type := by
  cases matched with
  | float32 | float64 | decimal | int32 | int64 => rfl

end Matched

/-! ## Casts -/

/-- Casts both numbers to the type of the one with the higher rank. -/
def castBoth (left right : Number) : Except Error (Number × Number) :=
  let target := left.type.promoted right.type
  return (← left.cast target, ← right.cast target)

theorem castBoth_eq_ok (meets : left.type.promoted right.type = target)
    (isLeft : left.cast target = .ok left') (isRight : right.cast target = .ok right') :
    left.castBoth right = .ok (left', right') := by
  simp only [castBoth, meets, isLeft, isRight]
  rfl

theorem cast_toDecimal (number : Number) :
    number.cast .decimal = number.toDecimal.map .decimal := by
  cases number with
  | float32 | float64 | decimal | int32 | int64 => rfl

theorem cast_toDouble (number : Number) :
    number.cast .float64 = .ok (.float64 number.toDouble) := by
  cases number with
  | float32 | float64 | decimal | int64 => rfl
  | int32 value => simp [cast, ofInt64, toDouble]

theorem cast_toSingle (number : Number) :
    number.cast .float32 = .ok (.float32 number.toSingle) := by
  cases number with
  | float32 | float64 | decimal | int64 => rfl
  | int32 value => simp [cast, ofInt64, toSingle]

theorem cast_toInt64 (integer : left.type.isInteger = true) :
    left.cast .int64 = .ok (.int64 left.toInt64) := by
  cases left with
  | int32 | int64 => rfl
  | float32 | float64 | decimal => cases integer

theorem cast_toInt32 (isInt32 : left.type = .int32) :
    left.cast .int32 = .ok (.int32 left.toInt64.toInt32) := by
  cases left with
  | int32 => rfl
  | float32 | float64 | decimal | int64 => cases isInt32

/-! ## Promotion by the type where two numbers meet -/

theorem unify_eq (left right : Number) :
    left.unify right =
      match left.type.promoted right.type with
      | .decimal => do return .decimal (← left.toDecimal) (← right.toDecimal)
      | .float64 => .ok (.float64 left.toDouble right.toDouble)
      | .float32 => .ok (.float32 left.toSingle right.toSingle)
      | .int64 => .ok (.int64 left.toInt64 right.toInt64)
      | .int32 => .ok (.int32 left.toInt64.toInt32 right.toInt64.toInt32) := by
  cases left with
  | decimal =>
      cases right with
      | float32 | float64 | decimal | int32 | int64 => rfl
  | float32 | float64 | int64 =>
      cases right with
      | decimal =>
          simp only [unify]
          cases toDecimal _ <;> rfl
      | float32 | float64 | int32 | int64 => rfl
  | int32 left =>
      cases right with
      | int32 right => simp [unify, toInt64, type, NumericType.promoted_self]
      | float32 | float64 | decimal | int64 => rfl

theorem castBoth_eq_map_unify (left right : Number) :
    left.castBoth right = (left.unify right).map Matched.numbers := by
  rw [unify_eq]
  cases meets : left.type.promoted right.type with
  | decimal =>
      simp only [castBoth, meets, cast_toDecimal]
      cases left.toDecimal <;> cases right.toDecimal <;> rfl
  | float64 => exact castBoth_eq_ok meets (cast_toDouble left) (cast_toDouble right)
  | float32 => exact castBoth_eq_ok meets (cast_toSingle left) (cast_toSingle right)
  | int64 =>
      have ⟨isLeft, isRight⟩ := NumericType.isInteger_of_promoted meets
      exact castBoth_eq_ok meets (cast_toInt64 isLeft) (cast_toInt64 isRight)
  | int32 =>
      have ⟨isLeft, isRight⟩ := NumericType.eq_int32_of_promoted meets
      exact castBoth_eq_ok meets (cast_toInt32 isLeft) (cast_toInt32 isRight)

/-! ## Integers and decimals -/

theorem exists_toDecimal (exact_ : left.type.isFloat = false) :
    ∃ value : Decimal, left.toDecimal = .ok value ∧ left.value? = some value.value := by
  cases left with
  | float32 | float64 => cases exact_
  | decimal value => exact ⟨value, rfl, rfl⟩
  | int32 value =>
      refine ⟨_, rfl, ?_⟩
      rw [Decimal.value_ofInt64, Int32.toInt_toInt64]
      rfl
  | int64 value => exact ⟨_, rfl, by rw [Decimal.value_ofInt64]; rfl⟩

theorem value?_int64 (integer : left.type.isInteger = true) :
    (Number.int64 left.toInt64).value? = left.value? := by
  cases left with
  | int32 value => simp [value?, toInt64]
  | int64 => rfl
  | float32 | float64 | decimal => cases integer

theorem value?_int32 (isInt32 : left.type = .int32) :
    (Number.int32 left.toInt64.toInt32).value? = left.value? := by
  cases left with
  | int32 value => simp [toInt64]
  | float32 | float64 | decimal | int64 => cases isInt32

theorem exists_unify_of_exact (leftExact : left.type.isFloat = false)
    (rightExact : right.type.isFloat = false) :
    ∃ matched, left.unify right = .ok matched ∧ matched.left.value? = left.value? ∧
      matched.right.value? = right.value? := by
  have noFloat := NumericType.isFloat_promoted leftExact rightExact
  rw [unify_eq]
  cases meets : left.type.promoted right.type with
  | decimal =>
      obtain ⟨first, isFirst, sameFirst⟩ := exists_toDecimal leftExact
      obtain ⟨second, isSecond, sameSecond⟩ := exists_toDecimal rightExact
      rw [isFirst, isSecond, sameFirst, sameSecond]
      exact ⟨.decimal first second, rfl, rfl, rfl⟩
  | int64 =>
      have ⟨isLeft, isRight⟩ := NumericType.isInteger_of_promoted meets
      exact ⟨_, rfl, value?_int64 isLeft, value?_int64 isRight⟩
  | int32 =>
      have ⟨isLeft, isRight⟩ := NumericType.eq_int32_of_promoted meets
      exact ⟨_, rfl, value?_int32 isLeft, value?_int32 isRight⟩
  | float32 | float64 =>
      rw [meets] at noFloat
      cases noFloat

/-! ## Failures -/

theorem unify_eq_error_iff :
    left.unify right = .error error ↔
      left.type.promoted right.type = .decimal ∧
        (left.toDecimal = .error error ∨ right.toDecimal = .error error) := by
  rw [unify_eq]
  cases meets : left.type.promoted right.type with
  | decimal =>
      -- One operand is a decimal already, so the other one alone decides.
      rcases left.type.promoted_eq_or right.type with isLeft | isRight
      · have isDecimal : left.type = .decimal := isLeft.symm.trans meets
        have exact_ : left.type.isFloat = false := by rw [isDecimal]; rfl
        obtain ⟨value, converted, -⟩ := exists_toDecimal exact_
        rw [converted]
        cases right.toDecimal <;> simp [bind, Except.bind, pure, Except.pure]
      · have isDecimal : right.type = .decimal := isRight.symm.trans meets
        have exact_ : right.type.isFloat = false := by rw [isDecimal]; rfl
        obtain ⟨value, converted, -⟩ := exists_toDecimal exact_
        rw [converted]
        cases left.toDecimal <;> simp [bind, Except.bind, pure, Except.pure]
  | float32 | float64 | int32 | int64 => simp

theorem unify_eq_error_comm :
    left.unify right = .error error ↔ right.unify left = .error error := by
  rw [unify_eq_error_iff, unify_eq_error_iff, NumericType.promoted_comm, or_comm]

/-! ## What arithmetic takes -/

/-- Casting both operands gives two numbers of the type with the higher rank, which are a pair that
arithmetic computes with, or fails as it does for the operands exchanged.  Without floats it neither
fails nor changes a value. -/
theorem castBoth_matched (left right : Number) :
    let target := left.type.promoted right.type
    left.castBoth right = (left.unify right).map Matched.numbers ∧
    (∀ numbers, left.castBoth right = .ok numbers →
      numbers.1.type = target ∧ numbers.2.type = target ∧
        ∃ matched, Matched.ofNumbers? numbers = some matched ∧ left.unify right = .ok matched) ∧
    (∀ error, left.castBoth right = .error error ↔ right.castBoth left = .error error) ∧
    (left.type.isFloat = false → right.type.isFloat = false →
      ∃ numbers, left.castBoth right = .ok numbers ∧
        numbers.1.value? = left.value? ∧ numbers.2.value? = right.value?) := by
  intro target
  refine ⟨castBoth_eq_map_unify left right, fun numbers casts => ?_, fun error => ?_,
    fun leftExact rightExact => ?_⟩
  · rw [castBoth_eq_map_unify] at casts
    obtain ⟨matched, unified, rfl⟩ := map_eq_ok_iff.mp casts
    have meets : matched.type = target := gives_unify left right matched unified
    exact ⟨meets, matched.type_right.trans meets, matched, matched.ofNumbers?_numbers, unified⟩
  · rw [castBoth_eq_map_unify, castBoth_eq_map_unify]
    exact map_eq_error_iff.trans (unify_eq_error_comm.trans map_eq_error_iff.symm)
  · obtain ⟨matched, unified, sameLeft, sameRight⟩ := exists_unify_of_exact leftExact rightExact
    rw [castBoth_eq_map_unify, unified]
    exact ⟨matched.numbers, rfl, sameLeft, sameRight⟩

/-- The least integer meets a tenth among the decimals, and infinity meets it in neither order. -/
theorem castBoth_matched_of_tenth :
    let least := Number.int64 Int64.minValue
    let tenth := Number.decimal ⟨false, 1, 1, by decide, by decide⟩
    let infinity := Number.float32 (.infinity true)
    least.type.isFloat = false ∧ tenth.type.isFloat = false ∧
    (∃ numbers, least.castBoth tenth = .ok numbers ∧
      numbers.1.type = .decimal ∧ numbers.1.value? = some (-2 ^ 63) ∧
      numbers.2.type = .decimal ∧ numbers.2.value? = some (1 / 10)) ∧
    ∃ error, tenth.castBoth infinity = .error error ∧ infinity.castBoth tenth = .error error := by
  intro least tenth infinity
  have isLeast : least.value? = some (-2 ^ 63) := by
    simp only [least, value?, Int64.toInt_minValue]
    norm_num
  have isTenth : tenth.value? = some (1 / 10) := by
    simp [tenth, value?, Decimal.value, signed]
  obtain ⟨-, lands, -, keeps⟩ := castBoth_matched least tenth
  obtain ⟨numbers, casts, sameLeft, sameRight⟩ := keeps rfl rfl
  obtain ⟨leftType, rightType, -⟩ := lands numbers casts
  obtain ⟨-, -, exchanged, -⟩ := castBoth_matched tenth infinity
  exact ⟨rfl, rfl, ⟨numbers, casts, leftType, sameLeft.trans isLeast, rightType,
    sameRight.trans isTenth⟩, _, rfl, (exchanged _).mp rfl⟩

end Number

end Formula

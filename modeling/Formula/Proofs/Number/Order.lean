import Formula.Number.Promotion
import Formula.Proofs.Binary.Order
import Formula.Proofs.Outcome

/-!
# The order of numbers

Two numbers are compared on the scale where they meet: as integers, as doubles or as decimals.  On
each scale every number has a place among the integers, so the order is reflexive and reversed when
the operands are exchanged.  It is transitive except where a number stands between two others that
meet on another scale, because a conversion has moved them.
-/

namespace Formula

namespace Decimal

theorem aligned_eq_mul_pow (value : Decimal) {scale larger : ℕ} (within : value.scale ≤ scale)
    (le : scale ≤ larger) :
    value.aligned larger = value.aligned scale * (10 ^ (larger - scale) : ℕ) := by
  have places : larger - value.scale = scale - value.scale + (larger - scale) := by omega
  rw [aligned, aligned, places, Nat.pow_add, ← Nat.mul_assoc, signed_mul]

theorem order_eq_compare (left right : Decimal) :
    left.order right = compare (left.aligned maxScale) (right.aligned maxScale) := by
  have le : max left.scale right.scale ≤ maxScale := max_le left.scale_le right.scale_le
  rw [left.aligned_eq_mul_pow (le_max_left _ _) le, right.aligned_eq_mul_pow (le_max_right _ _) le,
    compare_mul_right (by exact_mod_cast Nat.pow_pos (by decide))]
  rfl

theorem aligned_ofInt64 (value : Int64) (scale : ℕ) :
    (ofInt64 value).aligned scale = value.toInt * (10 ^ scale : ℕ) := by
  rw [aligned, signed_mul]
  exact congrArg (· * _) (signed_natAbs _)

end Decimal

namespace Number

/-! ## Scales -/

/-- What two numbers are compared as. -/
inductive Scale where
  | whole
  | double
  | decimal
deriving DecidableEq

/-- Where two numbers meet.  A float that decimals cannot hold meets a decimal among the doubles. -/
def scale (left right : Number) : Scale :=
  match left.unify right with
  | .ok (.decimal ..) => .decimal
  | .ok (.int32 ..) => .whole
  | .ok (.int64 ..) => .whole
  | _ => .double

def wholePlace : Number → ℤ
  | .int32 value => value.toInt
  | .int64 value => value.toInt
  | _ => 0

def decimalPlace (number : Number) : ℤ :=
  match number.toDecimal with
  | .ok value => value.aligned Decimal.maxScale
  | .error _ => 0

/-- Where a number stands on a scale that has it. -/
def place (number : Number) : Scale → ℤ
  | .whole => number.wholePlace
  | .double => number.toDouble.place
  | .decimal => number.decimalPlace

variable {left right : Number}

theorem decimalPlace_of_toDecimal {number : Number} {value : Decimal}
    (converts : number.toDecimal = .ok value) :
    number.decimalPlace = value.aligned Decimal.maxScale := by
  rw [decimalPlace, converts]

/-- Bringing two numbers together does not move them on the scale where they meet. -/
theorem place_of_unify {matched : Matched} (unified : left.unify right = .ok matched) :
    match matched with
    | .decimal first second => left.toDecimal = .ok first ∧ right.toDecimal = .ok second
    | .int32 first second => left.wholePlace = first.toInt ∧ right.wholePlace = second.toInt
    | .int64 first second => left.wholePlace = first.toInt ∧ right.wholePlace = second.toInt
    | _ => True := by
  unfold unify at unified
  split at unified
  · obtain ⟨value, converts, same⟩ := bind_eq_ok_iff.mp unified
    cases same
    exact ⟨rfl, converts⟩
  · obtain ⟨value, converts, same⟩ := bind_eq_ok_iff.mp unified
    cases same
    exact ⟨converts, rfl⟩
  all_goals cases unified
  all_goals simp [wholePlace]

theorem order_eq_compare (left right : Number) :
    left.order right =
      compare (left.place (left.scale right)) (right.place (left.scale right)) := by
  rw [order, scale]
  cases unified : left.unify right with
  | error => exact Binary.order_eq_compare _ _
  | ok matched =>
      cases matched with
      | float32 | float64 => exact Binary.order_eq_compare _ _
      | decimal first second =>
          obtain ⟨isFirst, isSecond⟩ := place_of_unify unified
          simp only [place, decimalPlace_of_toDecimal isFirst, decimalPlace_of_toDecimal isSecond,
            Decimal.order_eq_compare]
      | int32 first second =>
          obtain ⟨isFirst, isSecond⟩ := place_of_unify unified
          simp only [place, isFirst, isSecond]
      | int64 first second =>
          obtain ⟨isFirst, isSecond⟩ := place_of_unify unified
          simp only [place, isFirst, isSecond]

/-- The types decide where two numbers meet, and what decimals can hold. -/
theorem scale_eq (left right : Number) :
    left.scale right =
      if left.type = .decimal ∨ right.type = .decimal then
        if left.toDecimal.isOk ∧ right.toDecimal.isOk then .decimal else .double
      else if left.type.isInteger ∧ right.type.isInteger then .whole
      else .double := by
  have isOk_ok (value : Decimal) : (Except.ok value : Except Error Decimal).isOk = true := rfl
  have isOk_error (error : Error) : (Except.error error : Except Error Decimal).isOk = false := rfl
  rw [scale]
  cases left with
  | decimal left =>
      have isLeft : (decimal left).toDecimal = .ok left := rfl
      simp only [unify, isLeft]
      generalize right.toDecimal = converted
      cases converted <;> simp [type, isOk_ok, isOk_error]
  | float32 left | float64 left | int32 left | int64 left =>
      cases right with
      | decimal right =>
          simp only [unify]
          generalize toDecimal _ = converted
          cases converted <;> simp [type, toDecimal, isOk_ok, isOk_error]
      | float32 | float64 | int32 | int64 => rfl

theorem isOk_toDecimal {number : Number} (notFloat : number.type.isFloat = false) :
    number.toDecimal.isOk = true := by
  cases number with
  | float32 | float64 => cases notFloat
  | decimal | int32 | int64 => rfl

theorem scale_comm (left right : Number) : right.scale left = left.scale right := by
  simp only [scale_eq, or_comm, and_comm]

/-- Of the three pairs among three numbers two meet on one scale. -/
theorem scale_shared (first second third : Number) :
    first.scale second = second.scale third ∨ first.scale second = first.scale third ∨
      second.scale third = first.scale third := by
  have converts (number : Number) (integer : number.type.isInteger = true) :
      number.toDecimal.isOk = true := by
    apply isOk_toDecimal
    cases number with
    | int32 | int64 => rfl
    | float32 | float64 | decimal => cases integer
  simp only [scale_eq]
  grind

/-! ## The laws of a preorder -/

theorem order_self (number : Number) : number.order number = .eq := by
  rw [order_eq_compare, compare_eq_iff_eq]

theorem order_swap (left right : Number) : right.order left = (left.order right).swap := by
  rw [order_eq_compare left, order_eq_compare right, scale_comm]
  exact Std.OrientedOrd.eq_swap

/-- If no number is above the next, the first is not above the last, and it is level with the last
only where all three are level. -/
def TransitiveAt (low middle high : Number) : Prop :=
  low.order middle ≠ .gt → middle.order high ≠ .gt →
    low.order high ≠ .gt ∧
      (low.order high = .eq → low.order middle = .eq ∧ middle.order high = .eq)

/-- A number that stands between two others on the scale where it meets both, while they meet on
another scale and stand otherwise there. -/
structure Parts (middle low high : Number) : Prop where
  sameScale : middle.scale high = low.scale middle
  low_le : low.place (low.scale middle) ≤ middle.place (low.scale middle)
  le_high : middle.place (low.scale middle) ≤ high.place (low.scale middle)
  otherwise : low.order high ≠
    compare (low.place (low.scale middle)) (high.place (low.scale middle))

section Transitivity

variable {low middle high : Number}

theorem order_ne_gt_iff {scale : Scale} (meets : left.scale right = scale) :
    left.order right ≠ .gt ↔ left.place scale ≤ right.place scale := by
  rw [order_eq_compare, meets, compare_le_iff_le]

theorem order_eq_eq_iff {scale : Scale} (meets : left.scale right = scale) :
    left.order right = .eq ↔ left.place scale = right.place scale := by
  rw [order_eq_compare, meets, compare_eq_iff_eq]

theorem order_eq_compare_of_swap {first second : ℤ}
    (reversed : right.order left = compare second first) :
    left.order right = compare first second := by
  rw [order_swap right left, reversed]
  exact Std.OrientedOrd.eq_swap.symm

theorem transitiveAt_of_lt {scale : Scale} (meets : low.scale high = scale)
    (below : low.place scale < high.place scale) : TransitiveAt low middle high := by
  have strictly : low.order high = .lt := by
    rw [order_eq_compare, meets, compare_lt_iff_lt]
    exact below
  intro _ _
  simp [strictly]

/-- Where the outer numbers meet on a scale of their own, only the middle one can part them. -/
theorem transitiveAt_of_middle (shared : low.scale middle = middle.scale high)
    (whole : ¬ Parts middle low high) : TransitiveAt low middle high := by
  intro low_le le_high
  have low_le' := (order_ne_gt_iff rfl).mp low_le
  have le_high' := (order_ne_gt_iff shared.symm).mp le_high
  have same : low.order high =
      compare (low.place (low.scale middle)) (high.place (low.scale middle)) := by
    by_contra otherwise
    exact whole ⟨shared.symm, low_le', le_high', otherwise⟩
  rw [same, compare_le_iff_le, compare_eq_iff_eq, order_eq_eq_iff rfl,
    order_eq_eq_iff shared.symm]
  omega

/-- Where the lowest number meets the other two on one scale, it stands below them or they agree. -/
theorem transitiveAt_of_low (shared : low.scale middle = low.scale high)
    (whole : ¬ Parts low high middle) : TransitiveAt low middle high := by
  intro low_le le_high
  have low_le' := (order_ne_gt_iff rfl).mp low_le
  by_cases same : middle.order high =
      compare (middle.place (low.scale middle)) (high.place (low.scale middle))
  · rw [same, compare_le_iff_le] at le_high
    rw [same, order_ne_gt_iff shared.symm, order_eq_eq_iff shared.symm, order_eq_eq_iff rfl,
      compare_eq_iff_eq]
    omega
  · refine transitiveAt_of_lt shared.symm ?_ low_le le_high
    by_contra above
    refine whole ⟨?_, ?_, ?_, ?_⟩
    all_goals rw [scale_comm low high, ← shared]
    · exact not_lt.mp above
    · exact low_le'
    · exact mt order_eq_compare_of_swap same

/-- Where the highest number meets the other two on one scale, it stands above them or they
agree. -/
theorem transitiveAt_of_high (shared : middle.scale high = low.scale high)
    (whole : ¬ Parts high middle low) : TransitiveAt low middle high := by
  intro low_le le_high
  have le_high' := (order_ne_gt_iff rfl).mp le_high
  by_cases same : low.order middle =
      compare (low.place (middle.scale high)) (middle.place (middle.scale high))
  · rw [same, compare_le_iff_le] at low_le
    rw [same, order_ne_gt_iff shared.symm, order_eq_eq_iff shared.symm, order_eq_eq_iff rfl,
      compare_eq_iff_eq]
    omega
  · refine transitiveAt_of_lt shared.symm ?_ low_le le_high
    by_contra above
    refine whole ⟨?_, le_high', not_lt.mp above, mt order_eq_compare_of_swap same⟩
    rw [scale_comm low high, shared]

theorem Parts.not_transitiveAt (parts : Parts middle low high) :
    ¬ (TransitiveAt low middle high ∧ TransitiveAt high middle low) := by
  rintro ⟨upward, downward⟩
  obtain ⟨sameScale, low_le, le_high, otherwise⟩ := parts
  obtain ⟨notAbove, level⟩ :=
    upward ((order_ne_gt_iff rfl).mpr low_le) ((order_ne_gt_iff sameScale).mpr le_high)
  cases outer : low.order high with
  | gt => exact notAbove outer
  | eq =>
      obtain ⟨isFirst, isSecond⟩ := level outer
      rw [order_eq_eq_iff rfl] at isFirst
      rw [order_eq_eq_iff sameScale] at isSecond
      exact otherwise (outer.trans (compare_eq_iff_eq.mpr (isFirst.trans isSecond)).symm)
  | lt =>
      -- On the shared scale the three are level, so the law fails in the other direction.
      have tied : high.place (low.scale middle) ≤ low.place (low.scale middle) := by
        by_contra below
        exact otherwise (outer.trans (compare_lt_iff_lt.mpr (not_le.mp below)).symm)
      have isFirst : high.order middle ≠ .gt :=
        (order_ne_gt_iff ((scale_comm middle high).trans sameScale)).mpr (tied.trans low_le)
      have isSecond : middle.order low ≠ .gt :=
        (order_ne_gt_iff (scale_comm low middle)).mpr (le_high.trans tied)
      apply (downward isFirst isSecond).1
      rw [order_swap low high, outer]
      rfl

theorem transitiveAt_iff (numbers : Set Number) :
    (∀ low ∈ numbers, ∀ middle ∈ numbers, ∀ high ∈ numbers, TransitiveAt low middle high) ↔
      ∀ low ∈ numbers, ∀ middle ∈ numbers, ∀ high ∈ numbers, ¬ Parts middle low high := by
  constructor
  · intro transitive low isLow middle isMiddle high isHigh parts
    exact parts.not_transitiveAt
      ⟨transitive low isLow middle isMiddle high isHigh,
        transitive high isHigh middle isMiddle low isLow⟩
  · intro whole low isLow middle isMiddle high isHigh
    rcases scale_shared low middle high with shared | shared | shared
    · exact transitiveAt_of_middle shared (whole low isLow middle isMiddle high isHigh)
    · exact transitiveAt_of_low shared (whole high isHigh low isLow middle isMiddle)
    · exact transitiveAt_of_high shared (whole middle isMiddle high isHigh low isLow)

end Transitivity

/-! ## Where the order is transitive -/

theorem scale_eq_whole_iff :
    left.scale right = .whole ↔ left.type.isInteger = true ∧ right.type.isInteger = true := by
  have notDecimal {number : Number} (integer : number.type.isInteger = true) :
      number.type ≠ .decimal := by
    intro isDecimal
    rw [isDecimal] at integer
    cases integer
  rw [scale_eq]
  grind

theorem decimalPlace_of_isInteger {number : Number} (integer : number.type.isInteger = true) :
    number.decimalPlace = number.wholePlace * (10 ^ Decimal.maxScale : ℕ) := by
  cases number with
  | float32 | float64 | decimal => cases integer
  | int32 value =>
      rw [decimalPlace, toDecimal, wholePlace, ← Int32.toInt_toInt64]
      exact Decimal.aligned_ofInt64 _ _
  | int64 value => exact Decimal.aligned_ofInt64 _ _

theorem scale_ne_double (leftExact : left.type.isFloat = false)
    (rightExact : right.type.isFloat = false) : left.scale right ≠ .double := by
  have kinds {number : Number} (exact_ : number.type.isFloat = false) :
      number.type = .decimal ∨ number.type.isInteger = true := by
    cases type : number.type with
    | float32 | float64 => simp [type, NumericType.isFloat] at exact_
    | decimal => exact .inl rfl
    | int32 | int64 => exact .inr rfl
  have := kinds leftExact
  have := kinds rightExact
  rw [scale_eq, isOk_toDecimal leftExact, isOk_toDecimal rightExact]
  grind

theorem scale_ne_decimal (leftPlain : left.type ≠ .decimal) (rightPlain : right.type ≠ .decimal) :
    left.scale right ≠ .decimal := by
  rw [scale_eq]
  grind

/-- Integers and decimals are ordered by their exact values. -/
theorem order_eq_compare_decimalPlace (leftExact : left.type.isFloat = false)
    (rightExact : right.type.isFloat = false) :
    left.order right = compare left.decimalPlace right.decimalPlace := by
  rw [order_eq_compare]
  cases meets : left.scale right with
  | double => exact absurd meets (scale_ne_double leftExact rightExact)
  | decimal => rfl
  | whole =>
      obtain ⟨leftInteger, rightInteger⟩ := scale_eq_whole_iff.mp meets
      rw [decimalPlace_of_isInteger leftInteger, decimalPlace_of_isInteger rightInteger,
        compare_mul_right (by exact_mod_cast Nat.pow_pos (by decide))]
      rfl

section Exceptions

variable {low middle high : Number}

/-- Integers that meet a third number among the integers meet there themselves. -/
theorem Parts.scale_ne_whole (parts : Parts middle low high) : low.scale middle ≠ .whole := by
  intro meets
  obtain ⟨sameScale, -, -, otherwise⟩ := parts
  rw [meets] at sameScale otherwise
  obtain ⟨lowInteger, -⟩ := scale_eq_whole_iff.mp meets
  obtain ⟨-, highInteger⟩ := scale_eq_whole_iff.mp sameScale
  rw [order_eq_compare, scale_eq_whole_iff.mpr ⟨lowInteger, highInteger⟩] at otherwise
  exact otherwise rfl

theorem not_parts_of_exact (lowExact : low.type.isFloat = false)
    (middleExact : middle.type.isFloat = false) (highExact : high.type.isFloat = false) :
    ¬ Parts middle low high := by
  intro parts
  cases meets : low.scale middle with
  | whole => exact parts.scale_ne_whole meets
  | double => exact scale_ne_double lowExact middleExact meets
  | decimal =>
      apply parts.otherwise
      rw [order_eq_compare_decimalPlace lowExact highExact, meets]
      rfl

/-- Integers become doubles in their order. -/
theorem place_double_mono (leftInteger : left.type.isInteger = true)
    (rightInteger : right.type.isInteger = true) (le : left.place .whole ≤ right.place .whole) :
    left.place .double ≤ right.place .double := by
  have isDouble {number : Number} (integer : number.type.isInteger = true) :
      number.toDouble = .ofInt (number.place .whole) := by
    cases number with
    | float32 | float64 | decimal => cases integer
    | int32 | int64 => rfl
  simp only [place, isDouble leftInteger, isDouble rightInteger] at le ⊢
  exact Binary.place_ofInt_mono (by decide) le

/-- A float meets what is no decimal among the doubles. -/
theorem scale_eq_double_iff (leftPlain : left.type ≠ .decimal)
    (rightPlain : right.type ≠ .decimal) :
    left.scale right = .double ↔
      ¬ (left.type.isInteger = true ∧ right.type.isInteger = true) := by
  rw [scale_eq]
  grind

/-- Without decimals only a float parts two integers, and only where both become that float. -/
theorem parts_iff_of_not_decimal (lowPlain : low.type ≠ .decimal)
    (middlePlain : middle.type ≠ .decimal) (highPlain : high.type ≠ .decimal) :
    Parts middle low high ↔
      (low.type.isInteger = true ∧ middle.type.isInteger = false ∧ high.type.isInteger = true) ∧
      low.place .whole ≠ high.place .whole ∧
      low.place .double = middle.place .double ∧ middle.place .double = high.place .double := by
  constructor
  · intro parts
    obtain meets : low.scale middle = .double := by
      cases meets : low.scale middle with
      | whole => exact absurd meets parts.scale_ne_whole
      | double => rfl
      | decimal => exact absurd meets (scale_ne_decimal lowPlain middlePlain)
    obtain ⟨-, low_le, le_high, otherwise⟩ := parts
    rw [meets] at low_le le_high otherwise
    have apart : low.scale high ≠ .double := by
      intro outer
      rw [order_eq_compare, outer] at otherwise
      exact otherwise rfl
    obtain ⟨lowInteger, highInteger⟩ :=
      not_not.mp (mt (scale_eq_double_iff lowPlain highPlain).mpr apart)
    have middleFloat : middle.type.isInteger = false := by
      have := (scale_eq_double_iff lowPlain middlePlain).mp meets
      simpa [lowInteger] using this
    rw [order_eq_compare, scale_eq_whole_iff.mpr ⟨lowInteger, highInteger⟩] at otherwise
    refine ⟨⟨lowInteger, middleFloat, highInteger⟩, ?_⟩
    have upward := place_double_mono lowInteger highInteger
    have downward := place_double_mono highInteger lowInteger
    rcases lt_trichotomy (low.place .whole) (high.place .whole) with below | same | above
    · rw [compare_lt_iff_lt.mpr below] at otherwise
      have := mt compare_lt_iff_lt.mpr otherwise.symm
      omega
    · rw [compare_eq_iff_eq.mpr same] at otherwise
      have := mt compare_eq_iff_eq.mpr otherwise.symm
      omega
    · omega
  · rintro ⟨⟨lowInteger, middleFloat, highInteger⟩, different, isFirst, isSecond⟩
    have meets : low.scale middle = .double :=
      (scale_eq_double_iff lowPlain middlePlain).mpr (by simp [middleFloat])
    have sameScale : middle.scale high = .double :=
      (scale_eq_double_iff middlePlain highPlain).mpr (by simp [middleFloat])
    refine ⟨sameScale.trans meets.symm, ?_, ?_, ?_⟩
    all_goals rw [meets]
    · exact isFirst.le
    · exact isSecond.le
    · rw [order_eq_compare, scale_eq_whole_iff.mpr ⟨lowInteger, highInteger⟩,
        compare_eq_iff_eq.mpr (isFirst.trans isSecond)]
      exact mt compare_eq_iff_eq.mp different

end Exceptions

/-- The order is reflexive, and reversed when its operands are exchanged.  It is transitive among
given numbers exactly if none of them parts two others.  Integers and decimals part none, and where
there are no decimals only a float parts two numbers, which are different integers that both become
that float. -/
theorem order_isPreorder_iff (numbers : Set Number) :
    (∀ number : Number, number.order number = .eq) ∧
    (∀ left right : Number, right.order left = (left.order right).swap) ∧
    ((∀ low ∈ numbers, ∀ middle ∈ numbers, ∀ high ∈ numbers, TransitiveAt low middle high) ↔
      ∀ low ∈ numbers, ∀ middle ∈ numbers, ∀ high ∈ numbers, ¬ Parts middle low high) ∧
    (∀ low middle high : Number, low.type.isFloat = false → middle.type.isFloat = false →
      high.type.isFloat = false → ¬ Parts middle low high) ∧
    (∀ low middle high : Number, low.type ≠ .decimal → middle.type ≠ .decimal →
      high.type ≠ .decimal →
        (Parts middle low high ↔
          (low.type.isInteger = true ∧ middle.type.isInteger = false ∧
            high.type.isInteger = true) ∧
          low.place .whole ≠ high.place .whole ∧
          low.place .double = middle.place .double ∧
            middle.place .double = high.place .double)) :=
  ⟨order_self, order_swap, transitiveAt_iff numbers, fun _ _ _ => not_parts_of_exact,
    fun _ _ _ => parts_iff_of_not_decimal⟩

/-- The double that two neighbouring integers become. -/
def twoPow53 : Double := .finite false (2 ^ (52 : ℕ)) 1 (by decide)

/-- The decimal between two neighbouring integers leaves them apart, and their double does not. -/
theorem order_isPreorder_of_neighbours :
    (Number.int64 9007199254740992).order (.int64 9007199254740993) ≠ .gt ∧
      Parts (.float64 twoPow53) (.int64 9007199254740993) (.int64 9007199254740992) := by
  obtain ⟨-, -, transitive, exacts, plain⟩ :=
    order_isPreorder_iff {number | number.type.isFloat = false}
  have law := transitive.mpr fun _ low _ middle _ high => exacts _ _ _ low middle high
  constructor
  · exact (law (.int64 9007199254740992) rfl
      (.decimal ⟨false, 90071992547409925, 1, by decide, by decide⟩) rfl
      (.int64 9007199254740993) rfl (by decide) (by decide)).1
  · exact (plain _ _ _ (by decide) (by decide) (by decide)).mpr
      ⟨by decide, by decide, by decide +kernel, by decide +kernel⟩

/-- Both integers are level with that double, and not with each other. -/
theorem not_order_isPreorder :
    ¬ ∀ low middle high : Number, low.order low = .eq ∧
      middle.order low = (low.order middle).swap ∧ TransitiveAt low middle high := by
  intro always
  obtain ⟨-, -, transitive⟩ := always (.int64 9007199254740993) (.float64 twoPow53)
    (.int64 9007199254740992)
  exact (transitive (by decide) (by decide)).1 (by decide)

end Number

end Formula

import Formula.Operators.Factorial
import Formula.Proofs.Decimal.Exactness
import Formula.Proofs.Number.Conversion
import Formula.Proofs.Number.Order
import Mathlib.Algebra.Order.Interval.Finset.SuccPred
import Mathlib.Data.Nat.Factorial.Basic
import Mathlib.Data.Rat.Floor

/-!
# Factorials of integers and decimals

The factorial is the exact product where the type holds it, and overflows otherwise.  The loop that
multiplies up to the operand ends at the first product that does not fit.  The factorial of 28 has
more than 96 bits, so that the loop takes at most 28 products and its counter stays small, however
large the operand is.
-/

namespace Formula

/-! ## The loop -/

/-- What a loop that multiplies by a counter works with: the test of the counter, the product with
it, and the counter after it. -/
structure MultiplicationLoop (α : Type) where
  within : α → Prop
  times : α → α → Option α
  successor : α → Option α

namespace MultiplicationLoop

variable {α : Type} {loop : MultiplicationLoop α}

/-- The runs of the loop, with how many products they take and what they end with.  The loop gives
up at a product that there is none of; a counter without a successor has no run. -/
inductive Runs (loop : MultiplicationLoop α) : (counter product : α) → ℕ → Option α → Prop
  | done {counter product : α} (beyond : ¬ loop.within counter) :
      Runs loop counter product 0 (some product)
  | overflow {counter product : α} (within : loop.within counter)
      (fails : loop.times product counter = none) : Runs loop counter product 1 none
  | next {counter product larger following : α} {products : ℕ} {result : Option α}
      (within : loop.within counter) (multiplied : loop.times product counter = some larger)
      (counted : loop.successor counter = some following)
      (rest : Runs loop following larger products result) :
      Runs loop counter product (products + 1) result

theorem Runs.unique {counter product : α} {products products' : ℕ} {result result' : Option α}
    (runs : loop.Runs counter product products result)
    (runs' : loop.Runs counter product products' result') :
    products = products' ∧ result = result' := by
  induction runs generalizing products' result' with
  | done beyond =>
      cases runs' with
      | done => exact ⟨rfl, rfl⟩
      | overflow within | next within => exact absurd within beyond
  | overflow within fails =>
      cases runs' with
      | done beyond => exact absurd within beyond
      | overflow => exact ⟨rfl, rfl⟩
      | next _ multiplied => cases fails.symm.trans multiplied
  | next within multiplied counted _ ih =>
      cases runs' with
      | done beyond => exact absurd within beyond
      | overflow _ fails => cases fails.symm.trans multiplied
      | next _ multiplied' counted' rest' =>
          obtain rfl := Option.some.inj (multiplied.symm.trans multiplied')
          obtain rfl := Option.some.inj (counted.symm.trans counted')
          obtain ⟨rfl, rfl⟩ := ih rest'
          exact ⟨rfl, rfl⟩

/-- The loop computes with the natural numbers below a limit, which has at most 96 bits, and ends
above `last`. -/
structure CountsTo (loop : MultiplicationLoop α) (ofNat? : ℕ → Option α) (limit : ℕ) (last : ℤ) :
    Prop where
  le_limit : 29 ≤ limit
  limit_le : limit ≤ 2 ^ 96
  isSome_iff : ∀ whole, (ofNat? whole).isSome = true ↔ whole < limit
  within_iff : ∀ {whole counter}, ofNat? whole = some counter →
    (loop.within counter ↔ (whole : ℤ) ≤ last)
  times : ∀ {whole whole' product factor}, ofNat? whole = some product →
    ofNat? whole' = some factor → loop.times product factor = ofNat? (whole * whole')
  successor : ∀ {whole counter}, ofNat? whole = some counter →
    loop.successor counter = ofNat? (whole + 1)

namespace CountsTo

variable {ofNat? : ℕ → Option α} {limit : ℕ} {last : ℤ} {whole : ℕ}

theorem exists_of_lt (counts : loop.CountsTo ofNat? limit last) (fits : whole < limit) :
    ∃ number, ofNat? whole = some number :=
  Option.isSome_iff_exists.mp ((counts.isSome_iff whole).mpr fits)

theorem lt_of_some (counts : loop.CountsTo ofNat? limit last) {number : α}
    (isNumber : ofNat? whole = some number) : whole < limit :=
  (counts.isSome_iff whole).mp (by rw [isNumber]; rfl)

theorem none_of_le (counts : loop.CountsTo ofNat? limit last) {larger : ℕ}
    (none_ : ofNat? whole = none) (le : whole ≤ larger) : ofNat? larger = none := by
  rw [Option.eq_none_iff_forall_ne_some]
  intro number isNumber
  have fits := lt_of_le_of_lt le (counts.lt_of_some isNumber)
  obtain ⟨smaller, isSmaller⟩ := counts.exists_of_lt fits
  cases none_.symm.trans isSmaller

theorem lt_of_factorial (counts : loop.CountsTo ofNat? limit last) {product : α}
    (isProduct : ofNat? whole.factorial = some product) : whole < 28 := by
  by_contra large
  have grows := Nat.factorial_le (Nat.not_lt.mp large)
  have fits := lt_of_lt_of_le (counts.lt_of_some isProduct) counts.limit_le
  -- The factorial of 28 is the first one with more than 96 bits.
  have : 2 ^ 96 < Nat.factorial 28 := by decide
  omega

/-- From the factorial of `whole` the loop goes on to that of its last factor, or to the first one
that does not fit. -/
theorem runs (counts : loop.CountsTo ofNat? limit last) {counter product : α}
    (isCounter : ofNat? (whole + 1) = some counter)
    (isProduct : ofNat? whole.factorial = some product) :
    ∃ products, whole + products ≤ 28 ∧
      loop.Runs counter product products (ofNat? (whole + (last - whole).toNat).factorial) := by
  have small := counts.lt_of_factorial isProduct
  -- By induction on the factors that remain.  Every product that fits leaves one product less up to
  -- the factorial of 28, so that the bound does not depend on `last`.
  generalize remaining : (last - whole).toNat = count
  induction count generalizing whole counter product with
  | zero =>
      rw [Nat.add_zero, isProduct]
      refine ⟨0, by omega, .done ?_⟩
      rw [counts.within_iff isCounter]
      omega
  | succ count ih =>
      have within : loop.within counter := (counts.within_iff isCounter).mpr (by omega)
      have multiplied := counts.times isProduct isCounter
      rw [Nat.mul_comm, ← Nat.factorial_succ] at multiplied
      cases isLarger : ofNat? (whole + 1).factorial with
      | none =>
          rw [counts.none_of_le isLarger (Nat.factorial_le (by omega))]
          exact ⟨1, by omega, .overflow within (multiplied.trans isLarger)⟩
      | some larger =>
          have small' := counts.lt_of_factorial isLarger
          have fits : whole + 2 < limit := by
            have := counts.le_limit
            omega
          obtain ⟨following, isFollowing⟩ := counts.exists_of_lt fits
          have counted := (counts.successor isCounter).trans isFollowing
          obtain ⟨products, few, rest⟩ := ih isFollowing isLarger small' (by omega)
          rw [Nat.add_right_comm] at rest
          exact ⟨products + 1, by omega,
            .next within (multiplied.trans isLarger) counted rest⟩

theorem multiplyRun_eq (counts : loop.CountsTo ofNat? limit last) {times : α → ℕ → Option α}
    (multiplies : ∀ {whole product} (factor : ℕ), 0 < whole → ofNat? whole = some product →
      times product factor = ofNat? (whole * factor))
    {product : α} (isProduct : ofNat? whole.factorial = some product) (count : ℕ) :
    Number.multiplyRun times count (whole + 1) product = ofNat? (whole + count).factorial := by
  induction count generalizing whole product with
  | zero => exact isProduct.symm
  | succ count ih =>
      have multiplied := multiplies (whole + 1) whole.factorial_pos isProduct
      rw [Nat.mul_comm, ← Nat.factorial_succ] at multiplied
      rw [Number.multiplyRun, multiplied]
      cases isLarger : ofNat? (whole + 1).factorial with
      | none =>
          rw [counts.none_of_le isLarger (Nat.factorial_le (by omega))]
          rfl
      | some larger =>
          refine (ih isLarger).trans ?_
          rw [Nat.add_right_comm, Nat.add_assoc]

end CountsTo

end MultiplicationLoop

/-! ## Integers -/

section Integers

variable {α : Type} {toInt : α → ℤ} {ofInt? : ℤ → Option α} {limit : ℕ}

/-- The type has exactly the natural numbers below the limit. -/
structure HoldsBelow (toInt : α → ℤ) (ofInt? : ℤ → Option α) (limit : ℕ) : Prop where
  le_limit : 29 ≤ limit
  limit_le : limit ≤ 2 ^ 96
  some_iff : ∀ {whole number}, ofInt? whole = some number ↔ toInt number = whole
  isSome_iff : ∀ whole : ℕ, (ofInt? whole).isSome = true ↔ whole < limit

/-- The loop over integers up to the operand. -/
def integerLoop (toInt : α → ℤ) (ofInt? : ℤ → Option α) (value : α) : MultiplicationLoop α where
  within counter := toInt counter ≤ toInt value
  times product factor := ofInt? (toInt product * toInt factor)
  successor counter := ofInt? (toInt counter + 1)

theorem HoldsBelow.countsTo (holds : HoldsBelow toInt ofInt? limit) (value : α) :
    (integerLoop toInt ofInt? value).CountsTo (fun whole => ofInt? whole) limit (toInt value) where
  le_limit := holds.le_limit
  limit_le := holds.limit_le
  isSome_iff := holds.isSome_iff
  within_iff isCounter := by simp only [integerLoop, holds.some_iff.mp isCounter]
  times isProduct isFactor := by
    simp only [integerLoop, holds.some_iff.mp isProduct, holds.some_iff.mp isFactor, Nat.cast_mul]
  successor isCounter := by simp only [integerLoop, holds.some_iff.mp isCounter, Nat.cast_succ]

theorem Number.holdsBelow_int32 : HoldsBelow Int32.toInt int32? (2 ^ 31) where
  le_limit := by decide
  limit_le := by decide
  some_iff := int32?_eq_some_iff
  isSome_iff whole := by
    simp [int32?, fitsInt32, Int32.toInt_maxValue]
    omega

theorem Number.holdsBelow_int64 : HoldsBelow Int64.toInt int64? (2 ^ 63) where
  le_limit := by decide
  limit_le := by decide
  some_iff := int64?_eq_some_iff
  isSome_iff whole := by
    simp [int64?, fitsInt64, Int64.toInt_maxValue]
    omega

end Integers

/-! ## Decimals -/

namespace Decimal

variable {left right value : Decimal} {whole whole' : ℕ}

theorem order_ne_gt_iff : left.order right ≠ .gt ↔ left.value ≤ right.value := by
  unfold order
  dsimp only
  rw [compare_le_iff_le, ← @Int.cast_le ℚ, aligned_eq_mul (le_max_left _ _),
    aligned_eq_mul (le_max_right _ _), mul_le_mul_iff_left₀ (by positivity)]

theorem ofRatio?_one (negative : Bool) (whole : ℕ) :
    ofRatio? negative whole 1 0 = make? negative whole 0 := by
  rw [ofRatio?, Rounding.magnitude_one]

theorem isSome_make? : (make? false whole 0).isSome = true ↔ whole < 2 ^ 96 := by
  unfold make?
  split <;> simp_all

theorem dropSignOfZero_of_unsigned (unsigned : value.negative = false) :
    value.dropSignOfZero = value := by
  obtain ⟨negative, mantissa, scale, _, _⟩ := value
  obtain rfl : negative = false := unsigned
  rfl

theorem mul?_of_make? (isLeft : make? false whole 0 = some left)
    (isRight : make? false whole' 0 = some right) :
    left.mul? right = make? false (whole * whole') 0 := by
  obtain ⟨leftSign, rfl, leftScale⟩ := make?_eq_some isLeft
  obtain ⟨rightSign, rfl, rightScale⟩ := make?_eq_some isRight
  unfold mul?
  split
  · next isZero =>
      rw [Nat.mul_eq_zero.mpr isZero]
      rfl
  · -- A product without a sign has none to drop.
    simp only [leftSign, rightSign, leftScale, rightScale, Nat.add_zero, Nat.min_zero, Nat.pow_zero,
      bne_self_eq_false, ofRatio?_one]
    cases made : make? false (left.mantissa * right.mantissa) 0 with
    | none => rfl
    | some product =>
        simp [dropSignOfZero_of_unsigned (make?_eq_some made).1]

theorem mulFactor?_of_make? (factor : ℕ) (positive : 0 < whole)
    (isLeft : make? false whole 0 = some left) :
    (do left.mul? (← make? false factor 0)) = make? false (whole * factor) 0 := by
  cases isRight : make? false factor 0 with
  | some right => exact mul?_of_make? isLeft isRight
  | none =>
      -- A factor that no decimal holds makes a product that none holds.
      have large : ¬ factor < 2 ^ 96 := by
        rw [← isSome_make?, isRight]
        exact Bool.false_ne_true
      have grows := Nat.le_mul_of_pos_left factor positive
      symm
      rw [Option.bind_eq_bind, Option.bind_none, ← Option.not_isSome_iff_eq_none, isSome_make?]
      exact fun fits => large (lt_of_le_of_lt grows fits)

theorem add?_one_of_make? (isLeft : make? false whole 0 = some left) :
    left.add? one = make? false (whole + 1) 0 := by
  obtain ⟨sign, rfl, scale⟩ := make?_eq_some isLeft
  unfold add?
  split
  · next isZero =>
      rw [isZero]
      rfl
  · have total : left.aligned (max left.scale one.scale) + one.aligned (max left.scale one.scale) =
        (left.mantissa + 1 : ℕ) := by
      simp [aligned, sign, scale, one, signed]
    rw [if_neg (by decide)]
    dsimp only
    rw [total, scale]
    exact ofRatio?_one false _

/-- The loop over decimals up to the operand, with a counter that is a decimal, too. -/
def multiplicationLoop (value : Decimal) : MultiplicationLoop Decimal where
  within counter := counter.order value ≠ .gt
  times := mul?
  successor counter := counter.add? one

theorem countsTo_multiplicationLoop (value : Decimal) :
    value.multiplicationLoop.CountsTo (make? false · 0) (2 ^ 96) ⌊value.value⌋ where
  le_limit := by decide
  limit_le := le_refl _
  isSome_iff _ := isSome_make?
  within_iff isCounter := by
    simp only [multiplicationLoop, order_ne_gt_iff, value_of_make? isCounter, Int.le_floor]
    simp [signed]
  times := mul?_of_make?
  successor := add?_one_of_make?

end Decimal

/-- The type has a number of this value. -/
def NumericType.Holds (type : NumericType) (value : ℚ) : Prop :=
  ∃ number : Number, number.type = type ∧ number.value? = some value

namespace Number

/-! ## The exact product -/

theorem prod_Icc_two (last : ℤ) :
    ∏ factor ∈ Finset.Icc 2 last, (factor : ℚ) = (1 + factorCount last).factorial := by
  generalize counts : factorCount last = count
  unfold factorCount at counts
  induction count generalizing last with
  | zero =>
      have below : last < 2 := by omega
      simp [Finset.Icc_eq_empty_of_lt below]
  | succ count ih =>
      have isLast : last = (1 + count + 1 : ℕ) := by omega
      have fewer := ih (last - 1) (by omega)
      rw [← Int.sub_add_cancel last 1, ← Finset.insert_Icc_right_eq_Icc_add_one (by omega),
        Finset.prod_insert (by simp), fewer, Int.sub_add_cancel, isLast, ← Nat.add_assoc,
        Nat.factorial_succ, Nat.cast_mul]
      rfl

/-- The fraction of an operand does not count, nor whether it is dropped or rounded down. -/
theorem factorCount_toInt (value : Decimal) :
    factorCount value.toInt = factorCount ⌊value.value⌋ := by
  obtain ⟨negative, mantissa, scale, _, _⟩ := value
  simp only [Decimal.toInt, Decimal.value]
  cases negative with
  | false =>
      have floor := Rat.floor_natCast_div_natCast mantissa (10 ^ scale)
      simp only [signed, Bool.false_eq_true, if_false, Int.cast_natCast]
      rw [floor, Int.natCast_div]
  | true =>
      have dropped : signed true (mantissa / 10 ^ scale) ≤ 0 :=
        Int.neg_nonpos_of_nonneg (Int.natCast_nonneg _)
      have negative : (signed true mantissa : ℚ) ≤ 0 := by simp [signed]
      have floor : ⌊(signed true mantissa : ℚ) / (10 ^ scale : ℕ)⌋ ≤ 0 :=
        Int.floor_nonpos (div_nonpos_of_nonpos_of_nonneg negative (Nat.cast_nonneg _))
      unfold factorCount
      omega

/-! ## Results -/

/-- The runs of the loop from two on, in the type of an integer or a decimal, which its counter
never leaves. -/
def FactorialRuns : Number → ℕ → Option Number → Prop
  | .int32 value, products, result => ∃ whole,
      (integerLoop Int32.toInt int32? value).Runs 2 1 products whole ∧ whole.map .int32 = result
  | .int64 value, products, result => ∃ whole,
      (integerLoop Int64.toInt int64? value).Runs 2 1 products whole ∧ whole.map .int64 = result
  | .decimal value, products, result => ∃ whole,
      value.multiplicationLoop.Runs (.ofInt64 2) .one products whole ∧ whole.map .decimal = result
  | .float32 _, _, _ => False
  | .float64 _, _, _ => False

/-- The result is the product, or there is none because the type does not hold it, and the loop
comes to it after few products. -/
structure ComesTo (number : Number) (product : ℚ) (result : Option Number) : Prop where
  returned : number.factorial = orOverflow "!" result
  value_eq : ∀ value, result = some value → value.type = number.type ∧ value.value? = some product
  not_holds : result = none → ¬ number.type.Holds product
  runs : ∃ products ≤ 28, ∀ products' result', number.FactorialRuns products' result' ↔
    products' = products ∧ result' = result

theorem map_orOverflow {α β : Type} (operator : String) (result : Option α) (make : α → β) :
    (orOverflow operator result).map make = orOverflow operator (result.map make) := by
  cases result <;> rfl

theorem orOverflow_inj {α : Type} {operator : String} {result result' : Option α} :
    orOverflow operator result = orOverflow operator result' ↔ result = result' := by
  cases result <;> cases result' <;> simp [orOverflow]

section OneType

variable {α : Type} {one two : α} {number : Number} {make : α → Number}

/-- The members of one type that stand for natural numbers. -/
structure Represents (type : NumericType) (make : α → Number) (ofNat? : ℕ → Option α) : Prop where
  value_eq : ∀ {whole value}, ofNat? whole = some value →
    (make value).type = type ∧ (make value).value? = some (whole : ℚ)
  exists_of_holds : ∀ {whole : ℕ}, type.Holds whole → ∃ value, ofNat? whole = some value

theorem Represents.comesTo {ofNat? : ℕ → Option α}
    (represents : Represents number.type make ofNat?) {loop : MultiplicationLoop α} {limit : ℕ}
    {last : ℤ} (counts : loop.CountsTo ofNat? limit last) {times : α → ℕ → Option α}
    (multiplies : ∀ {whole product} (factor : ℕ), 0 < whole → ofNat? whole = some product →
      times product factor = ofNat? (whole * factor))
    (isOne : ofNat? 1 = some one) (isTwo : ofNat? 2 = some two)
    (returned : number.factorial =
      (orOverflow "!" (multiplyRun times (factorCount last) 2 one)).map make)
    (runs_iff : ∀ products result, number.FactorialRuns products result ↔
      ∃ whole, loop.Runs two one products whole ∧ whole.map make = result) :
    ∃ result, number.ComesTo (1 + factorCount last).factorial result := by
  have isFactorial : ofNat? (Nat.factorial 1) = some one := isOne
  obtain ⟨products, few, runs⟩ := counts.runs isTwo isFactorial
  have computed := counts.multiplyRun_eq multiplies isFactorial (factorCount last)
  refine ⟨(ofNat? (1 + factorCount last).factorial).map make, ?_, ?_, ?_, products, by omega,
    fun products' result' => ?_⟩
  · rw [returned, computed, map_orOverflow]
  · intro value isValue
    obtain ⟨whole, isWhole, rfl⟩ := Option.map_eq_some_iff.mp isValue
    exact represents.value_eq isWhole
  · intro none_ holds
    obtain ⟨value, isValue⟩ := represents.exists_of_holds holds
    rw [isValue] at none_
    cases none_
  · rw [runs_iff]
    constructor
    · rintro ⟨whole, runs', rfl⟩
      obtain ⟨rfl, rfl⟩ := runs.unique runs'
      exact ⟨rfl, rfl⟩
    · rintro ⟨rfl, rfl⟩
      exact ⟨_, runs, rfl⟩

theorem comesTo_of_integers {toInt : α → ℤ} {ofInt? : ℤ → Option α} {limit : ℕ} {value : α}
    (holds : HoldsBelow toInt ofInt? limit) (isOne : ofInt? 1 = some one)
    (isTwo : ofInt? 2 = some two)
    (exists_iff : ∀ {whole : ℤ} {other : Number},
      (∃ value, ofInt? whole = some value ∧ other = make value) ↔
        other.type = number.type ∧ other.value? = some (whole : ℚ))
    (returned : number.factorial =
      (orOverflow "!" (multiplyRun (fun product factor => ofInt? (toInt product * factor))
        (factorCount (toInt value)) 2 one)).map make)
    (runs_iff : ∀ products result, number.FactorialRuns products result ↔
      ∃ whole, (integerLoop toInt ofInt? value).Runs two one products whole ∧
        whole.map make = result) :
    ∃ result, number.ComesTo (1 + factorCount (toInt value)).factorial result := by
  have represents : Represents number.type make fun whole => ofInt? whole := by
    refine ⟨fun {whole value} isValue => exists_iff.mp ⟨value, isValue, rfl⟩, ?_⟩
    rintro whole ⟨other, isType, isValue⟩
    obtain ⟨value, isSome, -⟩ := exists_iff.mpr ⟨isType, isValue⟩
    exact ⟨value, isSome⟩
  refine represents.comesTo (holds.countsTo value) ?_ isOne isTwo returned runs_iff
  intro whole product factor _ isProduct
  rw [holds.some_iff.mp isProduct, Nat.cast_mul]

end OneType

theorem comesTo_int32 (value : Int32) :
    ∃ result, (Number.int32 value).ComesTo (1 + factorCount value.toInt).factorial result :=
  comesTo_of_integers holdsBelow_int32 rfl rfl exists_int32?_iff rfl fun _ _ => Iff.rfl

theorem comesTo_int64 (value : Int64) :
    ∃ result, (Number.int64 value).ComesTo (1 + factorCount value.toInt).factorial result :=
  comesTo_of_integers holdsBelow_int64 rfl rfl exists_int64?_iff rfl fun _ _ => Iff.rfl

theorem represents_decimal : Represents .decimal .decimal (Decimal.make? false · 0) where
  value_eq isDecimal := by
    have exact_ := Decimal.value_of_make? isDecimal
    exact ⟨rfl, congrArg some (by simpa [signed] using exact_)⟩
  exists_of_holds := by
    rintro whole ⟨number, isType, isValue⟩
    cases number with
    | decimal value =>
        have isWhole : value.value = (whole : ℤ) := by simpa [value?] using isValue
        have magnitude := congrArg Int.natAbs (Decimal.value_eq_intCast_iff.mp isWhole).2
        rw [Decimal.toInt, natAbs_signed, Int.natAbs_natCast] at magnitude
        have fits : whole < 2 ^ 96 :=
          lt_of_le_of_lt (magnitude ▸ Nat.div_le_self _ _) value.mantissa_lt
        exact ⟨_, Decimal.make?_of_lt false fits (by decide)⟩
    | float32 | float64 | int32 | int64 => cases isType

theorem comesTo_decimal (value : Decimal) :
    ∃ result,
      (Number.decimal value).ComesTo (1 + factorCount ⌊value.value⌋).factorial result := by
  have returned : (Number.decimal value).factorial =
      (orOverflow "!" (multiplyRun (fun product factor => do
        product.mul? (← Decimal.make? false factor 0)) (factorCount ⌊value.value⌋) 2 .one)).map
          .decimal := by
    rw [← factorCount_toInt]
    rfl
  have represents : Represents (Number.decimal value).type _ _ := represents_decimal
  exact represents.comesTo value.countsTo_multiplicationLoop Decimal.mulFactor?_of_make?
    rfl rfl returned fun _ _ => Iff.rfl

/-! ## The factorial -/

/-- The factorial of an integer or a decimal is the exact product of the whole numbers from two up
to it, in its own type, and an overflow exactly where the type does not hold this product.  The loop
ends after at most 28 products, whatever the operand, with a counter that never leaves its type. -/
theorem factorial_exact_or_overflow {number : Number} {exact_ : ℚ}
    (notFloat : number.type.isFloat = false) (isExact : number.value? = some exact_) :
    let product : ℚ := ∏ factor ∈ Finset.Icc 2 ⌊exact_⌋, (factor : ℚ)
    (number.type.Holds product → ∃ result, number.factorial = .ok result ∧
      result.type = number.type ∧ result.value? = some product) ∧
    (¬ number.type.Holds product → number.factorial = .error (.overflow "!")) ∧
    ∃ products ≤ 28, ∀ products' result, number.FactorialRuns products' result ↔
      products' = products ∧ number.factorial = orOverflow "!" result := by
  intro product
  obtain ⟨result, comesTo⟩ : ∃ result, number.ComesTo product result := by
    simp only [product, prod_Icc_two]
    cases number with
    | float32 | float64 => cases notFloat
    | int32 value =>
        obtain rfl := Option.some.inj isExact
        rw [Int.floor_intCast]
        exact comesTo_int32 value
    | int64 value =>
        obtain rfl := Option.some.inj isExact
        rw [Int.floor_intCast]
        exact comesTo_int64 value
    | decimal value =>
        obtain rfl := Option.some.inj isExact
        exact comesTo_decimal value
  refine ⟨fun holds => ?_, fun notHolds => ?_, ?_⟩
  · cases result with
    | none => exact absurd holds (comesTo.not_holds rfl)
    | some value => exact ⟨value, comesTo.returned, comesTo.value_eq value rfl⟩
  · cases result with
    | none => exact comesTo.returned
    | some value => exact absurd ⟨value, comesTo.value_eq value rfl⟩ notHolds
  · obtain ⟨products, few, runs⟩ := comesTo.runs
    refine ⟨products, few, fun products' result' => (runs _ _).trans (and_congr_right' ?_)⟩
    rw [comesTo.returned, orOverflow_inj, eq_comm]

theorem not_holds_int64_factorial {last : ℕ} (large : 21 ≤ last) :
    ¬ NumericType.int64.Holds last.factorial := by
  rintro ⟨number, isInt64, isFactorial⟩
  cases number with
  | int64 value =>
      have same : (value.toInt : ℚ) = last.factorial := Option.some.inj isFactorial
      have same : value.toInt = last.factorial := by exact_mod_cast same
      have bound := value.toInt_lt
      have grows := Nat.factorial_le large
      have : 2 ^ 63 < Nat.factorial 21 := by decide
      omega
  | float32 | float64 | decimal | int32 => cases isInt64

/-- The fraction of 27.5 is left out, and its factorial is the largest that decimals hold.  The loop
for the greatest integer overflows like any other. -/
theorem factorial_of_greatest :
    let fractional := Number.decimal ⟨false, 275, 1, by decide, by decide⟩
    let greatest := Number.int64 Int64.maxValue
    (fractional.type.isFloat = false ∧ fractional.value? = some (55 / 2) ∧
      ∃ result, fractional.factorial = .ok result ∧ result.type = .decimal ∧
        result.value? = some (Nat.factorial 27)) ∧
    greatest.type.isFloat = false ∧ greatest.value? = some (2 ^ 63 - 1) ∧
      greatest.factorial = .error (.overflow "!") ∧
        ∃ products ≤ 28, greatest.FactorialRuns products none := by
  intro fractional greatest
  have isFractional : fractional.value? = some (55 / 2) := by
    simp only [fractional, value?, Decimal.value, signed]
    norm_num
  have isGreatest : greatest.value? = some (2 ^ 63 - 1) := by
    simp only [greatest, value?, Int64.toInt_maxValue]
    norm_num
  have floor : ⌊(55 / 2 : ℚ)⌋ = 27 := by norm_num
  have floor' : ⌊(2 ^ 63 - 1 : ℚ)⌋ = 2 ^ 63 - 1 := by norm_num
  obtain ⟨returns, -, -⟩ := factorial_exact_or_overflow rfl isFractional
  obtain ⟨-, overflows, products, few, runs⟩ := factorial_exact_or_overflow rfl isGreatest
  rw [floor, prod_Icc_two] at returns
  rw [floor', prod_Icc_two] at overflows
  have holds : fractional.type.Holds (Nat.factorial 27) :=
    ⟨.decimal ⟨false, Nat.factorial 27, 0, by decide, by decide⟩, rfl, by
      simp [value?, Decimal.value, signed]⟩
  have overflow := overflows (not_holds_int64_factorial (by decide))
  exact ⟨⟨rfl, isFractional, returns holds⟩, rfl, isGreatest, overflow, products, few,
    (runs products none).mpr ⟨rfl, overflow⟩⟩

end Number

end Formula

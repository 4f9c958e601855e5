import Formula.Number.Arithmetic

/-!
# Factorials

The product of the whole numbers from two up to the operand, in the operand's own type.  It stops at
the first product that the type cannot hold.
-/

namespace Formula.Number

/-- Multiplies by `count` consecutive numbers, the first of which is `next`. -/
def multiplyRun {m : Type → Type} [Monad m] {α : Type} (times : α → Nat → m α) :
    (count next : Nat) → (product : α) → m α
  | 0, _, product => pure product
  | count + 1, next, product => do
      multiplyRun times count (next + 1) (← times product next)

/-- How many factors above one the factorial of a number with this floor has. -/
def factorCount (floor : Int) : Nat :=
  (floor - 1).toNat

/-- From 171 on the factorial exceeds every double. -/
def doubleFactorial (value : Double) : Double :=
  if value.order (Binary.ofInt 170) = .gt then
    .infinity false
  else
    let count := factorCount ((value.toInt? .floor).getD 0)
    Id.run (multiplyRun (fun product factor => pure (product.mul (Binary.ofInt factor))) count 2
      (Binary.ofInt 1))

def int32Factorial? (value : Int32) : Option Int32 :=
  multiplyRun (fun product factor => int32? (product.toInt * factor))
    (factorCount value.toInt) 2 1

def int64Factorial? (value : Int64) : Option Int64 :=
  multiplyRun (fun product factor => int64? (product.toInt * factor))
    (factorCount value.toInt) 2 1

def decimalFactorial? (value : Decimal) : Option Decimal :=
  multiplyRun (fun product factor => do product.mul? (← Decimal.make? false factor 0))
    (factorCount value.toInt) 2 Decimal.one

def orOverflow {α : Type} (operator : String) : Option α → Except Error α
  | some value => .ok value
  | none => .error (.overflow operator)

def factorial : Number → Except Error Number
  | .float32 value => .ok (.float32 ((doubleFactorial (value.convert .double)).convert .single))
  | .float64 value => .ok (.float64 (doubleFactorial value))
  | .int32 value => (orOverflow "!" (int32Factorial? value)).map .int32
  | .int64 value => (orOverflow "!" (int64Factorial? value)).map .int64
  | .decimal value => (orOverflow "!" (decimalFactorial? value)).map .decimal

end Formula.Number

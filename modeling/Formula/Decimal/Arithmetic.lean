import Formula.Decimal.Basic

/-!
# Arithmetic and order of decimals

The exact result is rounded half to even to as many places as fit; it overflows when not even its
whole part fits.  Sums have the places of the longer operand, products those of both.  A zero that
comes out of an operation has a sign only where it is said.
-/

namespace Formula.Decimal

/-- The signed mantissa at a scale that is not below the value's own. -/
def aligned (value : Decimal) (scale : Nat) : Int :=
  signed value.negative (value.mantissa * 10 ^ (scale - value.scale))

/-- A zero operand leaves the other one as it is, sign and scale included. -/
def add? (left right : Decimal) : Option Decimal :=
  if left.mantissa = 0 then
    some right
  else if right.mantissa = 0 then
    some left
  else
    let scale := max left.scale right.scale
    let total := left.aligned scale + right.aligned scale
    ofRatio? (decide (total < 0)) total.natAbs (10 ^ scale) scale

def sub? (left right : Decimal) : Option Decimal :=
  left.add? right.neg

/-- Whether the mantissa fits in 32 bits. -/
def isShort (value : Decimal) : Bool :=
  value.mantissa < 2 ^ (32 : Nat)

/-- A product of two short mantissas that rounds to zero has no sign; a longer one keeps its. -/
def mul? (left right : Decimal) : Option Decimal :=
  if left.mantissa = 0 ∨ right.mantissa = 0 then
    some zero
  else
    let scale := left.scale + right.scale
    (ofRatio? (left.negative != right.negative) (left.mantissa * right.mantissa) (10 ^ scale)
      (min maxScale scale)).map fun product =>
        if left.isShort && right.isShort then product.dropSignOfZero else product

/-- The remainder of the truncated division by a divisor other than zero.  A dividend below the
divisor is its own remainder, at its own scale. -/
def rem? (left right : Decimal) : Option Decimal :=
  let scale := max left.scale right.scale
  let dividend := (left.aligned scale).natAbs
  let divisor := (right.aligned scale).natAbs
  if left.mantissa = 0 then
    some zero
  else if dividend < divisor then
    some left
  else
    (make? left.negative (dividend % divisor) scale).map dropSignOfZero

def order (left right : Decimal) : Ordering :=
  let scale := max left.scale right.scale
  compare (left.aligned scale) (right.aligned scale)

end Formula.Decimal

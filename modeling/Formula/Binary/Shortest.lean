import Formula.Binary.Basic
import Formula.Text.Digits

/-!
# Shortest decimal text

A binary number is written with the fewest decimal digits that still read back as the number.  The
reals that round to `significand * 2 ^ exponent` form an interval around it, which holds its ends
exactly when the significand is even.  Decimal grids are tried from the coarsest on; on each of them
only the two neighbours of the number can lie in the interval.
-/

namespace Formula.Binary

/-- A positive number and its rounding interval, all in units of `2 ^ unit`. -/
structure Neighbourhood where
  value : Nat
  below : Nat
  above : Nat
  unit : Int
  closed : Bool
deriving Repr

/-- The gap below a power of two is half as wide as the gap above it. -/
def neighbourhood (format : Format) (significand : Nat) (exponent : Int) : Neighbourhood where
  value := 4 * significand
  below := if significand = 2 ^ (format.precision - 1) then 1 else 2
  above := 2
  unit := exponent - 2
  closed := significand % 2 == 0

namespace Neighbourhood

/-- The three-way comparison of `digits * 10 ^ exponent` with `count * 2 ^ unit`. -/
def compareGrid (unit : Int) (digits : Nat) (exponent : Int) (count : Nat) : Ordering :=
  compare (digits * 10 ^ exponent.toNat * 2 ^ (-unit).toNat)
    (count * 2 ^ unit.toNat * 10 ^ (-exponent).toNat)

def contains (around : Neighbourhood) (digits : Nat) (exponent : Int) : Bool :=
  let lower := compareGrid around.unit digits exponent (around.value - around.below)
  let upper := compareGrid around.unit digits exponent (around.value + around.above)
  if around.closed then lower != .lt && upper != .gt else lower == .gt && upper == .lt

/-- The largest member of the decimal grid that is not above the number. -/
def gridFloor (around : Neighbourhood) (exponent : Int) : Nat :=
  (around.value * 2 ^ around.unit.toNat * 10 ^ (-exponent).toNat) /
    (10 ^ exponent.toNat * 2 ^ (-around.unit).toNat)

/-- Whether the number lies strictly nearer to `digits` than to `digits + 1`. -/
def nearerBelow (around : Neighbourhood) (digits : Nat) (exponent : Int) : Bool :=
  compareGrid around.unit (2 * digits + 1) exponent (2 * around.value) == .gt

/-- The point of the grid that reads back as the number: the nearer one if both neighbours do, and
the upper one on a tie. -/
def onGrid? (around : Neighbourhood) (exponent : Int) : Option Nat :=
  let low := around.gridFloor exponent
  match around.contains low exponent, around.contains (low + 1) exponent with
  | true, true => some (if around.nearerBelow low exponent then low else low + 1)
  | true, false => some low
  | false, true => some (low + 1)
  | false, false => none

/-- Tries the grid of `exponent` and the next finer ones. -/
def search (around : Neighbourhood) : (attempts : Nat) → (exponent : Int) → Nat × Int
  | 0, exponent => (around.gridFloor exponent, exponent)
  | attempts + 1, exponent =>
      match around.onGrid? exponent with
      | some digits => (digits, exponent)
      | none => around.search attempts (exponent - 1)

end Neighbourhood

/-- An exponent with `numerator / denominator < 10 ^ decade`, close to the smallest one. -/
def decade (numerator denominator : Nat) : Int :=
  (binaryOrder numerator denominator + 1) * 30103 / 100000 + 1

/-- The decimal digits and exponent that a positive number is written with. -/
def shortest (format : Format) (significand : Nat) (exponent : Int) : Nat × Int :=
  (neighbourhood format significand exponent).search format.precision
    (decade (significand * 2 ^ exponent.toNat) (2 ^ (-exponent).toNat))

variable {format : Format}

def text : Binary format → String
  | .nan => "NaN"
  | .infinity negative => if negative then "-inf" else "inf"
  | .finite negative significand exponent _ =>
      if significand = 0 then
        Text.positional negative 0 0
      else
        let (digits, place) := shortest format significand exponent
        Text.positional negative digits place

end Formula.Binary

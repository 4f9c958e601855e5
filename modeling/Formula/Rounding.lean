/-!
# Rounding a quotient

Exact results are quotients of natural numbers with a sign.  A rounding says which of the two
neighbouring whole numbers stands for such a quotient.
-/

namespace Formula

-- Powers of natural numbers are the built-in ones, whatever others are in scope.
attribute [scoped instance (high)] instPowNat

inductive Rounding where
  | nearestEven
  | nearestAway
  | floor
  | ceiling
  | truncate
deriving DecidableEq, Repr

namespace Rounding

/-- Whether a quotient with the given whole part and remainder moves away from zero. -/
def movesAway (rounding : Rounding) (negative : Bool) (whole rest denominator : Nat) : Bool :=
  match rounding with
  | .nearestEven =>
      denominator < 2 * rest || (denominator == 2 * rest && whole % 2 == 1)
  | .nearestAway => denominator ≤ 2 * rest
  | .floor => negative && rest != 0
  | .ceiling => !negative && rest != 0
  | .truncate => false

/-- The magnitude of the whole number that stands for `± numerator / denominator`. -/
def magnitude (rounding : Rounding) (negative : Bool) (numerator denominator : Nat) : Nat :=
  let whole := numerator / denominator
  if rounding.movesAway negative whole (numerator % denominator) denominator then
    whole + 1
  else
    whole

theorem le_magnitude (rounding : Rounding) (negative : Bool) (numerator denominator : Nat) :
    numerator / denominator ≤ rounding.magnitude negative numerator denominator := by
  unfold magnitude
  dsimp only
  split <;> omega

theorem magnitude_le (rounding : Rounding) (negative : Bool) (numerator denominator : Nat) :
    rounding.magnitude negative numerator denominator ≤ numerator / denominator + 1 := by
  unfold magnitude
  dsimp only
  split <;> omega

theorem magnitude_one (rounding : Rounding) (negative : Bool) (numerator : Nat) :
    rounding.magnitude negative numerator 1 = numerator := by
  cases rounding <;> simp [magnitude, movesAway, Nat.mod_one]

end Rounding

/-- The integer with the given sign and magnitude. -/
def signed (negative : Bool) (magnitude : Nat) : Int :=
  if negative then -(magnitude : Int) else magnitude

end Formula

import Formula.Rounding

/-!
# Binary floating-point numbers

A finite number of a binary format is a sign and a product `significand * 2 ^ exponent`.  It has one
written form, so two numbers are the same exactly when their fields are.  Every operation computes
its exact result as a quotient and rounds it once, to the nearest member of the format and on a tie
to the even significand.
-/

namespace Formula

/-- Significands have at most `precision` bits; the smallest exponent belongs to the numbers that
have fewer. -/
structure Binary.Format where
  precision : Nat
  minExponent : Int
  maxExponent : Int
  ordered : minExponent ≤ maxExponent
deriving DecidableEq, Repr

namespace Binary.Format

def single : Format := ⟨24, -149, 104, by decide⟩

def double : Format := ⟨53, -1074, 971, by decide⟩

/-- `significand * 2 ^ exponent` is the written form of a number of the format. -/
def Admits (format : Format) (significand : Nat) (exponent : Int) : Prop :=
  significand < 2 ^ format.precision ∧
    format.minExponent ≤ exponent ∧ exponent ≤ format.maxExponent ∧
    (2 ^ (format.precision - 1) ≤ significand ∨ exponent = format.minExponent)

instance (format : Format) (significand : Nat) (exponent : Int) :
    Decidable (format.Admits significand exponent) :=
  inferInstanceAs (Decidable (_ ∧ _ ∧ _ ∧ _))

theorem admits_zero (format : Format) : format.Admits 0 format.minExponent :=
  ⟨Nat.two_pow_pos _, Int.le_refl _, format.ordered, .inr rfl⟩

end Binary.Format

inductive Binary (format : Binary.Format) where
  | nan
  | infinity (negative : Bool)
  | finite (negative : Bool) (significand : Nat) (exponent : Int)
      (admitted : format.Admits significand exponent)
deriving DecidableEq

abbrev Single := Binary .single

abbrev Double := Binary .double

namespace Binary

variable {format : Format}

def zero (negative : Bool) : Binary format :=
  .finite negative 0 format.minExponent format.admits_zero

/-- The number with the given fields.  Fields of a larger number than the format has stand for
infinity. -/
def ofFields (negative : Bool) (significand : Nat) (exponent : Int) : Binary format :=
  if admitted : format.Admits significand exponent then
    .finite negative significand exponent admitted
  else
    .infinity negative

/-- The largest `order` with `2 ^ order ≤ numerator / denominator`, for a positive quotient. -/
def binaryOrder (numerator denominator : Nat) : Int :=
  let order : Int := numerator.log2 - denominator.log2
  if denominator * 2 ^ order.toNat ≤ numerator * 2 ^ (-order).toNat then order else order - 1

/-- The member of the format nearest to `± numerator / denominator`. -/
def ofRatio (negative : Bool) (numerator denominator : Nat) : Binary format :=
  if numerator = 0 then
    zero negative
  else
    let exponent := max format.minExponent
      (binaryOrder numerator denominator - (format.precision - 1 : Nat))
    let significand := Rounding.nearestEven.magnitude negative
      (numerator * 2 ^ (-exponent).toNat) (denominator * 2 ^ exponent.toNat)
    if significand = 2 ^ format.precision then
      ofFields negative (2 ^ (format.precision - 1)) (exponent + 1)
    else
      ofFields negative significand exponent

/-- The member of the format nearest to `± significand * 2 ^ exponent`. -/
def ofScaled (negative : Bool) (significand : Nat) (exponent : Int) : Binary format :=
  ofRatio negative (significand * 2 ^ exponent.toNat) (2 ^ (-exponent).toNat)

def ofInt (value : Int) : Binary format :=
  ofScaled (decide (value < 0)) value.natAbs 0

/-- The nearest number of another format. -/
def convert (target : Format) : Binary format → Binary target
  | .nan => .nan
  | .infinity negative => .infinity negative
  | .finite negative significand exponent _ => ofScaled negative significand exponent

def isNaN : Binary format → Bool
  | .nan => true
  | _ => false

def isZero : Binary format → Bool
  | .finite _ significand _ _ => significand == 0
  | _ => false

def neg : Binary format → Binary format
  | .nan => .nan
  | .infinity negative => .infinity !negative
  | .finite negative significand exponent admitted =>
      .finite (!negative) significand exponent admitted

def abs : Binary format → Binary format
  | .nan => .nan
  | .infinity _ => .infinity false
  | .finite _ significand exponent admitted => .finite false significand exponent admitted

end Binary

end Formula

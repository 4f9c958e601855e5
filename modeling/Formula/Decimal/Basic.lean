import Formula.Rounding
import Formula.Text.Digits

/-!
# Decimal numbers

A decimal is a sign, a mantissa of at most 96 bits and a scale of at most 28 places.  Equal values
may be written with different scales; `normalize` chooses the smallest.
-/

namespace Formula

/-- The value is `± mantissa / 10 ^ scale`. -/
structure Decimal where
  negative : Bool
  mantissa : Nat
  scale : Nat
  mantissa_lt : mantissa < 2 ^ (96 : Nat)
  scale_le : scale ≤ 28
deriving DecidableEq

namespace Decimal

def maxScale : Nat := 28

def zero : Decimal := ⟨false, 0, 0, by decide, by decide⟩

def one : Decimal := ⟨false, 1, 0, by decide, by decide⟩

def make? (negative : Bool) (mantissa scale : Nat) : Option Decimal :=
  if bounds : mantissa < 2 ^ (96 : Nat) ∧ scale ≤ 28 then
    some ⟨negative, mantissa, scale, bounds.1, bounds.2⟩
  else
    none

/-- The nearest decimal to `± numerator / denominator` with the most places up to `scale` that
leave a mantissa of 96 bits. -/
def ofRatio? (negative : Bool) (numerator denominator : Nat) : (scale : Nat) → Option Decimal
  | 0 => make? negative (Rounding.nearestEven.magnitude negative numerator denominator) 0
  | scale + 1 =>
      match make? negative
          (Rounding.nearestEven.magnitude negative (numerator * 10 ^ (scale + 1)) denominator)
          (scale + 1) with
      | some value => some value
      | none => ofRatio? negative numerator denominator scale

theorem natAbs_toInt_lt (value : Int64) : value.toInt.natAbs < 2 ^ (96 : Nat) := by
  have lower := value.le_toInt
  have upper := value.toInt_lt
  omega

def ofInt64 (value : Int64) : Decimal :=
  ⟨decide (value.toInt < 0), value.toInt.natAbs, 0, natAbs_toInt_lt value, by decide⟩

def isZero (value : Decimal) : Bool :=
  value.mantissa == 0

def isWhole (value : Decimal) : Bool :=
  value.mantissa % 10 ^ value.scale == 0

def abs (value : Decimal) : Decimal :=
  { value with negative := false }

/-- Zero keeps its sign. -/
def neg (value : Decimal) : Decimal :=
  if value.mantissa = 0 then value else { value with negative := !value.negative }

def dropSignOfZero (value : Decimal) : Decimal :=
  { value with negative := value.negative && value.mantissa != 0 }

/-- The whole part, without the fraction. -/
def toInt (value : Decimal) : Int :=
  signed value.negative (value.mantissa / 10 ^ value.scale)

theorem magnitude_lt (rounding : Rounding) (value : Decimal) :
    rounding.magnitude value.negative value.mantissa (10 ^ value.scale) < 2 ^ (96 : Nat) := by
  have bound := value.mantissa_lt
  cases scale : value.scale with
  | zero => simpa [Rounding.magnitude_one] using bound
  | succ places =>
      have upper := rounding.magnitude_le value.negative value.mantissa (10 ^ (places + 1))
      have tenth : value.mantissa / 10 ^ (places + 1) ≤ value.mantissa / 10 := by
        apply Nat.div_le_div_left _ (by decide)
        have := Nat.pow_le_pow_right (n := 10) (by decide) (Nat.le_add_left 1 places)
        omega
      omega

/-- The whole number that stands for the value under a rounding. -/
def integral (rounding : Rounding) (value : Decimal) : Decimal :=
  ⟨value.negative, rounding.magnitude value.negative value.mantissa (10 ^ value.scale), 0,
    magnitude_lt rounding value, by decide⟩

/-- Drops places while the last of them is zero. -/
def dropPlaces (mantissa : Nat) : (scale : Nat) → Nat × Nat
  | 0 => (mantissa, 0)
  | scale + 1 =>
      if mantissa % 10 = 0 then dropPlaces (mantissa / 10) scale else (mantissa, scale + 1)

theorem dropPlaces_le (mantissa scale : Nat) :
    (dropPlaces mantissa scale).1 ≤ mantissa ∧ (dropPlaces mantissa scale).2 ≤ scale := by
  induction scale generalizing mantissa with
  | zero => simp [dropPlaces]
  | succ scale ih =>
      unfold dropPlaces
      split
      · have bound := ih (mantissa / 10)
        omega
      · simp

/-- The same value with the fewest places; zero loses its sign. -/
def normalize (value : Decimal) : Decimal :=
  ⟨value.negative && value.mantissa != 0,
    (dropPlaces value.mantissa value.scale).1, (dropPlaces value.mantissa value.scale).2,
    Nat.lt_of_le_of_lt (dropPlaces_le _ _).1 value.mantissa_lt,
    Nat.le_trans (dropPlaces_le _ _).2 value.scale_le⟩

/-- All places of the scale are written, also zeros. -/
def text (value : Decimal) : String :=
  Text.positional value.negative value.mantissa (-value.scale)

end Decimal

end Formula

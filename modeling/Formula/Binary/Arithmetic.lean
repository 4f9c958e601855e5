import Formula.Binary.Basic

/-!
# Arithmetic and order of binary numbers

Two finite numbers are brought to the smaller of their exponents, where they are integers; the
result is computed there and rounded once.
-/

namespace Formula.Binary

variable {format : Format}

/-- The signed significand of a finite number counted in units of `2 ^ unit`, for a unit that is not
above the number's exponent. -/
def aligned (negative : Bool) (significand : Nat) (exponent unit : Int) : Int :=
  signed negative (significand * 2 ^ (exponent - unit).toNat)

/-- A sum that is exactly zero is negative only when both terms are. -/
def add : Binary format → Binary format → Binary format
  | .nan, _ => .nan
  | _, .nan => .nan
  | .infinity left, .infinity right => if left = right then .infinity left else .nan
  | .infinity left, .finite .. => .infinity left
  | .finite .., .infinity right => .infinity right
  | .finite left m e _, .finite right n d _ =>
      let unit := min e d
      let total := aligned left m e unit + aligned right n d unit
      if total = 0 then zero (left && right)
      else ofScaled (decide (total < 0)) total.natAbs unit

def sub (left right : Binary format) : Binary format :=
  left.add right.neg

def mul : Binary format → Binary format → Binary format
  | .nan, _ => .nan
  | _, .nan => .nan
  | .infinity left, .infinity right => .infinity (left != right)
  | .infinity left, .finite right n _ _ => if n = 0 then .nan else .infinity (left != right)
  | .finite left m _ _, .infinity right => if m = 0 then .nan else .infinity (left != right)
  | .finite left m e _, .finite right n d _ => ofScaled (left != right) (m * n) (e + d)

def div : Binary format → Binary format → Binary format
  | .nan, _ => .nan
  | _, .nan => .nan
  | .infinity _, .infinity _ => .nan
  | .infinity left, .finite right _ _ _ => .infinity (left != right)
  | .finite left _ _ _, .infinity right => zero (left != right)
  | .finite left m e _, .finite right n d _ =>
      if n = 0 then
        if m = 0 then .nan else .infinity (left != right)
      else
        ofRatio (left != right) (m * 2 ^ (e - d).toNat) (n * 2 ^ (d - e).toNat)

/-- The remainder of the division truncated toward zero, with the sign of the dividend. -/
def rem : Binary format → Binary format → Binary format
  | .nan, _ => .nan
  | _, .nan => .nan
  | .infinity _, _ => .nan
  | .finite negative m e admitted, .infinity _ => .finite negative m e admitted
  | .finite negative m e _, .finite _ n d _ =>
      if n = 0 then
        .nan
      else
        let unit := min e d
        ofScaled negative ((m * 2 ^ (e - unit).toNat) % (n * 2 ^ (d - unit).toNat)) unit

/-- The order in which NaN stands below every other number and is equal to itself. -/
def order : Binary format → Binary format → Ordering
  | .nan, .nan => .eq
  | .nan, _ => .lt
  | _, .nan => .gt
  | .infinity left, .infinity right => compare right left
  | .infinity left, .finite .. => if left then .lt else .gt
  | .finite .., .infinity right => if right then .gt else .lt
  | .finite left m e _, .finite right n d _ =>
      let unit := min e d
      compare (aligned left m e unit) (aligned right n d unit)

/-- The whole number that stands for a finite number under a rounding. -/
def toInt? (rounding : Rounding) : Binary format → Option Int
  | .finite negative significand exponent _ =>
      some (signed negative (rounding.magnitude negative
        (significand * 2 ^ exponent.toNat) (2 ^ (-exponent).toNat)))
  | _ => none

/-- A number rounded to a whole number of the same format and sign. -/
def integral (rounding : Rounding) : Binary format → Binary format
  | .finite negative significand exponent _ =>
      ofScaled negative (rounding.magnitude negative
        (significand * 2 ^ exponent.toNat) (2 ^ (-exponent).toNat)) 0
  | value => value

end Formula.Binary

import Formula.Binary.Basic

/-!
# Reading decimal numbers

The nearest binary number to `digits * 10 ^ exponent`.  An exponent far outside the format is
settled without computing the power of ten.
-/

namespace Formula.Binary

variable {format : Format}

/-- Since `10 ^ e` is at least `2 ^ e`, an exponent above the format's range gives infinity; and
since a number has at most `log2 / 3 + 1` decimal digits, one far below gives zero. -/
def ofDecimal (negative : Bool) (digits : Nat) (exponent : Int) : Binary format :=
  if digits = 0 then
    zero negative
  else if format.maxExponent + format.precision < exponent then
    .infinity negative
  else if exponent + (digits.log2 / 3 + 1 : Nat) < format.minExponent - 1 then
    zero negative
  else
    ofRatio negative (digits * 10 ^ exponent.toNat) (10 ^ (-exponent).toNat)

end Formula.Binary

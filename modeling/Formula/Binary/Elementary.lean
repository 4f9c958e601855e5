import Formula.Binary.Basic

/-!
# Elementary functions

The elementary functions are those of the platform.  A number crosses over as the 64 bits of its
interchange encoding: sign, eleven bits of biased exponent, and the significand without its leading
bit.
-/

namespace Formula.Binary

def fractionBits : Nat := 52

def exponentBits : Nat := 11

/-- Infinities and NaN have the largest biased exponent. -/
def specialExponent : Nat := 2047

/-- The biased exponent of a number is its exponent plus the bias. -/
def exponentBias : Nat := 1075

def signBit (negative : Bool) : Nat :=
  if negative then 2 ^ (fractionBits + exponentBits) else 0

def toBits : Double → Nat
  | .nan => specialExponent * 2 ^ fractionBits + 2 ^ (fractionBits - 1)
  | .infinity negative => signBit negative + specialExponent * 2 ^ fractionBits
  | .finite negative significand exponent _ =>
      if significand < 2 ^ fractionBits then
        signBit negative + significand
      else
        signBit negative + (exponent + exponentBias).toNat * 2 ^ fractionBits +
          (significand - 2 ^ fractionBits)

def ofBits (bits : Nat) : Double :=
  let negative := 2 ^ (fractionBits + exponentBits) ≤ bits
  let biased := bits / 2 ^ fractionBits % 2 ^ exponentBits
  let fraction := bits % 2 ^ fractionBits
  if biased = specialExponent then
    if fraction = 0 then .infinity negative else .nan
  else if biased = 0 then
    ofFields negative fraction Binary.Format.double.minExponent
  else
    ofFields negative (fraction + 2 ^ fractionBits) (biased - exponentBias)

def toFloat (value : Double) : Float :=
  Float.ofBits (UInt64.ofNat (toBits value))

def ofFloat (value : Float) : Double :=
  ofBits value.toBits.toNat

def applyFloat (function : Float → Float) (value : Double) : Double :=
  ofFloat (function value.toFloat)

def applyFloat₂ (function : Float → Float → Float) (left right : Double) : Double :=
  ofFloat (function left.toFloat right.toFloat)

def sqrt : Double → Double := applyFloat Float.sqrt

def exp : Double → Double := applyFloat Float.exp

def log : Double → Double := applyFloat Float.log

def log2 : Double → Double := applyFloat Float.log2

def log10 : Double → Double := applyFloat Float.log10

def sin : Double → Double := applyFloat Float.sin

def cos : Double → Double := applyFloat Float.cos

def tan : Double → Double := applyFloat Float.tan

def asin : Double → Double := applyFloat Float.asin

def acos : Double → Double := applyFloat Float.acos

def atan : Double → Double := applyFloat Float.atan

def sinh : Double → Double := applyFloat Float.sinh

def cosh : Double → Double := applyFloat Float.cosh

def tanh : Double → Double := applyFloat Float.tanh

def atan2 : Double → Double → Double := applyFloat₂ Float.atan2

def pow : Double → Double → Double := applyFloat₂ Float.pow

end Formula.Binary

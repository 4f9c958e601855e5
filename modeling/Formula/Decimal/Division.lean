import Formula.Decimal.Arithmetic

/-!
# Division of decimals

The mantissas are divided with remainder, and the quotient is extended by up to nine places at a
time until nothing remains or no place is left.  The scale where that stops is the scale of the
result, less the zeros at its end that are dropped in blocks.
-/

namespace Formula.Decimal

/-! ## Where the division stops -/

/-- The most places, up to a limit, that a mantissa can be extended by. -/
def room (mantissa : Nat) : (limit : Nat) → Nat
  | 0 => 0
  | limit + 1 =>
      if mantissa * 10 ^ (limit + 1) < 2 ^ (96 : Nat) then limit + 1 else room mantissa limit

/-- The scale at which `quotient + remainder / divisor`, at a given scale, is extended no more. -/
def stoppingScale (divisor : Nat) :
    (steps : Nat) → (quotient remainder : Nat) → (scale : Int) → Int
  | 0, _, _, scale => scale
  | steps + 1, quotient, remainder, scale =>
      let places := room quotient (min 9 (maxScale - scale).toNat)
      if remainder = 0 ∨ places = 0 then
        scale
      else
        stoppingScale divisor steps
          (quotient * 10 ^ places + remainder * 10 ^ places / divisor)
          (remainder * 10 ^ places % divisor) (scale + places)

/-! ## Zeros at the end -/

def dropBlock (places : Nat) (value : Decimal) : Decimal :=
  if places ≤ value.scale ∧ value.mantissa % 10 ^ places = 0 then
    ⟨value.negative, value.mantissa / 10 ^ places, value.scale - places,
      Nat.lt_of_le_of_lt (Nat.div_le_self _ _) value.mantissa_lt,
      Nat.le_trans (Nat.sub_le _ _) value.scale_le⟩
  else
    value

/-- A block of eight places is dropped only where the lowest 32 bits are zero. -/
def dropLongBlock (value : Decimal) : Decimal :=
  if value.mantissa % 2 ^ (32 : Nat) = 0 then value.dropBlock 8 else value

/-- Drops blocks of eight places, then at most one block each of four, two and one.  Some zeros may
stay. -/
def dropBlocks (value : Decimal) : Decimal :=
  let shortened := value.dropLongBlock.dropLongBlock.dropLongBlock
  ((shortened.dropBlock 4).dropBlock 2).dropBlock 1

/-! ## Quotients -/

/-- The quotient for a divisor other than zero.  A division of the mantissas that comes out even
keeps the difference of the scales. -/
def div? (left right : Decimal) : Option Decimal :=
  if left.mantissa = 0 then
    some zero
  else
    let quotient := left.mantissa / right.mantissa
    let remainder := left.mantissa % right.mantissa
    let scale : Int := left.scale - right.scale
    let stop := stoppingScale right.mantissa (maxScale - scale).toNat quotient remainder scale
    (ofRatio? (left.negative != right.negative) (left.mantissa * 10 ^ right.scale)
      (right.mantissa * 10 ^ left.scale) stop.toNat).map fun value =>
        if remainder = 0 then value else value.dropBlocks.dropSignOfZero

end Formula.Decimal

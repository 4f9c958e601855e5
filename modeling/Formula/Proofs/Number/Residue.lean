import Formula.Number.Arithmetic
import Formula.Proofs.Number.Value
import Mathlib.Data.Int.ModEq

/-!
# Residues

Numbers of an integer type stand for the residues modulo two to the width of the type: each residue
has one number, and sums, differences and products are those of the residues.
-/

namespace Formula.Number

/-- The number of the integer type that is congruent to the integer, modulo two to the width of the
type. -/
inductive IsResidue : NumericType → ℤ → Number → Prop
  | int32 {whole : ℤ} (number : Int32) (congruent : number.toInt ≡ whole [ZMOD 2 ^ 32]) :
      IsResidue .int32 whole (.int32 number)
  | int64 {whole : ℤ} (number : Int64) (congruent : number.toInt ≡ whole [ZMOD 2 ^ 64]) :
      IsResidue .int64 whole (.int64 number)

theorem bmod_modEq (whole : ℤ) (width : ℕ) : whole.bmod (2 ^ width) ≡ whole [ZMOD 2 ^ width] := by
  have same := @Int.bmod_emod whole (2 ^ width)
  push_cast at same
  exact same

namespace IsResidue

variable {target : NumericType} {whole whole' : ℤ} {number number' : Number}

theorem type_eq (residue : IsResidue target whole number) : number.type = target := by
  cases residue with
  | int32 | int64 => rfl

theorem of_value? (integer : number.type.isInteger = true)
    (isWhole : number.value? = some (whole : ℚ)) : IsResidue number.type whole number := by
  cases number with
  | int32 number =>
      obtain rfl : number.toInt = whole := by simpa [value?] using isWhole
      exact .int32 number rfl
  | int64 number =>
      obtain rfl : number.toInt = whole := by simpa [value?] using isWhole
      exact .int64 number rfl
  | float32 | float64 | decimal => cases integer

theorem unique (residue : IsResidue target whole number)
    (residue' : IsResidue target whole number') : number = number' := by
  cases residue with
  | int32 first congruent =>
      cases residue' with
      | int32 second congruent' =>
          have same : first.toInt % 2 ^ 32 = second.toInt % 2 ^ 32 :=
            congruent.trans congruent'.symm
          have := first.le_toInt
          have := first.toInt_lt
          have := second.le_toInt
          have := second.toInt_lt
          rw [Int32.toInt.inj (by omega : first.toInt = second.toInt)]
  | int64 first congruent =>
      cases residue' with
      | int64 second congruent' =>
          have same : first.toInt % 2 ^ 64 = second.toInt % 2 ^ 64 :=
            congruent.trans congruent'.symm
          have := first.le_toInt
          have := first.toInt_lt
          have := second.le_toInt
          have := second.toInt_lt
          rw [Int64.toInt.inj (by omega : first.toInt = second.toInt)]

theorem zero (integer : target.isInteger = true) : IsResidue target 0 (Number.zero target) := by
  cases target with
  | int32 => exact .int32 0 rfl
  | int64 => exact .int64 0 rfl
  | float32 | float64 | decimal => cases integer

/-! ## Operations -/

/-- An operation that wraps its exact result around gives the residue of the exact result. -/
theorem of_wrapping {compute : Number → Number → Except Error Number} {exact_ : ℤ → ℤ → ℤ}
    {compute32 : Int32 → Int32 → Int32} {compute64 : Int64 → Int64 → Int64}
    (is32 : ∀ first second, compute (.int32 first) (.int32 second) =
      .ok (.int32 (compute32 first second)))
    (is64 : ∀ first second, compute (.int64 first) (.int64 second) =
      .ok (.int64 (compute64 first second)))
    (wraps32 : ∀ first second, (compute32 first second).toInt =
      (exact_ first.toInt second.toInt).bmod (2 ^ 32))
    (wraps64 : ∀ first second, (compute64 first second).toInt =
      (exact_ first.toInt second.toInt).bmod (2 ^ 64))
    (respects : ∀ {modulus first first' second second' : ℤ}, first ≡ first' [ZMOD modulus] →
      second ≡ second' [ZMOD modulus] → exact_ first second ≡ exact_ first' second' [ZMOD modulus])
    (residue : IsResidue target whole number) (residue' : IsResidue target whole' number') :
    ∃ result, compute number number' = .ok result ∧
      IsResidue target (exact_ whole whole') result := by
  cases residue with
  | int32 first congruent =>
      cases residue' with
      | int32 second congruent' =>
          refine ⟨_, is32 first second, .int32 _ ?_⟩
          rw [wraps32]
          exact (bmod_modEq _ 32).trans (respects congruent congruent')
  | int64 first congruent =>
      cases residue' with
      | int64 second congruent' =>
          refine ⟨_, is64 first second, .int64 _ ?_⟩
          rw [wraps64]
          exact (bmod_modEq _ 64).trans (respects congruent congruent')

theorem add (residue : IsResidue target whole number)
    (residue' : IsResidue target whole' number') :
    ∃ sum, number.add number' = .ok sum ∧ IsResidue target (whole + whole') sum :=
  of_wrapping (fun _ _ => rfl) (fun _ _ => rfl) Int32.toInt_add Int64.toInt_add Int.ModEq.add
    residue residue'

theorem sub (residue : IsResidue target whole number)
    (residue' : IsResidue target whole' number') :
    ∃ difference, number.sub number' = .ok difference ∧
      IsResidue target (whole - whole') difference :=
  of_wrapping (fun _ _ => rfl) (fun _ _ => rfl) Int32.toInt_sub Int64.toInt_sub Int.ModEq.sub
    residue residue'

theorem mul (residue : IsResidue target whole number)
    (residue' : IsResidue target whole' number') :
    ∃ product, number.mul number' = .ok product ∧
      IsResidue target (whole * whole') product :=
  of_wrapping (fun _ _ => rfl) (fun _ _ => rfl) Int32.toInt_mul Int64.toInt_mul Int.ModEq.mul
    residue residue'

end IsResidue

end Formula.Number

import Formula.Proofs.Expr.Induction
import Formula.Proofs.Expr.Stages

/-!
# Heights of expressions

How deep the nodes of an expression lie.  A sequence that is built within a number of levels gives
an expression that is less high, so what compiles under a nesting limit is at most that high.
-/

namespace Formula.Expr

mutual

/-- A leaf has height zero; operands and arguments lie one deeper than their node. -/
def height : Expr → Nat
  | .number .. => 0
  | .string .. => 0
  | .identifier .. => 0
  | .call _ _ arguments => argumentsHeight arguments
  | .operation _ _ left right => max (operandHeight left) (operandHeight right)

def operandHeight : Option Expr → Nat
  | none => 0
  | some expr => expr.height + 1

def argumentsHeight : List (Option Expr) → Nat
  | [] => 0
  | argument :: arguments => max (operandHeight argument) (argumentsHeight arguments)

end

theorem argumentsHeight_le_iff {arguments : List (Option Expr)} {bound : Nat} :
    argumentsHeight arguments ≤ bound ↔ ∀ argument ∈ arguments, operandHeight argument ≤ bound := by
  induction arguments with
  | nil => simp [argumentsHeight]
  | cons argument arguments ih =>
      rw [argumentsHeight, Nat.max_le, ih, List.forall_mem_cons]

theorem height_lt_of_child {expr child : Expr} {place : Place}
    (given : expr.child place = some child) : child.height < expr.height := by
  cases expr with
  | number | string | identifier => cases given
  | call name position arguments =>
      cases place with
      | left | right => cases given
      | argument index =>
          exact argumentsHeight_le_iff.mp (Nat.le_refl _) _ (mem_of_join_eq_some given)
  | operation operator position left right =>
      cases place with
      | left =>
          cases given
          exact Nat.le_max_left _ _
      | right =>
          cases given
          exact Nat.le_max_right _ _
      | argument index => cases given

theorem Builds.height_lt {grammar : Grammar} {levels : Nat} {trees : List TokenTree}
    {expr : Expr} (builds : Builds grammar levels trees expr) : expr.height < levels := by
  induction builds with
  | prefixed _ _ _ ih =>
      simp only [height, operandHeight]
      omega
  | suffixed _ _ _ ih =>
      simp only [height, operandHeight]
      omega
  | infixed _ _ _ _ ihLeft ihRight =>
      simp only [height, operandHeight]
      omega
  | negated _ _ _ ih =>
      -- The zero in front is a node that takes no level of its own.
      simp only [height, operandHeight]
      omega
  | plain _ _ _ ih => omega
  | @leaf levels token expr isOperand =>
      unfold ofLeaf fail at isOperand
      split at isOperand <;> cases isOperand <;> simp [height]
  | group _ ih => omega
  | @call levels _ _ _ values same _ ih =>
      have bounded : argumentsHeight values ≤ levels := by
        refine argumentsHeight_le_iff.mpr fun value member => ?_
        cases value with
        | none => simp [operandHeight]
        | some value =>
            obtain ⟨argument, listed⟩ := exists_mem_zip same member
            exact ih _ _ listed
      simp only [height]
      omega

/-- The nodes of an expression lie no deeper than the limit that its text was compiled under. -/
theorem height_le_of_ofText {grammar : Grammar} {maxDepth : Nat} {text : String} {expr : Expr}
    (compiles : ofText grammar maxDepth text = .ok expr) : expr.height ≤ maxDepth := by
  obtain ⟨-, _, _, -, -, builds⟩ := ofText_eq_ok_iff.mp compiles
  have := builds.height_lt
  omega

end Formula.Expr

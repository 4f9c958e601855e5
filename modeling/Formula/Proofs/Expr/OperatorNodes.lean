import Formula.Proofs.Expr.Operations
import Formula.Proofs.Expr.Precedence
import Formula.Proofs.Expr.Stages
import Formula.Proofs.Operators.Failures

/-!
# Operator nodes of the standard grammar

The builder and the operations agree: of the spellings of the standard grammar, the builder gives
each its operands on the sides where there is an operation that takes them.
-/

namespace Formula.Expr

open Operators (Knows)

/-- There is an operation for every operator node. -/
def HasKnownOperators (expr : Expr) : Prop :=
  ∀ operator position left right, .operation operator position left right ∈ expr.nodes →
    Knows operator left.isSome right.isSome

/-- A binary operator of the standard grammar has an operation for two operands. -/
theorem knows_of_split? {trees : List TokenTree} {split : Split}
    (splits : split? .standard trees = some split) (binary : IsBinary .standard split.operator) :
    Knows split.operator true true := by
  obtain ⟨_, tier, -, -, -, member, -⟩ := sides_of_split?_standard splits
  obtain ⟨looser, tighter, same, -⟩ := standardTiers_of_mem member
  refine .binary ?_ (isBinary_standard.mp binary)
  rw [same, List.flatten_append, List.flatten_cons]
  exact List.mem_append_right _ (List.mem_append_left _ member)

theorem Builds.hasKnownOperators {levels : Nat} {trees : List TokenTree} {expr : Expr}
    (builds : Builds .standard levels trees expr) : expr.HasKnownOperators := by
  refine builds.everyOperation ?_ ?_ fun _ _ _ _ splits binary => knows_of_split? splits binary
  · intro operator operand isPrefix
    rw [prefixOperator_standard.mp isPrefix]
    exact .negation
  · intro operator operand isSuffix
    rw [suffixOperator_standard.mp isSuffix]
    exact .factorial

theorem hasKnownOperators_of_ofText {maxDepth : Nat} {text : String} {expr : Expr}
    (compiles : ofText .standard maxDepth text = .ok expr) : expr.HasKnownOperators := by
  obtain ⟨-, _, _, -, -, builds⟩ := ofText_eq_ok_iff.mp compiles
  exact builds.hasKnownOperators

end Formula.Expr

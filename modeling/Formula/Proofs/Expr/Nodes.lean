import Formula.Expr.Basic

/-!
# The nodes of an expression
-/

namespace Formula.Expr

mutual

/-- The expression itself and every expression in it. -/
def nodes : Expr → List Expr
  | .number text position => [.number text position]
  | .string content position => [.string content position]
  | .identifier name position => [.identifier name position]
  | .call name position arguments => .call name position arguments :: argumentNodes arguments
  | .operation operator position left right =>
      .operation operator position left right :: (operandNodes left ++ operandNodes right)

def operandNodes : Option Expr → List Expr
  | none => []
  | some expr => expr.nodes

def argumentNodes : List (Option Expr) → List Expr
  | [] => []
  | argument :: arguments => operandNodes argument ++ argumentNodes arguments

end

variable {node : Expr}

theorem self_mem_nodes (expr : Expr) : expr ∈ expr.nodes := by
  cases expr with
  | number | string | identifier | call | operation =>
      unfold nodes
      exact .head _

theorem mem_operandNodes_iff {operand : Option Expr} :
    node ∈ operandNodes operand ↔ ∃ expr, some expr = operand ∧ node ∈ expr.nodes := by
  cases operand with
  | none => simp [operandNodes]
  | some expr => simp [operandNodes]

theorem mem_argumentNodes_iff {arguments : List (Option Expr)} :
    node ∈ argumentNodes arguments ↔ ∃ expr, some expr ∈ arguments ∧ node ∈ expr.nodes := by
  induction arguments with
  | nil => simp [argumentNodes]
  | cons argument arguments ih =>
      rw [argumentNodes, List.mem_append, ih, mem_operandNodes_iff]
      simp only [List.mem_cons, or_and_right, exists_or]

theorem mem_nodes_call_iff {name : String} {position : Nat} {arguments : List (Option Expr)} :
    node ∈ (call name position arguments).nodes ↔
      node = .call name position arguments ∨
        ∃ expr, some expr ∈ arguments ∧ node ∈ expr.nodes := by
  rw [nodes, List.mem_cons, mem_argumentNodes_iff]

theorem mem_nodes_operation_iff {operator : String} {position : Nat} {left right : Option Expr} :
    node ∈ (operation operator position left right).nodes ↔
      node = .operation operator position left right ∨
        (∃ expr, some expr = left ∧ node ∈ expr.nodes) ∨
          ∃ expr, some expr = right ∧ node ∈ expr.nodes := by
  rw [nodes, List.mem_cons, List.mem_append, mem_operandNodes_iff, mem_operandNodes_iff]

end Formula.Expr

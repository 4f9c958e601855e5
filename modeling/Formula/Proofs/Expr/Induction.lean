import Formula.Expr.Basic

/-!
# Induction on expressions

Operands and arguments sit inside options and lists, so the induction that the type comes with has a
motive for each of these.  The ones here have a single motive.  Where the nodes need not be told
apart, what a node has are its children: its operands and its arguments.
-/

namespace Formula

/-- Where an operand or an argument stands in its node. -/
inductive Place where
  | left
  | right
  | argument (index : Nat)
deriving DecidableEq, Repr

namespace Expr

theorem nestedInduction {motive : Expr → Prop}
    (number : ∀ text position, motive (.number text position))
    (string : ∀ content position, motive (.string content position))
    (identifier : ∀ name position, motive (.identifier name position))
    (call : ∀ name position arguments,
      (∀ argument, some argument ∈ arguments → motive argument) →
        motive (.call name position arguments))
    (operation : ∀ operator position left right,
      (∀ operand, some operand = left → motive operand) →
        (∀ operand, some operand = right → motive operand) →
          motive (.operation operator position left right))
    (expr : Expr) : motive expr := by
  match expr with
  | .number text position => exact number text position
  | .string content position => exact string content position
  | .identifier name position => exact identifier name position
  | .call name position arguments =>
      refine call name position arguments fun argument member => ?_
      have smaller : sizeOf argument < sizeOf arguments := by
        have := List.sizeOf_lt_of_mem member
        simp only [Option.some.sizeOf_spec] at this
        omega
      exact nestedInduction number string identifier call operation argument
  | .operation operator position left right =>
      refine operation operator position left right (fun operand same => ?_)
        fun operand same => ?_
      · exact nestedInduction number string identifier call operation operand
      · exact nestedInduction number string identifier call operation operand
termination_by sizeOf expr
decreasing_by
  · simp only [Expr.call.sizeOf_spec]
    omega
  · simp only [← same, Expr.operation.sizeOf_spec, Option.some.sizeOf_spec]
    omega
  · simp only [← same, Expr.operation.sizeOf_spec, Option.some.sizeOf_spec]
    omega

def child : Expr → Place → Option Expr
  | .operation _ _ left _, .left => left
  | .operation _ _ _ right, .right => right
  | .call _ _ arguments, .argument index => arguments[index]?.join
  | _, _ => none

theorem mem_of_join_eq_some {arguments : List (Option Expr)} {index : Nat} {argument : Expr}
    (given : arguments[index]?.join = some argument) : some argument ∈ arguments :=
  List.mem_of_getElem? (Option.join_eq_some_iff.mp given)

theorem childInduction {motive : Expr → Prop}
    (node : ∀ expr : Expr, (∀ place child, expr.child place = some child → motive child) →
      motive expr) (expr : Expr) : motive expr := by
  induction expr using nestedInduction with
  | number | string | identifier => exact node _ nofun
  | call name position arguments ih =>
      refine node _ fun place child given => ?_
      cases place with
      | left | right => cases given
      | argument index => exact ih child (mem_of_join_eq_some given)
  | operation operator position left right ihLeft ihRight =>
      refine node _ fun place child given => ?_
      cases place with
      | left => exact ihLeft child given.symm
      | right => exact ihRight child given.symm
      | argument index => cases given

end Expr

end Formula

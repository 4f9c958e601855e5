import Formula.Proofs.Expr.Builds
import Formula.Proofs.Expr.Nodes

/-!
# The operator nodes of a build

Every operator node comes from a split and has the operands that the form of the split gives it.
What holds of these nodes one by one holds of every operator node in what is built.
-/

namespace Formula.Expr

/-- Something holds of each operator in the expression and its operands. -/
def EveryOperation (holds : String → Option Expr → Option Expr → Prop) (expr : Expr) : Prop :=
  ∀ operator position left right, .operation operator position left right ∈ expr.nodes →
    holds operator left right

variable {holds : String → Option Expr → Option Expr → Prop}

theorem everyOperation_operation {operator : String} {position : Nat} {left right : Option Expr}
    (here : holds operator left right)
    (ofLeft : ∀ expr, some expr = left → expr.EveryOperation holds)
    (ofRight : ∀ expr, some expr = right → expr.EveryOperation holds) :
    (operation operator position left right).EveryOperation holds := by
  intro operator' position' left' right' member
  obtain same | ⟨expr, same, inside⟩ | ⟨expr, same, inside⟩ := mem_nodes_operation_iff.mp member
  · cases same
    exact here
  · exact ofLeft expr same _ _ _ _ inside
  · exact ofRight expr same _ _ _ _ inside

theorem everyOperation_of_ofLeaf {token : Token} {expr : Expr}
    (isOperand : ofLeaf token = .ok expr) : expr.EveryOperation holds := by
  unfold ofLeaf fail at isOperand
  split at isOperand <;> cases isOperand <;> simp [EveryOperation, nodes]

theorem Builds.everyOperation {grammar : Grammar} {levels : Nat} {trees : List TokenTree}
    {expr : Expr} (builds : Builds grammar levels trees expr)
    (prefixed : ∀ operator operand, grammar.isPrefixOperator operator = true →
      holds operator none (some operand))
    (suffixed : ∀ operator operand, grammar.isSuffixOperator operator = true →
      holds operator (some operand) none)
    (infixed : ∀ trees split left right, split? grammar trees = some split →
      IsBinary grammar split.operator → holds split.operator (some left) (some right)) :
    expr.EveryOperation holds := by
  induction builds with
  | prefixed _ fits _ ih =>
      exact everyOperation_operation (prefixed _ _ fits.1) nofun
        fun _ same => Option.some.inj same ▸ ih
  | suffixed _ fits _ ih =>
      exact everyOperation_operation (suffixed _ _ fits.1)
        (fun _ same => Option.some.inj same ▸ ih) nofun
  | infixed splits fits _ _ ihLeft ihRight =>
      exact everyOperation_operation (infixed _ _ _ _ splits fits.1)
        (fun _ same => Option.some.inj same ▸ ihLeft)
        (fun _ same => Option.some.inj same ▸ ihRight)
  | negated splits fits _ ih =>
      -- The zero in front of the minus is a number.
      refine everyOperation_operation (infixed _ _ _ _ splits fits.1) ?_
        (fun _ same => Option.some.inj same ▸ ih)
      rintro _ ⟨⟩
      simp [EveryOperation, nodes]
  | plain _ _ _ ih => exact ih
  | leaf isOperand => exact everyOperation_of_ofLeaf isOperand
  | group _ ih => exact ih
  | call same _ ih =>
      intro operator position left right member
      obtain ⟨⟨⟩⟩ | ⟨value, given, inside⟩ := mem_nodes_call_iff.mp member
      obtain ⟨argument, listed⟩ := exists_mem_zip same given
      exact ih _ _ listed _ _ _ _ inside

/-- A prefix or suffix operator has one operand, on a side where the grammar lets it stand; every
other operator has both. -/
def TakesSides (grammar : Grammar) (operator : String) (left right : Option Expr) : Prop :=
  if grammar.isPrefixOperator operator = true ∨ grammar.isSuffixOperator operator = true then
    left = none ∧ right.isSome = true ∧ grammar.isPrefixOperator operator = true ∨
      left.isSome = true ∧ right = none ∧ grammar.isSuffixOperator operator = true
  else
    left.isSome = true ∧ right.isSome = true

theorem Builds.takesSides {grammar : Grammar} {levels : Nat} {trees : List TokenTree}
    {expr : Expr} (builds : Builds grammar levels trees expr) :
    expr.EveryOperation (TakesSides grammar) := by
  refine builds.everyOperation ?_ ?_ ?_
  · intro operator operand isPrefix
    simp [TakesSides, isPrefix]
  · intro operator operand isSuffix
    simp [TakesSides, isSuffix]
  · intro trees split left right _ binary
    simp [TakesSides, binary.1, binary.2]

end Formula.Expr

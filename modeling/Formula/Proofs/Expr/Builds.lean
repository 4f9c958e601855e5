import Formula.Proofs.Expr.Split
import Formula.Proofs.Outcome

/-!
# Successful builds

What the builder does when it succeeds, as a relation.  The form of an operator node decides which
parts of the sequence are built, and an argument is left out exactly where its sequence is empty.
-/

namespace Formula.Expr

/-! ## Forms of operator nodes -/

def IsBinary (grammar : Grammar) (operator : String) : Prop :=
  grammar.isPrefixOperator operator = false ∧ grammar.isSuffixOperator operator = false

/-- The condition under which a split takes a form. -/
def Shape.Fits (grammar : Grammar) (split : Split) : Shape → Prop
  | .prefixed operand =>
      grammar.isPrefixOperator split.operator = true ∧ split.before = [] ∧
        split.after = operand ∧ operand ≠ []
  | .suffixed operand =>
      grammar.isSuffixOperator split.operator = true ∧ split.before = operand ∧
        split.after = [] ∧ operand ≠ []
  | .infixed left right =>
      IsBinary grammar split.operator ∧ split.before = left ∧ split.after = right ∧
        left ≠ [] ∧ right ≠ []
  | .negated operand =>
      IsBinary grammar split.operator ∧ split.operator = "-" ∧ split.before = [] ∧
        split.after = operand ∧ operand ≠ []
  | .plain operand =>
      IsBinary grammar split.operator ∧ split.operator = "+" ∧ split.before = [] ∧
        split.after = operand ∧ operand ≠ []

theorem unaryShape_eq_ok_iff {grammar : Grammar} {split : Split} {form : Shape} :
    unaryShape grammar split = .ok form ↔
      grammar.isPrefixOperator split.operator = true ∧ split.before = [] ∧
          form = .prefixed split.after ∨
        grammar.isSuffixOperator split.operator = true ∧ split.before ≠ [] ∧
          split.after = [] ∧ form = .suffixed split.before := by
  obtain ⟨before, operator, position, after⟩ := split
  cases isPrefix : grammar.isPrefixOperator operator <;>
    cases isSuffix : grammar.isSuffixOperator operator <;>
    cases before <;> cases after <;>
    simp [unaryShape, fail, isPrefix, isSuffix, eq_comm]

theorem binaryShape_eq_iff {split : Split} {form : Shape} :
    binaryShape split = form ↔
      split.before = [] ∧ split.operator = "-" ∧ form = .negated split.after ∨
        split.before = [] ∧ split.operator = "+" ∧ form = .plain split.after ∨
          (split.before = [] → split.operator ≠ "-" ∧ split.operator ≠ "+") ∧
            form = .infixed split.before split.after := by
  unfold binaryShape
  split
  · rename_i empty minus
    simp [empty, minus, eq_comm]
  · rename_i empty plus
    simp [empty, plus, eq_comm]
  · rename_i notMinus notPlus
    constructor
    · rintro rfl
      exact .inr (.inr ⟨fun empty => ⟨notMinus empty, notPlus empty⟩, rfl⟩)
    · rintro (⟨empty, minus, -⟩ | ⟨empty, plus, -⟩ | ⟨-, rfl⟩)
      · exact absurd minus (notMinus empty)
      · exact absurd plus (notPlus empty)
      · rfl

theorem shape_eq_ok_iff {grammar : Grammar} {split : Split} {form : Shape} :
    shape grammar split = .ok form ↔ form.Fits grammar split := by
  have complete : ∀ {picked : Except Error Shape} {error : Error},
      (picked >>= fun form => if form.lacksOperand then .error error else .ok form) = .ok form ↔
        picked = .ok form ∧ form.lacksOperand = false := by
    intro picked error
    rw [bind_eq_ok_iff]
    constructor
    · rintro ⟨value, rfl, kept⟩
      cases lacks : value.lacksOperand <;> simp_all
    · rintro ⟨rfl, whole⟩
      exact ⟨form, rfl, by simp [whole]⟩
  unfold shape
  split
  · rename_i unary
    have notBinary : ¬ IsBinary grammar split.operator := by
      simp only [IsBinary]
      grind
    refine complete.trans ?_
    rw [unaryShape_eq_ok_iff]
    cases form <;> simp [Shape.Fits, Shape.lacksOperand, notBinary] <;> grind
  · rename_i notUnary
    have binary : IsBinary grammar split.operator := by simpa [IsBinary] using notUnary
    refine complete.trans ?_
    rw [Except.ok.injEq, binaryShape_eq_iff]
    cases form <;> simp [Shape.Fits, Shape.lacksOperand, binary, binary.1, binary.2] <;> grind

/-! ## The builder as a relation -/

/-- `Builds grammar levels trees expr`: the builder makes the expression out of the sequence. -/
inductive Builds (grammar : Grammar) : (levels : Nat) → List TokenTree → Expr → Prop
  | prefixed {levels : Nat} {trees content : List TokenTree} {split : Split} {operand : Expr}
      (splits : split? grammar trees = some split)
      (fits : (Shape.prefixed content).Fits grammar split)
      (built : Builds grammar levels content operand) :
      Builds grammar (levels + 1) trees
        (.operation split.operator split.position none (some operand))
  | suffixed {levels : Nat} {trees content : List TokenTree} {split : Split} {operand : Expr}
      (splits : split? grammar trees = some split)
      (fits : (Shape.suffixed content).Fits grammar split)
      (built : Builds grammar levels content operand) :
      Builds grammar (levels + 1) trees
        (.operation split.operator split.position (some operand) none)
  | infixed {levels : Nat} {trees before after : List TokenTree} {split : Split}
      {left right : Expr}
      (splits : split? grammar trees = some split)
      (fits : (Shape.infixed before after).Fits grammar split)
      (builtLeft : Builds grammar levels before left)
      (builtRight : Builds grammar levels after right) :
      Builds grammar (levels + 1) trees
        (.operation split.operator split.position (some left) (some right))
  | negated {levels : Nat} {trees content : List TokenTree} {split : Split} {operand : Expr}
      (splits : split? grammar trees = some split)
      (fits : (Shape.negated content).Fits grammar split)
      (built : Builds grammar levels content operand) :
      Builds grammar (levels + 1) trees
        (.operation split.operator split.position (some (.number "0" split.position))
          (some operand))
  | plain {levels : Nat} {trees content : List TokenTree} {split : Split} {operand : Expr}
      (splits : split? grammar trees = some split)
      (fits : (Shape.plain content).Fits grammar split)
      (built : Builds grammar levels content operand) :
      Builds grammar (levels + 1) trees operand
  | leaf {levels : Nat} {token : Token} {expr : Expr}
      (isOperand : ofLeaf token = .ok expr) :
      Builds grammar (levels + 1) [.leaf token] expr
  | group {levels position : Nat} {content : List TokenTree} {expr : Expr}
      (built : Builds grammar levels content expr) :
      Builds grammar (levels + 1) [.group position content] expr
  | call {levels position : Nat} {name : String} {arguments : List (List TokenTree)}
      {values : List (Option Expr)}
      (same : values.map Option.isNone = arguments.map List.isEmpty)
      (built : ∀ argument value, (argument, some value) ∈ arguments.zip values →
        Builds grammar levels argument value) :
      Builds grammar (levels + 1) [.call name position arguments] (.call name position values)

/-! ## Arguments -/

/-- Builds an argument unless it is empty. -/
def buildArgument (build : List TokenTree → Except Error Expr) (argument : List TokenTree) :
    Except Error (Option Expr) :=
  if argument.isEmpty then pure none else some <$> build argument

theorem buildArgument_eq_ok_iff {build : List TokenTree → Except Error Expr}
    {argument : List TokenTree} {value : Option Expr} :
    buildArgument build argument = .ok value ↔
      value.isNone = argument.isEmpty ∧ ∀ expr, value = some expr → build argument = .ok expr := by
  unfold buildArgument
  split
  · rename_i empty
    cases value <;> simp [empty, pure, Except.pure]
  · rename_i present
    rw [map_eq_ok_iff]
    cases value <;> simp [present]

/-- Every argument that is there has been built from its own sequence. -/
theorem exists_mem_zip {arguments : List (List TokenTree)} {values : List (Option Expr)}
    (same : values.map Option.isNone = arguments.map List.isEmpty) {value : Expr}
    (given : some value ∈ values) : ∃ argument, (argument, some value) ∈ arguments.zip values := by
  have sameLength : arguments.length = values.length := by
    simpa using congrArg List.length same.symm
  obtain ⟨index, inside, found⟩ := List.getElem_of_mem given
  refine ⟨arguments[index], ?_⟩
  rw [← found, ← List.getElem_zip (h := by simp; omega)]
  exact List.getElem_mem _

theorem mapM_buildArgument_eq_ok_iff {build : List TokenTree → Except Error Expr}
    {arguments : List (List TokenTree)} {values : List (Option Expr)} :
    arguments.mapM (buildArgument build) = .ok values ↔
      values.map Option.isNone = arguments.map List.isEmpty ∧
        ∀ argument value, (argument, some value) ∈ arguments.zip values →
          build argument = .ok value := by
  induction arguments generalizing values with
  | nil => cases values <;> simp [pure, Except.pure]
  | cons argument arguments ih =>
      rw [List.mapM_cons, bind_eq_ok_iff]
      simp only [bind_eq_ok_iff, buildArgument_eq_ok_iff, ih, pure, Except.pure, Except.ok.injEq]
      constructor
      · rintro ⟨value, ⟨sameFirst, builtFirst⟩, rest, ⟨sameRest, builtRest⟩, rfl⟩
        refine ⟨by simp [sameFirst, sameRest], fun other expr member => ?_⟩
        rcases List.mem_cons.mp member with first | later
        · obtain ⟨rfl, rfl⟩ := Prod.mk.inj first
          exact builtFirst expr rfl
        · exact builtRest other expr later
      · rintro ⟨same, built⟩
        cases values with
        | nil => simp at same
        | cons value values =>
            obtain ⟨sameFirst, sameRest⟩ := List.cons.inj same
            refine ⟨value, ⟨sameFirst, ?_⟩, values, ⟨sameRest, ?_⟩, rfl⟩
            · rintro expr rfl
              exact built argument expr (by simp)
            · exact fun other expr later => built other expr (List.mem_cons_of_mem _ later)

/-! ## The relation and the builder agree -/

theorem Builds.of_ok {grammar : Grammar} {maxDepth levels : Nat} {trees : List TokenTree}
    {expr : Expr} (built : buildWithin grammar maxDepth levels trees = .ok expr) :
    Builds grammar levels trees expr := by
  induction levels generalizing trees expr with
  | zero => simp [buildWithin] at built
  | succ levels ih =>
      unfold buildWithin at built
      split at built
      · rename_i split splits
        obtain ⟨form, shaped, built⟩ := bind_eq_ok_iff.mp built
        have fits := shape_eq_ok_iff.mp shaped
        cases form with
        | prefixed content =>
            obtain ⟨operand, builtOperand, ⟨⟩⟩ := bind_eq_ok_iff.mp built
            exact .prefixed splits fits (ih builtOperand)
        | suffixed content =>
            obtain ⟨operand, builtOperand, ⟨⟩⟩ := bind_eq_ok_iff.mp built
            exact .suffixed splits fits (ih builtOperand)
        | infixed before after =>
            obtain ⟨left, builtLeft, built⟩ := bind_eq_ok_iff.mp built
            obtain ⟨right, builtRight, ⟨⟩⟩ := bind_eq_ok_iff.mp built
            exact .infixed splits fits (ih builtLeft) (ih builtRight)
        | negated content =>
            obtain ⟨operand, builtOperand, ⟨⟩⟩ := bind_eq_ok_iff.mp built
            exact .negated splits fits (ih builtOperand)
        | plain content => exact .plain splits fits (ih built)
      · split at built
        · contradiction
        · exact .leaf built
        · exact .group (ih built)
        · obtain ⟨values, builtAll, ⟨⟩⟩ := bind_eq_ok_iff.mp built
          obtain ⟨same, builtEach⟩ := mapM_buildArgument_eq_ok_iff.mp builtAll
          exact .call same fun argument value member => ih (builtEach argument value member)
        · contradiction

theorem operator?_of_ofLeaf {token : Token} {expr : Expr} (isOperand : ofLeaf token = .ok expr) :
    (TokenTree.leaf token).operator? = none := by
  unfold ofLeaf fail at isOperand
  split at isOperand <;> simp_all [TokenTree.operator?]

/-- A closing parenthesis that was left over is no operand. -/
theorem Builds.kind_ne_rightParen {grammar : Grammar} {levels : Nat} {trees : List TokenTree}
    {expr : Expr} (builds : Builds grammar levels trees expr) {token : Token}
    (member : .leaf token ∈ trees) : token.kind ≠ .rightParen := by
  -- The leaf is the operator of a split or stands on one of its sides.
  have split : ∀ {trees : List TokenTree} {split : Split}, split? grammar trees = some split →
      .leaf token ∈ trees → (.leaf token ∈ split.before → token.kind ≠ .rightParen) →
        (.leaf token ∈ split.after → token.kind ≠ .rightParen) → token.kind ≠ .rightParen := by
    intro trees split splits member before after
    obtain ⟨tree, isOperator, -, rfl⟩ := split?_eq_some splits
    rcases List.mem_append.mp member with first | member
    · exact before first
    · rcases List.mem_cons.mp member with rfl | last
      · obtain ⟨_, ⟨⟩, kind, -⟩ := TokenTree.operator?_eq_some_iff.mp isOperator
        simp [kind]
      · exact after last
  induction builds with
  | prefixed splits fits _ ih =>
      obtain ⟨-, empty, rfl, -⟩ := fits
      exact split splits member (by simp [empty]) ih
  | suffixed splits fits _ ih =>
      obtain ⟨-, rfl, empty, -⟩ := fits
      exact split splits member ih (by simp [empty])
  | infixed splits fits _ _ ihLeft ihRight =>
      obtain ⟨-, rfl, rfl, -⟩ := fits
      exact split splits member ihLeft ihRight
  | negated splits fits _ ih =>
      obtain ⟨-, -, empty, rfl, -⟩ := fits
      exact split splits member (by simp [empty]) ih
  | plain splits fits _ ih =>
      obtain ⟨-, -, empty, rfl, -⟩ := fits
      exact split splits member (by simp [empty]) ih
  | leaf isOperand =>
      obtain ⟨⟩ := List.mem_singleton.mp member
      intro kind
      simp [ofLeaf, fail, kind] at isOperand
  | group => simp at member
  | call => simp at member

theorem Builds.ok {grammar : Grammar} {levels : Nat} {trees : List TokenTree} {expr : Expr}
    (builds : Builds grammar levels trees expr) (maxDepth : Nat) :
    buildWithin grammar maxDepth levels trees = .ok expr := by
  induction builds with
  | prefixed splits fits _ ih =>
      simp [buildWithin, splits, shape_eq_ok_iff.mpr fits, bind, Except.bind, ih, pure, Except.pure]
  | suffixed splits fits _ ih =>
      simp [buildWithin, splits, shape_eq_ok_iff.mpr fits, bind, Except.bind, ih, pure, Except.pure]
  | infixed splits fits _ _ ihLeft ihRight =>
      simp [buildWithin, splits, shape_eq_ok_iff.mpr fits, bind, Except.bind, ihLeft, ihRight,
        pure, Except.pure]
  | negated splits fits _ ih =>
      simp [buildWithin, splits, shape_eq_ok_iff.mpr fits, bind, Except.bind, ih, pure, Except.pure]
  | plain splits fits _ ih =>
      simp [buildWithin, splits, shape_eq_ok_iff.mpr fits, bind, Except.bind, ih]
  | leaf isOperand =>
      simp [buildWithin, split?_singleton (operator?_of_ofLeaf isOperand), isOperand]
  | @group levels position content expr _ ih =>
      have whole : split? grammar [.group position content] = none := split?_singleton rfl
      simp [buildWithin, whole, ih]
  | @call levels position name arguments values same _ ih =>
      have whole : split? grammar [.call name position arguments] = none := split?_singleton rfl
      have builtAll := mapM_buildArgument_eq_ok_iff.mpr ⟨same, ih⟩
      unfold buildWithin
      rw [whole]
      exact bind_eq_ok_iff.mpr ⟨values, builtAll, rfl⟩

theorem Builds.mono {grammar : Grammar} {levels larger : Nat} {trees : List TokenTree}
    {expr : Expr} (builds : Builds grammar levels trees expr) (bound : levels ≤ larger) :
    Builds grammar larger trees expr := by
  induction builds generalizing larger with
  | prefixed splits fits _ ih =>
      obtain ⟨larger, rfl⟩ := Nat.exists_eq_add_of_lt bound
      exact .prefixed splits fits (ih (by omega))
  | suffixed splits fits _ ih =>
      obtain ⟨larger, rfl⟩ := Nat.exists_eq_add_of_lt bound
      exact .suffixed splits fits (ih (by omega))
  | infixed splits fits _ _ ihLeft ihRight =>
      obtain ⟨larger, rfl⟩ := Nat.exists_eq_add_of_lt bound
      exact .infixed splits fits (ihLeft (by omega)) (ihRight (by omega))
  | negated splits fits _ ih =>
      obtain ⟨larger, rfl⟩ := Nat.exists_eq_add_of_lt bound
      exact .negated splits fits (ih (by omega))
  | plain splits fits _ ih =>
      obtain ⟨larger, rfl⟩ := Nat.exists_eq_add_of_lt bound
      exact .plain splits fits (ih (by omega))
  | leaf isOperand =>
      obtain ⟨larger, rfl⟩ := Nat.exists_eq_add_of_lt bound
      exact .leaf isOperand
  | group _ ih =>
      obtain ⟨larger, rfl⟩ := Nat.exists_eq_add_of_lt bound
      exact .group (ih (by omega))
  | call same _ ih =>
      obtain ⟨larger, rfl⟩ := Nat.exists_eq_add_of_lt bound
      exact .call same fun argument value member => ih argument value member (by omega)

/-- An operator alone has no operands. -/
theorem Builds.operator?_eq_none {grammar : Grammar} {levels : Nat} {tree : TokenTree}
    {expr : Expr} (builds : Builds grammar levels [tree] expr) : tree.operator? = none := by
  have alone : ∀ {split : Split}, split? grammar [tree] = some split →
      split.before = [] ∧ split.after = [] := by
    intro split splits
    obtain ⟨_, -, -, same⟩ := split?_eq_some splits
    cases before : split.before with
    | nil => simp_all
    | cons => simp [before] at same
  cases builds with
  | prefixed splits fits => exact absurd ((fits.2.2.1.symm.trans (alone splits).2)) fits.2.2.2
  | suffixed splits fits => exact absurd ((fits.2.1.symm.trans (alone splits).1)) fits.2.2.2
  | infixed splits fits => exact absurd ((fits.2.1.symm.trans (alone splits).1)) fits.2.2.2.1
  | negated splits fits => exact absurd ((fits.2.2.2.1.symm.trans (alone splits).2)) fits.2.2.2.2
  | plain splits fits => exact absurd ((fits.2.2.2.1.symm.trans (alone splits).2)) fits.2.2.2.2
  | leaf isOperand => exact operator?_of_ofLeaf isOperand
  | group | call => rfl

theorem buildWithin_eq_ok_iff {grammar : Grammar} {maxDepth levels : Nat}
    {trees : List TokenTree} {expr : Expr} :
    buildWithin grammar maxDepth levels trees = .ok expr ↔ Builds grammar levels trees expr :=
  ⟨.of_ok, fun builds => builds.ok maxDepth⟩

end Formula.Expr

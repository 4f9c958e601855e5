import Formula.Proofs.Evaluation.Simulation
import Formula.Proofs.Expr.Height
import Formula.Proofs.Number.Residue
import Formula.Proofs.Numeral.Canonical
import Formula.Proofs.Numeral.Literal
import Formula.Proofs.Operators.Negation

/-!
# Integer expressions

Expressions made of integers, signs, sums, differences and products are evaluated modulo two to the
width of the type, whatever overflows on the way.  Those with the same exact value have the same
result.
-/

namespace Formula

variable {target : NumericType} {σ α β : Type}

/-! ## Exact values -/

/-- The text consists of digits, with or without a sign, for the integer. -/
def Numeral.DenotesInteger (text : String) (whole : ℤ) : Prop :=
  ∃ negative sign digits, SpellsSign negative sign ∧ Lexer.AllDigits digits ∧ digits ≠ [] ∧
    text.toList = sign ++ digits ∧ whole = signed negative (Text.ofDigits digits)

/-- The operator stands for an operation of the ring of integers. -/
inductive IsRingOperator : (operator : String) → (compute : ℤ → ℤ → ℤ) → Prop
  | sum : IsRingOperator "+" (· + ·)
  | difference : IsRingOperator "-" (· - ·)
  | product : IsRingOperator "*" (· * ·)

/-- The operator stands for a sign in front of an integer. -/
inductive IsSignOperator : (operator : String) → (compute : ℤ → ℤ) → Prop
  | minus : IsSignOperator "-" (- ·)
  | plus : IsSignOperator "+" id

/-- The value of the expression when nothing overflows.  Its literals are integers of the type. -/
inductive Expr.HasExactValue (target : NumericType) : Expr → ℤ → Prop
  | literal {text : String} {whole : ℤ} (position : Nat)
      (denotes : Numeral.DenotesInteger text whole) (has : target.HasInteger whole) :
      HasExactValue target (.number text position) whole
  | binary {operator : String} {compute : ℤ → ℤ → ℤ} {left right : Expr} {first second : ℤ}
      (position : Nat) (isRing : IsRingOperator operator compute)
      (isLeft : HasExactValue target left first) (isRight : HasExactValue target right second) :
      HasExactValue target (.operation operator position (some left) (some right))
        (compute first second)
  | signed {operator : String} {compute : ℤ → ℤ} {operand : Expr} {whole : ℤ} (position : Nat)
      (isSign : IsSignOperator operator compute) (isOperand : HasExactValue target operand whole) :
      HasExactValue target (.operation operator position none (some operand)) (compute whole)

/-! ## Literals and operations -/

section Operations

variable {conventions : Conventions} {environment : Environment} {operator : String}
  {compute : ℤ → ℤ → ℤ} {whole whole' : ℤ} {number number' : Number}

theorem Conventions.exists_readLiteral_residue
    (integer : conventions.numericType.isInteger = true) {text : String}
    (denotes : Numeral.DenotesInteger text whole)
    (has : conventions.numericType.HasInteger whole) :
    ∃ number, conventions.readLiteral text = .ok number ∧
      number.IsResidue conventions.numericType whole := by
  obtain ⟨negative, sign, digits, isSign, all, present, isText, rfl⟩ := denotes
  have spelled := Numeral.Spells.intro isSign
    (Numeral.spellsWhole_of_allDigits all NumberFormat.invariant.groupSeparator) .absent .absent
    (.inl present)
  have isSpelled := spelled.isSpelledBy spelled.visible
  rw [List.append_nil, List.append_nil, ← isText, String.ofList_toList] at isSpelled
  obtain ⟨number, type, value⟩ := Number.exists_of_hasInteger has
  have plain : Numeral.IsPlain ⟨negative, digits, [], none⟩ := ⟨rfl, rfl⟩
  have becomes := (Numeral.toNumber?_of_isPlain plain integer).mpr
    ⟨type, value.trans (congrArg some (Numeral.value_of_isPlain plain).symm)⟩
  refine ⟨number, ?_, type ▸ .of_value? (type ▸ integer) value⟩
  rw [readLiteral_of_isSpelledBy isSpelled, if_pos nofun, becomes]
  rfl

theorem IsRingOperator.decides_eq_false (isRing : IsRingOperator operator compute)
    (operators : Operators) (value : Value) :
    operators.decides environment operator value = false := by
  cases isRing <;> rfl

theorem Standard.arithmetic_eq_ok {operation : Number → Number → Except Error Number}
    {result : Number} (computed : operation number number' = .ok result) :
    arithmetic conventions operator operation (.number number) (.number number') =
      .ok (.number result) := by
  rw [arithmetic_numbers (convert_number ..) (convert_number ..), computed]
  rfl

theorem IsRingOperator.exists_applyBinary (isRing : IsRingOperator operator compute)
    (isLeft : number.IsResidue target whole) (isRight : number'.IsResidue target whole') :
    ∃ result : Number,
      Operators.standard.applyBinary environment operator (.number number) (.number number') =
        .ok (.number result) ∧ result.IsResidue target (compute whole whole') := by
  cases isRing with
  | sum =>
      obtain ⟨sum, computed, residue⟩ := isLeft.add isRight
      exact ⟨sum, Standard.arithmetic_eq_ok computed, residue⟩
  | difference =>
      obtain ⟨difference, computed, residue⟩ := isLeft.sub isRight
      exact ⟨difference, Standard.arithmetic_eq_ok computed, residue⟩
  | product =>
      obtain ⟨product, computed, residue⟩ := isLeft.mul isRight
      exact ⟨product, Standard.arithmetic_eq_ok computed, residue⟩

theorem IsSignOperator.decides_eq_false {compute : ℤ → ℤ}
    (isSign : IsSignOperator operator compute) (operators : Operators) (value : Value) :
    operators.decides environment operator value = false := by
  cases isSign <;> rfl

/-- A minus subtracts from zero. -/
theorem IsSignOperator.exists_applyPrefix {compute : ℤ → ℤ}
    (integer : environment.conventions.numericType.isInteger = true)
    (isSign : IsSignOperator operator compute)
    (isOperand : number.IsResidue environment.conventions.numericType whole) :
    ∃ result : Number,
      Operators.standard.applyPrefix environment operator (.number number) =
        .ok (.number result) ∧
      result.IsResidue environment.conventions.numericType (compute whole) := by
  cases isSign with
  | minus =>
      obtain ⟨result, applies, residue⟩ :=
        IsRingOperator.difference.exists_applyBinary (.zero integer) isOperand
      exact ⟨result, applies, by simpa only [zero_sub] using residue⟩
  | plus => exact ⟨number, rfl, isOperand⟩

end Operations

/-! ## Steps -/

/-- The computation succeeds from every run, with the same result. -/
def Eval.Yields (computation : Eval σ α) (result : α) : Prop :=
  ∀ run, ∃ after, computation.runFrom run = (.ok result, after)

theorem Eval.Yields.bind {computation : Eval σ α} {next : α → Eval σ β} {first : α} {second : β}
    (yields : computation.Yields first) (continues : (next first).Yields second) :
    (computation >>= next).Yields second := by
  intro run
  obtain ⟨between, reached⟩ := yields run
  rw [runFrom_bind, reached]
  exact continues between

theorem Eval.yields_ofExcept (result : α) :
    (Eval.ofExcept (.ok result) : Eval σ α).Yields result :=
  fun run => ⟨run, rfl⟩

theorem Eval.yields_pure (result : α) : (pure result : Eval σ α).Yields result :=
  fun run => ⟨run, rfl⟩

namespace Configuration

variable {configuration : Configuration σ} {depth : Nat}

theorem yields_enter (node : Expr) (room : depth ≤ configuration.maxDepth) :
    (configuration.enter node .sync depth).Yields () := by
  intro run
  refine ⟨run.record (.entered node), ?_⟩
  rw [runFrom_enter, if_neg (by simp [Run.isModeCancelled]), if_neg (by omega)]

theorem yields_evalOperand {expr : Expr} {value : Value}
    (yields : (configuration.eval expr .sync depth).Yields value) :
    (configuration.evalOperand (some expr) .sync depth).Yields (some value) := by
  unfold evalOperand
  exact yields.bind (Eval.yields_pure _)

theorem yields_eval_operation {operator : String} {position : Nat} {left right : Option Expr}
    {first second : Option Value} {value : Value} (room : depth ≤ configuration.maxDepth)
    (undecided : ∀ value,
      configuration.operators.decides configuration.toEnvironment operator value = false)
    (yieldsLeft : (configuration.evalOperand left .sync (depth + 1)).Yields first)
    (yieldsRight : (configuration.evalOperand right .sync (depth + 1)).Yields second)
    (applies : configuration.operators.apply configuration.toEnvironment operator first second =
      .ok value) :
    (configuration.eval (.operation operator position left right) .sync depth).Yields value := by
  have goesOn : first.filter
      (configuration.operators.decides configuration.toEnvironment operator) = none := by
    cases first with
    | none => rfl
    | some first => simp [undecided first]
  unfold eval
  refine (yields_enter _ room).bind (yieldsLeft.bind ?_)
  rw [goesOn]
  refine yieldsRight.bind ?_
  rw [applies]
  exact Eval.yields_ofExcept value

/-! ## Evaluation -/

section Evaluation

variable {expr : Expr} {whole : ℤ} (operators : configuration.operators = .standard)
  (integer : configuration.conventions.numericType.isInteger = true)
include operators integer

theorem exists_yields_residue
    (isExact : expr.HasExactValue configuration.conventions.numericType whole) (depth : ℕ)
    (room : depth + expr.height ≤ configuration.maxDepth) :
    ∃ number : Number, (configuration.eval expr .sync depth).Yields (.number number) ∧
      number.IsResidue configuration.conventions.numericType whole := by
  induction isExact generalizing depth with
  | @literal text whole position denotes has =>
      obtain ⟨number, isRead, residue⟩ :=
        Conventions.exists_readLiteral_residue integer denotes has
      refine ⟨number, ?_, residue⟩
      have converts : configuration.operators.convertToNumber configuration.toEnvironment text =
          .ok (.number number) := by
        rw [operators]
        exact congrArg (Except.map Value.number) isRead
      unfold eval
      refine (yields_enter _ (by omega)).bind ?_
      rw [converts]
      exact Eval.yields_ofExcept _
  | binary position isRing isLeft isRight ihLeft ihRight =>
      rw [Expr.height, Expr.operandHeight, Expr.operandHeight] at room
      obtain ⟨first, yieldsLeft, residueLeft⟩ := ihLeft (depth + 1) (by omega)
      obtain ⟨second, yieldsRight, residueRight⟩ := ihRight (depth + 1) (by omega)
      obtain ⟨result, applies, residue⟩ := isRing.exists_applyBinary residueLeft residueRight
      refine ⟨result, ?_, residue⟩
      refine yields_eval_operation (by omega) (isRing.decides_eq_false _)
        (yields_evalOperand yieldsLeft) (yields_evalOperand yieldsRight) ?_
      rw [operators]
      exact applies
  | signed position isSign isOperand ih =>
      rw [Expr.height, Expr.operandHeight, Expr.operandHeight] at room
      obtain ⟨number, yields, residue⟩ := ih (depth + 1) (by omega)
      obtain ⟨result, applies, residue⟩ := isSign.exists_applyPrefix integer residue
      refine ⟨result, ?_, residue⟩
      refine yields_eval_operation (by omega) (isSign.decides_eq_false _) (Eval.yields_pure none)
        (yields_evalOperand yields) ?_
      rw [operators]
      exact applies

theorem exists_evaluate_residue
    (isExact : expr.HasExactValue configuration.conventions.numericType whole)
    (room : expr.height ≤ configuration.maxDepth) (host : σ) :
    ∃ number : Number, (configuration.evaluate expr host).1 = .ok (.number number) ∧
      number.IsResidue configuration.conventions.numericType whole := by
  obtain ⟨number, yields, residue⟩ := exists_yields_residue operators integer isExact 0 (by omega)
  obtain ⟨after, reached⟩ := yields (.start host false)
  exact ⟨number, congrArg Prod.fst reached, residue⟩

/-- An expression of integers comes to the residue of its exact value.  Expressions with the same
exact value come to the same number, also from other states of the host. -/
theorem evaluate_residue (isExact : expr.HasExactValue configuration.conventions.numericType whole)
    (room : expr.height ≤ configuration.maxDepth) (host : σ) :
    ∃ number : Number, (configuration.evaluate expr host).1 = .ok (.number number) ∧
      number.IsResidue configuration.conventions.numericType whole ∧
      ∀ (expr' : Expr) (host' : σ),
        expr'.HasExactValue configuration.conventions.numericType whole →
        expr'.height ≤ configuration.maxDepth →
          (configuration.evaluate expr' host').1 = (configuration.evaluate expr host).1 := by
  obtain ⟨number, comesTo, residue⟩ :=
    exists_evaluate_residue operators integer isExact room host
  refine ⟨number, comesTo, residue, fun expr' host' isExact' room' => ?_⟩
  obtain ⟨number', comesTo', residue'⟩ :=
    exists_evaluate_residue operators integer isExact' room' host'
  rw [comesTo, comesTo', residue.unique residue']

end Evaluation

/-- The least number of 32 bits is its own opposite, and the greatest one is followed by it. -/
theorem evaluate_residue_of_overflow :
    let configuration : Configuration Unit := .ofType .int32
    let opposite : Expr := .operation "-" 0 none (some (.number "-2147483648" 1))
    let successor : Expr :=
      .operation "+" 10 (some (.number "2147483647" 0)) (some (.number "+1" 11))
    opposite.HasExactValue .int32 2147483648 ∧ successor.HasExactValue .int32 2147483648 ∧
      opposite.height ≤ configuration.maxDepth ∧ successor.height ≤ configuration.maxDepth ∧
        (configuration.evaluate opposite ()).1 = .ok (.number (.int32 Int32.minValue)) ∧
          (configuration.evaluate successor ()).1 = (configuration.evaluate opposite ()).1 := by
  intro configuration opposite successor
  have least : Expr.HasExactValue .int32 (.number "-2147483648" 1) (-2147483648) :=
    .literal 1 ⟨true, ['-'], "2147483648".toList, .minus, List.all_eq_true.mp rfl, by decide, rfl,
      rfl⟩ ⟨by decide, by decide⟩
  have greatest : Expr.HasExactValue .int32 (.number "2147483647" 0) 2147483647 :=
    .literal 0 ⟨false, [], "2147483647".toList, .unsigned, List.all_eq_true.mp rfl, by decide, rfl,
      rfl⟩ ⟨by decide, by decide⟩
  have one : Expr.HasExactValue .int32 (.number "+1" 11) 1 :=
    .literal 11 ⟨false, ['+'], ['1'], .plus, List.all_eq_true.mp rfl, by decide, rfl, rfl⟩
      ⟨by decide, by decide⟩
  have isOpposite : opposite.HasExactValue .int32 2147483648 := .signed 0 .minus least
  have isSuccessor : successor.HasExactValue .int32 2147483648 := .binary 10 .sum greatest one
  obtain ⟨number, evaluates, residue, same⟩ :=
    @evaluate_residue Unit configuration opposite 2147483648 rfl rfl isOpposite (by decide) ()
  obtain rfl := residue.unique (.int32 Int32.minValue (by decide))
  exact ⟨isOpposite, isSuccessor, by decide, by decide, evaluates,
    same successor () isSuccessor (by decide)⟩

end Configuration

end Formula

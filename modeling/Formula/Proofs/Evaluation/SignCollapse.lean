import Formula.Proofs.Evaluation.Placement
import Formula.Proofs.Expr.SignedOperands
import Formula.Proofs.Operators.Negation

/-!
# Collapsing two signs

Of the signs in `a + - b` only one is left when the text is compiled, while `a + (- b)` subtracts
the second operand from zero first.  Both evaluate the operands in turn, and come to the same
wherever the values of the operands do not tell one sign from two.
-/

namespace Formula

variable {σ α β : Type} {configuration : Configuration σ} {mode : Mode} {depth : Nat}

open Run (SameState)

/-! ## Nodes without effect -/

namespace Configuration

/-- Entering one more node makes no difference to what stops by itself. -/
theorem simulates_of_enter {related : α → β → Prop} {first : Eval σ α} {second : Eval σ β}
    (stops : second.StopsWhenCancelled mode) (room : depth ≤ configuration.maxDepth)
    (simulates : Simulates SameState related first second) (node : Expr) :
    Simulates SameState related (configuration.enter node mode depth >>= fun _ => first)
      second := by
  intro before before' linked
  have below : ¬ configuration.maxDepth < depth := by omega
  rw [Eval.runFrom_bind, runFrom_enter]
  by_cases cancelled : before.isModeCancelled mode
  · simp only [cancelled, ↓reduceIte]
    rw [linked.isModeCancelled mode] at cancelled
    rw [stops before' cancelled]
    exact ⟨.error _, linked⟩
  · simp only [cancelled, below, Bool.false_eq_true, ↓reduceIte]
    exact simulates ⟨linked.host, linked.cancelled, linked.nextToken⟩

/-! ## Operators between two operands -/

theorem simulates_presentOperand {expr : Expr} {computation : Eval σ Value}
    (simulates : Simulates SameState Eq (configuration.eval expr mode depth) computation) :
    Simulates SameState (fun operand value => operand = some value)
      (configuration.evalOperand (some expr) mode depth) computation := by
  unfold evalOperand
  rw [← bind_pure computation]
  refine simulates.bind ?_
  rintro value _ rfl
  exact Simulates.pure rfl

theorem simulates_operation {operator : String} {position : Nat} {left right : Expr}
    {left' right' : Eval σ Value} (stops : left'.StopsWhenCancelled mode)
    (room : depth ≤ configuration.maxDepth)
    (undecided : ∀ value,
      configuration.operators.decides configuration.toEnvironment operator value = false)
    (simulatesLeft : Simulates SameState Eq (configuration.eval left mode (depth + 1)) left')
    (simulatesRight : Simulates SameState Eq (configuration.eval right mode (depth + 1)) right') :
    Simulates SameState Eq
      (configuration.eval (.operation operator position (some left) (some right)) mode depth)
      (do
        let first ← left'
        let second ← right'
        Eval.ofExcept (configuration.operators.apply configuration.toEnvironment operator
          (some first) (some second))) := by
  unfold eval
  refine simulates_of_enter (stops.bind _) room ?_ _
  refine (simulates_presentOperand simulatesLeft).bind ?_
  rintro _ first rfl
  rw [Option.filter_some, if_neg (by simp [undecided first])]
  refine (simulates_presentOperand simulatesRight).bind ?_
  rintro _ second rfl
  exact Simulates.ofExcept _

theorem convertToNumber_zero {environment : Environment}
    (integer : environment.conventions.numericType.isInteger = true) :
    Operators.standard.convertToNumber environment "0" =
      .ok (.number environment.conventions.zero) := by
  obtain ⟨⟨numericType, format, parses, ambiguous⟩⟩ := environment
  cases numericType with
  | int32 | int64 => rfl
  | float32 | float64 | decimal => cases integer

/-- The zero on the left is there at once. -/
theorem simulates_subtractionFromZero {position : Nat} {right : Expr} {right' : Eval σ Value}
    (operators : configuration.operators = .standard)
    (integer : configuration.conventions.numericType.isInteger = true)
    (stops : right'.StopsWhenCancelled mode) (room : depth + 1 ≤ configuration.maxDepth)
    (simulates : Simulates SameState Eq (configuration.eval right mode (depth + 1)) right') :
    Simulates SameState Eq
      (configuration.eval
        (.operation "-" position (some (.number "0" position)) (some right)) mode depth)
      (do
        let value ← right'
        Eval.ofExcept (Standard.subtract configuration.conventions
          (.number configuration.conventions.zero) value)) := by
  have zero := convertToNumber_zero integer
  have operand : configuration.evalOperand (some (.number "0" position)) mode (depth + 1) =
      configuration.enter (.number "0" position) mode (depth + 1) >>= fun _ =>
        pure (some (.number configuration.conventions.zero)) := by
    unfold evalOperand eval
    rw [operators, zero, bind_assoc]
    rfl
  unfold eval
  refine simulates_of_enter (stops.bind _) (Nat.le_of_succ_le room) ?_ _
  rw [operand, bind_assoc]
  refine simulates_of_enter (stops.bind _) room ?_ _
  rw [operators]
  refine (simulates_presentOperand simulates).bind ?_
  rintro _ value rfl
  exact Simulates.ofExcept _

/-! ## Both operands in turn -/

/-- The values of two operands, of which the left one is evaluated first. -/
def operandValues (configuration : Configuration σ) (left right : Expr) (mode : Mode) :
    Eval σ (Value × Value) := do
  let first ← configuration.eval left mode 0
  let second ← configuration.eval right mode 0
  return (first, second)

/-- Combining the values of the operands, the right one after a computation of its own. -/
theorem runFrom_eq_of_operandValues {left right : Expr} {run : Run σ}
    {change : Value → Except Error Value} {combine combine' : Value → Value → Except Error Value}
    (same : ∀ first second after,
      (configuration.operandValues left right mode).runFrom run = (.ok (first, second), after) →
        combine first second = change second >>= combine' first) :
    (do
      let first ← configuration.eval left mode 0
      let second ← configuration.eval right mode 0
      Eval.ofExcept (combine first second) : Eval σ Value).runFrom run =
    (do
      let first ← configuration.eval left mode 0
      let second ← (do
        let value ← configuration.eval right mode 0
        Eval.ofExcept (change value) : Eval σ Value)
      Eval.ofExcept (combine' first second) : Eval σ Value).runFrom run := by
  unfold operandValues at same
  simp only [Eval.runFrom_bind, Eval.runFrom_pure, Eval.runFrom_ofExcept] at same ⊢
  generalize (configuration.eval left mode 0).runFrom run = reached at same ⊢
  obtain ⟨_ | first, between⟩ := reached
  · rfl
  · dsimp only at same ⊢
    generalize (configuration.eval right mode 0).runFrom between = reached at same ⊢
    obtain ⟨_ | second, after⟩ := reached
    · rfl
    · dsimp only at same ⊢
      rw [same first second after rfl]
      cases change second with
      | error => rfl
      | ok => rfl

theorem decides_standard_signOf {environment : Environment} (negative : Bool) (value : Value) :
    Operators.standard.decides environment (Token.signOf negative) value = false := by
  cases negative <;> rfl

theorem simulates_relocated (expr : Expr) (move : Nat → Nat)
    (room : depth + expr.height ≤ configuration.maxDepth) :
    Simulates SameState Eq (configuration.eval (expr.relocate move) mode depth)
      (configuration.eval expr mode 0) := by
  have shallow : 0 + expr.height ≤ configuration.maxDepth := by omega
  have moved := movable configuration.hidesMaxDepth_self move expr
  exact (moved mode 0 depth (.inr ⟨shallow, room⟩)).symm

section Signs

variable {left right : Expr} {run : Run σ} {negative : Bool}
  (operators : configuration.operators = .standard)
  (roomLeft : 1 + left.height ≤ configuration.maxDepth)
include operators roomLeft

/-- An operator between two operands combines their values, wherever the operands stand. -/
theorem simulates_relocatedOperation (mode : Mode) (negative : Bool) (position : Nat)
    (move move' : Nat → Nat)
    (roomRight : 1 + right.height ≤ configuration.maxDepth) :
    Simulates SameState Eq
      (configuration.eval (.operation (Token.signOf negative) position
        (some (left.relocate move)) (some (right.relocate move'))) mode 0)
      (do
        let first ← configuration.eval left mode 0
        let second ← configuration.eval right mode 0
        Eval.ofExcept (configuration.operators.applyBinary configuration.toEnvironment
          (Token.signOf negative) first second)) := by
  refine simulates_operation (eval_stopsWhenCancelled left) (Nat.zero_le _) (fun value => ?_)
    (simulates_relocated left move roomLeft) (simulates_relocated right move' roomRight)
  rw [operators, decides_standard_signOf]

theorem sameEnding_of_sameSign (position position' : Nat) (move move' moved moved' : Nat → Nat)
    (roomRight : 1 + right.height ≤ configuration.maxDepth) :
    SameEnding
      ((configuration.eval (.operation (Token.signOf negative) position
        (some (left.relocate move)) (some (right.relocate move'))) mode 0).runFrom run)
      ((configuration.eval (.operation (Token.signOf negative) position'
        (some (left.relocate moved)) (some (right.relocate moved'))) mode 0).runFrom run) := by
  have first := simulates_relocatedOperation operators roomLeft mode negative position move move'
    roomRight
  have second := simulates_relocatedOperation operators roomLeft mode negative position' moved
    moved' roomRight
  exact (first.sameEnding run).trans (second.sameEnding run).symm

theorem sameEnding_of_mergedSign (position position' inner : Nat)
    (move move' moved moved' : Nat → Nat)
    (integer : configuration.conventions.numericType.isInteger = true)
    (roomRight : 2 + right.height ≤ configuration.maxDepth)
    (same : ∀ first second after,
      (configuration.operandValues left right mode).runFrom run = (.ok (first, second), after) →
        configuration.operators.applyBinary configuration.toEnvironment (Token.signOf (!negative))
            first second =
          (Standard.subtract configuration.conventions
            (.number configuration.conventions.zero) second >>=
              configuration.operators.applyBinary configuration.toEnvironment
                (Token.signOf negative) first)) :
    SameEnding
      ((configuration.eval (.operation (Token.signOf (!negative)) position
        (some (left.relocate move)) (some (right.relocate move'))) mode 0).runFrom run)
      ((configuration.eval (.operation (Token.signOf negative) position'
        (some (left.relocate moved))
        (some (Expr.signed true inner (right.relocate moved')))) mode 0).runFrom run) := by
  have inTurn := runFrom_eq_of_operandValues same
  have collapsed := simulates_relocatedOperation operators roomLeft mode (!negative) position
    move move' (by omega : 1 + right.height ≤ configuration.maxDepth)
  have negated : Simulates SameState Eq
      (configuration.eval (Expr.signed true inner (right.relocate moved')) mode 1) _ :=
    simulates_subtractionFromZero operators integer (eval_stopsWhenCancelled right) (by omega)
      (simulates_relocated right moved' roomRight)
  have enclosed : Simulates SameState Eq
      (configuration.eval (.operation (Token.signOf negative) position'
        (some (left.relocate moved))
        (some (Expr.signed true inner (right.relocate moved')))) mode 0) _ :=
    simulates_operation (eval_stopsWhenCancelled left) (Nat.zero_le _)
      (fun value => by rw [operators, decides_standard_signOf])
      (simulates_relocated left moved roomLeft) negated
  refine (collapsed.sameEnding run).trans (SameEnding.trans ?_ (enclosed.sameEnding run).symm)
  exact ⟨congrArg Prod.fst inTurn, congrArg Prod.snd inTurn ▸ SameState.refl _⟩

end Signs

/-- Both texts compile, and come to the same wherever the values of the operands are related. -/
def CollapsesWhere (configuration : Configuration σ) (related : Value → Value → Prop)
    (left right : Expr) (collapsed enclosed : String) : Prop :=
  ∃ short long, Compiled.ofText configuration collapsed = .ok short ∧
    Compiled.ofText configuration enclosed = .ok long ∧
    (∀ host, (∀ first second after,
        (configuration.operandValues left right .sync).runFrom (.start host false) =
          (.ok (first, second), after) → related first second) →
      SameEnding (short.execute host) (long.execute host)) ∧
    ∀ host cancelled, (∀ first second after,
        (configuration.operandValues left right (.async Run.callerToken)).runFrom
          (.start host cancelled) = (.ok (first, second), after) → related first second) →
      SameEnding (short.executeAsync host cancelled) (long.executeAsync host cancelled)

section Texts

variable {left right : Expr} {textLeft textRight : String} {roomLeft roomRight : Nat}
  (grammar : configuration.grammar = .standard) (operators : configuration.operators = .standard)
  (integer : configuration.conventions.numericType.isInteger = true)
  (isLeft : Expr.IsOperandText roomLeft textLeft left)
  (isRight : Expr.IsOperandText roomRight textRight right)
  (enoughLeft : roomLeft + 1 ≤ configuration.maxDepth)
  (enoughRight : roomRight + 3 ≤ configuration.maxDepth)
include grammar operators integer isLeft isRight enoughLeft enoughRight

theorem collapsesWhere_of_signs {related : Value → Value → Prop} {negative : Bool}
    {glue glue' : String} {atOuter atMinus atOuter' atOpening atMinus' : Nat}
    (readsGlue : Lexer.tokenize .standard (" " ++ glue) =
      .ok [Token.signAt negative atOuter, Token.signAt true atMinus])
    (readsGlue' : Lexer.tokenize .standard (" " ++ glue') =
      .ok [Token.signAt negative atOuter', ⟨.leftParen, none, atOpening⟩,
        Token.signAt true atMinus'])
    (same : ∀ first second, related first second →
      Operators.standard.applyBinary configuration.toEnvironment (Token.signOf (!negative))
          first second =
        (Standard.subtract configuration.conventions
          (.number configuration.conventions.zero) second >>=
            Operators.standard.applyBinary configuration.toEnvironment (Token.signOf negative)
              first)) :
    configuration.CollapsesWhere
      (fun first second => related first second ∨ Expr.StartsNegative textRight) left right
      (textLeft ++ (" " ++ glue ++ (" " ++ textRight)))
      (textLeft ++ (" " ++ glue' ++ (" " ++ (textRight ++ ")")))) := by
  obtain ⟨negated, operand, isSigned, unlessNegated⟩ := isRight.signed
  obtain ⟨position, move, move', compiles⟩ := Expr.ofText_joined isLeft isSigned enoughLeft
    (by omega) readsGlue
  obtain ⟨position', inner, moved, moved', compiles'⟩ := Expr.ofText_enclosedMinus isLeft isSigned
    enoughLeft enoughRight readsGlue'
  have heightLeft := isLeft.height_le
  have heightRight := isSigned.height
  rw [← grammar] at compiles compiles'
  rw [← operators] at same
  refine ⟨⟨_, configuration⟩, ⟨_, configuration⟩, Compiled.ofText_eq_ok_iff.mpr ⟨compiles, rfl⟩,
    Compiled.ofText_eq_ok_iff.mpr ⟨compiles', rfl⟩, ?_⟩
  have signs (mode : Mode) (run : Run σ) (values : ∀ first second after,
      (configuration.operandValues left right mode).runFrom run = (.ok (first, second), after) →
        related first second ∨ Expr.StartsNegative textRight) :
      SameEnding
        ((configuration.eval (.operation (Token.signOf (negative ^^ !negated)) position
          (some (left.relocate move)) (some (operand.relocate move'))) mode 0).runFrom run)
        ((configuration.eval (.operation (Token.signOf negative) position'
          (some (left.relocate moved))
          (some (Expr.signed (!negated) inner (operand.relocate moved')))) mode 0).runFrom
            run) := by
    cases negated with
    | true =>
        rw [Bool.not_true, Bool.xor_false]
        exact sameEnding_of_sameSign operators (by omega) position position' move move' moved
          moved' (by omega)
    | false =>
        obtain rfl := unlessNegated rfl
        rw [Bool.not_false, Bool.xor_true]
        refine sameEnding_of_mergedSign operators (by omega) position position' inner move move'
          moved moved' integer (by omega) fun first second after reached => ?_
        rcases values first second after reached with alike | starts
        · exact same first second alike
        · cases isSigned.eq_true_of_startsNegative starts
  exact ⟨fun host => signs .sync _, fun host cancelled => signs _ _⟩

/-- One sign does what two do, as long as the values of the operands do not tell a plus from a
minus and the negated operand. -/
theorem collapses_adjacentSigns :
    configuration.CollapsesWhere
        (fun first second => Standard.AddsNegated configuration.conventions first second ∨
          Expr.StartsNegative textRight) left right
        (textLeft ++ " + - " ++ textRight) (textLeft ++ " + (- " ++ textRight ++ ")") ∧
      configuration.CollapsesWhere
        (fun first second => Standard.SubtractsNegated configuration.conventions first second ∨
          Expr.StartsNegative textRight) left right
        (textLeft ++ " - - " ++ textRight) (textLeft ++ " - (- " ++ textRight ++ ")") := by
  have plus : Lexer.tokenize .standard (" " ++ "+ -") =
      .ok [Token.signAt false 1, Token.signAt true 3] := by rfl
  have plus' : Lexer.tokenize .standard (" " ++ "+ (-") =
      .ok [Token.signAt false 1, ⟨.leftParen, none, 3⟩, Token.signAt true 4] := by rfl
  have minus : Lexer.tokenize .standard (" " ++ "- -") =
      .ok [Token.signAt true 1, Token.signAt true 3] := by rfl
  have minus' : Lexer.tokenize .standard (" " ++ "- (-") =
      .ok [Token.signAt true 1, ⟨.leftParen, none, 3⟩, Token.signAt true 4] := by rfl
  have adds := collapsesWhere_of_signs grammar operators integer isLeft isRight enoughLeft
    enoughRight plus plus'
    fun first second negated => (Standard.add_subtract_zero integer negated).symm
  have subtracts := collapsesWhere_of_signs grammar operators integer isLeft isRight enoughLeft
    enoughRight minus minus'
    fun first second negated => (Standard.subtract_subtract_zero integer negated).symm
  have spaced (glue : String) : textLeft ++ (" " ++ glue ++ (" " ++ textRight)) =
      textLeft ++ (" " ++ glue ++ " ") ++ textRight := by
    simp [String.append_assoc]
  have spacedClosed (glue : String) : textLeft ++ (" " ++ glue ++ (" " ++ (textRight ++ ")"))) =
      textLeft ++ (" " ++ glue ++ " ") ++ textRight ++ ")" := by
    simp [String.append_assoc]
  rw [spaced, spacedClosed] at adds subtracts
  exact ⟨adds, subtracts⟩

end Texts

/-- A call and a product in parentheses: two minus twelve. -/
theorem collapses_adjacentSigns_of_call :
    let configuration : Configuration Unit := .ofType .int32
    ∃ left right short long, Expr.IsOperandText 9 "ABS(2)" left ∧
      Expr.IsOperandText 9 "(3 * 4)" right ∧
      Compiled.ofText configuration ("ABS(2)" ++ " + - " ++ "(3 * 4)") = .ok short ∧
      Compiled.ofText configuration ("ABS(2)" ++ " + (- " ++ "(3 * 4)" ++ ")") = .ok long ∧
      Standard.AddsNegated configuration.conventions (.number (.int32 2)) (.number (.int32 12)) ∧
      SameEnding (short.execute ()) (long.execute ()) := by
  intro configuration
  let left : Expr := .call "ABS" 0 [some (.number "2" 4)]
  let right : Expr := .operation "*" 3 (some (.number "3" 1)) (some (.number "4" 5))
  have readsLeft : Lexer.tokenize .standard "ABS(2)" = .ok [⟨.identifier, some "ABS", 0⟩,
      ⟨.leftParen, none, 3⟩, ⟨.number, some "2", 4⟩, ⟨.rightParen, none, 5⟩] := by rfl
  have readsRight : Lexer.tokenize .standard "(3 * 4)" = .ok [⟨.leftParen, none, 0⟩,
      ⟨.number, some "3", 1⟩, ⟨.operator, some "*", 3⟩, ⟨.number, some "4", 5⟩,
      ⟨.rightParen, none, 6⟩] := by rfl
  have isLeft : Expr.IsOperandText 9 "ABS(2)" left :=
    .unsigned readsLeft (by rfl) (by rfl) (by rfl)
  have isRight : Expr.IsOperandText 9 "(3 * 4)" right :=
    .unsigned readsRight (by rfl) (by rfl) (by rfl)
  have negated : Standard.AddsNegated configuration.conventions
      (.number (.int32 2)) (.number (.int32 12)) :=
    .numbers rfl ⟨by decide, fun _ _ => (by decide : (12 : Int32) ≠ Int32.minValue),
        fun none => none.elim, fun decimal => nomatch decimal⟩
      (by simp [Number.sub, Number.unify, bind, Except.bind])
  have values : ((configuration.operandValues left right .sync).runFrom (.start () false)).1 =
      .ok (.number (.int32 2), .number (.int32 12)) := by rfl
  obtain ⟨⟨short, long, compiles, compiles', same, -⟩, -⟩ :=
    @collapses_adjacentSigns Unit configuration _ _ _ _ _ _ rfl rfl rfl isLeft isRight
      (by decide) (by decide)
  refine ⟨left, right, short, long, isLeft, isRight, compiles, compiles', negated, same () ?_⟩
  intro first second after reached
  rw [reached] at values
  cases values
  exact .inl negated

/-- A string shows whether a plus joins or a minus subtracts: only the text with two signs has a
value. -/
theorem not_collapses_joinedText :
    ¬ ∀ (configuration : Configuration Unit) (left right : Expr) (textLeft textRight : String)
        (roomLeft roomRight : Nat), configuration.grammar = .standard →
      configuration.operators = .standard →
      configuration.conventions.numericType.isInteger = true →
      Expr.IsOperandText roomLeft textLeft left → Expr.IsOperandText roomRight textRight right →
      roomLeft + 1 ≤ configuration.maxDepth → roomRight + 3 ≤ configuration.maxDepth →
      configuration.CollapsesWhere (fun _ _ => True) left right
        (textLeft ++ " + - " ++ textRight) (textLeft ++ " + (- " ++ textRight ++ ")") := by
  intro always
  let number : Token := ⟨.number, some "1", 0⟩
  have readsLeft : Lexer.tokenize .standard "'x'" = .ok [⟨.stringLiteral, some "x", 0⟩] := by rfl
  have isLeft : Expr.IsOperandText 9 "'x'" (.string "x" 0) :=
    .unsigned readsLeft (by rfl) (by rfl) (by rfl)
  have tokenized : Lexer.tokenize .standard "1" = .ok [number] := by rfl
  have grouped : TokenTree.ofTokens 9 (Token.foldSigns .standard [number]) =
      .ok [.leaf number] := by rfl
  have compiles : Expr.ofText .standard 9 "1" = .ok (.number "1" 0) := by rfl
  have isSigned := Expr.isSignedOperandText_of_unsigned tokenized (by rfl) grouped compiles
  obtain ⟨short, long, compiles, compiles', same, -⟩ :=
    always (.ofType .int32) _ _ _ _ 9 9 rfl rfl rfl isLeft
      (.unsigned tokenized (by rfl) grouped compiles) (by decide) (by decide)
  have text : "'x'" ++ " + - " ++ "1" = "'x'" ++ (" " ++ "+ -" ++ (" " ++ "1")) := by rfl
  have text' : "'x'" ++ " + (- " ++ "1" ++ ")" =
      "'x'" ++ (" " ++ "+ (-" ++ (" " ++ ("1" ++ ")"))) := by rfl
  obtain ⟨position, move, move', difference⟩ := @Expr.ofText_joined _ _ 256 _ _ _ _ "+ -" false
    false isLeft isSigned (by decide) 1 3 (by decide) (by rfl)
  obtain ⟨position', inner, moved, moved', joined⟩ := @Expr.ofText_enclosedMinus _ _ 256 _ _ _ _
    "+ (-" false false isLeft isSigned (by decide) 1 3 4 (by decide) (by rfl)
  rw [← text] at difference
  rw [← text'] at joined
  obtain rfl : short = ⟨_, .ofType .int32⟩ :=
    Except.ok.inj (compiles.symm.trans (Compiled.ofText_eq_ok_iff.mpr ⟨difference, rfl⟩))
  obtain rfl : long = ⟨_, .ofType .int32⟩ :=
    Except.ok.inj (compiles'.symm.trans (Compiled.ofText_eq_ok_iff.mpr ⟨joined, rfl⟩))
  have outcomes : (Except.error (.typeMismatch "-" .string .number) : Except Error Value) =
      .ok (.string "x-1") := (same () fun _ _ _ _ => trivial).1
  cases outcomes

end Configuration

end Formula

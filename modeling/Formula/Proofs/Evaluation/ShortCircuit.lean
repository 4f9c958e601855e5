import Formula.Compiled
import Formula.Proofs.Evaluation.Simulation
import Mathlib.Data.List.Induction

/-!
# Chains of ands and ors

A chain of ands or of ors nests to the left, so each operator of it decides anew about what stands
in front of it.  All the same its operands are evaluated one after the other, up to the first that
fails or decides the whole chain.
-/

namespace Formula

variable {σ : Type}

/-! ## One after the other -/

/-- Where computations end that are carried out one after the other, each from the run in which the
one before it ended, until one fails or has a deciding value. -/
inductive EndsIn (decides : Value → Bool) :
    List (Eval σ Value) → Run σ → Except Error Value × Run σ → Prop
  | failed {computation : Eval σ Value} {rest : List (Eval σ Value)} {run after : Run σ}
      {error : Error} (fails : computation.runFrom run = (.error error, after)) :
      EndsIn decides (computation :: rest) run (.error error, after)
  | decided {computation : Eval σ Value} {rest : List (Eval σ Value)} {run after : Run σ}
      {value : Value} (gives : computation.runFrom run = (.ok value, after))
      (deciding : decides value = true) :
      EndsIn decides (computation :: rest) run (.ok value, after)
  | last {computation : Eval σ Value} {run after : Run σ} {value : Value}
      (gives : computation.runFrom run = (.ok value, after)) :
      EndsIn decides [computation] run (.ok value, after)
  | next {computation : Eval σ Value} {rest : List (Eval σ Value)} {run between : Run σ}
      {value : Value} {ending : Except Error Value × Run σ}
      (gives : computation.runFrom run = (.ok value, between))
      (undecided : decides value = false) (ends : EndsIn decides rest between ending) :
      EndsIn decides (computation :: rest) run ending

namespace EndsIn

variable {decides : Value → Bool} {computations : List (Eval σ Value)} {run after : Run σ}

theorem singleton (computation : Eval σ Value) (run : Run σ) :
    EndsIn decides [computation] run (computation.runFrom run) := by
  cases ended : computation.runFrom run with
  | mk outcome after =>
      cases outcome with
      | error error => exact .failed ended
      | ok value => exact .last ended

theorem append_failed {error : Error} (ends : EndsIn decides computations run (.error error, after))
    (more : List (Eval σ Value)) :
    EndsIn decides (computations ++ more) run (.error error, after) := by
  generalize same : ((.error error, after) : Except Error Value × Run σ) = ending at ends
  induction ends with
  | failed fails => exact .failed fails
  | decided | last => cases same
  | next gives undecided _ ih => exact .next gives undecided (ih same)

theorem append_decided {value : Value} (ends : EndsIn decides computations run (.ok value, after))
    (deciding : decides value = true) (more : List (Eval σ Value)) :
    EndsIn decides (computations ++ more) run (.ok value, after) := by
  generalize same : ((.ok value, after) : Except Error Value × Run σ) = ending at ends
  induction ends with
  | failed => cases same
  | decided gives deciding' => exact .decided gives deciding'
  | last gives =>
      cases same
      exact .decided gives deciding
  | next gives undecided _ ih => exact .next gives undecided (ih same)

/-- Without a deciding value all of the computations have been carried out, and more can follow. -/
theorem append_undecided {value : Value} {more : List (Eval σ Value)}
    {ending : Except Error Value × Run σ}
    (ends : EndsIn decides computations run (.ok value, after)) (undecided : decides value = false)
    (continues : EndsIn decides more after ending) :
    EndsIn decides (computations ++ more) run ending := by
  generalize same : ((.ok value, after) : Except Error Value × Run σ) = reached at ends
  induction ends with
  | failed => cases same
  | decided gives deciding =>
      cases same
      rw [undecided] at deciding
      cases deciding
  | last gives =>
      cases same
      exact .next gives undecided continues
  | next gives undecided' _ ih => exact .next gives undecided' (ih same)

end EndsIn

/-! ## Chains -/

/-- The operator that a left operand of this truth decides. -/
def shortCircuit (deciding : Bool) : String :=
  if deciding then "||" else "&&"

namespace Expr

/-- Each operand but the first comes with the position of the operator in front of it. -/
def chain (operator : String) (first : Expr) (rest : List (Nat × Expr)) : Expr :=
  rest.foldl (fun left (position, right) => .operation operator position left right) first

/-- The nodes of the operators in a chain, the outermost first. -/
def chainNodes (operator : String) (first : Expr) (rest : List (Nat × Expr)) : List Expr :=
  ((List.range rest.length).map fun index =>
    chain operator first (rest.take (index + 1))).reverse

/-- The operands of a chain at a depth, each with its own depth. -/
def chainOperands (first : Expr) (rest : List (Nat × Expr)) (depth : Nat) : List (Expr × Nat) :=
  (first, depth + rest.length) ::
    rest.mapIdx fun index (_, operand) => (operand, depth + rest.length - index)

variable (operator : String) (first : Expr) (rest : List (Nat × Expr)) (last : Nat × Expr)

theorem chain_concat :
    chain operator first (rest ++ [last]) =
      .operation operator last.1 (chain operator first rest) last.2 := by
  rw [chain, List.foldl_append]
  rfl

theorem chainNodes_concat :
    chainNodes operator first (rest ++ [last]) =
      chain operator first (rest ++ [last]) :: chainNodes operator first rest := by
  have within : ∀ index ∈ List.range rest.length,
      chain operator first ((rest ++ [last]).take (index + 1)) =
        chain operator first (rest.take (index + 1)) := by
    intro index member
    rw [List.take_append_of_le_length (List.mem_range.mp member)]
  have whole : (rest ++ [last]).take (rest.length + 1) = rest ++ [last] :=
    List.take_of_length_le (by simp)
  rw [chainNodes, List.length_append, List.length_singleton, List.range_succ, List.map_append,
    List.map_singleton, whole, List.map_congr_left within, List.reverse_concat, ← chainNodes]

theorem chainOperands_concat (depth : Nat) :
    chainOperands first (rest ++ [last]) depth =
      chainOperands first rest (depth + 1) ++ [(last.2, depth + 1)] := by
  have deeper (index : Nat) :
      depth + (rest.length + 1) - index = depth + 1 + rest.length - index := by omega
  simp only [chainOperands, List.length_append, List.length_singleton, List.mapIdx_concat, deeper,
    List.cons_append, Nat.add_sub_cancel]
  rw [Nat.add_right_comm, Nat.add_assoc]

end Expr

/-- The run after the nodes have been entered in order. -/
def Run.enterAll (nodes : List Expr) (run : Run σ) : Run σ :=
  nodes.foldl (fun run node => run.record (.entered node)) run

theorem Run.isModeCancelled_record (run : Run σ) (event : Event) (mode : Mode) :
    (run.record event).isModeCancelled mode = run.isModeCancelled mode := by
  cases mode with
  | sync | async => rfl

namespace Configuration

variable {configuration : Configuration σ} {deciding : Bool} {mode : Mode} {depth : Nat}

/-! ## One operator -/

theorem decides_shortCircuit (value : Value) :
    configuration.operators.decides configuration.toEnvironment (shortCircuit deciding) value =
      (configuration.isTruthy value == deciding) := by
  cases deciding with
  | true => exact (beq_true _).symm
  | false => exact (beq_false _).symm

theorem apply_shortCircuit (left right : Value) :
    configuration.operators.apply configuration.toEnvironment (shortCircuit deciding) (some left)
      (some right) = .ok right := by
  cases deciding with
  | true | false => rfl

/-- The right operand is evaluated only after a left one that does not decide, and is the result. -/
theorem runFrom_shortCircuit {position : Nat} {left right : Expr} {run : Run σ}
    (room : depth ≤ configuration.maxDepth) (uncancelled : run.isModeCancelled mode = false) :
    let node := Expr.operation (shortCircuit deciding) position left right
    (configuration.eval node mode depth).runFrom run =
      match (configuration.eval left mode (depth + 1)).runFrom (run.record (.entered node)) with
      | (.ok value, after) =>
          if configuration.isTruthy value == deciding then (.ok value, after)
          else (configuration.eval right mode (depth + 1)).runFrom after
      | (.error error, after) => (.error error, after) := by
  intro node
  have entered : (configuration.enter node mode depth).runFrom run =
      (.ok (), run.record (.entered node)) := by
    rw [runFrom_enter, if_neg (by simp [uncancelled]), if_neg (by omega)]
  simp only [node]
  rw [eval, Eval.runFrom_bind, entered]
  simp only [evalOperand, bind_assoc, pure_bind]
  rw [Eval.runFrom_bind]
  generalize (configuration.eval left mode (depth + 1)).runFrom _ = reached
  obtain ⟨outcome, after⟩ := reached
  cases outcome with
  | error error => rfl
  | ok value =>
      simp only [Option.filter_some, decides_shortCircuit]
      by_cases decided : (configuration.isTruthy value == deciding) = true
      · simp only [decided, ↓reduceIte]
        rfl
      · simp only [decided, Bool.false_eq_true, ↓reduceIte, apply_shortCircuit]
        exact congrArg (Eval.runFrom · after) (bind_pure _)

/-! ## Whole chains -/

theorem endsIn_chain (first : Expr) (rest : List (Nat × Expr)) {run : Run σ}
    (room : depth + rest.length ≤ configuration.maxDepth + 1)
    (uncancelled : run.isModeCancelled mode = false) :
    EndsIn (fun value => configuration.isTruthy value == deciding)
      ((Expr.chainOperands first rest depth).map fun (operand, depth) =>
        configuration.eval operand mode depth)
      (run.enterAll (Expr.chainNodes (shortCircuit deciding) first rest))
      ((configuration.eval (Expr.chain (shortCircuit deciding) first rest) mode depth).runFrom
        run) := by
  induction rest using List.reverseRecOn generalizing depth run with
  | nil => exact .singleton _ _
  | append_singleton rest last ih =>
      rw [List.length_append, List.length_singleton] at room
      have roomLeft : (depth + 1) + rest.length ≤ configuration.maxDepth + 1 := by omega
      have decidesLeft := ih roomLeft
        ((run.isModeCancelled_record (.entered (Expr.chain (shortCircuit deciding) first
          (rest ++ [last]))) mode).trans uncancelled)
      rw [Expr.chainOperands_concat, List.map_append, List.map_singleton, Expr.chainNodes_concat]
      rw [Expr.chain_concat] at decidesLeft ⊢
      rw [runFrom_shortCircuit (by omega) uncancelled]
      generalize (configuration.eval _ mode (depth + 1)).runFrom _ = reached at decidesLeft ⊢
      obtain ⟨outcome, after⟩ := reached
      cases outcome with
      | error error => exact decidesLeft.append_failed _
      | ok value =>
          dsimp only
          split
          · next decided => exact decidesLeft.append_decided decided _
          · next undecided =>
              exact decidesLeft.append_undecided (Bool.eq_false_iff.mpr undecided)
                (.singleton _ _)

/-- A chain enters its own nodes and then evaluates its operands one after the other, from the first
on, up to one that fails or decides, whose outcome is that of the chain.  Nothing is evaluated once
the token is cancelled. -/
theorem eval_chain (configuration : Configuration σ) (deciding : Bool) (first : Expr)
    (rest : List (Nat × Expr)) (mode : Mode) {depth : Nat}
    (room : depth + rest.length ≤ configuration.maxDepth + 1) (run : Run σ) :
    let chain := Expr.chain (shortCircuit deciding) first rest
    let operands := (Expr.chainOperands first rest depth).map fun (operand, depth) =>
      configuration.eval operand mode depth
    (run.isModeCancelled mode = false →
      EndsIn (fun value => configuration.isTruthy value == deciding) operands
        (run.enterAll (Expr.chainNodes (shortCircuit deciding) first rest))
        ((configuration.eval chain mode depth).runFrom run)) ∧
    (run.isModeCancelled mode = true →
      (configuration.eval chain mode depth).runFrom run = (.error .cancelled, run)) :=
  ⟨endsIn_chain first rest room, eval_stopsWhenCancelled _ run⟩

/-- The empty text does not decide and the text behind it does, so that a call of an unknown
function is never entered. -/
theorem eval_chain_of_texts :
    let configuration : Configuration Unit := .ofType .float64
    let first := Expr.string "" 0
    let rest := [(3, Expr.string "a" 6), (10, Expr.call "unknown" 13 [])]
    let run : Run Unit := .start () false
    0 + rest.length ≤ configuration.maxDepth + 1 ∧ run.isModeCancelled .sync = false ∧
      (configuration.eval (Expr.chain "||" first rest) .sync 0).runFrom run =
        (.ok (.string "a"), run.enterAll (Expr.chainNodes "||" first rest ++
          [.string "" 0, .string "a" 6])) := by
  intro configuration first rest run
  have room : 0 + rest.length ≤ configuration.maxDepth + 1 := by decide
  refine ⟨room, rfl, ?_⟩
  have ends := (eval_chain configuration true first rest .sync room run).1 rfl
  change EndsIn _ _ _ ((configuration.eval (Expr.chain "||" first rest) .sync 0).runFrom run)
    at ends
  generalize (configuration.eval (Expr.chain "||" first rest) .sync 0).runFrom run = ending
    at ends ⊢
  cases ends with
  | failed fails => cases fails
  | decided gives decided =>
      cases gives
      cases decided
  | next gives _ ends =>
      cases gives
      cases ends with
      | failed fails => cases fails
      | decided gives _ =>
          cases gives
          rfl
      | next gives undecided _ =>
          cases gives
          cases undecided

end Configuration

end Formula

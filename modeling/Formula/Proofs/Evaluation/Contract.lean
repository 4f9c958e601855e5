import Formula.Proofs.Builtin.Functions
import Formula.Proofs.Evaluation.Simulation
import Formula.Proofs.Expr.Height
import Formula.Proofs.Expr.Induction
import Formula.Proofs.Expr.Nodes
import Formula.Proofs.Number.Representation

/-!
# Contracts of evaluations

A contract says which runs an evaluation goes through, which values there are in it, and which
errors may end it and where.  With standard functions alone it is up to the nodes: an expression
keeps to a contract if each of its nodes does.
-/

namespace Formula

variable {σ α β : Type}

/-! ## Contracts -/

/-- The walk itself records what it does, takes null for what is absent, and stops when its token is
cancelled. -/
structure Contract (σ : Type) (mode : Mode) where
  keeps : Run σ → Prop
  good : Value → Prop
  fails : Error → Run σ → Prop
  record {run : Run σ} : keeps run → ∀ event, keeps (run.record event)
  null : good .null
  cancelled {run : Run σ} : keeps run → run.isModeCancelled mode = true → fails .cancelled run

namespace Contract

variable {mode : Mode} (contract : Contract σ mode)

/-- From a run that is kept to, the computation comes to a good result in such a run, or fails in a
run where it may. -/
def Ensures (good : α → Prop) (computation : Eval σ α) : Prop :=
  ∀ run, contract.keeps run →
    (∀ result after, computation.runFrom run = (.ok result, after) →
      good result ∧ contract.keeps after) ∧
    ∀ error after, computation.runFrom run = (.error error, after) → contract.fails error after

/-- What needs no run. -/
structure Grants (outcome : Except Error Value) : Prop where
  gives : Gives contract.good outcome
  fails {error : Error} : outcome = .error error →
    ∀ run, contract.keeps run → contract.fails error run

namespace Ensures

variable {contract} {good : α → Prop} {good' : β → Prop}

theorem pure {result : α} (isGood : good result) :
    contract.Ensures good (Pure.pure result : Eval σ α) := by
  intro run keeps
  refine ⟨?_, nofun⟩
  rintro _ _ ⟨⟩
  exact ⟨isGood, keeps⟩

theorem throw {error : Error} (fails : ∀ run, contract.keeps run → contract.fails error run) :
    contract.Ensures good (MonadExcept.throw error : Eval σ α) := by
  intro run keeps
  refine ⟨nofun, ?_⟩
  rintro _ _ ⟨⟩
  exact fails run keeps

theorem ofExcept {outcome : Except Error Value} (grants : contract.Grants outcome) :
    contract.Ensures contract.good (Eval.ofExcept outcome) := by
  intro run keeps
  constructor
  · rintro result _ ⟨⟩
    exact ⟨grants.gives result rfl, keeps⟩
  · rintro error _ ⟨⟩
    exact grants.fails rfl run keeps

theorem record (event : Event) : contract.Ensures (fun _ => True) (Eval.record event) := by
  intro run keeps
  refine ⟨?_, nofun⟩
  rintro _ _ ⟨⟩
  exact ⟨trivial, contract.record keeps event⟩

theorem bind {computation : Eval σ α} {next : α → Eval σ β}
    (ensures : contract.Ensures good computation)
    (rest : ∀ result, good result → contract.Ensures good' (next result)) :
    contract.Ensures good' (computation >>= next) := by
  intro run keeps
  have ⟨gives, fails⟩ := ensures run keeps
  rw [Eval.runFrom_bind]
  generalize computation.runFrom run = reached at gives fails ⊢
  obtain ⟨outcome, between⟩ := reached
  cases outcome with
  | ok result =>
      have ⟨isGood, keepsBetween⟩ := gives result between rfl
      exact rest result isGood between keepsBetween
  | error error =>
      refine ⟨nofun, ?_⟩
      rintro _ _ ⟨⟩
      exact fails error between rfl

end Ensures

end Contract

/-! ## Standard functions -/

/-- Functions may have been removed and may have other names, but there are none of the host. -/
def Configuration.HasStandardFunctions (configuration : Configuration σ) : Prop :=
  ∀ name function, configuration.function? name = some function →
    ∃ entry ∈ Builtin.operations, function = Builtin.functionOf entry.2

theorem Configuration.hasStandardFunctions {configuration : Configuration σ}
    (noneAdded : configuration.functions = .empty)
    (standard : configuration.genericFunctions = Builtin.functions) :
    configuration.HasStandardFunctions := by
  intro name function found
  obtain ⟨key, own⟩ | builtin := added_or_standard standard found
  · rw [noneAdded, Table.find?_empty] at own
    cases own
  · exact builtin

theorem Arguments.values_eager (values : List Value) :
    (Arguments.eager values).values = (pure values : Procedure σ (List Value)) := by
  suffices general : ∀ before rest : List Value, before ++ rest = values →
      (List.range' before.length rest.length).mapM (Arguments.eager values).get =
        (pure rest : Procedure σ (List Value)) by
    unfold Arguments.values
    rw [List.range_eq_range']
    exact general [] values rfl
  intro before rest
  induction rest generalizing before with
  | nil => exact fun _ => rfl
  | cons value rest ih =>
      intro parts
      have there : values[before.length]? = some value := by
        rw [← parts]
        simp
      have first : (Arguments.eager values).get before.length =
          (pure value : Procedure σ Value) := by
        simp only [Arguments.get, Arguments.attempt, there]
        rfl
      have others := ih (before ++ [value]) (by simpa using parts)
      rw [List.length_append, List.length_singleton] at others
      rw [List.length_cons, List.range'_succ, List.mapM_cons, first, pure_bind, others]
      rfl

/-- Either mode runs the synchronous body, which is the only one. -/
theorem Configuration.selectBody_functionOf (operation : Builtin.Operation) (mode : Mode) :
    ∃ body : Body σ, selectBody (Builtin.functionOf operation) mode = some (body, false) ∧
      ∀ settings values, body settings (.eager values) =
        ExceptT.mk (pure (operation settings.conventions values)) := by
  refine ⟨fun settings arguments => do
    let values ← arguments.values
    ExceptT.mk (pure (operation settings.conventions values)), ?_, fun settings values => ?_⟩
  · cases mode with
    | sync | async => rfl
  · dsimp only
    rw [Arguments.values_eager, pure_bind]

/-- A standard function is computed from its arguments at once. -/
theorem Configuration.eval_call_functionOf {configuration : Configuration σ} {name : String}
    {operation : Builtin.Operation}
    (found : configuration.function? name = some (Builtin.functionOf operation)) (position : Nat)
    (arguments : List (Option Expr)) (mode : Mode) (depth : Nat) :
    configuration.eval (.call name position arguments) mode depth = (do
      configuration.enter (.call name position arguments) mode depth
      let values ← configuration.evalArguments arguments mode (depth + 1)
      Eval.record (.called name .sync)
      Eval.ofExcept (operation configuration.conventions values)) := by
  obtain ⟨body, selected, computes⟩ := selectBody_functionOf (σ := σ) operation mode
  have isEager : (Builtin.functionOf operation : Function σ).isLazy = false := rfl
  have inSync : bodyMode (σ := σ) false mode = pure .sync := by
    cases mode with
    | sync | async => rfl
  unfold eval
  simp only [resolveFunction, found, pure_bind, selected, isEager, Bool.false_eq_true, ↓reduceIte,
    inSync, runBody, computes]
  rfl

/-! ## The walk -/

namespace Contract

variable {configuration : Configuration σ} {mode : Mode}

/-- A node adds nothing that the contract does not allow.  Its operands and arguments come to it as
good values. -/
inductive Allows (configuration : Configuration σ) (contract : Contract σ mode) : Expr → Prop
  | number {text : String} {position : Nat}
      (converts : contract.Grants
        (configuration.operators.convertToNumber configuration.toEnvironment text)) :
      Allows configuration contract (.number text position)
  | string {content : String} {position : Nat} (isGood : contract.good (.string content)) :
      Allows configuration contract (.string content position)
  | identifier {name : String} {position : Nat}
      (resolves : contract.Ensures contract.good (configuration.resolveIdentifier name mode)) :
      Allows configuration contract (.identifier name position)
  | unknown {name : String} {position : Nat} {arguments : List (Option Expr)}
      (missing : configuration.function? name = none)
      (fails : ∀ run, contract.keeps run → contract.fails (.unknownFunction name) run) :
      Allows configuration contract (.call name position arguments)
  | call {name : String} {position : Nat} {arguments : List (Option Expr)}
      {operation : Builtin.Operation}
      (found : configuration.function? name = some (Builtin.functionOf operation))
      (computes : ∀ values, (∀ value ∈ values, contract.good value) →
        contract.Grants (operation configuration.conventions values)) :
      Allows configuration contract (.call name position arguments)
  | operation {operator : String} {position : Nat} {left right : Option Expr}
      (applies : ∀ left' right' : Option Value,
        left'.isSome = left.isSome → (∀ value, left' = some value → contract.good value) →
        right'.isSome = right.isSome → (∀ value, right' = some value → contract.good value) →
          contract.Grants (configuration.operators.apply configuration.toEnvironment operator
            left' right')) :
      Allows configuration contract (.operation operator position left right)

/-- The expression keeps to the contract at every depth where it fits in, or where the contract puts
up with the nesting limit. -/
def Covers (configuration : Configuration σ) (contract : Contract σ mode) (expr : Expr) : Prop :=
  ∀ depth, (configuration.maxDepth < depth + expr.height → ∀ run, contract.keeps run →
      contract.fails (.nestingLimit configuration.maxDepth) run) →
    contract.Ensures contract.good (configuration.eval expr mode depth)

variable {contract : Contract σ mode}

theorem ensures_enter (node : Expr) {depth : Nat}
    (limit : configuration.maxDepth < depth → ∀ run, contract.keeps run →
      contract.fails (.nestingLimit configuration.maxDepth) run) :
    contract.Ensures (fun _ => True) (configuration.enter node mode depth) := by
  intro run keeps
  rw [Configuration.runFrom_enter]
  split
  · next cancelled =>
      refine ⟨nofun, ?_⟩
      rintro _ _ ⟨⟩
      exact contract.cancelled keeps cancelled
  · split
    · next deep =>
        refine ⟨nofun, ?_⟩
        rintro _ _ ⟨⟩
        exact limit deep _ (contract.record keeps _)
    · refine ⟨?_, nofun⟩
      rintro _ _ ⟨⟩
      exact ⟨trivial, contract.record keeps _⟩

theorem ensures_evalOperand {operand : Option Expr}
    (covers : ∀ expr, some expr = operand → contract.Covers configuration expr) {depth : Nat}
    (limit : configuration.maxDepth < depth + Expr.operandHeight operand →
      ∀ run, contract.keeps run → contract.fails (.nestingLimit configuration.maxDepth) run) :
    contract.Ensures
      (fun result : Option Value => result.isSome = operand.isSome ∧
        ∀ value, result = some value → contract.good value)
      (configuration.evalOperand operand mode (depth + 1)) := by
  cases operand with
  | none => exact .pure ⟨rfl, nofun⟩
  | some expr =>
      unfold Configuration.evalOperand
      rw [Expr.operandHeight] at limit
      refine (covers expr rfl (depth + 1) fun deep => limit (by omega)).bind fun value isGood => ?_
      refine .pure ⟨rfl, ?_⟩
      rintro _ ⟨⟩
      exact isGood

theorem ensures_evalArguments {arguments : List (Option Expr)}
    (covers : ∀ expr, some expr ∈ arguments → contract.Covers configuration expr) {depth : Nat}
    (limit : configuration.maxDepth < depth + Expr.argumentsHeight arguments →
      ∀ run, contract.keeps run → contract.fails (.nestingLimit configuration.maxDepth) run) :
    contract.Ensures (fun values : List Value => ∀ value ∈ values, contract.good value)
      (configuration.evalArguments arguments mode (depth + 1)) := by
  induction arguments with
  | nil => exact .pure (by simp)
  | cons argument arguments ih =>
      unfold Configuration.evalArguments
      rw [Expr.argumentsHeight] at limit
      have first : ∀ expr, some expr = argument → contract.Covers configuration expr :=
        fun expr same => covers expr (by simp [same])
      refine (ensures_evalOperand first fun deep => limit (by omega)).bind fun value isGood => ?_
      refine (ih (fun expr member => covers expr (.tail _ member))
        fun deep => limit (by omega)).bind fun values areGood => .pure ?_
      refine List.forall_mem_cons.mpr ⟨?_, areGood⟩
      cases value with
      | none => exact contract.null
      | some value => exact isGood.2 value rfl

theorem covers_call {name : String} {position : Nat} {arguments : List (Option Expr)}
    (allows : contract.Allows configuration (.call name position arguments))
    (covers : ∀ expr, some expr ∈ arguments → contract.Covers configuration expr) :
    contract.Covers configuration (.call name position arguments) := by
  intro depth limit
  rw [Expr.height] at limit
  have entered : contract.Ensures (fun _ => True)
      (configuration.enter (.call name position arguments) mode depth) :=
    ensures_enter _ fun deep => limit (Nat.lt_add_right _ deep)
  cases allows with
  | unknown missing fails =>
      unfold Configuration.eval
      refine entered.bind fun _ _ => ?_
      rw [Configuration.resolveFunction, missing]
      exact .throw fails
  | @call _ _ _ operation found computes =>
      rw [Configuration.eval_call_functionOf found]
      refine entered.bind fun _ _ => ?_
      refine (ensures_evalArguments covers limit).bind fun values areGood => ?_
      exact (Ensures.record _).bind fun _ _ => .ofExcept (computes values areGood)

theorem covers (expr : Expr) (allows : ∀ node ∈ expr.nodes, contract.Allows configuration node) :
    contract.Covers configuration expr := by
  induction expr using Expr.nestedInduction with
  | number text position =>
      intro depth limit
      obtain ⟨converts⟩ := allows _ (Expr.self_mem_nodes _)
      unfold Configuration.eval
      exact (ensures_enter _ fun deep => limit (by omega)).bind fun _ _ => .ofExcept converts
  | string content position =>
      intro depth limit
      obtain - | ⟨isGood⟩ := allows _ (Expr.self_mem_nodes _)
      unfold Configuration.eval
      exact (ensures_enter _ fun deep => limit (by omega)).bind fun _ _ => .pure isGood
  | identifier name position =>
      intro depth limit
      obtain - | - | ⟨resolves⟩ := allows _ (Expr.self_mem_nodes _)
      unfold Configuration.eval
      exact (ensures_enter _ fun deep => limit (by omega)).bind fun _ _ => resolves
  | call name position arguments ih =>
      refine covers_call (allows _ (Expr.self_mem_nodes _)) fun expr member =>
        ih expr member fun node inside => allows node ?_
      exact Expr.mem_nodes_call_iff.mpr (.inr ⟨expr, member, inside⟩)
  | operation operator position left right ihLeft ihRight =>
      intro depth limit
      obtain - | - | - | - | - | ⟨applies⟩ := allows _ (Expr.self_mem_nodes _)
      rw [Expr.height] at limit
      have coversLeft : ∀ expr, some expr = left → contract.Covers configuration expr :=
        fun expr same => ihLeft expr same fun node inside =>
          allows node (Expr.mem_nodes_operation_iff.mpr (.inr (.inl ⟨expr, same, inside⟩)))
      have coversRight : ∀ expr, some expr = right → contract.Covers configuration expr :=
        fun expr same => ihRight expr same fun node inside =>
          allows node (Expr.mem_nodes_operation_iff.mpr (.inr (.inr ⟨expr, same, inside⟩)))
      unfold Configuration.eval
      refine (ensures_enter _ fun deep => limit (by omega)).bind fun _ _ => ?_
      refine (ensures_evalOperand coversLeft fun deep => limit (by omega)).bind
        fun left' isLeft => ?_
      split
      · next decided filtered =>
          exact .pure (isLeft.2 decided (Option.filter_eq_some_iff.mp filtered).1)
      · refine (ensures_evalOperand coversRight fun deep => limit (by omega)).bind
          fun right' isRight => ?_
        exact .ofExcept (applies left' right' isLeft.1 isLeft.2 isRight.1 isRight.2)

end Contract

end Formula

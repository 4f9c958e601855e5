import Formula.Proofs.Evaluation.Contract
import Formula.Proofs.Expr.Failures
import Formula.Proofs.Expr.OperatorNodes

/-!
# Errors of the two stages

Compiling and executing have no error in common but the nesting limit, which an expression can only
exceed where it is executed under a lower limit than it was compiled under.  What else a standard
configuration can fail with comes from outside: the asynchronous provider has errors of its own, and
the token can be cancelled.
-/

namespace Formula

variable {σ : Type}

/-! ## Errors of an execution -/

inductive Error.OfExecution : Error → Prop
  | ofComputation {error : Error} (computed : error.OfComputation) : OfExecution error
  | unknownFunction (name : String) : OfExecution (.unknownFunction name)

namespace Error.OfExecution

variable {error : Error}

theorem isCompileError_eq_false (ofExecution : error.OfExecution) :
    error.isCompileError = false := by
  cases ofExecution with
  | unknownFunction => rfl
  | ofComputation computed =>
      cases computed with
      | typeMismatch | invalidArgument | divisionByZero | overflow | unrepresentable => rfl

theorem ne_unknownOperator (ofExecution : error.OfExecution) (operator : String) :
    error ≠ .unknownOperator operator := by
  rintro rfl
  obtain ⟨⟨⟩⟩ := ofExecution

theorem ne_noOperand (ofExecution : error.OfExecution) (operator : String) :
    error ≠ .invalidArgument (.noOperand operator) := by
  rintro rfl
  cases ofExecution with
  | ofComputation computed =>
      cases computed with
      | invalidArgument complete => exact complete operator rfl

end Error.OfExecution

namespace Configuration

/-- The asynchronous provider answers a question for a name with the error. -/
def IsProviderError (configuration : Configuration σ) (token : Nat) (error : Error) : Prop :=
  ∃ provider name run, configuration.asyncProvider = some provider ∧
    ((Eval.runProcedure [] (.async token) (provider name)).runFrom run).1 = .error error

/-- The nesting limit is lower than the one an expression was compiled under. -/
def IsLowerLimit (configuration : Configuration σ) (compiledUnder : Nat) (error : Error) : Prop :=
  configuration.maxDepth < compiledUnder ∧ error = .nestingLimit configuration.maxDepth

variable {configuration : Configuration σ} {mode : Mode} {compiledUnder : Nat} {expr : Expr}

/-- Any values, and errors that are accounted for. -/
def blaming (configuration : Configuration σ) (mode : Mode) (compiledUnder : Nat) :
    Contract σ mode where
  keeps _ := True
  good _ := True
  fails error run := error.OfExecution ∨ configuration.IsLowerLimit compiledUnder error ∨
    ∃ token, mode = .async token ∧
      (configuration.IsProviderError token error ∨
        error = .cancelled ∧ run.isCancelled token = true)
  record _ _ := trivial
  null := trivial
  cancelled _ cancelled := by
    cases mode with
    | sync => cases cancelled
    | async token => exact .inr (.inr ⟨token, rfl, .inr ⟨rfl, cancelled⟩⟩)

theorem grants_blaming {outcome : Except Error Value} (computes : Computes outcome) :
    (configuration.blaming mode compiledUnder).Grants outcome where
  gives _ _ := trivial
  fails failed _ _ := .inl (.ofComputation (computes _ failed))

theorem ensures_resolveConstant (name : String) :
    (configuration.blaming mode compiledUnder).Ensures (fun _ => True)
      (configuration.resolveConstant name) := by
  intro run _
  refine ⟨fun _ _ _ => ⟨trivial, trivial⟩, fun error after failed => ?_⟩
  rw [runFrom_resolveConstant] at failed
  cases given : configuration.provider with
  | none | some provider =>
      rw [given] at failed
      cases failed

theorem ensures_resolveIdentifier (name : String) :
    (configuration.blaming mode compiledUnder).Ensures (fun _ => True)
      (configuration.resolveIdentifier name mode) := by
  cases mode with
  | sync => exact ensures_resolveConstant name
  | async token =>
      simp only [resolveIdentifier]
      cases given : configuration.asyncProvider with
      | none => exact ensures_resolveConstant name
      | some provider =>
          have asks : (configuration.blaming (.async token) compiledUnder).Ensures (fun _ => True)
              (Eval.runProcedure [] (.async token) (provider name)) := by
            refine fun run _ => ⟨fun _ _ _ => ⟨trivial, trivial⟩, fun error after failed => ?_⟩
            exact .inr (.inr ⟨token, rfl, .inl ⟨provider, name, run, given,
              congrArg Prod.fst failed⟩⟩)
          refine (Contract.Ensures.record _).bind fun _ _ => asks.bind fun found _ => ?_
          cases found with
          | none => exact ensures_resolveConstant name
          | some value => exact .pure trivial

theorem allows_blaming (operators : configuration.operators = .standard)
    (functions : configuration.HasStandardFunctions) (known : expr.HasKnownOperators)
    {node : Expr} (member : node ∈ expr.nodes) :
    (configuration.blaming mode compiledUnder).Allows configuration node := by
  cases node with
  | number text position =>
      refine .number (grants_blaming ?_)
      rw [operators]
      exact Operators.computes_convertToNumber _ text
  | string content position => exact .string trivial
  | identifier name position => exact .identifier (ensures_resolveIdentifier name)
  | call name position arguments =>
      cases found : configuration.function? name with
      | none => exact .unknown found fun _ _ => .inl (.unknownFunction name)
      | some function =>
          obtain ⟨entry, standard, rfl⟩ := functions name function found
          exact .call found fun values _ =>
            grants_blaming (Builtin.computes_of_mem _ values standard)
  | operation operator position left right =>
      refine .operation fun left' right' sameLeft _ sameRight _ => grants_blaming ?_
      rw [operators]
      have knows := known operator position left right member
      rw [← sameLeft, ← sameRight] at knows
      exact Operators.computes_standard_apply _ knows

/-- The contract holds from the root on. -/
theorem ensures_blaming (operators : configuration.operators = .standard)
    (functions : configuration.HasStandardFunctions) (known : expr.HasKnownOperators)
    (fits : expr.height ≤ compiledUnder) (mode : Mode) :
    (configuration.blaming mode compiledUnder).Ensures (fun _ => True)
      (configuration.eval expr mode 0) :=
  Contract.covers expr (fun _ => allows_blaming operators functions known) 0
    fun deep _ _ => .inr (.inl ⟨by omega, rfl⟩)

end Configuration

/-! ## Stages -/

namespace Compiled

theorem error_of_stage :
    (∀ (configuration : Configuration σ) (text : String) (error : Error),
      ofText configuration text = .error error → error.OfCompilation) ∧
    (∀ error : Error, error.OfExecution → error.isCompileError = false ∧
      ∀ operator, error ≠ .unknownOperator operator ∧
        error ≠ .invalidArgument (.noOperand operator)) ∧
    ∀ (configuration other : Configuration σ) (text : String) (compiled : Compiled σ),
      configuration.grammar = .standard → ofText configuration text = .ok compiled →
      other.operators = .standard → other.HasStandardFunctions →
        compiled.root.HasKnownOperators ∧
        (∀ host error, (compiled.executeWith other host).1 = .error error →
          error.OfExecution ∨ other.IsLowerLimit configuration.maxDepth error) ∧
        ∀ host cancelled error, (compiled.executeAsyncWith other host cancelled).1 = .error error →
          error.OfExecution ∨ other.IsLowerLimit configuration.maxDepth error ∨
            other.IsProviderError Run.callerToken error ∨
              error = .cancelled ∧
                (compiled.executeAsyncWith other host cancelled).2.isCancelled
                  Run.callerToken = true := by
  refine ⟨fun configuration text => fails_ofText configuration text, fun error ofExecution =>
    ⟨ofExecution.isCompileError_eq_false, fun operator =>
      ⟨ofExecution.ne_unknownOperator operator, ofExecution.ne_noOperand operator⟩⟩, ?_⟩
  intro configuration other text compiled grammar compiles operators functions
  obtain ⟨built, -⟩ := Compiled.ofText_eq_ok_iff.mp compiles
  have fits := Expr.height_le_of_ofText built
  rw [grammar] at built
  have known := Expr.hasKnownOperators_of_ofText built
  have ensures := Configuration.ensures_blaming operators functions known fits
  refine ⟨known, fun host error failed => ?_, fun host cancelled error failed => ?_⟩
  · obtain ofExecution | lower | ⟨token, ⟨⟩, -⟩ :=
      (ensures .sync (.start host false) trivial).2 error _ (Prod.ext failed rfl)
    · exact .inl ofExecution
    · exact .inr lower
  · obtain ofExecution | lower | ⟨token, ⟨⟩, outside⟩ :=
      (ensures (.async Run.callerToken) (.start host cancelled) trivial).2 error _
        (Prod.ext failed rfl)
    · exact .inl ofExecution
    · exact .inr (.inl lower)
    · exact .inr (.inr outside)

theorem error_of_stage_division :
    let configuration : Configuration Unit := .ofType .int32
    ∃ compiled, ofText configuration "2! / 0" = .ok compiled ∧
      (compiled.executeWith configuration ()).1 = .error .divisionByZero ∧
        (Error.divisionByZero.OfExecution ∨
          configuration.IsLowerLimit configuration.maxDepth .divisionByZero) := by
  intro configuration
  let root : Expr := .operation "/" 3 (some (.operation "!" 1 (some (.number "2" 0)) none))
    (some (.number "0" 5))
  have compiles : ofText configuration "2! / 0" = .ok ⟨root, configuration⟩ := by rfl
  have fails : (executeWith ⟨root, configuration⟩ configuration ()).1 =
      .error .divisionByZero := by rfl
  have ⟨_, outcomes, _⟩ := error_of_stage.2.2 configuration configuration "2! / 0" _ rfl compiles
    rfl (Configuration.hasStandardFunctions rfl rfl)
  exact ⟨_, compiles, fails, outcomes () _ fails⟩

end Compiled

/-- There is nothing to be had from the provider of this configuration. -/
def Configuration.offline : Configuration Unit :=
  { Configuration.ofType .float64 with
    asyncProvider := some fun _ => throw (.host "offline") }

/-- This configuration has room for a single node. -/
def Configuration.shallow : Configuration Unit :=
  { Configuration.ofType .float64 with maxDepth := 0 }

open Formula.Configuration (offline shallow) in
theorem Compiled.not_ofExecution :
    (¬ ∀ (configuration : Configuration Unit) (text : String) (compiled : Compiled Unit),
      configuration.grammar = .standard → ofText configuration text = .ok compiled →
      configuration.operators = .standard → configuration.HasStandardFunctions →
        ∀ error, (compiled.executeAsync () false).1 = .error error →
          (compiled.executeAsync () false).2.isCancelled Run.callerToken = false →
            error.OfExecution) ∧
    ¬ ∀ (configuration other : Configuration Unit) (text : String) (compiled : Compiled Unit),
      configuration.grammar = .standard → ofText configuration text = .ok compiled →
      other.operators = .standard → other.HasStandardFunctions →
        ∀ error, (compiled.executeWith other ()).1 = .error error → error.OfExecution := by
  constructor
  · intro always
    have compiles : ofText offline "x" = .ok ⟨.identifier "x" 0, offline⟩ := by rfl
    have ofExecution : (Error.host "offline").OfExecution :=
      always offline "x" _ rfl compiles rfl (Configuration.hasStandardFunctions rfl rfl) _ rfl rfl
    obtain ⟨⟨⟩⟩ := ofExecution
  · intro always
    have compiles : ofText offline "x!" =
        .ok ⟨.operation "!" 1 (some (.identifier "x" 0)) none, offline⟩ := by rfl
    have ofExecution : (Error.nestingLimit 0).OfExecution :=
      always offline shallow "x!" _ rfl compiles rfl (Configuration.hasStandardFunctions rfl rfl) _
        rfl
    obtain ⟨⟨⟩⟩ := ofExecution

end Formula

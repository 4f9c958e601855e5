import Formula.Evaluation.Run

/-!
# Evaluation

The walk over an expression tree.  Operands are evaluated left before right.  A synchronous body
gets synchronous thunks and an asynchronous body asynchronous ones, whichever way the call itself is
evaluated; an asynchronous body of a synchronous call gets a token of its own.
-/

namespace Formula

namespace Configuration

variable {σ : Type} (configuration : Configuration σ)

/-! ## Names -/

/-- The provider comes before the tables, and an unknown name is null. -/
def resolveConstant (name : String) : Eval σ Value := do
  let constant := (configuration.constant? name).getD .null
  match configuration.provider with
  | none => return constant
  | some provider => do
      Eval.record (.lookup name)
      let run ← get
      let (found, host) := provider name run.host
      set { run with host := host }
      return found.getD constant

/-- An asynchronous evaluation asks the asynchronous provider first. -/
def resolveIdentifier (name : String) : Mode → Eval σ Value
  | .sync => configuration.resolveConstant name
  | .async token =>
      match configuration.asyncProvider with
      | none => configuration.resolveConstant name
      | some provider => do
          Eval.record (.asyncLookup name token)
          match ← Eval.runProcedure [] (.async token) (provider name) with
          | some value => return value
          | none => configuration.resolveConstant name

def resolveFunction (name : String) : Eval σ (Function σ) :=
  match configuration.function? name with
  | some function => return function
  | none => throw (.unknownFunction name)

/-! ## Bodies -/

/-- The body that a call runs, and whether it is the asynchronous one.  Each mode prefers its own
kind of body. -/
def selectBody (function : Function σ) : Mode → Option (Body σ × Bool)
  | .sync =>
      (function.sync.map fun body => (body, false)) <|>
        (function.async.map fun body => (body, true))
  | .async _ =>
      (function.async.map fun body => (body, true)) <|>
        (function.sync.map fun body => (body, false))

/-- The mode in which a body and its thunks run. -/
def bodyMode (isAsync : Bool) : Mode → Eval σ Mode
  | .sync => if isAsync then do return .async (← Eval.freshToken) else return .sync
  | .async token => return if isAsync then .async token else .sync

def runBody (name : String) (mode : Mode) (thunks : List (Eval σ Value)) (body : Body σ)
    (arguments : Arguments) : Eval σ Value := do
  Eval.record (.called name mode)
  Eval.runProcedure thunks mode (body configuration.toSettings arguments)

/-! ## Nodes -/

/-- Entering a node fails once the token is cancelled, and below the deepest level allowed. -/
def enter (node : Expr) (mode : Mode) (depth : Nat) : Eval σ Unit := do
  if (← get).isModeCancelled mode then
    throw .cancelled
  Eval.record (.entered node)
  if configuration.maxDepth < depth then
    throw (.nestingLimit configuration.maxDepth)

mutual

def eval : Expr → Mode → (depth : Nat) → Eval σ Value
  | .number text position, mode, depth => do
      configuration.enter (.number text position) mode depth
      Eval.ofExcept (configuration.operators.convertToNumber configuration.toEnvironment text)
  | .string content position, mode, depth => do
      configuration.enter (.string content position) mode depth
      return .string content
  | .identifier name position, mode, depth => do
      configuration.enter (.identifier name position) mode depth
      configuration.resolveIdentifier name mode
  | .call name position arguments, mode, depth => do
      configuration.enter (.call name position arguments) mode depth
      let function ← configuration.resolveFunction name
      match selectBody function mode with
      | none => throw (.host s!"function '{name}' has no body")
      | some (body, isAsync) =>
          if function.isLazy then
            let mode ← bodyMode isAsync mode
            configuration.runBody name mode (thunks arguments mode (depth + 1)) body
              (.lazy (arguments.map Option.isNone))
          else
            let values ← evalArguments arguments mode (depth + 1)
            let mode ← bodyMode isAsync mode
            configuration.runBody name mode [] body (.eager values)
  | .operation operator position left right, mode, depth => do
      configuration.enter (.operation operator position left right) mode depth
      let left ← evalOperand left mode (depth + 1)
      match left.filter (configuration.operators.decides configuration.toEnvironment operator) with
      | some decided => return decided
      | none =>
          let right ← evalOperand right mode (depth + 1)
          Eval.ofExcept
            (configuration.operators.apply configuration.toEnvironment operator left right)

def evalOperand : Option Expr → Mode → (depth : Nat) → Eval σ (Option Value)
  | none, _, _ => return none
  | some expr, mode, depth => do return some (← eval expr mode depth)

/-- Evaluates the arguments from left to right; an empty one is null. -/
def evalArguments : List (Option Expr) → Mode → (depth : Nat) → Eval σ (List Value)
  | [], _, _ => return []
  | argument :: arguments, mode, depth => do
      let value ← evalOperand argument mode depth
      let values ← evalArguments arguments mode depth
      return value.getD .null :: values

def thunks : List (Option Expr) → Mode → (depth : Nat) → List (Eval σ Value)
  | [], _, _ => []
  | argument :: arguments, mode, depth =>
      (do return (← evalOperand argument mode depth).getD .null) :: thunks arguments mode depth

end

/-! ## Whole expressions -/

/-- Evaluates synchronously from a state of the host. -/
def evaluate (expr : Expr) (host : σ) : Except Error Value × Run σ :=
  (configuration.eval expr .sync 0).run.run (.start host false)

/-- Evaluates asynchronously under the caller's token, which may be cancelled beforehand. -/
def evaluateAsync (expr : Expr) (host : σ) (cancelled : Bool) : Except Error Value × Run σ :=
  (configuration.eval expr (.async Run.callerToken) 0).run.run (.start host cancelled)

end Configuration

end Formula

import Formula.Proofs.Evaluation.Modes
import Formula.Proofs.Expr.Height
import Formula.Proofs.Operators.Failures

/-!
# Errors of an evaluation

The errors that come out of a walk are those of the operators, bodies and providers and a few that
the walk raises itself.  The nesting limit is one of these only where a node lies too deep, and the
nodes of a compiled expression do not: the builder counts at least as many levels as the walk.
-/

namespace Formula

variable {σ α β : Type} {allowed : Error → Prop}

/-! ## Steps -/

/-- A computation that has no other errors than those allowed, wherever it starts. -/
def Eval.FailsWithin (allowed : Error → Prop) (computation : Eval σ α) : Prop :=
  ∀ run, Formula.FailsWithin allowed (computation.runFrom run).1

namespace Eval.FailsWithin

theorem pure (result : α) : FailsWithin allowed (Pure.pure result : Eval σ α) :=
  fun _ => .ok result

theorem throw {error : Error} (isAllowed : allowed error) :
    FailsWithin allowed (MonadExcept.throw error : Eval σ α) :=
  fun _ => .error isAllowed

theorem ofExcept {outcome : Except Error α} (within : Formula.FailsWithin allowed outcome) :
    FailsWithin allowed (Eval.ofExcept outcome : Eval σ α) :=
  fun _ => within

theorem record (event : Event) : FailsWithin allowed (Eval.record event : Eval σ Unit) :=
  fun _ => .ok ()

theorem bind {first : Eval σ α} {next : α → Eval σ β} (within : first.FailsWithin allowed)
    (rest : ∀ result, (next result).FailsWithin allowed) :
    FailsWithin allowed (first >>= next) := by
  intro run
  rw [Eval.runFrom_bind]
  have firstWithin := within run
  generalize first.runFrom run = reached at firstWithin ⊢
  obtain ⟨outcome, after⟩ := reached
  cases outcome with
  | ok result => exact rest result after
  | error error => exact .error (firstWithin error rfl)

theorem perform {thunks : List (Eval σ Value)} {mode : Mode}
    {program : Program σ (Except Error α)}
    (forces : ∀ index, (Eval.thunk thunks index).FailsWithin allowed)
    (yields : program.Yields allowed (Formula.FailsWithin allowed)) :
    FailsWithin allowed (ExceptT.mk (Eval.perform thunks mode program)) := by
  intro run
  induction yields generalizing run with
  | done isGood => exact isGood
  | @argument index next _ ih => exact ih _ (forces index _) _
  | readState _ ih => exact ih _ _
  | writeState _ _ ih => exact ih _
  | cancel _ ih => exact ih _
  | isCancelled _ ih => exact ih _ _

end Eval.FailsWithin

/-! ## Configurations -/

/-- The errors that the walk itself raises, apart from the nesting limit. -/
inductive Error.OfWalk : Error → Prop
  | cancelled : OfWalk .cancelled
  | unknownFunction (name : String) : OfWalk (.unknownFunction name)
  | withoutBody (name : String) : OfWalk (.host s!"function '{name}' has no body")
  | notSupplied (index supplied : Nat) : OfWalk (.invalidArgument (.notSupplied index supplied))

/-- What a configuration brings along fails with allowed errors only: its operators, its functions
on arguments that do the same, and its asynchronous provider. -/
structure Configuration.FailsWithin (allowed : Error → Prop) (configuration : Configuration σ) :
    Prop where
  convertToNumber (text : String) : Formula.FailsWithin allowed
    (configuration.operators.convertToNumber configuration.toEnvironment text)
  apply (operator : String) (left right : Option Value) : Formula.FailsWithin allowed
    (configuration.operators.apply configuration.toEnvironment operator left right)
  bodies {name : String} {function : Function σ} {body : Body σ} :
    configuration.function? name = some function → function.HasBody body →
      ∀ arguments, (body configuration.toSettings arguments).FailsWithin allowed
  asyncProvider {provider : String → Procedure σ (Option Value)} :
    configuration.asyncProvider = some provider → ∀ name, (provider name).FailsWithin allowed

/-- The body of a standard function fails over its arguments. -/
theorem Builtin.failsWithin_of_hasBody {entry : String × Operation} (member : entry ∈ operations)
    {body : Body σ} (hasBody : (functionOf entry.2).HasBody body)
    (ofComputation : ∀ error, error.OfComputation → allowed error) (settings : Settings)
    (arguments : Arguments) : (body settings arguments).FailsWithin allowed := by
  rw [eq_of_hasBody_functionOf hasBody]
  refine (arguments.values_failsWithin fun _ _ => ofComputation _ (.invalidArgument (by simp))).bind
    fun values => ?_
  exact .ofExcept ((computes_of_mem settings.conventions values member).mono ofComputation)

namespace Configuration

/-- Of a configuration with the standard operators and functions only what was added to them has to
be looked at. -/
theorem failsWithin_of_standard {configuration : Configuration σ}
    (ofOperators : ∀ error, Operators.Fault error → allowed error)
    (operators : configuration.operators = .standard)
    (standard : configuration.genericFunctions = Builtin.functions)
    (added : ∀ name function body, configuration.functions.find? name = some function →
      function.HasBody body →
        ∀ arguments, (body configuration.toSettings arguments).FailsWithin allowed)
    (asyncProvider : ∀ provider, configuration.asyncProvider = some provider →
      ∀ name, (provider name).FailsWithin allowed) :
    configuration.FailsWithin allowed where
  convertToNumber text := by
    rw [operators]
    exact (Operators.computes_convertToNumber _ text).mono fun error computed =>
      ofOperators error (.inl computed)
  apply operator left right := by
    rw [operators]
    exact (Operators.fails_standard_apply _ operator left right).mono ofOperators
  bodies := by
    intro name function body found hasBody arguments
    obtain ⟨name, kept⟩ | ⟨entry, member, rfl⟩ := added_or_standard standard found
    · exact added name _ body kept hasBody arguments
    · exact Builtin.failsWithin_of_hasBody member hasBody
        (fun error computed => ofOperators error (.inl computed)) _ arguments
  asyncProvider given := asyncProvider _ given

variable {configuration : Configuration σ} (own : ∀ error, error.OfWalk → allowed error)
include own

/-! ## Steps of the walk -/

theorem enter_failsWithin (node : Expr) (mode : Mode) {depth : Nat}
    (shallow : depth ≤ configuration.maxDepth) :
    (configuration.enter node mode depth).FailsWithin allowed := by
  intro run
  rw [runFrom_enter, if_neg (by omega : ¬ configuration.maxDepth < depth)]
  split
  · exact .error (own _ .cancelled)
  · exact .ok ()

omit own in
theorem resolveConstant_failsWithin (name : String) :
    (configuration.resolveConstant name).FailsWithin allowed := by
  intro run
  rw [runFrom_resolveConstant]
  cases configuration.provider with
  | none => exact .ok _
  | some provider => exact .ok _

theorem resolveIdentifier_failsWithin (within : configuration.FailsWithin allowed) (name : String)
    (mode : Mode) : (configuration.resolveIdentifier name mode).FailsWithin allowed := by
  cases mode with
  | sync => exact resolveConstant_failsWithin name
  | async token =>
      simp only [resolveIdentifier]
      cases given : configuration.asyncProvider with
      | none => exact resolveConstant_failsWithin name
      | some provider =>
          have forces (index : Nat) : (Eval.thunk (σ := σ) [] index).FailsWithin allowed :=
            .throw (own _ (.notSupplied index 0))
          refine (Eval.FailsWithin.record _).bind fun _ => ?_
          refine (Eval.FailsWithin.perform forces (within.asyncProvider given name)).bind
            fun found => ?_
          cases found with
          | none => exact resolveConstant_failsWithin name
          | some value => exact .pure value

omit own in
theorem bodyMode_failsWithin (isAsync : Bool) (mode : Mode) :
    (bodyMode (σ := σ) isAsync mode).FailsWithin allowed := by
  intro run
  cases mode with
  | sync => cases isAsync <;> exact .ok _
  | async token => exact .ok _

omit own in
theorem runBody_failsWithin {name : String} {mode : Mode} {thunks : List (Eval σ Value)}
    {body : Body σ} {arguments : Arguments}
    (forces : ∀ index, (Eval.thunk thunks index).FailsWithin allowed)
    (within : (body configuration.toSettings arguments).FailsWithin allowed) :
    (configuration.runBody name mode thunks body arguments).FailsWithin allowed :=
  (Eval.FailsWithin.record _).bind fun _ => .perform forces within

/-! ## The walk -/

/-- An expression that evaluates without other errors from any depth at which it fits in. -/
def Safe (configuration : Configuration σ) (allowed : Error → Prop) (expr : Expr) : Prop :=
  ∀ mode depth, depth + expr.height ≤ configuration.maxDepth →
    (configuration.eval expr mode depth).FailsWithin allowed

omit own in
theorem evalOperand_failsWithin {operand : Option Expr}
    (safe : ∀ expr, some expr = operand → configuration.Safe allowed expr) (mode : Mode)
    {depth : Nat} (fits : depth + Expr.operandHeight operand ≤ configuration.maxDepth) :
    (configuration.evalOperand operand mode (depth + 1)).FailsWithin allowed := by
  cases operand with
  | none => exact .pure none
  | some expr =>
      rw [Expr.operandHeight] at fits
      exact (safe expr rfl mode (depth + 1) (by omega)).bind fun _ => .pure _

omit own in
theorem evalArguments_failsWithin {arguments : List (Option Expr)}
    (safe : ∀ expr, some expr ∈ arguments → configuration.Safe allowed expr) (mode : Mode)
    {depth : Nat} (fits : depth + Expr.argumentsHeight arguments ≤ configuration.maxDepth) :
    (configuration.evalArguments arguments mode (depth + 1)).FailsWithin allowed := by
  induction arguments with
  | nil => exact .pure []
  | cons argument arguments ih =>
      rw [Expr.argumentsHeight] at fits
      unfold evalArguments
      have first : ∀ expr, some expr = argument → configuration.Safe allowed expr :=
        fun expr same => safe expr (by simp [same])
      refine (evalOperand_failsWithin first mode (by omega)).bind fun _ => ?_
      exact (ih (fun expr member => safe expr (.tail _ member)) (by omega)).bind fun _ => .pure _

theorem thunks_failsWithin {arguments : List (Option Expr)}
    (safe : ∀ expr, some expr ∈ arguments → configuration.Safe allowed expr) (mode : Mode)
    {depth : Nat} (fits : depth + Expr.argumentsHeight arguments ≤ configuration.maxDepth)
    (index : Nat) :
    (Eval.thunk (configuration.thunks arguments mode (depth + 1)) index).FailsWithin allowed := by
  unfold Eval.thunk
  have missing := own _
    (.notSupplied index (configuration.thunks arguments mode (depth + 1)).length)
  generalize Error.invalidArgument _ = error at missing ⊢
  induction arguments generalizing index with
  | nil => exact .throw missing
  | cons argument arguments ih =>
      rw [Expr.argumentsHeight] at fits
      unfold thunks
      have first : ∀ expr, some expr = argument → configuration.Safe allowed expr :=
        fun expr same => safe expr (by simp [same])
      cases index with
      | zero => exact (evalOperand_failsWithin first mode (by omega)).bind fun _ => .pure _
      | succ index => exact ih (fun expr member => safe expr (.tail _ member)) (by omega) index

theorem safe_call (within : configuration.FailsWithin allowed) {name : String} {position : Nat}
    {arguments : List (Option Expr)}
    (safe : ∀ expr, some expr ∈ arguments → configuration.Safe allowed expr) :
    configuration.Safe allowed (.call name position arguments) := by
  intro mode depth fits
  rw [Expr.height] at fits
  unfold eval
  refine (enter_failsWithin own _ mode (by omega)).bind fun _ => ?_
  unfold resolveFunction
  cases found : configuration.function? name with
  | none => exact .throw (own _ (.unknownFunction name))
  | some function =>
      simp only [pure_bind]
      cases selected : selectBody function mode with
      | none => exact .throw (own _ (.withoutBody name))
      | some chosen =>
          obtain ⟨body, isAsync⟩ := chosen
          have bodyWithin := within.bodies found (hasBody_of_selectBody selected)
          simp only []
          split
          · refine (bodyMode_failsWithin isAsync mode).bind fun mode => ?_
            exact runBody_failsWithin (thunks_failsWithin own safe mode fits) (bodyWithin _)
          · have forces (index : Nat) : (Eval.thunk (σ := σ) [] index).FailsWithin allowed :=
              .throw (own _ (.notSupplied index 0))
            refine (evalArguments_failsWithin safe mode fits).bind fun values => ?_
            refine (bodyMode_failsWithin isAsync mode).bind fun mode => ?_
            exact runBody_failsWithin forces (bodyWithin _)

theorem safe (within : configuration.FailsWithin allowed) (expr : Expr) :
    configuration.Safe allowed expr := by
  induction expr using Expr.nestedInduction with
  | number text position =>
      intro mode depth fits
      unfold eval
      exact (enter_failsWithin own _ mode (by omega)).bind fun _ =>
        .ofExcept (within.convertToNumber text)
  | string content position =>
      intro mode depth fits
      unfold eval
      exact (enter_failsWithin own _ mode (by omega)).bind fun _ => .pure _
  | identifier name position =>
      intro mode depth fits
      unfold eval
      exact (enter_failsWithin own _ mode (by omega)).bind fun _ =>
        resolveIdentifier_failsWithin own within name mode
  | call name position arguments ih => exact safe_call own within ih
  | operation operator position left right ihLeft ihRight =>
      intro mode depth fits
      rw [Expr.height] at fits
      unfold eval
      refine (enter_failsWithin own _ mode (by omega)).bind fun _ => ?_
      refine (evalOperand_failsWithin ihLeft mode (by omega)).bind fun left => ?_
      split
      · exact .pure _
      · refine (evalOperand_failsWithin ihRight mode (by omega)).bind fun right => ?_
        exact .ofExcept (within.apply operator left right)

end Configuration

/-! ## Compiled expressions -/

def Error.IsNestingLimit (error : Error) : Prop :=
  ∃ limit, error = .nestingLimit limit

theorem Error.OfWalk.not_isNestingLimit {error : Error} (ofWalk : error.OfWalk) :
    ¬ error.IsNestingLimit := by
  rintro ⟨limit, rfl⟩
  cases ofWalk

/-- What compiled under a nesting limit does not exceed it, nor a higher one, when it is evaluated
with operators, bodies and providers that do not claim so themselves. -/
theorem Compiled.outcome_ne_nestingLimit {configuration other : Configuration σ} {text : String}
    {compiled : Compiled σ} (compiles : Compiled.ofText configuration text = .ok compiled)
    (deepEnough : configuration.maxDepth ≤ other.maxDepth)
    (within : other.FailsWithin fun error => ¬ error.IsNestingLimit) (host : σ) (limit : Nat) :
    (compiled.executeWith other host).1 ≠ .error (.nestingLimit limit) ∧
      ∀ cancelled,
        (compiled.executeAsyncWith other host cancelled).1 ≠ .error (.nestingLimit limit) := by
  have ⟨built, _⟩ := Compiled.ofText_eq_ok_iff.mp compiles
  have fits : 0 + compiled.root.height ≤ other.maxDepth := by
    have := Expr.height_le_of_ofText built
    omega
  have safe := Configuration.safe (fun _ => Error.OfWalk.not_isNestingLimit) within compiled.root
  refine ⟨fun exceeded => ?_, fun cancelled exceeded => ?_⟩
  · exact safe .sync 0 fits _ _ exceeded ⟨limit, rfl⟩
  · exact safe (.async Run.callerToken) 0 fits _ _ exceeded ⟨limit, rfl⟩

/-- Lazy functions of either kind, under a nesting limit that some calls of them just keep. -/
def Configuration.deferring : Configuration Nat :=
  { Configuration.ofType .int32 with
    maxDepth := 3
    functions := ⟨[("later", ⟨none, some fun _ arguments => arguments.get 0, true⟩),
      ("now", ⟨some fun _ arguments => arguments.get 0, none, true⟩)]⟩
    asyncProvider := some fun _ => return some (.string "5") }

theorem Configuration.failsWithin_deferring :
    deferring.FailsWithin fun error => ¬ error.IsNestingLimit := by
  have ofOperators : ∀ error, Operators.Fault error → ¬ error.IsNestingLimit := by
    rintro error (computed | ⟨operator, rfl | rfl⟩)
    · rintro ⟨limit, rfl⟩
      cases computed
    · rintro ⟨limit, ⟨⟩⟩
    · rintro ⟨limit, ⟨⟩⟩
  have argument (arguments : Arguments) :
      (arguments.get 0 : Procedure Nat Value).FailsWithin fun error => ¬ error.IsNestingLimit :=
    arguments.get_failsWithin (fun _ _ => ofOperators _ (.inl (.invalidArgument (by simp)))) 0
  refine failsWithin_of_standard ofOperators rfl rfl (fun name function body found hasBody => ?_)
    fun provider given name => ?_
  · have passesOn : body = fun _ arguments => arguments.get 0 := by
      simp only [deferring, Table.find?, Table.lookup_cons] at found
      split at found
      · cases found
        simpa [Function.HasBody, eq_comm] using hasBody
      · split at found
        · cases found
          simpa [Function.HasBody, eq_comm] using hasBody
        · cases found
    rw [passesOn]
    exact argument
  · cases given
    exact .pure _

/-- The operand of the sign lies three levels below the outer call. -/
def Configuration.deferredSign : Compiled Nat where
  root := .call "now" 0 [some (.call "later" 4 [some (.operation "-" 10
    (some (.number "0" 10)) (some (.identifier "x" 11)))])]
  configuration := deferring

open Formula.Configuration (deferring deferredSign) in
theorem Compiled.outcome_of_deferredSign :
    Compiled.ofText deferring "now(later(-x))" = .ok deferredSign ∧
      deferredSign.root.height = deferring.maxDepth ∧
        (deferring.FailsWithin fun error => ¬ error.IsNestingLimit) ∧
          ∀ limit, (deferredSign.executeWith deferring 0).1 ≠ .error (.nestingLimit limit) ∧
            ∀ cancelled, (deferredSign.executeAsyncWith deferring 0 cancelled).1 ≠
              .error (.nestingLimit limit) := by
  have compiles : Compiled.ofText deferring "now(later(-x))" = .ok deferredSign := by rfl
  exact ⟨compiles, rfl, Configuration.failsWithin_deferring, fun limit =>
    outcome_ne_nestingLimit compiles (Nat.le_refl _) Configuration.failsWithin_deferring 0 limit⟩

end Formula

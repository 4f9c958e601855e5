import Formula.Compiled
import Formula.Proofs.Builtin.Functions
import Formula.Proofs.Evaluation.Simulation
import Formula.Proofs.Expr.Induction

/-!
# Both modes evaluate alike

Where no asynchronous provider is asked and no body looks at its token, the mode decides only which
of two bodies that behave alike runs, and which token is passed around.
-/

namespace Formula

variable {σ : Type}

/-! ## Runs up to their tokens -/

def Event.withoutToken : Event → Event
  | .entered node => .entered node
  | .lookup name => .lookup name
  | .asyncLookup name _ => .asyncLookup name Run.callerToken
  | .called name _ => .called name .sync
  | .forced index => .forced index

namespace Run

/-- What a run did, in order: the nodes it entered, the names it asked the provider for, the bodies
it called and the arguments they asked for. -/
def trace (run : Run σ) : List Event :=
  run.events.reverse.map Event.withoutToken

theorem trace_record (event : Event) (run : Run σ) :
    (run.record event).trace = run.trace ++ [event.withoutToken] := by
  simp [trace, record]

/-- The link between the runs of both modes. -/
structure SameUpToTokens (first second : Run σ) : Prop where
  host : first.host = second.host
  trace : first.trace = second.trace
  uncancelled : first.cancelled = [] ∧ second.cancelled = []

namespace SameUpToTokens

variable {first second : Run σ}

theorem symm (linked : SameUpToTokens first second) : SameUpToTokens second first where
  host := linked.host.symm
  trace := linked.trace.symm
  uncancelled := linked.uncancelled.symm

theorem record {event event' : Event} (same : event.withoutToken = event'.withoutToken)
    (linked : SameUpToTokens first second) :
    SameUpToTokens (first.record event) (second.record event') where
  host := linked.host
  trace := by rw [trace_record, trace_record, linked.trace, same]
  uncancelled := linked.uncancelled

theorem write (state : σ) (linked : SameUpToTokens first second) :
    SameUpToTokens { first with host := state } { second with host := state } :=
  { linked with host := rfl }

theorem isModeCancelled (linked : SameUpToTokens first second) (mode : Mode) :
    first.isModeCancelled mode = false := by
  cases mode with
  | sync => rfl
  | async token => simp [Run.isModeCancelled, Run.isCancelled, linked.uncancelled]

theorem observable : Observable (σ := σ) SameUpToTokens where
  host := SameUpToTokens.host
  write := write
  force _ := record rfl

end SameUpToTokens

end Run

open Run (SameUpToTokens)

/-! ## Functions that do not care about the mode -/

/-- Procedures that no run on the same arguments tells apart. -/
def Procedure.Alike {α : Type} (first second : Procedure σ α) : Prop :=
  ∀ thunks mode, Eval.runProcedure thunks mode first = Eval.runProcedure thunks mode second

def Function.HasBody (function : Function σ) (body : Body σ) : Prop :=
  function.sync = some body ∨ function.async = some body

/-- The bodies leave the token alone, and where there are two they behave alike. -/
structure Function.IsUniform (settings : Settings) (function : Function σ) : Prop where
  ignoresToken {body} : function.HasBody body →
    ∀ arguments, (body settings arguments).IgnoresToken
  alike {body body'} : function.HasBody body → function.HasBody body' →
    ∀ arguments, (body settings arguments).Alike (body' settings arguments)

namespace Function.IsUniform

variable {settings : Settings} {body : Body σ}

theorem of_single {function : Function σ}
    (single : ∀ {body'}, function.HasBody body' → body' = body)
    (ignores : ∀ arguments, (body settings arguments).IgnoresToken) :
    function.IsUniform settings where
  ignoresToken hasBody := by
    rw [single hasBody]
    exact ignores
  alike hasBody hasBody' := by
    rw [single hasBody, single hasBody']
    exact fun _ _ _ => rfl

theorem of_sync (isLazy : Bool) (ignores : ∀ arguments, (body settings arguments).IgnoresToken) :
    Function.IsUniform settings ⟨some body, none, isLazy⟩ :=
  of_single (by simp [HasBody, eq_comm]) ignores

theorem of_async (isLazy : Bool) (ignores : ∀ arguments, (body settings arguments).IgnoresToken) :
    Function.IsUniform settings ⟨none, some body, isLazy⟩ :=
  of_single (by simp [HasBody, eq_comm]) ignores

end Function.IsUniform

theorem Builtin.eq_of_hasBody_functionOf {operation : Operation} {body : Body σ}
    (hasBody : (functionOf operation).HasBody body) :
    body = fun settings arguments => arguments.values >>= fun values =>
      ExceptT.mk (pure (operation settings.conventions values)) := by
  simpa [functionOf, Function.ofBody, Function.HasBody, eq_comm] using hasBody

theorem Builtin.isUniform_functionOf (operation : Operation) (settings : Settings) :
    (functionOf operation : Function σ).IsUniform settings :=
  .of_sync false fun arguments =>
    (Arguments.values_ignoresToken arguments).bind fun _ => .done _

structure Configuration.IsUniform (configuration : Configuration σ) : Prop where
  noAsyncProvider : configuration.asyncProvider = none
  functions {name function} : configuration.function? name = some function →
    function.IsUniform configuration.toSettings

/-- Functions that are added to the standard ones have to be looked at alone. -/
theorem Configuration.isUniform_of_standard {configuration : Configuration σ}
    (noAsyncProvider : configuration.asyncProvider = none)
    (standard : configuration.genericFunctions = Builtin.functions)
    (added : ∀ name function, configuration.functions.find? name = some function →
      function.IsUniform configuration.toSettings) : configuration.IsUniform where
  noAsyncProvider := noAsyncProvider
  functions found := by
    obtain ⟨name, kept⟩ | ⟨entry, -, rfl⟩ := added_or_standard standard found
    · exact added name _ kept
    · exact Builtin.isUniform_functionOf entry.2 _

namespace Configuration

theorem selectBody_eq_none_iff {function : Function σ} {mode : Mode} :
    selectBody function mode = none ↔ function.sync = none ∧ function.async = none := by
  cases mode with
  | sync => simp [selectBody]
  | async token => simp [selectBody, and_comm]

theorem selectBody_ne_none {function : Function σ} {mode : Mode} {body : Body σ} {isAsync : Bool}
    (selected : selectBody function mode = some (body, isAsync)) (mode' : Mode) :
    ∃ body' isAsync', selectBody function mode' = some (body', isAsync') := by
  cases selected' : selectBody function mode' with
  | none =>
      rw [selectBody_eq_none_iff.mpr (selectBody_eq_none_iff.mp selected')] at selected
      cases selected
  | some chosen => exact ⟨chosen.1, chosen.2, rfl⟩

theorem hasBody_of_selectBody {function : Function σ} {mode : Mode} {body : Body σ}
    {isAsync : Bool} (selected : selectBody function mode = some (body, isAsync)) :
    function.HasBody body := by
  obtain ⟨sync, async, isLazy⟩ := function
  unfold Function.HasBody
  cases mode with
  | sync =>
      cases sync with
      | none => cases async <;> simp_all [selectBody]
      | some sync => simp_all [selectBody]
  | async token =>
      cases async with
      | none => cases sync <;> simp_all [selectBody]
      | some async => simp_all [selectBody]

/-! ## Steps of the walk -/

variable {configuration : Configuration σ}

theorem simulates_enter (node : Expr) (mode mode' : Mode) (depth : Nat) :
    Simulates SameUpToTokens Eq (configuration.enter node mode depth)
      (configuration.enter node mode' depth) := by
  refine simulates_enter_of (fun linked => ?_) (SameUpToTokens.record rfl) (.inl ⟨rfl, rfl⟩)
  rw [linked.isModeCancelled mode, linked.symm.isModeCancelled mode']

theorem simulates_resolveConstant (name : String) :
    Simulates SameUpToTokens Eq (configuration.resolveConstant name)
      (configuration.resolveConstant name) := by
  intro before before' linked
  have asked := linked.record (rfl : (Event.lookup name).withoutToken = .lookup name)
  rw [runFrom_resolveConstant, runFrom_resolveConstant, linked.host]
  cases configuration.provider with
  | none => exact ⟨.ok rfl, linked⟩
  | some provider => exact ⟨.ok rfl, asked.write _⟩

theorem simulates_resolveIdentifier (noProvider : configuration.asyncProvider = none)
    (name : String) (mode mode' : Mode) :
    Simulates SameUpToTokens Eq (configuration.resolveIdentifier name mode)
      (configuration.resolveIdentifier name mode') := by
  have sameInAnyMode mode : configuration.resolveIdentifier name mode =
      configuration.resolveConstant name := by
    cases mode with
    | sync => rfl
    | async token => simp [resolveIdentifier, noProvider]
  rw [sameInAnyMode, sameInAnyMode]
  exact simulates_resolveConstant name

theorem simulates_bodyMode (isAsync isAsync' : Bool) (mode mode' : Mode) :
    Simulates SameUpToTokens (fun _ _ => True) (bodyMode (σ := σ) isAsync mode)
      (bodyMode (σ := σ) isAsync' mode') := by
  have leavesHost (isAsync : Bool) (mode : Mode) (run : Run σ) :
      ∃ chosen next, (bodyMode isAsync mode).runFrom run =
        (.ok chosen, { run with nextToken := next }) := by
    cases mode with
    | sync =>
        cases isAsync with
        | false => exact ⟨.sync, run.nextToken, rfl⟩
        | true => exact ⟨.async run.nextToken, run.nextToken + 1, rfl⟩
    | async token => exact ⟨_, run.nextToken, rfl⟩
  intro before before' linked
  obtain ⟨chosen, next, reached⟩ := leavesHost isAsync mode before
  obtain ⟨chosen', next', reached'⟩ := leavesHost isAsync' mode' before'
  rw [reached, reached']
  exact ⟨.ok trivial, { linked with }⟩

theorem simulates_runBody {name : String} {body body' : Body σ} {arguments : Arguments}
    (ignores : (body configuration.toSettings arguments).IgnoresToken)
    (alike : (body configuration.toSettings arguments).Alike
      (body' configuration.toSettings arguments))
    {thunks thunks' : List (Eval σ Value)}
    (similar : ∀ index, Simulates SameUpToTokens Eq (Eval.thunk thunks index)
      (Eval.thunk thunks' index)) (mode mode' : Mode) :
    Simulates SameUpToTokens Eq (configuration.runBody name mode thunks body arguments)
      (configuration.runBody name mode' thunks' body' arguments) := by
  have called : Simulates SameUpToTokens Eq (Eval.record (σ := σ) (.called name mode))
      (Eval.record (.called name mode')) :=
    fun _ _ linked => ⟨.ok rfl, linked.record rfl⟩
  unfold runBody
  refine called.bind fun _ _ _ => ?_
  rw [← alike thunks' mode']
  exact Simulates.perform SameUpToTokens.observable similar mode mode' ignores

/-! ## The walk -/

/-- An expression that evaluates alike in any two modes. -/
def AgreesOn (configuration : Configuration σ) (expr : Expr) : Prop :=
  ∀ mode mode' depth,
    Simulates SameUpToTokens Eq (configuration.eval expr mode depth)
      (configuration.eval expr mode' depth)

theorem agreesOn_call (uniform : configuration.IsUniform)
    {name : String} {position : Nat} {arguments : List (Option Expr)}
    (agrees : ∀ expr, some expr ∈ arguments → configuration.AgreesOn expr) :
    configuration.AgreesOn (.call name position arguments) := by
  intro mode mode' depth
  unfold eval
  refine (simulates_enter _ mode mode' depth).bind fun _ _ _ => ?_
  unfold resolveFunction
  cases found : configuration.function? name with
  | none => exact Simulates.throw _
  | some function =>
      simp only [pure_bind]
      cases selected : selectBody function mode with
      | none =>
          have selected' : selectBody function mode' = none :=
            selectBody_eq_none_iff.mpr (selectBody_eq_none_iff.mp selected)
          rw [selected']
          exact Simulates.throw _
      | some chosen =>
          obtain ⟨body, isAsync⟩ := chosen
          obtain ⟨body', isAsync', selected'⟩ := selectBody_ne_none selected mode'
          have ignores := (uniform.functions found).ignoresToken (hasBody_of_selectBody selected)
          have alike := (uniform.functions found).alike (hasBody_of_selectBody selected)
            (hasBody_of_selectBody selected')
          rw [selected']
          have operand (mode mode' : Mode) (index : Nat) :
              Simulates SameUpToTokens Eq
                (configuration.evalOperand arguments[index]?.join mode (depth + 1))
                (configuration.evalOperand arguments[index]?.join mode' (depth + 1)) :=
            simulates_evalOperand (rel_self fun expr given =>
              agrees expr (Expr.mem_of_join_eq_some given.symm) mode mode' _)
          simp only []
          split
          · refine (simulates_bodyMode isAsync isAsync' mode mode').bind fun _ _ _ => ?_
            exact simulates_runBody (ignores _) (alike _)
              (fun index _ _ linked => simulatesAt_thunk rfl linked (operand _ _ index linked)) _ _
          · have values : Simulates SameUpToTokens Eq
                (configuration.evalArguments arguments mode (depth + 1))
                (configuration.evalArguments arguments mode' (depth + 1)) :=
              fun _ _ linked => simulatesAt_evalArguments rfl linked fun _ linked =>
                operand mode mode' _ linked
            refine values.bind ?_
            rintro values _ rfl
            refine (simulates_bodyMode isAsync isAsync' mode mode').bind fun _ _ _ => ?_
            exact simulates_runBody (ignores _) (alike _) (fun _ => Simulates.throw _) _ _

theorem agreesOn (uniform : configuration.IsUniform) (expr : Expr) :
    configuration.AgreesOn expr := by
  induction expr using Expr.nestedInduction with
  | number text position =>
      intro mode mode' depth
      unfold eval
      exact (simulates_enter _ mode mode' depth).bind fun _ _ _ => Simulates.ofExcept _
  | string content position =>
      intro mode mode' depth
      unfold eval
      exact (simulates_enter _ mode mode' depth).bind fun _ _ _ => Simulates.pure rfl
  | identifier name position =>
      intro mode mode' depth
      unfold eval
      exact (simulates_enter _ mode mode' depth).bind fun _ _ _ =>
        simulates_resolveIdentifier uniform.noAsyncProvider name mode mode'
  | call name position arguments ih => exact agreesOn_call uniform ih
  | operation operator position left right ihLeft ihRight =>
      intro mode mode' depth
      unfold eval
      refine (simulates_enter _ mode mode' depth).bind fun _ _ _ => ?_
      refine (simulates_evalOperand
        (rel_self fun expr same => ihLeft expr same mode mode' _)).bind ?_
      rintro left _ rfl
      split
      · exact Simulates.pure rfl
      · refine (simulates_evalOperand
          (rel_self fun expr same => ihRight expr same mode mode' _)).bind ?_
        rintro right _ rfl
        exact Simulates.ofExcept _

/-- Both ways of evaluating an expression end in the same value or error and in the same state of
the host, and do the same in the same order. -/
theorem evaluateAsync_agrees_evaluate (uniform : configuration.IsUniform) (expr : Expr)
    (host : σ) :
    (configuration.evaluateAsync expr host false).1 = (configuration.evaluate expr host).1 ∧
      (configuration.evaluateAsync expr host false).2.host =
          (configuration.evaluate expr host).2.host ∧
        (configuration.evaluateAsync expr host false).2.trace =
          (configuration.evaluate expr host).2.trace := by
  have linked : SameUpToTokens (.start host false) (.start host false) :=
    ⟨rfl, rfl, rfl, rfl⟩
  have ⟨outcomes, ended⟩ :=
    agreesOn uniform expr (.async Run.callerToken) .sync 0 linked
  exact ⟨sameOutcome_eq_iff.mp outcomes, ended.host, ended.trace⟩

/-- A provider that counts its calls, a lazy function that runs synchronously and an eager one that
runs asynchronously. -/
def counting : Configuration Nat :=
  { Configuration.ofType .float64 with
    functions := ⟨[("first", ⟨some fun _ arguments => arguments.get 0, none, true⟩),
      ("later", ⟨none, some fun _ arguments => arguments.get 0, false⟩)]⟩
    provider := some fun name count => (some (.string name), count + 1) }

theorem isUniform_counting : counting.IsUniform := by
  refine isUniform_of_standard rfl rfl fun name function found => ?_
  simp only [counting, Table.find?, Table.lookup_cons] at found
  split at found
  · cases found
    exact .of_sync true fun arguments => arguments.get_ignoresToken 0
  · split at found
    · cases found
      exact .of_async false fun arguments => arguments.get_ignoresToken 0
    · cases found

def nestedCalls : Expr :=
  .call "first" 0 [some (.call "later" 6 [some (.call "first" 12 [some (.identifier "tick" 18)])])]

theorem evaluateAsync_of_nested_calls :
    counting.IsUniform ∧
      (counting.evaluateAsync nestedCalls 0 false).1 = .ok (.string "tick") ∧
        (counting.evaluateAsync nestedCalls 0 false).2.host = 1 ∧
          (counting.evaluateAsync nestedCalls 0 false).2.trace =
            (counting.evaluate nestedCalls 0).2.trace := by
  obtain ⟨outcome, host, trace⟩ := evaluateAsync_agrees_evaluate isUniform_counting nestedCalls 0
  exact ⟨isUniform_counting, outcome.trans (by rfl), host.trans (by rfl), trace⟩

end Configuration

end Formula

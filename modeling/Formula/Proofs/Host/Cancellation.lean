import Formula.Proofs.Builtin.Functions

/-!
# Programs that cancel

An asynchronous body can cancel the token that it receives.  A program without its cancelling, and a
program that goes no further than its first cancelling, are the measures for what cancelling does.
-/

namespace Formula

variable {σ α β : Type}

/-! ## Programs -/

namespace Program

/-- The program for which cancelling does nothing. -/
def withoutCancelling : Program σ α → Program σ α
  | .done result => .done result
  | .argument index next => .argument index fun value => (next value).withoutCancelling
  | .readState next => .readState fun state => (next state).withoutCancelling
  | .writeState state next => .writeState state next.withoutCancelling
  | .cancel next => next.withoutCancelling
  | .isCancelled next => .isCancelled fun cancelled => (next cancelled).withoutCancelling

/-- The program that fails where it would cancel. -/
def untilCancelled : Program σ (Except Error α) → Program σ (Except Error α)
  | .done result => .done result
  | .argument index next => .argument index fun value => (next value).untilCancelled
  | .readState next => .readState fun state => (next state).untilCancelled
  | .writeState state next => .writeState state next.untilCancelled
  | .cancel _ => .done (.error .cancelled)
  | .isCancelled next => .isCancelled fun cancelled => (next cancelled).untilCancelled

/-- The program passes the error of an argument on at once, and uses the token only to cancel it. -/
inductive OnlyCancels : Program σ (Except Error α) → Prop
  | done (result : Except Error α) : OnlyCancels (.done result)
  | argument {index : Nat} {next : Except Error Value → Program σ (Except Error α)}
      (passesOn : ∀ error, next (.error error) = .done (.error error))
      (rest : ∀ value, (next (.ok value)).OnlyCancels) : OnlyCancels (.argument index next)
  | readState {next : σ → Program σ (Except Error α)} (rest : ∀ state, (next state).OnlyCancels) :
      OnlyCancels (.readState next)
  | writeState (state : σ) {next : Program σ (Except Error α)} (rest : next.OnlyCancels) :
      OnlyCancels (.writeState state next)
  | cancel {next : Program σ (Except Error α)} (rest : next.OnlyCancels) :
      OnlyCancels (.cancel next)

theorem OnlyCancels.bind {program : Program σ (Except Error α)}
    {next : Except Error α → Program σ (Except Error β)} (onlyCancels : program.OnlyCancels)
    (passesOn : ∀ error, next (.error error) = .done (.error error))
    (rest : ∀ result, (next (.ok result)).OnlyCancels) : (program.bind next).OnlyCancels := by
  induction onlyCancels with
  | done result =>
      cases result with
      | ok result => exact rest result
      | error error =>
          rw [Program.bind, passesOn error]
          exact .done _
  | argument passesOn' _ ih =>
      refine .argument (fun error => ?_) ih
      rw [passesOn' error, Program.bind, passesOn error]
  | readState _ ih => exact .readState ih
  | writeState state _ ih => exact .writeState state ih
  | cancel _ ih => exact .cancel ih

end Program

namespace Procedure

def OnlyCancels (procedure : Procedure σ α) : Prop :=
  procedure.run.OnlyCancels

namespace OnlyCancels

theorem pure (result : α) : OnlyCancels (Pure.pure result : Procedure σ α) :=
  Program.OnlyCancels.done (Except.ok result)

theorem cancelToken : OnlyCancels (Procedure.cancelToken : Procedure σ Unit) :=
  Program.OnlyCancels.cancel (.done _)

theorem bind {procedure : Procedure σ α} {next : α → Procedure σ β}
    (onlyCancels : procedure.OnlyCancels) (rest : ∀ result, (next result).OnlyCancels) :
    OnlyCancels (procedure >>= next) :=
  Program.OnlyCancels.bind onlyCancels (fun _ => rfl) rest

end OnlyCancels

end Procedure

theorem Arguments.get_onlyCancels (arguments : Arguments) (index : Nat) :
    (arguments.get index : Procedure σ Value).OnlyCancels := by
  cases arguments with
  | eager values =>
      unfold get attempt
      dsimp only
      split
      · exact .pure _
      · exact Program.OnlyCancels.done _
  | lazy empty =>
      unfold get attempt
      dsimp only
      split
      · exact Program.OnlyCancels.argument (fun _ => rfl) fun _ => .done _
      · exact Program.OnlyCancels.done _

/-! ## Configurations -/

theorem Table.lookup_map (table : Table α) (change : α → β) (name : String) :
    (Table.mk (table.entries.map fun entry => (entry.1, change entry.2))).lookup name =
      (table.lookup name).map change := by
  have exact (name : String) :
      (Table.mk (table.entries.map fun entry => (entry.1, change entry.2))).find? name =
        (table.find? name).map change := by
    obtain ⟨entries⟩ := table
    unfold find?
    dsimp only
    induction entries with
    | nil => rfl
    | cons entry entries ih =>
        rw [List.map_cons, lookup_cons, lookup_cons, ih]
        dsimp only
        split <;> rfl
  simp only [lookup, exact]
  cases table.find? name with
  | some value => rfl
  | none =>
      dsimp only [Option.map_none]
      split
      · rfl
      · rfl

namespace Configuration

variable (change : ∀ {α : Type}, Procedure σ α → Procedure σ α)

def mapAsyncBody (function : Function σ) : Function σ :=
  { function with
    async := function.async.map fun body settings arguments => change (body settings arguments) }

/-- Changes whatever receives a token: the asynchronous bodies and the asynchronous provider. -/
def mapAsync (configuration : Configuration σ) : Configuration σ :=
  { configuration with
    functions := ⟨configuration.functions.entries.map fun entry =>
      (entry.1, mapAsyncBody change entry.2)⟩
    genericFunctions := ⟨configuration.genericFunctions.entries.map fun entry =>
      (entry.1, mapAsyncBody change entry.2)⟩
    asyncProvider := configuration.asyncProvider.map fun provider name => change (provider name) }

theorem function?_mapAsync (configuration : Configuration σ) (name : String) :
    (configuration.mapAsync change).function? name =
      (configuration.function? name).map (mapAsyncBody change) := by
  unfold function? mapAsync
  simp only [Table.lookup_map]
  cases configuration.functions.lookup name with
  | none => rfl
  | some function => rfl

/-- The same configuration where cancelling does nothing. -/
def withoutCancelling (configuration : Configuration σ) : Configuration σ :=
  configuration.mapAsync fun procedure => ExceptT.mk procedure.run.withoutCancelling

/-- The same configuration where an evaluation breaks off at the moment of cancellation. -/
def untilCancelled (configuration : Configuration σ) : Configuration σ :=
  configuration.mapAsync fun procedure => ExceptT.mk procedure.run.untilCancelled

@[simp]
theorem toSettings_withoutCancelling (configuration : Configuration σ) :
    configuration.withoutCancelling.toSettings = configuration.toSettings := rfl

@[simp]
theorem toSettings_untilCancelled (configuration : Configuration σ) :
    configuration.untilCancelled.toSettings = configuration.toSettings := rfl

end Configuration

/-- The asynchronous body does no more with its token than cancel it, and passes on the errors of
its arguments.  No synchronous body takes the token away from lazy arguments. -/
structure Function.OnlyCancels (settings : Settings) (function : Function σ) : Prop where
  handsOn : ¬ (function.isLazy = true ∧ function.sync.isSome = true ∧ function.async = none)
  body {body : Body σ} : function.async = some body →
    ∀ arguments, (body settings arguments).OnlyCancels

theorem Builtin.onlyCancels_functionOf (operation : Operation) (settings : Settings) :
    (functionOf operation : Function σ).OnlyCancels settings where
  handsOn := by simp [functionOf, Function.ofBody]
  body := nofun

namespace Configuration

/-- Nothing that receives a token does more with it than cancel it. -/
structure OnlyCancels (configuration : Configuration σ) : Prop where
  function {name : String} {function : Function σ} :
    configuration.function? name = some function → function.OnlyCancels configuration.toSettings
  asyncProvider {provider : String → Procedure σ (Option Value)} :
    configuration.asyncProvider = some provider → ∀ name, (provider name).OnlyCancels

theorem onlyCancels_of_standard {configuration : Configuration σ}
    (standard : configuration.genericFunctions = Builtin.functions)
    (added : ∀ name function, configuration.functions.find? name = some function →
      function.OnlyCancels configuration.toSettings)
    (noAsyncProvider : configuration.asyncProvider = none) : configuration.OnlyCancels where
  function found := by
    obtain ⟨name, kept⟩ | ⟨entry, -, rfl⟩ := added_or_standard standard found
    · exact added name _ kept
    · exact Builtin.onlyCancels_functionOf entry.2 _
  asyncProvider given := by
    rw [noAsyncProvider] at given
    cases given

end Configuration

end Formula

import Formula.Proofs.Evaluation.Consultation
import Formula.Proofs.Host.Cancellation

/-!
# Cancellation truncates

An evaluation that is cancelled is compared with two others: one that breaks off at the moment of
cancellation, and one where cancelling does nothing.  Up to that moment all three are the same.
After it the cancelled evaluation goes on like the uncancelled one as far as the next node, and
there it stops.
-/

namespace Formula

variable {σ α β : Type} {token : Nat}

/-! ## After the moment of cancellation -/

theorem Run.isCancelled_cancel (run : Run σ) (token : Nat) :
    (run.cancel token).isCancelled token = true := by
  simp [isCancelled, cancel]

/-- Runs that differ only in that the token of the first is cancelled. -/
structure Run.Apart (token : Nat) (first second : Run σ) : Prop where
  host : first.host = second.host
  events : first.events = second.events
  cancelled : first.isCancelled token = true
  uncancelled : second.isCancelled token = false

namespace Run.Apart

variable {first second : Run σ}

theorem record (apart : Apart token first second) (event : Event) :
    Apart token (first.record event) (second.record event) :=
  { apart with events := congrArg (event :: ·) apart.events }

theorem write (apart : Apart token first second) (state : σ) :
    Apart token { first with host := state } { second with host := state } :=
  { apart with host := rfl }

end Run.Apart

/-- How a cancelled computation ends beside the uncancelled one, both since the same moment: either
no node came up and both are still together, or the second entered one and the first stopped. -/
inductive Outlives (token : Nat) (moment : List Event) :
    Except Error α × Run σ → Except Error α × Run σ → Prop
  | together {outcome : Except Error α} {first second : Run σ} {added : List Event}
      (apart : Run.Apart token first second) (events : first.events = added ++ moment)
      (noNode : ∀ node, .entered node ∉ added) :
      Outlives token moment (outcome, first) (outcome, second)
  | stopped {outcome : Except Error α} {first second : Run σ} {added more : List Event}
      {node : Expr} (cancelled : first.isCancelled token = true)
      (events : first.events = added ++ moment) (noNode : ∀ node, .entered node ∉ added)
      (goesOn : second.events = more ++ first.events) (entered : .entered node ∈ more) :
      Outlives token moment (.error .cancelled, first) (outcome, second)

/-- Both have come further before the comparison starts. -/
theorem Outlives.since {moment added : List Event} {first second : Except Error α × Run σ}
    (outlives : Outlives token (added ++ moment) first second)
    (noNode : ∀ node, .entered node ∉ added) : Outlives token moment first second := by
  have none {later : List Event} (noLater : ∀ node, .entered node ∉ later) (node : Expr) :
      .entered node ∉ later ++ added := by
    rw [List.mem_append, not_or]
    exact ⟨noLater node, noNode node⟩
  cases outlives with
  | together apart events noLater =>
      exact .together apart (events.trans (List.append_assoc _ _ _).symm) (none noLater)
  | stopped cancelled events noLater goesOn entered =>
      exact .stopped cancelled (events.trans (List.append_assoc _ _ _).symm) (none noLater) goesOn
        entered

theorem Outlives.isCancelled {moment : List Event} {first second : Except Error α × Run σ}
    (outlives : Outlives token moment first second) : first.2.isCancelled token = true := by
  cases outlives with
  | together apart _ _ => exact apart.cancelled
  | stopped cancelled _ _ _ _ => exact cancelled

/-- The first goes on for a while without a node, and the second may go on still. -/
theorem Outlives.histories {moment : Run σ} {first second : Except Error α × Run σ}
    (outlives : Outlives token moment.events first second) :
    ∃ afterwards rest, first.2.history = moment.history ++ afterwards ∧
      second.2.history = moment.history ++ afterwards ++ rest ∧
        (∀ node, .entered node ∉ afterwards) ∧
          (first.1 = .error .cancelled ∨ first.1 = second.1 ∧ rest = []) := by
  cases outlives with
  | @together outcome first second added apart events noNode =>
      refine ⟨added.reverse, [], ?_, ?_, by simpa using noNode, .inr ⟨rfl, rfl⟩⟩
      · simp [Run.history, events]
      · simp [Run.history, ← apart.events, events]
  | @stopped outcome first second added more node cancelled events noNode goesOn entered =>
      refine ⟨added.reverse, more.reverse, ?_, ?_, by simpa using noNode, .inl rfl⟩
      · simp [Run.history, events]
      · simp [Run.history, goesOn, events]

/-- The first computation breaks off at the moment of cancellation, and the third never
cancels. -/
structure Truncates (token : Nat) (broken cancelled whole : Eval σ α) : Prop where
  appends (run : Run σ) : ∃ added, (whole.runFrom run).2.events = added ++ run.events
  before (run : Run σ) : run.isCancelled token = false →
    (broken.runFrom run = cancelled.runFrom run ∧ whole.runFrom run = cancelled.runFrom run ∧
      (cancelled.runFrom run).2.isCancelled token = false) ∨
    ∃ moment : Run σ, broken.runFrom run = (.error .cancelled, moment) ∧
      Outlives token moment.events (cancelled.runFrom run) (whole.runFrom run)
  after {first second : Run σ} : Run.Apart token first second →
    Outlives token first.events (cancelled.runFrom first) (whole.runFrom second)

/-! ## Steps that enter no node -/

/-- A computation that records no node and leaves the tokens alone. -/
structure Eval.IsQuiet (computation : Eval σ α) : Prop where
  cancelled (run : Run σ) : (computation.runFrom run).2.cancelled = run.cancelled
  events (run : Run σ) : ∃ added, (computation.runFrom run).2.events = added ++ run.events ∧
    ∀ node, .entered node ∉ added

theorem Eval.IsQuiet.of_silent {computation : Eval σ α}
    (silent : ∀ run, (computation.runFrom run).2.cancelled = run.cancelled ∧
      (computation.runFrom run).2.events = run.events) : computation.IsQuiet where
  cancelled run := (silent run).1
  events run := ⟨[], (silent run).2, by simp⟩

namespace Truncates

theorem of_quiet {computation : Eval σ α} (quiet : computation.IsQuiet)
    (simulates : Simulates (Run.Apart token) Eq computation computation) :
    Truncates token computation computation computation where
  appends run := by
    obtain ⟨added, events, -⟩ := quiet.events run
    exact ⟨added, events⟩
  before run uncancelled := by
    refine .inl ⟨rfl, rfl, ?_⟩
    rw [Run.isCancelled, quiet.cancelled run]
    exact uncancelled
  after {first second} apart := by
    obtain ⟨outcomes, ended⟩ := simulates apart
    obtain ⟨added, events, noNode⟩ := quiet.events first
    rw [sameOutcome_eq_iff] at outcomes
    have pair : computation.runFrom second =
        ((computation.runFrom first).1, (computation.runFrom second).2) :=
      Prod.ext outcomes.symm rfl
    rw [pair]
    exact .together ended events noNode

theorem pure (result : α) :
    Truncates token (Pure.pure result : Eval σ α) (Pure.pure result) (Pure.pure result) :=
  of_quiet (.of_silent fun _ => ⟨rfl, rfl⟩) (Simulates.pure rfl)

theorem throw (error : Error) :
    Truncates token (MonadExcept.throw error : Eval σ α) (MonadExcept.throw error)
      (MonadExcept.throw error) :=
  of_quiet (.of_silent fun _ => ⟨rfl, rfl⟩) (Simulates.throw error)

theorem ofExcept (outcome : Except Error α) :
    Truncates token (Eval.ofExcept outcome : Eval σ α) (Eval.ofExcept outcome)
      (Eval.ofExcept outcome) :=
  of_quiet (.of_silent fun _ => ⟨rfl, rfl⟩) (Simulates.ofExcept outcome)

theorem record {event : Event} (noNode : ∀ node, event ≠ .entered node) :
    Truncates token (Eval.record event : Eval σ Unit) (Eval.record event) (Eval.record event) := by
  refine of_quiet ⟨fun _ => rfl, fun run => ⟨[event], rfl, fun node => ?_⟩⟩ ?_
  · rw [List.mem_singleton]
    exact (noNode node).symm
  · exact fun first second apart => ⟨.ok rfl, apart.record event⟩

theorem resolveConstant (configuration : Configuration σ) (name : String) :
    Truncates token (configuration.resolveConstant name) (configuration.resolveConstant name)
      (configuration.resolveConstant name) := by
  refine of_quiet ⟨fun run => ?_, fun run => ?_⟩ fun first second apart => ?_
  · rw [Configuration.runFrom_resolveConstant]
    cases configuration.provider with
    | none | some provider => rfl
  · rw [Configuration.runFrom_resolveConstant]
    cases configuration.provider with
    | none => exact ⟨[], rfl, by simp⟩
    | some provider => exact ⟨[.lookup name], rfl, by simp⟩
  · simp only [Configuration.runFrom_resolveConstant, ← apart.host]
    cases configuration.provider with
    | none => exact ⟨.ok rfl, apart⟩
    | some provider => exact ⟨.ok rfl, (apart.record _).write _⟩

/-! ## One step after another -/

theorem bind {broken cancelled whole : Eval σ α} {broken' cancelled' whole' : α → Eval σ β}
    (truncates : Truncates token broken cancelled whole)
    (rest : ∀ result, Truncates token (broken' result) (cancelled' result) (whole' result)) :
    Truncates token (broken >>= broken') (cancelled >>= cancelled') (whole >>= whole') := by
  have grows (outcome : Except Error α) (run : Run σ) : ∃ added,
      ((Eval.ofExcept outcome >>= whole').runFrom run).2.events = added ++ run.events := by
    cases outcome with
    | ok result => exact (rest result).appends run
    | error error => exact ⟨[], rfl⟩
  simp only [Eval.runFrom_bind, Eval.runFrom_ofExcept] at grows
  -- What outlives the moment in the first step also does so in the second.
  have outlast {moment : List Event} {first second : Run σ}
      (outlives : Outlives token moment (cancelled.runFrom first) (whole.runFrom second)) :
      Outlives token moment ((cancelled >>= cancelled').runFrom first)
        ((whole >>= whole').runFrom second) := by
    rw [Eval.runFrom_bind, Eval.runFrom_bind]
    generalize cancelled.runFrom first = reached at outlives ⊢
    generalize whole.runFrom second = reached' at outlives ⊢
    cases outlives with
    | @together outcome first second added apart events noNode =>
        cases outcome with
        | error error => exact .together apart events noNode
        | ok result =>
            have later := (rest result).after apart
            rw [events] at later
            exact later.since noNode
    | @stopped outcome first second added more node cancelled events noNode goesOn entered =>
        obtain ⟨further, grown⟩ := grows outcome second
        rw [goesOn, ← List.append_assoc] at grown
        exact .stopped cancelled events noNode grown (List.mem_append_right _ entered)
  constructor
  · intro run
    obtain ⟨added, events⟩ := truncates.appends run
    obtain ⟨more, grown⟩ := grows (whole.runFrom run).1 (whole.runFrom run).2
    refine ⟨more ++ added, ?_⟩
    rw [Eval.runFrom_bind, List.append_assoc, ← events]
    exact grown
  · intro run uncancelled
    obtain ⟨same, same', still⟩ | ⟨moment, broke, outlives⟩ := truncates.before run uncancelled
    · simp only [Eval.runFrom_bind, same, same']
      generalize cancelled.runFrom run = reached at still ⊢
      obtain ⟨outcome, between⟩ := reached
      cases outcome with
      | ok result => exact (rest result).before between still
      | error error => exact .inl ⟨rfl, rfl, still⟩
    · refine .inr ⟨moment, ?_, outlast outlives⟩
      rw [Eval.runFrom_bind, broke]
  · exact fun apart => outlast (truncates.after apart)

/-! ## Programs -/

/-- A program that passes the error of an argument on goes on only with its value. -/
theorem perform_argument {thunks : List (Eval σ Value)} {mode : Mode} {index : Nat}
    {next : Except Error Value → Program σ (Except Error α)}
    (passesOn : ∀ error, next (.error error) = .done (.error error)) :
    (ExceptT.mk (Eval.perform thunks mode (.argument index next)) : Eval σ α) = (do
      Eval.record (.forced index)
      let value ← Eval.thunk thunks index
      ExceptT.mk (Eval.perform thunks mode (next (.ok value)))) := by
  refine funext fun run => ?_
  change Eval.runFrom (ExceptT.mk (Eval.perform thunks mode (.argument index next))) run =
    Eval.runFrom _ run
  rw [Eval.runFrom_argument, Eval.runFrom_bind, Eval.runFrom_record]
  dsimp only
  rw [Eval.runFrom_bind]
  generalize (Eval.thunk thunks index).runFrom (run.record (.forced index)) = reached
  obtain ⟨outcome, after⟩ := reached
  cases outcome with
  | ok value => rfl
  | error error =>
      rw [passesOn error]
      rfl

section Steps

variable {mode : Mode} {thunks thunks' thunks'' : List (Eval σ Value)}

theorem readState {broken cancelled whole : σ → Program σ (Except Error α)}
    (truncates : ∀ state, Truncates token (ExceptT.mk (Eval.perform thunks mode (broken state)))
      (ExceptT.mk (Eval.perform thunks' mode (cancelled state)))
      (ExceptT.mk (Eval.perform thunks'' mode (whole state)))) :
    Truncates token (ExceptT.mk (Eval.perform thunks mode (.readState broken)))
      (ExceptT.mk (Eval.perform thunks' mode (.readState cancelled)))
      (ExceptT.mk (Eval.perform thunks'' mode (.readState whole))) where
  appends run := (truncates run.host).appends run
  before run uncancelled := (truncates run.host).before run uncancelled
  after {first second} apart := by
    have outlives := (truncates first.host).after apart
    rw [Eval.runFrom_readState, Eval.runFrom_readState, ← apart.host]
    exact outlives

theorem writeState (state : σ) {broken cancelled whole : Program σ (Except Error α)}
    (truncates : Truncates token (ExceptT.mk (Eval.perform thunks mode broken))
      (ExceptT.mk (Eval.perform thunks' mode cancelled))
      (ExceptT.mk (Eval.perform thunks'' mode whole))) :
    Truncates token (ExceptT.mk (Eval.perform thunks mode (.writeState state broken)))
      (ExceptT.mk (Eval.perform thunks' mode (.writeState state cancelled)))
      (ExceptT.mk (Eval.perform thunks'' mode (.writeState state whole))) where
  appends run := truncates.appends { run with host := state }
  before run uncancelled := truncates.before { run with host := state } uncancelled
  after apart := truncates.after (apart.write state)

end Steps

theorem perform {broken cancelled whole : List (Eval σ Value)}
    (forces : ∀ index, Truncates token (Eval.thunk broken index) (Eval.thunk cancelled index)
      (Eval.thunk whole index))
    {program : Program σ (Except Error α)} (onlyCancels : program.OnlyCancels) :
    Truncates token (ExceptT.mk (Eval.perform broken (.async token) program.untilCancelled))
      (ExceptT.mk (Eval.perform cancelled (.async token) program))
      (ExceptT.mk (Eval.perform whole (.async token) program.withoutCancelling)) := by
  induction onlyCancels with
  | done result => exact ofExcept result
  | argument passesOn _ ih =>
      rw [Program.untilCancelled, Program.withoutCancelling, perform_argument passesOn,
        perform_argument fun error => by rw [passesOn error, Program.untilCancelled],
        perform_argument fun error => by rw [passesOn error, Program.withoutCancelling]]
      exact (record (by simp)).bind fun _ => (forces _).bind ih
  | readState _ ih => exact readState ih
  | writeState state _ ih => exact writeState state ih
  | cancel _ ih =>
      exact {
        appends := ih.appends
        -- This is the moment of cancellation.
        before := fun run uncancelled => by
          have apart : Run.Apart token (run.cancel token) run :=
            ⟨rfl, rfl, run.isCancelled_cancel token, uncancelled⟩
          exact .inr ⟨run, rfl, ih.after apart⟩
        after := fun {first second} apart => by
          have stillApart : Run.Apart token (first.cancel token) second :=
            { apart with cancelled := first.isCancelled_cancel token }
          exact ih.after stillApart }

/-- A synchronous body has no token and no arguments to ask for. -/
theorem perform_sync (program : Program σ (Except Error α)) :
    Truncates token (ExceptT.mk (Eval.perform [] .sync program) : Eval σ α)
      (ExceptT.mk (Eval.perform [] .sync program))
      (ExceptT.mk (Eval.perform [] .sync program)) := by
  induction program with
  | done result => exact ofExcept result
  | argument index next ih =>
      have missing : (ExceptT.mk (Eval.perform [] .sync (.argument index next)) : Eval σ α) = (do
          Eval.record (.forced index)
          ExceptT.mk (Eval.perform [] .sync
            (next (.error (.invalidArgument (.notSupplied index 0)))))) := rfl
      rw [missing]
      exact (record (by simp)).bind fun _ => ih _
  | readState next ih => exact readState ih
  | writeState state next ih => exact writeState state ih
  | cancel next ih => exact ih
  | isCancelled next ih => exact ih false

end Truncates

/-! ## The walk -/

namespace Configuration

variable {configuration : Configuration σ}

theorem truncates_enter (configuration : Configuration σ) (node : Expr) (depth : Nat) :
    Truncates token (configuration.enter node (.async token) depth)
      (configuration.enter node (.async token) depth)
      (configuration.enter node (.async token) depth) where
  appends run := by
    rw [runFrom_enter]
    split
    · exact ⟨[], rfl⟩
    · split
      · exact ⟨[.entered node], rfl⟩
      · exact ⟨[.entered node], rfl⟩
  before run uncancelled := by
    refine .inl ⟨rfl, rfl, ?_⟩
    rw [runFrom_enter]
    split
    · exact uncancelled
    · split
      · exact uncancelled
      · exact uncancelled
  after {first second} apart := by
    have stops : first.isModeCancelled (.async token) = true := apart.cancelled
    have goesOn : second.isModeCancelled (.async token) = false := apart.uncancelled
    rw [runFrom_enter, runFrom_enter, if_pos stops, if_neg (by simp [goesOn])]
    have grown : (second.record (.entered node)).events = [.entered node] ++ first.events := by
      rw [apart.events]
      rfl
    have none : first.events = [] ++ first.events := rfl
    split
    · exact .stopped apart.cancelled none (by simp) grown (.head _)
    · exact .stopped apart.cancelled none (by simp) grown (.head _)

theorem length_thunks (configuration : Configuration σ) (arguments : List (Option Expr))
    (mode : Mode) (depth : Nat) :
    (configuration.thunks arguments mode depth).length = arguments.length := by
  induction arguments with
  | nil => simp [thunks]
  | cons argument arguments ih => simp [thunks, ih]

/-- The comparison of the evaluations of an expression. -/
def TruncatesAt (configuration : Configuration σ) (token : Nat) (expr : Expr) : Prop :=
  ∀ depth, Truncates token (configuration.untilCancelled.eval expr (.async token) depth)
    (configuration.eval expr (.async token) depth)
    (configuration.withoutCancelling.eval expr (.async token) depth)

theorem truncates_evalOperand {operand : Option Expr}
    (truncates : ∀ expr, some expr = operand → configuration.TruncatesAt token expr)
    (depth : Nat) :
    Truncates token (configuration.untilCancelled.evalOperand operand (.async token) depth)
      (configuration.evalOperand operand (.async token) depth)
      (configuration.withoutCancelling.evalOperand operand (.async token) depth) := by
  cases operand with
  | none => exact .pure none
  | some expr => exact (truncates expr rfl depth).bind fun _ => .pure _

theorem truncates_evalArguments {arguments : List (Option Expr)}
    (truncates : ∀ expr, some expr ∈ arguments → configuration.TruncatesAt token expr)
    (depth : Nat) :
    Truncates token (configuration.untilCancelled.evalArguments arguments (.async token) depth)
      (configuration.evalArguments arguments (.async token) depth)
      (configuration.withoutCancelling.evalArguments arguments (.async token) depth) := by
  induction arguments with
  | nil => exact .pure []
  | cons argument arguments ih =>
      unfold evalArguments
      have first : ∀ expr, some expr = argument → configuration.TruncatesAt token expr :=
        fun expr same => truncates expr (by simp [same])
      refine (truncates_evalOperand first depth).bind fun _ => ?_
      exact (ih fun expr member => truncates expr (.tail _ member)).bind fun _ => .pure _

theorem truncates_thunks {arguments : List (Option Expr)}
    (truncates : ∀ expr, some expr ∈ arguments → configuration.TruncatesAt token expr)
    (depth index : Nat) :
    Truncates token
      (Eval.thunk (configuration.untilCancelled.thunks arguments (.async token) depth) index)
      (Eval.thunk (configuration.thunks arguments (.async token) depth) index)
      (Eval.thunk (configuration.withoutCancelling.thunks arguments (.async token) depth)
        index) := by
  unfold Eval.thunk
  simp only [length_thunks]
  generalize Error.invalidArgument _ = error
  induction arguments generalizing index with
  | nil => exact .throw error
  | cons argument arguments ih =>
      unfold thunks
      have first : ∀ expr, some expr = argument → configuration.TruncatesAt token expr :=
        fun expr same => truncates expr (by simp [same])
      cases index with
      | zero => exact (truncates_evalOperand first depth).bind fun _ => .pure _
      | succ index => exact ih (fun expr member => truncates expr (.tail _ member)) index

variable (onlyCancels : configuration.OnlyCancels)
include onlyCancels

theorem truncates_resolveIdentifier (name : String) :
    Truncates token (configuration.untilCancelled.resolveIdentifier name (.async token))
      (configuration.resolveIdentifier name (.async token))
      (configuration.withoutCancelling.resolveIdentifier name (.async token)) := by
  have constant : Truncates token (configuration.resolveConstant name)
      (configuration.resolveConstant name) (configuration.resolveConstant name) :=
    .resolveConstant configuration name
  cases given : configuration.asyncProvider with
  | none =>
      simp only [resolveIdentifier, untilCancelled, withoutCancelling, mapAsync, given,
        Option.map_none]
      exact constant
  | some provider =>
      simp only [resolveIdentifier, untilCancelled, withoutCancelling, mapAsync, given,
        Option.map_some]
      refine (Truncates.record (by simp)).bind fun _ => ?_
      refine (Truncates.perform (fun _ => .throw _) (onlyCancels.asyncProvider given name)).bind
        fun found => ?_
      cases found with
      | none => exact constant
      | some value => exact .pure value

theorem truncatesAt_call {name : String} {position : Nat} {arguments : List (Option Expr)}
    (truncates : ∀ expr, some expr ∈ arguments → configuration.TruncatesAt token expr) :
    configuration.TruncatesAt token (.call name position arguments) := by
  intro depth
  unfold eval
  refine (truncates_enter configuration _ depth).bind fun _ => ?_
  have none (index : Nat) : Truncates token (Eval.thunk (σ := σ) [] index) (Eval.thunk [] index)
      (Eval.thunk [] index) := .throw _
  have called (mode : Mode) : Truncates (σ := σ) token (Eval.record (.called name mode))
      (Eval.record (.called name mode)) (Eval.record (.called name mode)) := .record (by simp)
  simp only [resolveFunction, untilCancelled, withoutCancelling, function?_mapAsync]
  cases found : configuration.function? name with
  | none => exact .throw _
  | some function =>
      have ⟨handsOn, bodies⟩ := onlyCancels.function found
      obtain ⟨sync, async, isLazy⟩ := function
      simp only [Option.map_some, pure_bind, mapAsyncBody, selectBody]
      cases async with
      | some body =>
          simp only [Option.map_some, Option.orElse_eq_orElse, Option.orElse_eq_or, Option.some_or,
            bodyMode, ↓reduceIte, pure_bind]
          cases isLazy with
          | true =>
              refine (called _).bind fun _ => ?_
              exact .perform (truncates_thunks truncates _) (bodies rfl _)
          | false =>
              refine (truncates_evalArguments truncates _).bind fun values => ?_
              exact (called _).bind fun _ => .perform none (bodies rfl _)
      | none =>
          cases sync with
          | none => exact .throw _
          | some body =>
              simp only [Option.map_none, Option.map_some, Option.orElse_eq_orElse,
                Option.orElse_eq_or, Option.none_or, bodyMode, Bool.false_eq_true, ↓reduceIte,
                pure_bind]
              cases isLazy with
              | true => exact absurd ⟨rfl, rfl, rfl⟩ handsOn
              | false =>
                  refine (truncates_evalArguments truncates _).bind fun values => ?_
                  exact (called _).bind fun _ => .perform_sync _

theorem truncatesAt (expr : Expr) : configuration.TruncatesAt token expr := by
  induction expr using Expr.nestedInduction with
  | number text position =>
      intro depth
      unfold eval
      exact (truncates_enter configuration _ depth).bind fun _ => .ofExcept _
  | string content position =>
      intro depth
      unfold eval
      exact (truncates_enter configuration _ depth).bind fun _ => .pure _
  | identifier name position =>
      intro depth
      unfold eval
      exact (truncates_enter configuration _ depth).bind fun _ =>
        truncates_resolveIdentifier onlyCancels name
  | call name position arguments ih => exact truncatesAt_call onlyCancels ih
  | operation operator position left right ihLeft ihRight =>
      intro depth
      unfold eval
      refine (truncates_enter configuration _ depth).bind fun _ => ?_
      refine (truncates_evalOperand ihLeft _).bind fun left => ?_
      simp only [toSettings_untilCancelled, toSettings_withoutCancelling]
      have applies (right : Option Value) : Truncates token (σ := σ)
          (Eval.ofExcept (configuration.operators.apply configuration.toEnvironment operator left
            right)) (Eval.ofExcept _) (Eval.ofExcept _) := .ofExcept _
      cases left.filter (configuration.operators.decides configuration.toEnvironment operator) with
      | none => exact (truncates_evalOperand ihRight _).bind applies
      | some decided => exact .pure decided

end Configuration

/-! ## Whole expressions -/

/-- What is asked of the host, as opposed to what the walk and the bodies do by themselves. -/
def Event.isHostCall : Event → Bool
  | .lookup _ | .asyncLookup _ _ | .called _ _ => true
  | .entered _ | .forced _ => false

def Run.hostCalls (run : Run σ) : List Event :=
  run.history.filter Event.isHostCall

namespace Configuration

theorem evaluateAsync_cancelled (configuration : Configuration σ) (expr : Expr) (host : σ) :
    configuration.evaluateAsync expr host true = (.error .cancelled, .start host true) :=
  eval_stopsWhenCancelled expr (.start host true) rfl

/-- After the moment of cancellation there is a part without nodes that both evaluations do, and a
part that only the one does where cancelling has no effect. -/
theorem histories_evaluateAsync {configuration : Configuration σ}
    (onlyCancels : configuration.OnlyCancels) (expr : Expr) (host : σ) (cancelled : Bool) :
    let broken := configuration.untilCancelled.evaluateAsync expr host cancelled
    let run := configuration.evaluateAsync expr host cancelled
    let whole := configuration.withoutCancelling.evaluateAsync expr host false
    ∃ afterwards rest, run.2.history = broken.2.history ++ afterwards ∧
      whole.2.history = broken.2.history ++ afterwards ++ rest ∧
        (∀ node, .entered node ∉ afterwards) ∧
          (run.1 = .error .cancelled ∧ run.2.isCancelled Run.callerToken = true ∨
            run.1 = whole.1 ∧ rest = []) := by
  intro broken run whole
  cases cancelled with
  | true =>
      have atOnce : run = (.error .cancelled, .start host true) := evaluateAsync_cancelled _ _ _
      have atOnce' : broken = (.error .cancelled, .start host true) := evaluateAsync_cancelled _ _ _
      rw [atOnce, atOnce']
      exact ⟨[], whole.2.history, rfl, rfl, by simp, .inl ⟨rfl, rfl⟩⟩
  | false =>
      obtain ⟨same, same', -⟩ | ⟨moment, broke, outlives⟩ :=
        (truncatesAt onlyCancels expr 0).before (.start host false) rfl
      · have sameBroken : broken = run := same
        have sameWhole : whole = run := same'
        rw [sameBroken, sameWhole]
        exact ⟨[], [], by simp, by simp, by simp, .inr ⟨rfl, rfl⟩⟩
      · have brokeOff : broken = (.error .cancelled, moment) := broke
        obtain ⟨afterwards, rest, history, history', noNode, ends⟩ := outlives.histories
        rw [brokeOff]
        exact ⟨afterwards, rest, history, history', noNode,
          ends.imp_left fun stopped => ⟨stopped, outlives.isCancelled⟩⟩

/-- A cancelled evaluation does what the same evaluation does where cancelling has no effect, up to
the first node after the moment of cancellation. -/
theorem evaluateAsync_truncates {configuration : Configuration σ}
    (onlyCancels : configuration.OnlyCancels) (expr : Expr) (host : σ) (cancelled : Bool) :
    let broken := configuration.untilCancelled.evaluateAsync expr host cancelled
    let run := configuration.evaluateAsync expr host cancelled
    let whole := configuration.withoutCancelling.evaluateAsync expr host false
    run.2.hostCalls <+: whole.2.hostCalls ∧
      (∃ afterwards rest, run.2.history = broken.2.history ++ afterwards ∧
        whole.2.history = broken.2.history ++ afterwards ++ rest ∧
          (∀ node, .entered node ∉ afterwards) ∧
            ∀ node, .entered node ∈ afterwards ++ rest → run.1 = .error .cancelled) ∧
      (run.1 = .error .cancelled ∨ run.1 = whole.1) ∧
      (run.2.isCancelled Run.callerToken = false →
        run.1 = whole.1 ∧ run.2.history = whole.2.history) ∧
      (cancelled = true → run.1 = .error .cancelled ∧ run.2.history = []) := by
  intro broken run whole
  obtain ⟨afterwards, rest, history, history', noNode, ends⟩ :=
    histories_evaluateAsync onlyCancels expr host cancelled
  have grown : whole.2.history = run.2.history ++ rest := history'.trans (history ▸ rfl)
  refine ⟨?_, ⟨afterwards, rest, history, history', noNode, fun node entered => ?_⟩,
    ends.imp And.left And.left, fun uncancelled => ?_, ?_⟩
  · rw [Run.hostCalls, Run.hostCalls, grown]
    exact (List.prefix_append _ _).filter _
  · obtain ⟨stopped, -⟩ | ⟨-, rfl⟩ := ends
    · exact stopped
    · rw [List.append_nil] at entered
      exact absurd entered (noNode node)
  · obtain ⟨-, lost⟩ | ⟨same, rfl⟩ := ends
    · exact absurd lost (by simp [run, uncancelled])
    · exact ⟨same, by rw [grown, List.append_nil]⟩
  · rintro rfl
    have atOnce : run = (.error .cancelled, .start host true) := evaluateAsync_cancelled _ _ _
    rw [atOnce]
    exact ⟨rfl, rfl⟩

/-- One function cancels the token as soon as it has its argument. -/
def cancelling : Configuration Unit :=
  { Configuration.ofType .int32 with
    functions := ⟨[("last", ⟨none, some fun _ arguments => do
      let value ← arguments.get 0
      Procedure.cancelToken
      return value, true⟩)]⟩
    provider := some fun _ state => (some (.number (.int32 2)), state) }

theorem onlyCancels_cancelling : cancelling.OnlyCancels := by
  refine onlyCancels_of_standard rfl (fun name function found => ?_) rfl
  simp only [cancelling, Table.find?, Table.lookup_cons] at found
  split at found
  · cases found
    refine ⟨by simp, ?_⟩
    rintro _ ⟨⟩ arguments
    exact (arguments.get_onlyCancels 0).bind fun value =>
      Procedure.OnlyCancels.cancelToken.bind fun _ => .pure value
  · cases found

/-- The sum of two constants, the first of which is the last that is looked up. -/
theorem evaluateAsync_truncates_cancelling :
    let expr : Expr := .operation "+" 8
      (some (.call "last" 0 [some (.identifier "x" 5)])) (some (.identifier "y" 10))
    let run := cancelling.evaluateAsync expr () false
    let whole := cancelling.withoutCancelling.evaluateAsync expr () false
    run.1 = .error .cancelled ∧ whole.1 = .ok (.number (.int32 4)) ∧
      run.2.hostCalls = [.called "last" (.async Run.callerToken), .lookup "x"] ∧
        run.2.hostCalls <+: whole.2.hostCalls := by
  intro expr run whole
  have ⟨hostCalls, _⟩ := evaluateAsync_truncates onlyCancels_cancelling expr () false
  exact ⟨rfl, rfl, rfl, hostCalls⟩

end Configuration

end Formula

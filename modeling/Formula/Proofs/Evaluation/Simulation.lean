import Formula.Evaluation.Walk
import Formula.Proofs.Host.Program
import Mathlib.Data.Option.Basic

/-!
# Simulations between evaluations

Two evaluations are compared step by step along a link between their runs: started from linked runs
they fail with the same error or give related results, and the runs they end in are linked again.
The link is a parameter, so the comparison serves two modes, two configurations or two expressions.
-/

namespace Formula

variable {σ α β γ δ : Type}

/-! ## Where an evaluation ends -/

namespace Eval

def runFrom (computation : Eval σ α) (run : Run σ) : Except Error α × Run σ :=
  computation.run.run run

@[simp]
theorem runFrom_pure (result : α) (run : Run σ) :
    (pure result : Eval σ α).runFrom run = (.ok result, run) := rfl

@[simp]
theorem runFrom_throw (error : Error) (run : Run σ) :
    (throw error : Eval σ α).runFrom run = (.error error, run) := rfl

@[simp]
theorem runFrom_ofExcept (result : Except Error α) (run : Run σ) :
    (ofExcept result).runFrom run = (result, run) := rfl

@[simp]
theorem runFrom_record (event : Event) (run : Run σ) :
    (record event).runFrom run = (.ok (), run.record event) := rfl

@[simp]
theorem runFrom_freshToken (run : Run σ) :
    freshToken.runFrom run =
      (.ok run.nextToken, { run with nextToken := run.nextToken + 1 }) := rfl

theorem runFrom_bind (computation : Eval σ α) (next : α → Eval σ β) (run : Run σ) :
    (computation >>= next).runFrom run =
      match computation.runFrom run with
      | (.ok result, after) => (next result).runFrom after
      | (.error error, after) => (.error error, after) := by
  unfold runFrom
  simp only [ExceptT.run_bind, StateT.run_bind]
  obtain ⟨outcome, after⟩ := computation.run.run run
  cases outcome with
  | ok result => rfl
  | error error => rfl

theorem runFrom_bind_eq_ok {computation : Eval σ α} {next : α → Eval σ β} {run after : Run σ}
    {result : β} (reached : (computation >>= next).runFrom run = (.ok result, after)) :
    ∃ first between, computation.runFrom run = (.ok first, between) ∧
      (next first).runFrom between = (.ok result, after) := by
  rw [runFrom_bind] at reached
  generalize computation.runFrom run = start at reached ⊢
  obtain ⟨outcome, between⟩ := start
  cases outcome with
  | ok first => exact ⟨first, between, rfl, reached⟩
  | error error => cases reached

end Eval

theorem Configuration.runFrom_enter (configuration : Configuration σ) (node : Expr) (mode : Mode)
    (depth : Nat) (run : Run σ) :
    (configuration.enter node mode depth).runFrom run =
      if run.isModeCancelled mode then (.error .cancelled, run)
      else if configuration.maxDepth < depth then
        (.error (.nestingLimit configuration.maxDepth), run.record (.entered node))
      else (.ok (), run.record (.entered node)) := by
  have fetched : (get : Eval σ (Run σ)).runFrom run = (.ok run, run) := rfl
  unfold enter
  simp only [Eval.runFrom_bind, fetched]
  by_cases cancelled : run.isModeCancelled mode
  · simp only [cancelled, ↓reduceIte]
    rfl
  · simp only [cancelled, Bool.false_eq_true, ↓reduceIte, Eval.runFrom_bind,
      Eval.runFrom_record]
    split
    · rfl
    · rfl

theorem Configuration.runFrom_resolveConstant (configuration : Configuration σ) (name : String)
    (run : Run σ) :
    (configuration.resolveConstant name).runFrom run =
      match configuration.provider with
      | none => (.ok ((configuration.constant? name).getD .null), run)
      | some provider =>
          (.ok ((provider name run.host).1.getD ((configuration.constant? name).getD .null)),
            { run.record (.lookup name) with host := (provider name run.host).2 }) := by
  unfold resolveConstant
  cases configuration.provider with
  | none => rfl
  | some provider => rfl

/-! ## Cancelled tokens -/

/-- A computation that does nothing once its token is cancelled. -/
def Eval.StopsWhenCancelled (mode : Mode) (computation : Eval σ α) : Prop :=
  ∀ run : Run σ, run.isModeCancelled mode = true →
    computation.runFrom run = (.error .cancelled, run)

theorem Eval.StopsWhenCancelled.bind {mode : Mode} {computation : Eval σ α}
    (stops : computation.StopsWhenCancelled mode) (next : α → Eval σ β) :
    (computation >>= next).StopsWhenCancelled mode := by
  intro run cancelled
  rw [runFrom_bind, stops run cancelled]

namespace Configuration

variable {configuration : Configuration σ} {mode : Mode} {depth : Nat}

theorem enter_stopsWhenCancelled (node : Expr) :
    (configuration.enter node mode depth).StopsWhenCancelled mode := by
  intro run cancelled
  rw [runFrom_enter, if_pos cancelled]

theorem eval_stopsWhenCancelled (expr : Expr) :
    (configuration.eval expr mode depth).StopsWhenCancelled mode := by
  cases expr with
  | number | string | identifier | call | operation =>
      unfold eval
      exact (enter_stopsWhenCancelled _).bind _

end Configuration

/-! ## Linked evaluations -/

/-- Outcomes that are the same error or related results. -/
inductive SameOutcome (related : α → β → Prop) : Except Error α → Except Error β → Prop
  | ok {first : α} {second : β} (results : related first second) :
      SameOutcome related (.ok first) (.ok second)
  | error (error : Error) : SameOutcome related (.error error) (.error error)

theorem sameOutcome_eq_iff {first second : Except Error α} :
    SameOutcome Eq first second ↔ first = second := by
  constructor
  · rintro (⟨rfl⟩ | error)
    · rfl
    · rfl
  · rintro rfl
    cases first with
    | ok result => exact .ok rfl
    | error error => exact .error error

/-- From two runs the computations fail with the same error or come to related results, in runs that
are linked. -/
def SimulatesAt (link : Run σ → Run σ → Prop) (related : α → β → Prop) (first : Eval σ α)
    (second : Eval σ β) (run run' : Run σ) : Prop :=
  SameOutcome related (first.runFrom run).1 (second.runFrom run').1 ∧
    link (first.runFrom run).2 (second.runFrom run').2

def Simulates (link : Run σ → Run σ → Prop) (related : α → β → Prop) (first : Eval σ α)
    (second : Eval σ β) : Prop :=
  ∀ ⦃before before' : Run σ⦄, link before before' →
    SameOutcome related (first.runFrom before).1 (second.runFrom before').1 ∧
      link (first.runFrom before).2 (second.runFrom before').2

section Linked

variable {link : Run σ → Run σ → Prop} {related : α → β → Prop} {related' : γ → δ → Prop}

/-- What follows is compared only from where the first steps really end. -/
theorem SimulatesAt.bind {first : Eval σ α} {second : Eval σ β} {next : α → Eval σ γ}
    {next' : β → Eval σ δ} {run run' : Run σ}
    (start : SimulatesAt link related first second run run')
    (continues : ∀ {result result' after after'}, first.runFrom run = (.ok result, after) →
      related result result' → link after after' →
        SimulatesAt link related' (next result) (next' result') after after') :
    SimulatesAt link related' (first >>= next) (second >>= next') run run' := by
  have ⟨outcomes, linkedAfter⟩ := start
  unfold SimulatesAt
  rw [Eval.runFrom_bind, Eval.runFrom_bind]
  generalize first.runFrom run = reached at continues outcomes linkedAfter ⊢
  generalize second.runFrom run' = reached' at outcomes linkedAfter ⊢
  obtain ⟨outcome, after⟩ := reached
  obtain ⟨outcome', after'⟩ := reached'
  cases outcomes with
  | ok results => exact continues rfl results linkedAfter
  | error error => exact ⟨.error error, linkedAfter⟩

namespace Simulates

theorem pure {first : α} {second : β} (results : related first second) :
    Simulates link related (Pure.pure first) (Pure.pure second) :=
  fun _ _ linked => ⟨.ok results, linked⟩

theorem throw (error : Error) :
    Simulates link related (MonadExcept.throw error) (MonadExcept.throw error) :=
  fun _ _ linked => ⟨.error error, linked⟩

theorem ofExcept (outcome : Except Error α) :
    Simulates link Eq (Eval.ofExcept outcome) (Eval.ofExcept outcome) :=
  fun _ _ linked => ⟨sameOutcome_eq_iff.mpr rfl, linked⟩

theorem bind {first : Eval σ α} {second : Eval σ β} {next : α → Eval σ γ} {next' : β → Eval σ δ}
    (start : Simulates link related first second)
    (continues : ∀ result result', related result result' →
      Simulates link related' (next result) (next' result')) :
    Simulates link related' (first >>= next) (second >>= next') :=
  fun _ _ linked => SimulatesAt.bind (start linked) fun _ results linkedAfter =>
    continues _ _ results linkedAfter

end Simulates

end Linked

/-! ## Programs

A program that leaves the token alone sees of a run only the state of the host and what its thunks
give back. -/

/-- A link that what a program sees and does cannot break. -/
structure Observable (link : Run σ → Run σ → Prop) : Prop where
  host {before before'} : link before before' → before.host = before'.host
  write {before before'} (state : σ) : link before before' →
    link { before with host := state } { before' with host := state }
  force {before before'} (index : Nat) : link before before' →
    link (before.record (.forced index)) (before'.record (.forced index))

namespace Eval

def thunk (thunks : List (Eval σ Value)) (index : Nat) : Eval σ Value :=
  thunks[index]?.getD (throw (.invalidArgument (.notSupplied index thunks.length)))

variable (thunks : List (Eval σ Value)) (mode : Mode) (run : Run σ)

theorem runFrom_argument (index : Nat) (next : Except Error Value → Program σ (Except Error α)) :
    runFrom (ExceptT.mk (perform thunks mode (.argument index next))) run =
      runFrom (ExceptT.mk (perform thunks mode
          (next ((thunk thunks index).runFrom (run.record (.forced index))).1)))
        ((thunk thunks index).runFrom (run.record (.forced index))).2 := rfl

theorem runFrom_readState (next : σ → Program σ (Except Error α)) :
    runFrom (ExceptT.mk (perform thunks mode (.readState next))) run =
      runFrom (ExceptT.mk (perform thunks mode (next run.host))) run := rfl

theorem runFrom_writeState (state : σ) (next : Program σ (Except Error α)) :
    runFrom (ExceptT.mk (perform thunks mode (.writeState state next))) run =
      runFrom (ExceptT.mk (perform thunks mode next)) { run with host := state } := rfl

theorem runFrom_cancel (next : Program σ (Except Error α)) :
    runFrom (ExceptT.mk (perform thunks mode (.cancel next))) run =
      runFrom (ExceptT.mk (perform thunks mode next)) (run.cancelMode mode) := rfl

theorem runFrom_isCancelled (next : Bool → Program σ (Except Error α)) :
    runFrom (ExceptT.mk (perform thunks mode (.isCancelled next))) run =
      runFrom (ExceptT.mk (perform thunks mode (next (run.isModeCancelled mode)))) run := rfl

end Eval

namespace Simulates

variable {link : Run σ → Run σ → Prop} {thunks thunks' : List (Eval σ Value)}

/-- A program that ignores the token runs alike in any two modes. -/
theorem perform (observable : Observable link)
    (similar : ∀ index, Simulates link Eq (Eval.thunk thunks index) (Eval.thunk thunks' index))
    (mode mode' : Mode) {program : Program σ (Except Error α)} (ignores : program.IgnoresToken) :
    Simulates link Eq (ExceptT.mk (Eval.perform thunks mode program))
      (ExceptT.mk (Eval.perform thunks' mode' program)) := by
  intro before before' linked
  induction ignores generalizing before before' with
  | done result => exact ⟨sameOutcome_eq_iff.mpr rfl, linked⟩
  | @argument index next _ ih =>
      have ⟨outcomes, forced⟩ := similar index (observable.force index linked)
      rw [sameOutcome_eq_iff] at outcomes
      rw [Eval.runFrom_argument, Eval.runFrom_argument, ← outcomes]
      exact ih _ forced
  | @readState next _ ih =>
      rw [Eval.runFrom_readState, Eval.runFrom_readState, ← observable.host linked]
      exact ih _ linked
  | writeState state _ ih =>
      rw [Eval.runFrom_writeState, Eval.runFrom_writeState]
      exact ih (observable.write state linked)

end Simulates

/-! ## Nodes, operands and arguments

Two evaluations of a node enter it alike, and then come to its operands or arguments one by one. -/

section Operands

variable {related : Expr → Expr → Prop} {change : Expr → Expr}

theorem rel_map {operand : Option Expr}
    (each : ∀ expr, some expr = operand → related expr (change expr)) :
    Option.Rel related operand (operand.map change) := by
  cases operand with
  | none => exact .none
  | some expr => exact .some (each expr rfl)

theorem rel_self {operand : Option Expr}
    (each : ∀ expr, some expr = operand → related expr expr) :
    Option.Rel related operand operand := by
  cases operand with
  | none => exact .none
  | some expr => exact .some (each expr rfl)

end Operands

namespace Configuration

variable {link : Run σ → Run σ → Prop} {first second : Configuration σ} {mode mode' : Mode}
  {depth depth' : Nat}

/-- Expressions whose evaluations are linked, each in its own configuration, mode and depth. -/
def Similar (link : Run σ → Run σ → Prop) (first second : Configuration σ) (mode mode' : Mode)
    (depth depth' : Nat) (expr expr' : Expr) : Prop :=
  Simulates link Eq (first.eval expr mode depth) (second.eval expr' mode' depth')

/-- Both tokens are cancelled or neither is, and both depths exceed one limit or neither does. -/
theorem simulates_enter_of {node node' : Expr}
    (cancelled : ∀ {run run'}, link run run' →
      run.isModeCancelled mode = run'.isModeCancelled mode')
    (recorded : ∀ {run run'}, link run run' →
      link (run.record (.entered node)) (run'.record (.entered node')))
    (limits : first.maxDepth = second.maxDepth ∧ depth = depth' ∨
      depth ≤ first.maxDepth ∧ depth' ≤ second.maxDepth) :
    Simulates link Eq (first.enter node mode depth) (second.enter node' mode' depth') := by
  intro run run' linked
  rw [runFrom_enter, runFrom_enter, ← cancelled linked]
  split
  · exact ⟨.error _, linked⟩
  · rcases limits with ⟨same, rfl⟩ | ⟨fits, fits'⟩
    · rw [← same]
      split
      · exact ⟨.error _, recorded linked⟩
      · exact ⟨.ok rfl, recorded linked⟩
    · rw [if_neg (Nat.not_lt.mpr fits), if_neg (Nat.not_lt.mpr fits')]
      exact ⟨.ok rfl, recorded linked⟩

theorem simulates_evalOperand {operand operand' : Option Expr}
    (similar : Option.Rel (Similar link first second mode mode' depth depth') operand operand') :
    Simulates link Eq (first.evalOperand operand mode depth)
      (second.evalOperand operand' mode' depth') := by
  cases similar with
  | none => exact Simulates.pure rfl
  | some simulates =>
      refine simulates.bind ?_
      rintro value _ rfl
      exact Simulates.pure rfl

theorem thunks_eq_map (configuration : Configuration σ) (arguments : List (Option Expr))
    (mode : Mode) (depth : Nat) :
    configuration.thunks arguments mode depth = arguments.map fun argument => do
      return (← configuration.evalOperand argument mode depth).getD .null := by
  induction arguments with
  | nil => rfl
  | cons argument arguments ih => rw [thunks, ih, List.map_cons]

section Arguments

variable {arguments arguments' : List (Option Expr)} {run run' : Run σ}
  (sameLength : arguments.length = arguments'.length)
include sameLength

theorem simulatesAt_thunk {index : Nat} (linked : link run run')
    (operand : SimulatesAt link Eq (first.evalOperand arguments[index]?.join mode depth)
      (second.evalOperand arguments'[index]?.join mode' depth') run run') :
    SimulatesAt link Eq (Eval.thunk (first.thunks arguments mode depth) index)
      (Eval.thunk (second.thunks arguments' mode' depth') index) run run' := by
  unfold Eval.thunk
  simp only [thunks_eq_map, List.getElem?_map, List.length_map]
  by_cases inside : index < arguments.length
  · have inside' : index < arguments'.length := sameLength ▸ inside
    rw [List.getElem?_eq_getElem inside] at operand ⊢
    rw [List.getElem?_eq_getElem inside'] at operand ⊢
    refine operand.bind ?_
    rintro value _ _ _ - rfl linkedAfter
    exact Simulates.pure rfl linkedAfter
  · rw [List.getElem?_eq_none (by omega), List.getElem?_eq_none (by omega), sameLength]
    exact Simulates.throw _ linked

/-- Each argument is compared where the ones before it have been evaluated. -/
theorem simulatesAt_evalArguments (linked : link run run')
    (each : ∀ {index values moment moment'},
      (first.evalArguments (arguments.take index) mode depth).runFrom run = (.ok values, moment) →
      link moment moment' →
        SimulatesAt link Eq (first.evalOperand arguments[index]?.join mode depth)
          (second.evalOperand arguments'[index]?.join mode' depth') moment moment') :
    SimulatesAt link Eq (first.evalArguments arguments mode depth)
      (second.evalArguments arguments' mode' depth') run run' := by
  induction arguments generalizing arguments' run run' with
  | nil =>
      obtain rfl := List.length_eq_zero_iff.mp sameLength.symm
      exact Simulates.pure rfl linked
  | cons argument arguments ih =>
      cases arguments' with
      | nil => cases sameLength
      | cons argument' arguments' =>
          unfold evalArguments
          have here : SimulatesAt link Eq (first.evalOperand argument mode depth)
              (second.evalOperand argument' mode' depth') run run' := @each 0 [] _ _ rfl linked
          refine here.bind ?_
          rintro value _ after after' ended rfl linkedAfter
          refine (ih (Nat.succ.inj sameLength) linkedAfter ?_).bind ?_
          · intro index values moment moment' reached
            refine @each (index + 1) (value.getD .null :: values) _ _ ?_
            rw [List.take_succ_cons]
            unfold evalArguments
            rw [Eval.runFrom_bind, ended]
            simp only [Eval.runFrom_bind, reached]
            rfl
          · rintro values _ _ _ - rfl linkedAfter
            exact Simulates.pure rfl linkedAfter

end Arguments

end Configuration

end Formula

import Formula.Proofs.Evaluation.Modes

/-!
# Links that common steps keep

Evaluations that differ in one place take the same steps everywhere else.  What is asked here of a
link between their runs is that no step taken in both breaks it: no record, no change of the state
of the host, and nothing that is done to a token.
-/

namespace Formula

variable {σ : Type}

/-! ## Runs up to their records -/

namespace Run

/-- Runs that differ at most in what they recorded. -/
structure SameState (first second : Run σ) : Prop where
  host : first.host = second.host
  cancelled : first.cancelled = second.cancelled
  nextToken : first.nextToken = second.nextToken

namespace SameState

variable {first second : Run σ}

theorem refl (run : Run σ) : SameState run run :=
  ⟨rfl, rfl, rfl⟩

theorem symm (linked : SameState first second) : SameState second first :=
  ⟨linked.host.symm, linked.cancelled.symm, linked.nextToken.symm⟩

theorem trans {third : Run σ} (linked : SameState first second)
    (linked' : SameState second third) : SameState first third :=
  ⟨linked.host.trans linked'.host, linked.cancelled.trans linked'.cancelled,
    linked.nextToken.trans linked'.nextToken⟩

theorem record (event event' : Event) (linked : SameState first second) :
    SameState (first.record event) (second.record event') :=
  ⟨linked.host, linked.cancelled, linked.nextToken⟩

theorem isModeCancelled (linked : SameState first second) (mode : Mode) :
    first.isModeCancelled mode = second.isModeCancelled mode := by
  cases mode with
  | sync => rfl
  | async token => simp [Run.isModeCancelled, Run.isCancelled, linked.cancelled]

end SameState

end Run

open Run (SameState)

/-! ## The same steps -/

/-- A link between runs that differ at most in their records, which no step that is taken in both
breaks. -/
structure Transparent (link : Run σ → Run σ → Prop) : Prop where
  state {first second : Run σ} : link first second → SameState first second
  record {first second : Run σ} (event : Event) : link first second →
    link (first.record event) (second.record event)
  update {first second : Run σ} (host : σ) (cancelled : List Nat) (nextToken : Nat) :
    link first second → link ⟨host, cancelled, nextToken, first.events⟩
      ⟨host, cancelled, nextToken, second.events⟩

theorem Run.SameState.transparent : Transparent (σ := σ) SameState where
  state := id
  record event linked := linked.record event event
  update _ _ _ _ := ⟨rfl, rfl, rfl⟩

namespace Transparent

variable {link : Run σ → Run σ → Prop} {first second : Run σ}

theorem write (transparent : Transparent link) (linked : link first second) (state : σ) :
    link { first with host := state } { second with host := state } := by
  have same := transparent.state linked
  have updated := transparent.update state first.cancelled first.nextToken linked
  rwa [← same.cancelled, ← same.nextToken]

theorem cancelMode (transparent : Transparent link) (linked : link first second) (mode : Mode) :
    link (Run.cancelMode mode first) (Run.cancelMode mode second) := by
  cases mode with
  | sync => exact linked
  | async token =>
      have same := transparent.state linked
      have updated := transparent.update first.host (token :: first.cancelled) first.nextToken
        linked
      simpa only [Run.cancelMode, Run.cancel, ← same.host, ← same.cancelled, ← same.nextToken]

end Transparent

namespace Simulates

variable {α β : Type} {thunks thunks' : List (Eval σ Value)} {link : Run σ → Run σ → Prop}

theorem symm {first second : Eval σ α} (simulates : Simulates SameState Eq first second) :
    Simulates SameState Eq second first := by
  intro before before' linked
  have ⟨outcomes, states⟩ := simulates linked.symm
  exact ⟨sameOutcome_eq_iff.mpr (sameOutcome_eq_iff.mp outcomes).symm, states.symm⟩

section Steps

variable (transparent : Transparent link)
include transparent

theorem record (event : Event) : Simulates link Eq (Eval.record event) (Eval.record event) :=
  fun _ _ linked => ⟨.ok rfl, transparent.record event linked⟩

theorem freshToken : Simulates link Eq (Eval.freshToken (σ := σ)) Eval.freshToken := by
  intro before before' linked
  have same := transparent.state linked
  have updated := transparent.update before.host before.cancelled (before.nextToken + 1) linked
  rw [Eval.runFrom_freshToken, Eval.runFrom_freshToken, ← same.host, ← same.cancelled,
    ← same.nextToken]
  exact ⟨.ok rfl, updated⟩

end Steps

end Simulates

/-- Evaluations that come to the same outcome and leave everything behind in the same state. -/
def SameEnding (first second : Except Error Value × Run σ) : Prop :=
  first.1 = second.1 ∧ SameState first.2 second.2

namespace SameEnding

variable {first second third : Except Error Value × Run σ}

theorem symm (same : SameEnding first second) : SameEnding second first :=
  ⟨same.1.symm, same.2.symm⟩

theorem trans (same : SameEnding first second) (same' : SameEnding second third) :
    SameEnding first third :=
  ⟨same.1.trans same'.1, same.2.trans same'.2⟩

end SameEnding

theorem Simulates.sameEnding {first second : Eval σ Value}
    (simulates : Simulates SameState Eq first second) (run : Run σ) :
    SameEnding (first.runFrom run) (second.runFrom run) := by
  have ⟨outcomes, states⟩ := simulates (SameState.refl run)
  exact ⟨sameOutcome_eq_iff.mp outcomes, states⟩

/-! ## Programs and their arguments -/

/-- A program that is carried out from the run asks for the argument, and this is the moment. -/
inductive Eval.Asks {α : Type} (thunks : List (Eval σ Value)) (mode : Mode) (index : Nat)
    (moment : Run σ) : Program σ (Except Error α) → Run σ → Prop
  | now {next : Except Error Value → Program σ (Except Error α)} {run : Run σ}
      (same : run.record (.forced index) = moment) :
      Asks thunks mode index moment (.argument index next) run
  | later {other : Nat} {next : Except Error Value → Program σ (Except Error α)} {run : Run σ}
      (rest : Asks thunks mode index moment
        (next ((thunk thunks other).runFrom (run.record (.forced other))).1)
        ((thunk thunks other).runFrom (run.record (.forced other))).2) :
      Asks thunks mode index moment (.argument other next) run
  | readState {next : σ → Program σ (Except Error α)} {run : Run σ}
      (rest : Asks thunks mode index moment (next run.host) run) :
      Asks thunks mode index moment (.readState next) run
  | writeState {state : σ} {next : Program σ (Except Error α)} {run : Run σ}
      (rest : Asks thunks mode index moment next { run with host := state }) :
      Asks thunks mode index moment (.writeState state next) run
  | cancel {next : Program σ (Except Error α)} {run : Run σ}
      (rest : Asks thunks mode index moment next (run.cancelMode mode)) :
      Asks thunks mode index moment (.cancel next) run
  | isCancelled {next : Bool → Program σ (Except Error α)} {run : Run σ}
      (rest : Asks thunks mode index moment (next (run.isModeCancelled mode)) run) :
      Asks thunks mode index moment (.isCancelled next) run

section Programs

variable {α : Type} {link : Run σ → Run σ → Prop} (transparent : Transparent link)
include transparent

/-- In one mode even a program that looks at its token cannot tell the runs apart, and of its
arguments only those that it asks for matter. -/
theorem SimulatesAt.perform {thunks thunks' : List (Eval σ Value)} {mode : Mode}
    {program : Program σ (Except Error α)} {run run' : Run σ} (linked : link run run')
    (asked : ∀ {index moment moment'}, Eval.Asks thunks mode index moment program run →
      link moment moment' →
        SimulatesAt link Eq (Eval.thunk thunks index) (Eval.thunk thunks' index) moment moment') :
    SimulatesAt link Eq (ExceptT.mk (Eval.perform thunks mode program))
      (ExceptT.mk (Eval.perform thunks' mode program)) run run' := by
  induction program generalizing run run' with
  | done result => exact ⟨sameOutcome_eq_iff.mpr rfl, linked⟩
  | argument index next ih =>
      have ⟨outcomes, forced⟩ := asked (.now rfl) (transparent.record (.forced index) linked)
      rw [sameOutcome_eq_iff] at outcomes
      unfold SimulatesAt
      rw [Eval.runFrom_argument, Eval.runFrom_argument, ← outcomes]
      exact ih _ forced fun asks => asked (.later asks)
  | readState next ih =>
      unfold SimulatesAt
      rw [Eval.runFrom_readState, Eval.runFrom_readState, ← (transparent.state linked).host]
      exact ih _ linked fun asks => asked (.readState asks)
  | writeState state next ih =>
      exact ih (transparent.write linked state) fun asks => asked (.writeState asks)
  | cancel next ih =>
      exact ih (transparent.cancelMode linked mode) fun asks => asked (.cancel asks)
  | isCancelled next ih =>
      unfold SimulatesAt
      rw [Eval.runFrom_isCancelled, Eval.runFrom_isCancelled,
        ← (transparent.state linked).isModeCancelled mode]
      exact ih _ linked fun asks => asked (.isCancelled asks)

theorem Simulates.perform_nil (mode : Mode) (program : Program σ (Except Error α)) :
    Simulates link Eq (ExceptT.mk (Eval.perform [] mode program))
      (ExceptT.mk (Eval.perform [] mode program)) :=
  fun _ _ linked =>
    SimulatesAt.perform transparent linked fun _ linked => Simulates.throw _ linked

end Programs

/-! ## Names and bodies -/

namespace Configuration

section Steps

variable {link : Run σ → Run σ → Prop} (transparent : Transparent link)
  {configuration first second : Configuration σ}
include transparent

theorem simulates_resolveConstant_self (name : String) :
    Simulates link Eq (configuration.resolveConstant name)
      (configuration.resolveConstant name) := by
  intro before before' linked
  rw [runFrom_resolveConstant, runFrom_resolveConstant, ← (transparent.state linked).host]
  cases configuration.provider with
  | none => exact ⟨.ok rfl, linked⟩
  | some provider =>
      exact ⟨.ok rfl, transparent.write (transparent.record (.lookup name) linked) _⟩

/-- The asynchronous provider is the same, and what is done where it has no answer is alike. -/
theorem simulates_resolveIdentifier_of_constant
    (sameProvider : first.asyncProvider = second.asyncProvider) {name : String}
    (constant : Simulates link Eq (first.resolveConstant name) (second.resolveConstant name))
    (mode : Mode) :
    Simulates link Eq (first.resolveIdentifier name mode) (second.resolveIdentifier name mode) := by
  cases mode with
  | sync => exact constant
  | async token =>
      simp only [resolveIdentifier, ← sameProvider]
      cases first.asyncProvider with
      | none => exact constant
      | some provider =>
          refine (Simulates.record transparent _).bind fun _ _ _ => ?_
          refine (Simulates.perform_nil transparent _ _).bind ?_
          rintro found _ rfl
          cases found with
          | none => exact constant
          | some value => exact Simulates.pure rfl

theorem simulates_bodyMode_self (isAsync : Bool) (mode : Mode) :
    Simulates link Eq (bodyMode (σ := σ) isAsync mode) (bodyMode isAsync mode) := by
  cases mode with
  | async token => exact Simulates.pure rfl
  | sync =>
      cases isAsync with
      | false => exact Simulates.pure rfl
      | true =>
          refine (Simulates.freshToken transparent).bind ?_
          rintro token _ rfl
          exact Simulates.pure rfl

end Steps

end Configuration

end Formula

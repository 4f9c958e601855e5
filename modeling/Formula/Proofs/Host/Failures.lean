import Formula.Host.Program
import Formula.Proofs.Outcome

/-!
# Errors of host programs

The errors that may come out of a computation are given as a predicate.  A program passes on the
errors of its arguments, so it is judged by what it does with arguments whose errors are allowed.
-/

namespace Formula

variable {σ α β : Type} {allowed : Error → Prop}

/-! ## Programs -/

/-- Every result of the program is good as long as all errors of its arguments are allowed. -/
inductive Program.Yields (allowed : Error → Prop) (good : α → Prop) : Program σ α → Prop
  | done {result : α} (isGood : good result) : Yields allowed good (.done result)
  | argument {index : Nat} {next : Except Error Value → Program σ α}
      (rest : ∀ value, FailsWithin allowed value → (next value).Yields allowed good) :
      Yields allowed good (.argument index next)
  | readState {next : σ → Program σ α} (rest : ∀ state, (next state).Yields allowed good) :
      Yields allowed good (.readState next)
  | writeState (state : σ) {next : Program σ α} (rest : next.Yields allowed good) :
      Yields allowed good (.writeState state next)
  | cancel {next : Program σ α} (rest : next.Yields allowed good) :
      Yields allowed good (.cancel next)
  | isCancelled {next : Bool → Program σ α}
      (rest : ∀ cancelled, (next cancelled).Yields allowed good) :
      Yields allowed good (.isCancelled next)

theorem Program.Yields.bind {good : α → Prop} {good' : β → Prop} {program : Program σ α}
    {next : α → Program σ β} (yields : program.Yields allowed good)
    (rest : ∀ result, good result → (next result).Yields allowed good') :
    (program.bind next).Yields allowed good' := by
  induction yields with
  | done isGood => exact rest _ isGood
  | argument _ ih => exact .argument ih
  | readState _ ih => exact .readState ih
  | writeState state _ ih => exact .writeState state ih
  | cancel _ ih => exact .cancel ih
  | isCancelled _ ih => exact .isCancelled ih

namespace Procedure

def FailsWithin (allowed : Error → Prop) (procedure : Procedure σ α) : Prop :=
  procedure.run.Yields allowed (Formula.FailsWithin allowed)

namespace FailsWithin

theorem ofExcept {outcome : Except Error α} (within : Formula.FailsWithin allowed outcome) :
    FailsWithin allowed (ExceptT.mk (pure outcome) : Procedure σ α) :=
  Program.Yields.done within

theorem pure (result : α) : FailsWithin allowed (Pure.pure result : Procedure σ α) :=
  ofExcept (.ok result)

theorem throw {error : Error} (isAllowed : allowed error) :
    FailsWithin allowed (MonadExcept.throw error : Procedure σ α) :=
  ofExcept (.error isAllowed)

theorem bind {procedure : Procedure σ α} {next : α → Procedure σ β}
    (within : procedure.FailsWithin allowed)
    (rest : ∀ result, (next result).FailsWithin allowed) :
    FailsWithin allowed (procedure >>= next) := by
  refine Program.Yields.bind within fun outcome outcomeWithin => ?_
  cases outcome with
  | ok result => exact rest result
  | error error => exact .done (.error (outcomeWithin error rfl))

theorem mapM {items : List β} {procedure : β → Procedure σ α}
    (within : ∀ item, (procedure item).FailsWithin allowed) :
    FailsWithin allowed (items.mapM procedure) := by
  induction items with
  | nil => exact pure []
  | cons item items ih =>
      rw [List.mapM_cons]
      exact (within item).bind fun _ => ih.bind fun _ => pure _

end FailsWithin

end Procedure

/-! ## Arguments

An argument fails with its own error, or because the call has fewer arguments. -/

namespace Arguments

variable (notSupplied : ∀ index supplied, allowed (.invalidArgument (.notSupplied index supplied)))
include notSupplied

theorem attempt_yields (arguments : Arguments) (index : Nat) :
    (arguments.attempt index : Procedure σ _).run.Yields allowed
      fun result => ∃ outcome, result = .ok outcome ∧ FailsWithin allowed outcome := by
  cases arguments with
  | eager values =>
      simp only [attempt]
      split
      · exact .done ⟨_, rfl, .ok _⟩
      · exact .done ⟨_, rfl, .error (notSupplied _ _)⟩
  | lazy empty =>
      simp only [attempt]
      split
      · exact .argument fun value within => .done ⟨value, rfl, within⟩
      · exact .done ⟨_, rfl, .error (notSupplied _ _)⟩

theorem get_failsWithin (arguments : Arguments) (index : Nat) :
    (arguments.get index : Procedure σ _).FailsWithin allowed := by
  refine (attempt_yields notSupplied arguments index).bind ?_
  rintro _ ⟨outcome, rfl, within⟩
  cases outcome with
  | ok value => exact Procedure.FailsWithin.pure value
  | error error => exact Procedure.FailsWithin.throw (within error rfl)

theorem values_failsWithin (arguments : Arguments) :
    (arguments.values : Procedure σ _).FailsWithin allowed :=
  .mapM (get_failsWithin notSupplied arguments)

end Arguments

end Formula

import Formula.Host.Program

/-!
# Programs that leave the token alone

What a program built from the arguments of its call and the state of the host never does is look at
the token or cancel it.
-/

namespace Formula

variable {σ α β : Type}

inductive Program.IgnoresToken : Program σ α → Prop
  | done (result : α) : IgnoresToken (.done result)
  | argument {index : Nat} {next : Except Error Value → Program σ α}
      (rest : ∀ value, (next value).IgnoresToken) : IgnoresToken (.argument index next)
  | readState {next : σ → Program σ α} (rest : ∀ state, (next state).IgnoresToken) :
      IgnoresToken (.readState next)
  | writeState (state : σ) {next : Program σ α} (rest : next.IgnoresToken) :
      IgnoresToken (.writeState state next)

theorem Program.IgnoresToken.bind {program : Program σ α} {next : α → Program σ β}
    (ignores : program.IgnoresToken) (rest : ∀ result, (next result).IgnoresToken) :
    (program.bind next).IgnoresToken := by
  induction ignores with
  | done result => exact rest result
  | argument _ ih => exact .argument ih
  | readState _ ih => exact .readState ih
  | writeState state _ ih => exact .writeState state ih

namespace Procedure

def IgnoresToken (procedure : Procedure σ α) : Prop :=
  procedure.run.IgnoresToken

namespace IgnoresToken

theorem pure (result : α) : IgnoresToken (Pure.pure result : Procedure σ α) :=
  Program.IgnoresToken.done (Except.ok result)

theorem throw (error : Error) : IgnoresToken (MonadExcept.throw error : Procedure σ α) :=
  Program.IgnoresToken.done (Except.error error)

theorem bind {procedure : Procedure σ α} {next : α → Procedure σ β}
    (ignores : procedure.IgnoresToken) (rest : ∀ result, (next result).IgnoresToken) :
    IgnoresToken (procedure >>= next) := by
  refine Program.IgnoresToken.bind ignores fun outcome => ?_
  cases outcome with
  | ok result => exact rest result
  | error error => exact .done (Except.error error)

theorem mapM {items : List β} {procedure : β → Procedure σ α}
    (ignores : ∀ item, (procedure item).IgnoresToken) : IgnoresToken (items.mapM procedure) := by
  induction items with
  | nil => exact pure []
  | cons item items ih =>
      rw [List.mapM_cons]
      exact (ignores item).bind fun _ => ih.bind fun _ => pure _

end IgnoresToken

end Procedure

namespace Arguments

theorem attempt_ignoresToken (arguments : Arguments) (index : Nat) :
    (arguments.attempt index : Procedure σ _).IgnoresToken := by
  cases arguments with
  | eager values =>
      simp only [attempt]
      split
      · exact .pure _
      · exact .pure _
  | lazy empty =>
      simp only [attempt]
      split
      · exact .argument fun _ => .done _
      · exact .pure _

theorem get_ignoresToken (arguments : Arguments) (index : Nat) :
    (arguments.get index : Procedure σ _).IgnoresToken := by
  refine (attempt_ignoresToken arguments index).bind fun outcome => ?_
  cases outcome with
  | ok value => exact .pure value
  | error error => exact .throw error

theorem values_ignoresToken (arguments : Arguments) :
    (arguments.values : Procedure σ _).IgnoresToken :=
  .mapM (get_ignoresToken arguments)

end Arguments

end Formula

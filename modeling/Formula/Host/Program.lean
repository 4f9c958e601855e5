import Formula.Error
import Formula.Value

/-!
# Host programs

The body of a host function is a program: it may ask for the arguments of its call, read and write
the state of the host, and look at or cancel the token that an asynchronous body receives.  What it
does is data, so an evaluator carries it out step by step.
-/

namespace Formula

/-- An argument that fails gives its error to the program, which need not pass it on. -/
inductive Program (σ α : Type) where
  | done (result : α)
  | argument (index : Nat) (next : Except Error Value → Program σ α)
  | readState (next : σ → Program σ α)
  | writeState (state : σ) (next : Program σ α)
  | cancel (next : Program σ α)
  | isCancelled (next : Bool → Program σ α)

namespace Program

variable {σ α β : Type}

def bind : Program σ α → (α → Program σ β) → Program σ β
  | .done result, rest => rest result
  | .argument index next, rest => .argument index fun value => (next value).bind rest
  | .readState next, rest => .readState fun state => (next state).bind rest
  | .writeState state next, rest => .writeState state (next.bind rest)
  | .cancel next, rest => .cancel (next.bind rest)
  | .isCancelled next, rest => .isCancelled fun cancelled => (next cancelled).bind rest

theorem bind_assoc {γ : Type} (program : Program σ α) (first : α → Program σ β)
    (second : β → Program σ γ) :
    (program.bind first).bind second = program.bind fun result => (first result).bind second := by
  induction program with
  | done result => rfl
  | argument index next ih => simp only [bind, ih]
  | readState next ih => simp only [bind, ih]
  | writeState state next ih => simp only [bind, ih]
  | cancel next ih => simp only [bind, ih]
  | isCancelled next ih => simp only [bind, ih]

theorem bind_done (program : Program σ α) : program.bind .done = program := by
  induction program with
  | done result => rfl
  | argument index next ih => simp only [bind, ih]
  | readState next ih => simp only [bind, ih]
  | writeState state next ih => simp only [bind, ih]
  | cancel next ih => simp only [bind, ih]
  | isCancelled next ih => simp only [bind, ih]

instance : Monad (Program σ) where
  pure := .done
  bind := bind

instance : LawfulMonad (Program σ) :=
  LawfulMonad.mk' (Program σ) bind_done (fun _ _ => rfl) bind_assoc

end Program

/-- A program that may fail. -/
abbrev Procedure (σ α : Type) := ExceptT Error (Program σ) α

namespace Procedure

variable {σ : Type}

def getState : Procedure σ σ :=
  ExceptT.lift (.readState .done)

def setState (state : σ) : Procedure σ Unit :=
  ExceptT.lift (.writeState state (.done ()))

def cancelToken : Procedure σ Unit :=
  ExceptT.lift (.cancel (.done ()))

/-- The argument at an index, or the error that came out of it. -/
def tryArgument (index : Nat) : Procedure σ (Except Error Value) :=
  ExceptT.lift (.argument index .done)

end Procedure

/-- Eager arguments are values.  Of lazy arguments a body sees at first only which are empty. -/
inductive Arguments where
  | eager (values : List Value)
  | lazy (empty : List Bool)

namespace Arguments

variable {σ : Type}

def count : Arguments → Nat
  | .eager values => values.length
  | .lazy empty => empty.length

/-- The outcome of an argument.  A lazy one is evaluated each time it is asked for. -/
def attempt (arguments : Arguments) (index : Nat) : Procedure σ (Except Error Value) :=
  match arguments with
  | .eager values =>
      match values[index]? with
      | some value => pure (.ok value)
      | none => pure (.error (.invalidArgument (.notSupplied index values.length)))
  | .lazy empty =>
      if index < empty.length then
        Procedure.tryArgument index
      else
        pure (.error (.invalidArgument (.notSupplied index empty.length)))

def get (arguments : Arguments) (index : Nat) : Procedure σ Value := do
  match ← arguments.attempt index with
  | .ok value => pure value
  | .error error => throw error

/-- All arguments in order, up to the first that fails. -/
def values (arguments : Arguments) : Procedure σ (List Value) :=
  (List.range arguments.count).mapM arguments.get

end Arguments

end Formula

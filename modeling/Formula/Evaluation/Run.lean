import Formula.Expr.Basic
import Formula.Host.Configuration

/-!
# Runs

An evaluation carries the state of the host, the cancelled tokens and a record of what it did: the
nodes it entered and the calls it made to the host.
-/

namespace Formula

/-- An asynchronous evaluation watches a token. -/
inductive Mode where
  | sync
  | async (token : Nat)
deriving DecidableEq, Repr

/-- Lookups are recorded only where there is a provider to ask. -/
inductive Event where
  | entered (node : Expr)
  | lookup (name : String)
  | asyncLookup (name : String) (token : Nat)
  | called (name : String) (mode : Mode)
  | forced (index : Nat)

/-- The events are the latest first, and `nextToken` is the number of a token not used before. -/
structure Run (σ : Type) where
  host : σ
  cancelled : List Nat
  nextToken : Nat
  events : List Event

namespace Run

variable {σ : Type}

/-- The token of the caller of an asynchronous evaluation. -/
def callerToken : Nat := 0

def start (host : σ) (cancelled : Bool) : Run σ where
  host := host
  cancelled := if cancelled then [callerToken] else []
  nextToken := callerToken + 1
  events := []

def isCancelled (run : Run σ) (token : Nat) : Bool :=
  run.cancelled.contains token

def record (event : Event) (run : Run σ) : Run σ :=
  { run with events := event :: run.events }

def cancel (token : Nat) (run : Run σ) : Run σ :=
  { run with cancelled := token :: run.cancelled }

def isModeCancelled (run : Run σ) : Mode → Bool
  | .sync => false
  | .async token => run.isCancelled token

def cancelMode : Mode → Run σ → Run σ
  | .sync, run => run
  | .async token, run => run.cancel token

end Run

abbrev Eval (σ α : Type) := ExceptT Error (StateM (Run σ)) α

namespace Eval

variable {σ α : Type}

def ofExcept (result : Except Error α) : Eval σ α :=
  ExceptT.mk (pure result)

def record (event : Event) : Eval σ Unit :=
  modify (Run.record event)

/-- A token that nothing has cancelled yet. -/
def freshToken : Eval σ Nat :=
  modifyGet fun run => (run.nextToken, { run with nextToken := run.nextToken + 1 })

/-- Carries out a program.  The thunks are the arguments it may ask for, and the mode holds the
token it may cancel. -/
def perform (thunks : List (Eval σ Value)) (mode : Mode) : Program σ α → StateM (Run σ) α
  | .done result => pure result
  | .argument index next => do
      modify (Run.record (.forced index))
      let thunk : Eval σ Value := thunks[index]?.getD
        (throw (.invalidArgument (.notSupplied index thunks.length)))
      perform thunks mode (next (← thunk.run))
  | .readState next => do perform thunks mode (next (← get).host)
  | .writeState state next => do
      modify fun run => { run with host := state }
      perform thunks mode next
  | .cancel next => do
      modify (Run.cancelMode mode)
      perform thunks mode next
  | .isCancelled next => do
      perform thunks mode (next ((← get).isModeCancelled mode))

def runProcedure (thunks : List (Eval σ Value)) (mode : Mode) (procedure : Procedure σ α) :
    Eval σ α :=
  ExceptT.mk (perform thunks mode procedure.run)

end Eval

end Formula

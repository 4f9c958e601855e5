import Formula.Host.Program
import Formula.Operators.Basic

/-!
# Configurations

A configuration says how expressions are read and what their names and operators mean.  Its own
constants and functions hide the generic ones of the same name.
-/

namespace Formula

/-- The part of a configuration that function bodies are shown. -/
structure Settings extends Environment where
  operators : Operators

def Settings.isTruthy (settings : Settings) (value : Value) : Bool :=
  settings.operators.isTruthy settings.toEnvironment value

abbrev Body (σ : Type) := Settings → Arguments → Procedure σ Value

/-- A function has a synchronous body, an asynchronous one, or both. -/
structure Function (σ : Type) where
  sync : Option (Body σ)
  async : Option (Body σ)
  isLazy : Bool

namespace Function

variable {σ : Type}

/-- An eager function with a synchronous body. -/
def ofBody (body : Body σ) : Function σ := ⟨some body, none, false⟩

/-- Whether each body exists, and whether arguments are lazy. -/
def summary (function : Function σ) : String :=
  let sync := function.sync.isSome
  let async := function.async.isSome
  let isLazy := function.isLazy
  "EvalFunction \x7b " ++ s!"sync: {sync}, async: {async}, lazy: {isLazy}" ++ " \x7d"

end Function

/-- Providers are asked for identifiers before the tables of constants.  An asynchronous provider is
a program, which has no arguments to ask for. -/
structure Configuration (σ : Type) extends Settings where
  functions : Table (Function σ)
  genericFunctions : Table (Function σ)
  provider : Option (String → σ → Option Value × σ)
  asyncProvider : Option (String → Procedure σ (Option Value))

namespace Configuration

variable {σ : Type}

def function? (configuration : Configuration σ) (name : String) : Option (Function σ) :=
  configuration.functions.lookup name <|> configuration.genericFunctions.lookup name

/-! ## Changing names

Each change hands back what the name stood for in the same table before. -/

def setConstant (configuration : Configuration σ) (name : String) (value : Value) :
    Option Value × Configuration σ :=
  let (previous, constants) := configuration.constants.replace name value
  (previous, { configuration with constants := constants })

def removeConstant (configuration : Configuration σ) (name : String) :
    Option Value × Configuration σ :=
  let (previous, constants) := configuration.constants.remove name
  (previous, { configuration with constants := constants })

def clearConstants (configuration : Configuration σ) : Configuration σ :=
  { configuration with constants := .empty }

def setGenericConstant (configuration : Configuration σ) (name : String) (value : Value) :
    Option Value × Configuration σ :=
  let (previous, constants) := configuration.genericConstants.replace name value
  (previous, { configuration with genericConstants := constants })

def removeGenericConstant (configuration : Configuration σ) (name : String) :
    Option Value × Configuration σ :=
  let (previous, constants) := configuration.genericConstants.remove name
  (previous, { configuration with genericConstants := constants })

def setFunction (configuration : Configuration σ) (name : String) (function : Function σ) :
    Option (Function σ) × Configuration σ :=
  let (previous, functions) := configuration.functions.replace name function
  (previous, { configuration with functions := functions })

def removeFunction (configuration : Configuration σ) (name : String) :
    Option (Function σ) × Configuration σ :=
  let (previous, functions) := configuration.functions.remove name
  (previous, { configuration with functions := functions })

def clearFunctions (configuration : Configuration σ) : Configuration σ :=
  { configuration with functions := .empty }

def setGenericFunction (configuration : Configuration σ) (name : String)
    (function : Function σ) : Option (Function σ) × Configuration σ :=
  let (previous, functions) := configuration.genericFunctions.replace name function
  (previous, { configuration with genericFunctions := functions })

def removeGenericFunction (configuration : Configuration σ) (name : String) :
    Option (Function σ) × Configuration σ :=
  let (previous, functions) := configuration.genericFunctions.remove name
  (previous, { configuration with genericFunctions := functions })

end Configuration

end Formula

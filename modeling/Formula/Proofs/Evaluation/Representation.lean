import Formula.Compiled
import Formula.Proofs.Evaluation.Contract
import Formula.Proofs.Operators.Representation

/-!
# The representation of a result

Where strings are out of play, an evaluation stays among null, truth values and numbers of the
configured type.  It starts from literals of that type and from what its identifiers stand for.
-/

namespace Formula.Configuration

variable {σ : Type} {configuration : Configuration σ} {expr : Expr}

open Value (OfType)

/-- Whatever state of the host an identifier of the expression is looked up in, it comes to a good
value.  The states are those that looking identifiers up can lead to. -/
def ResolvesWithin (configuration : Configuration σ) (reachable : σ → Prop) (good : Value → Prop)
    (expr : Expr) : Prop :=
  ∀ name position, .identifier name position ∈ expr.nodes → ∀ run : Run σ, reachable run.host →
    ∀ value after, (configuration.resolveIdentifier name .sync).runFrom run = (.ok value, after) →
      good value ∧ reachable after.host

/-- Values of the type, and errors of any kind. -/
def typing (type : NumericType) (reachable : σ → Prop) : Contract σ .sync where
  keeps run := reachable run.host
  good := OfType type
  fails _ _ := True
  record keeps _ := keeps
  null := .null
  cancelled _ _ := trivial

variable {reachable : σ → Prop}

theorem grants_typing {type : NumericType} {outcome : Except Error Value}
    (gives : Gives (OfType type) outcome) : (typing type reachable).Grants outcome where
  gives := gives
  fails _ _ _ := trivial

theorem allows_typing (operators : configuration.operators = .standard)
    (functions : configuration.HasStandardFunctions)
    (noString : ∀ content position, .string content position ∉ expr.nodes)
    (resolves : configuration.ResolvesWithin reachable
      (OfType configuration.conventions.numericType) expr)
    {node : Expr} (member : node ∈ expr.nodes) :
    (typing configuration.conventions.numericType reachable).Allows configuration node := by
  cases node with
  | number text position =>
      refine .number (grants_typing ?_)
      rw [operators]
      exact Operators.gives_convertToNumber text
  | string content position => exact absurd member (noString content position)
  | identifier name position =>
      exact .identifier fun run keeps =>
        ⟨resolves name position member run keeps, fun _ _ _ => trivial⟩
  | call name position arguments =>
      cases found : configuration.function? name with
      | none => exact .unknown found fun _ _ => trivial
      | some function =>
          obtain ⟨entry, standard, rfl⟩ := functions name function found
          exact .call found fun values ofValues =>
            grants_typing (Builtin.gives_of_mem ofValues standard)
  | operation operator position left right =>
      refine .operation fun left' right' _ ofLeft _ ofRight => grants_typing ?_
      rw [operators]
      exact Operators.gives_apply ofLeft ofRight operator

theorem ofType_of_evaluate (operators : configuration.operators = .standard)
    (functions : configuration.HasStandardFunctions)
    (noString : ∀ content position, .string content position ∉ expr.nodes)
    (resolves : configuration.ResolvesWithin reachable
      (OfType configuration.conventions.numericType) expr)
    {host : σ} (starts : reachable host) {value : Value}
    (evaluates : (configuration.evaluate expr host).1 = .ok value) :
    value.OfType configuration.conventions.numericType := by
  have ensures := Contract.covers expr (fun _ => allows_typing operators functions noString
    resolves) 0 (fun _ _ _ => trivial) (.start host false) starts
  exact (ensures.1 value _ (Prod.ext evaluates rfl)).1

/-- The host gives out successive numbers. -/
def successive : Configuration Int64 :=
  { Configuration.ofType .int64 with
    provider := some fun name next =>
      (if name = "n" then some (.number (.int64 next)) else none, next + 1) }

theorem ofType_of_evaluate_successive :
    let expr : Expr := .operation "*" 10
      (some (.call "MAX" 0 [some (.identifier "n" 4), some (.number "3" 7)]))
      (some (.operation "!" 13 (some (.identifier "n" 12)) none))
    (successive.evaluate expr 4).1 = .ok (.number (.int64 480)) ∧
      Value.OfType .int64 (.number (.int64 480)) := by
  intro expr
  have evaluates : (successive.evaluate expr 4).1 = .ok (.number (.int64 480)) := by rfl
  have noString (content : String) (position : Nat) : .string content position ∉ expr.nodes := by
    simp [expr, Expr.nodes, Expr.operandNodes, Expr.argumentNodes]
  have resolves : successive.ResolvesWithin (fun _ => True) (OfType .int64) expr := by
    intro name position member run _ value after resolved
    have isGiven : name = "n" := by
      simp [expr, Expr.nodes, Expr.operandNodes, Expr.argumentNodes] at member
      grind
    subst isGiven
    rw [resolveIdentifier, runFrom_resolveConstant] at resolved
    cases resolved
    exact ⟨.number rfl, trivial⟩
  exact ⟨evaluates, ofType_of_evaluate rfl (hasStandardFunctions rfl rfl) noString resolves
    trivial evaluates⟩

end Formula.Configuration

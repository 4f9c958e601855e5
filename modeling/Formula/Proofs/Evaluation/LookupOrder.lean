import Formula.Proofs.Evaluation.Consultation
import Formula.Proofs.Expr.Nodes

/-!
# The order of lookups

Where every function is eager, a walk comes to the identifiers in the order in which the expression
lists its variables.  An error breaks it off, so the provider is asked for the first of them, and an
operator that its left operand decides leaves some out.
-/

namespace Formula

open scoped List

variable {σ α β : Type}

/-! ## Names that a provider is asked for -/

/-- The name that the event asks the provider of the mode for. -/
def Mode.askedName : Mode → Event → Option String
  | .sync, .lookup name => some name
  | .async _, .asyncLookup name _ => some name
  | _, _ => none

namespace Run

/-- The names that the provider of the mode has been asked for, in order. -/
def asked (mode : Mode) (run : Run σ) : List String :=
  run.history.filterMap mode.askedName

theorem asked_record (mode : Mode) (event : Event) (run : Run σ) :
    (run.record event).asked mode = run.asked mode ++ (mode.askedName event).toList := by
  simp only [asked, history, record, List.reverse_cons, List.filterMap_append,
    List.filterMap_cons, List.filterMap_nil]
  cases mode.askedName event with
  | none | some name => rfl

end Run

/-- How what was asked for compares with the names that there are.  The order is kept; nothing is
left out on the way if the walk is direct, and nothing at all if it succeeds as well. -/
structure InOrder (direct : Prop) (names asked : List String) (outcome : Except Error α) :
    Prop where
  sublist : asked <+ names
  isPrefix : direct → asked <+: names
  whole : direct → ∀ result, outcome = .ok result → asked = names

namespace InOrder

variable {direct : Prop} {names names' asked asked' : List String}

theorem nil (outcome : Except Error α) : InOrder direct [] [] outcome :=
  ⟨.slnil, fun _ => List.prefix_rfl, fun _ _ _ => rfl⟩

theorem singleton (name : String) (outcome : Except Error α) :
    InOrder direct [name] [name] outcome :=
  ⟨.refl _, fun _ => List.prefix_rfl, fun _ _ _ => rfl⟩

theorem brokenOff {error : Error}
    (inOrder : InOrder direct names asked (.error error : Except _ α)) :
    InOrder direct (names ++ names') asked (.error error : Except _ β) where
  sublist := inOrder.sublist.trans (List.sublist_append_left _ _)
  isPrefix isDirect := (inOrder.isPrefix isDirect).trans (List.prefix_append _ _)
  whole := nofun

theorem append {result : α} {outcome : Except Error β}
    (inOrder : InOrder direct names asked (.ok result : Except _ α))
    (inOrder' : InOrder direct names' asked' outcome) :
    InOrder direct (names ++ names') (asked ++ asked') outcome where
  sublist := inOrder.sublist.append inOrder'.sublist
  isPrefix isDirect := by
    rw [inOrder.whole isDirect result rfl]
    exact (List.prefix_append_right_inj names).mpr (inOrder'.isPrefix isDirect)
  whole isDirect result' succeeds := by
    rw [inOrder.whole isDirect result rfl, inOrder'.whole isDirect result' succeeds]

theorem failed (error : Error) : InOrder direct names [] (.error error : Except _ α) :=
  ⟨List.nil_sublist _, fun _ => List.nil_prefix, nofun⟩

theorem skipped (indirect : ¬ direct) (outcome : Except Error α) :
    InOrder direct names [] outcome :=
  ⟨List.nil_sublist _, fun isDirect => absurd isDirect indirect,
    fun isDirect => absurd isDirect indirect⟩

end InOrder

/-! ## Computations that ask in order -/

/-- From any run on, the provider of the mode is asked for the names in order. -/
def AsksInOrder (mode : Mode) (direct : Prop) (names : List String) (computation : Eval σ α) :
    Prop :=
  ∀ run, ∃ asked, (computation.runFrom run).2.asked mode = run.asked mode ++ asked ∧
    InOrder direct names asked (computation.runFrom run).1

namespace AsksInOrder

variable {mode : Mode} {direct : Prop} {names names' : List String}

theorem quiet {computation : Eval σ α}
    (silent : ∀ run, (computation.runFrom run).2.asked mode = run.asked mode) :
    AsksInOrder mode direct [] computation :=
  fun run => ⟨[], by rw [silent, List.append_nil], .nil _⟩

theorem pure (result : α) : AsksInOrder mode direct [] (Pure.pure result : Eval σ α) :=
  quiet fun _ => rfl

theorem throw (error : Error) :
    AsksInOrder mode direct names (MonadExcept.throw error : Eval σ α) :=
  fun _ => ⟨[], (List.append_nil _).symm, .failed _⟩

theorem ofExcept (outcome : Except Error α) :
    AsksInOrder mode direct [] (Eval.ofExcept outcome : Eval σ α) :=
  quiet fun _ => rfl

theorem skipped (indirect : ¬ direct) (result : α) :
    AsksInOrder mode direct names (Pure.pure result : Eval σ α) :=
  fun _ => ⟨[], (List.append_nil _).symm, .skipped indirect _⟩

theorem record {event : Event} (unasked : mode.askedName event = none) :
    AsksInOrder mode direct [] (Eval.record event : Eval σ Unit) := by
  refine quiet fun run => ?_
  rw [Eval.runFrom_record, Run.asked_record, unasked]
  exact List.append_nil _

theorem bind {first : Eval σ α} {next : α → Eval σ β}
    (asks : AsksInOrder mode direct names first)
    (rest : ∀ result, AsksInOrder mode direct names' (next result)) :
    AsksInOrder mode direct (names ++ names') (first >>= next) := by
  intro run
  obtain ⟨asked, reached, inOrder⟩ := asks run
  rw [Eval.runFrom_bind]
  generalize first.runFrom run = between at reached inOrder ⊢
  obtain ⟨outcome, after⟩ := between
  cases outcome with
  | error error => exact ⟨asked, reached, inOrder.brokenOff⟩
  | ok result =>
      obtain ⟨asked', reached', inOrder'⟩ := rest result after
      refine ⟨asked ++ asked', ?_, inOrder.append inOrder'⟩
      rw [reached', reached, List.append_assoc]

theorem bind_quiet {first : Eval σ α} {next : α → Eval σ β}
    (asks : AsksInOrder mode direct names first)
    (rest : ∀ result, AsksInOrder mode direct [] (next result)) :
    AsksInOrder mode direct names (first >>= next) := by
  simpa using asks.bind rest

/-- A program without arguments asks no provider. -/
theorem perform_nil (mode' : Mode) (program : Program σ (Except Error α)) :
    AsksInOrder mode direct [] (ExceptT.mk (Eval.perform [] mode' program)) := by
  refine quiet fun run => ?_
  induction program generalizing run with
  | done result => rfl
  | argument index next ih =>
      rw [Eval.runFrom_argument, ih]
      change (run.record (.forced index)).asked mode = _
      rw [Run.asked_record]
      cases mode with
      | sync | async => exact List.append_nil _
  | readState next ih => exact ih run.host run
  | writeState state next ih => exact ih { run with host := state }
  | cancel next ih =>
      rw [Eval.runFrom_cancel, ih]
      cases mode' with
      | sync | async => rfl
  | isCancelled next ih => exact ih _ run

end AsksInOrder

/-! ## The walk -/

theorem Operators.decides_eq_false {operators : Operators} {environment : Environment}
    {operator : String} (notAnd : operator ≠ "&&") (notOr : operator ≠ "||") (left : Value) :
    operators.decides environment operator left = false := by
  unfold decides
  split
  · exact absurd rfl notAnd
  · exact absurd rfl notOr
  · rfl

/-- No operator in the expression may be decided by its left operand. -/
def Expr.IsDirect (expr : Expr) : Prop :=
  ∀ operator position left right, .operation operator position left right ∈ expr.nodes →
    operator ≠ "&&" ∧ operator ≠ "||"

theorem Expr.IsDirect.mono {expr part : Expr} (isDirect : expr.IsDirect)
    (within : part.nodes ⊆ expr.nodes) : part.IsDirect :=
  fun operator position left right member => isDirect operator position left right (within member)

def Expr.variableNames (expr : Expr) : List String :=
  expr.variableUses.map Prod.fst

namespace Configuration

/-- The functions that the expression calls are eager. -/
def CallsEagerly (configuration : Configuration σ) (expr : Expr) : Prop :=
  ∀ name position arguments function, .call name position arguments ∈ expr.nodes →
    configuration.function? name = some function → function.isLazy = false

theorem CallsEagerly.mono {configuration : Configuration σ} {expr part : Expr}
    (eager : configuration.CallsEagerly expr) (within : part.nodes ⊆ expr.nodes) :
    configuration.CallsEagerly part :=
  fun name position arguments function member => eager name position arguments function
    (within member)

def HasProvider (configuration : Configuration σ) : Mode → Prop
  | .sync => configuration.provider.isSome = true
  | .async _ => configuration.asyncProvider.isSome = true

variable {configuration : Configuration σ} {mode : Mode} {direct : Prop}

theorem asksInOrder_enter (node : Expr) (depth : Nat) :
    AsksInOrder mode direct [] (configuration.enter node mode depth) := by
  have entered (run : Run σ) : (run.record (.entered node)).asked mode = run.asked mode := by
    rw [Run.asked_record]
    cases mode with
    | sync | async => exact List.append_nil _
  refine AsksInOrder.quiet fun run => ?_
  rw [runFrom_enter]
  split
  · rfl
  · split
    · exact entered run
    · exact entered run

theorem asksInOrder_bodyMode (isAsync : Bool) (mode' : Mode) :
    AsksInOrder mode direct [] (bodyMode isAsync mode' : Eval σ Mode) := by
  cases mode' with
  | async token => exact .pure _
  | sync =>
      cases isAsync with
      | false => exact .pure _
      | true => exact .quiet fun _ => rfl

theorem asksInOrder_runBody (name : String) (mode' : Mode) (body : Body σ) (arguments : Arguments) :
    AsksInOrder mode direct [] (configuration.runBody name mode' [] body arguments) := by
  have called : mode.askedName (.called name mode') = none := by
    cases mode with
    | sync | async => rfl
  exact (AsksInOrder.record called).bind fun _ => .perform_nil mode' _

/-- What the asynchronous provider does not know is asked of the other one. -/
theorem asksInOrder_resolveConstant_async (token : Nat) (name : String) :
    AsksInOrder (.async token) direct [] (configuration.resolveConstant name) := by
  refine AsksInOrder.quiet fun run => ?_
  rw [runFrom_resolveConstant]
  cases configuration.provider with
  | none => rfl
  | some provider =>
      exact (Run.asked_record (.async token) (.lookup name) run).trans (List.append_nil _)

theorem asksInOrder_resolveIdentifier (hasProvider : configuration.HasProvider mode)
    (name : String) :
    AsksInOrder mode direct [name] (configuration.resolveIdentifier name mode) := by
  cases mode with
  | sync =>
      obtain ⟨provider, given⟩ := Option.isSome_iff_exists.mp hasProvider
      intro run
      simp only [resolveIdentifier, runFrom_resolveConstant, given]
      exact ⟨[name], Run.asked_record .sync (.lookup name) run, .singleton name _⟩
  | async token =>
      obtain ⟨provider, given⟩ := Option.isSome_iff_exists.mp hasProvider
      have asks : AsksInOrder (.async token) direct [name]
          (Eval.record (σ := σ) (.asyncLookup name token)) :=
        fun run => ⟨[name], Run.asked_record _ _ run, .singleton name _⟩
      simp only [resolveIdentifier, given]
      refine asks.bind_quiet fun _ => (AsksInOrder.perform_nil _ _).bind fun found => ?_
      cases found with
      | none => exact asksInOrder_resolveConstant_async token name
      | some value => exact .pure value

variable (configuration mode direct) in
/-- The walk over the expression asks for its variables in order, at every depth. -/
def WalksInOrder (expr : Expr) : Prop :=
  ∀ depth, AsksInOrder mode direct expr.variableNames (configuration.eval expr mode depth)

theorem asksInOrder_evalOperand {operand : Option Expr}
    (walks : ∀ expr, some expr = operand → configuration.WalksInOrder mode direct expr)
    (depth : Nat) :
    AsksInOrder mode direct ((Expr.variableUsesOfOperand operand).map Prod.fst)
      (configuration.evalOperand operand mode depth) := by
  cases operand with
  | none => exact .pure none
  | some expr => exact (walks expr rfl depth).bind_quiet fun _ => .pure _

theorem asksInOrder_evalArguments {arguments : List (Option Expr)}
    (walks : ∀ expr, some expr ∈ arguments → configuration.WalksInOrder mode direct expr)
    (depth : Nat) :
    AsksInOrder mode direct ((Expr.variableUsesOfArguments arguments).map Prod.fst)
      (configuration.evalArguments arguments mode depth) := by
  induction arguments with
  | nil => exact .pure []
  | cons argument arguments ih =>
      have first : ∀ expr, some expr = argument → configuration.WalksInOrder mode direct expr :=
        fun expr same => walks expr (by simp [same])
      unfold evalArguments
      rw [Expr.variableUsesOfArguments, List.map_append]
      refine (asksInOrder_evalOperand first depth).bind fun _ => ?_
      exact (ih fun expr member => walks expr (.tail _ member)).bind_quiet fun _ => .pure _

theorem walksInOrder_call {name : String} {position : Nat} {arguments : List (Option Expr)}
    (eager : ∀ function, configuration.function? name = some function → function.isLazy = false)
    (walks : ∀ expr, some expr ∈ arguments → configuration.WalksInOrder mode direct expr) :
    configuration.WalksInOrder mode direct (.call name position arguments) := by
  intro depth
  unfold eval
  refine (asksInOrder_enter _ depth).bind fun _ => ?_
  unfold resolveFunction
  cases found : configuration.function? name with
  | none => exact AsksInOrder.throw _
  | some function =>
      simp only [pure_bind]
      cases selected : selectBody function mode with
      | none => exact AsksInOrder.throw _
      | some chosen =>
          simp only [eager function found, Bool.false_eq_true, ↓reduceIte]
          refine (asksInOrder_evalArguments walks _).bind_quiet fun values => ?_
          refine (asksInOrder_bodyMode _ mode).bind fun body => ?_
          exact asksInOrder_runBody name body _ _

theorem walksInOrder (hasProvider : configuration.HasProvider mode) {expr : Expr}
    (eager : configuration.CallsEagerly expr) (isDirect : direct → expr.IsDirect) :
    configuration.WalksInOrder mode direct expr := by
  induction expr using Expr.nestedInduction with
  | number text position =>
      intro depth
      unfold eval
      exact (asksInOrder_enter _ depth).bind fun _ => .ofExcept _
  | string content position =>
      intro depth
      unfold eval
      exact (asksInOrder_enter _ depth).bind fun _ => .pure _
  | identifier name position =>
      intro depth
      unfold eval
      exact (asksInOrder_enter _ depth).bind fun _ =>
        asksInOrder_resolveIdentifier hasProvider name
  | call name position arguments ih =>
      refine walksInOrder_call (fun function => eager name position arguments function
        (Expr.self_mem_nodes _)) fun expr member => ?_
      have within : expr.nodes ⊆ (Expr.call name position arguments).nodes :=
        fun node inside => Expr.mem_nodes_call_iff.mpr (.inr ⟨expr, member, inside⟩)
      exact ih expr member (eager.mono within) fun asked => (isDirect asked).mono within
  | operation operator position left right ihLeft ihRight =>
      have walksLeft : ∀ expr, some expr = left → configuration.WalksInOrder mode direct expr := by
        intro expr same
        have within : expr.nodes ⊆ (Expr.operation operator position left right).nodes :=
          fun node inside => Expr.mem_nodes_operation_iff.mpr (.inr (.inl ⟨expr, same, inside⟩))
        exact ihLeft expr same (eager.mono within) fun asked => (isDirect asked).mono within
      have walksRight : ∀ expr, some expr = right →
          configuration.WalksInOrder mode direct expr := by
        intro expr same
        have within : expr.nodes ⊆ (Expr.operation operator position left right).nodes :=
          fun node inside => Expr.mem_nodes_operation_iff.mpr (.inr (.inr ⟨expr, same, inside⟩))
        exact ihRight expr same (eager.mono within) fun asked => (isDirect asked).mono within
      intro depth
      unfold eval
      rw [Expr.variableNames, Expr.variableUses, List.map_append]
      refine (asksInOrder_enter _ depth).bind fun _ => ?_
      refine (asksInOrder_evalOperand walksLeft _).bind fun value => ?_
      split
      -- The right operand is left out, so the operator is one of the two that a value decides.
      · next decided given =>
          refine .skipped (fun asked => ?_) decided
          have ⟨notAnd, notOr⟩ :=
            isDirect asked operator position left right (Expr.self_mem_nodes _)
          obtain ⟨-, decides⟩ := Option.filter_eq_some_iff.mp given
          rw [Operators.decides_eq_false notAnd notOr] at decides
          cases decides
      · exact (asksInOrder_evalOperand walksRight _).bind_quiet fun _ => .ofExcept _

/-- The synchronous provider in a synchronous evaluation, and the asynchronous one in an
asynchronous evaluation, is asked for the variables in the order in which these are listed. -/
theorem lookups_inOrder {expr : Expr} (eager : configuration.CallsEagerly expr) (host : σ) :
    (configuration.provider.isSome = true →
      InOrder expr.IsDirect expr.variableNames ((configuration.evaluate expr host).2.asked .sync)
        (configuration.evaluate expr host).1) ∧
    (configuration.asyncProvider.isSome = true → ∀ cancelled,
      InOrder expr.IsDirect expr.variableNames
        ((configuration.evaluateAsync expr host cancelled).2.asked (.async Run.callerToken))
        (configuration.evaluateAsync expr host cancelled).1) := by
  have walks (mode : Mode) (hasProvider : configuration.HasProvider mode) :
      configuration.WalksInOrder mode expr.IsDirect expr := walksInOrder hasProvider eager id
  refine ⟨fun hasProvider => ?_, fun hasProvider cancelled => ?_⟩
  · obtain ⟨asked, reached, inOrder⟩ :=
      walks .sync hasProvider 0 (.start host false)
    exact reached ▸ inOrder
  · obtain ⟨asked, reached, inOrder⟩ :=
      walks (.async Run.callerToken) hasProvider 0 (.start host cancelled)
    exact reached ▸ inOrder

/-- Both providers, and next to a lazy function an eager one with an asynchronous body only. -/
def listening : Configuration Nat :=
  { counting with asyncProvider := some fun name => return some (.string name) }

/-- The tree of `later(b, a) + later(later(b))`. -/
def eagerSum : Expr :=
  .operation "+" 12 (some (.call "later" 0 [some (.identifier "b" 6), some (.identifier "a" 9)]))
    (some (.call "later" 14 [some (.call "later" 20 [some (.identifier "b" 26)])]))

theorem lookups_of_eagerSum :
    listening.CallsEagerly eagerSum ∧ eagerSum.IsDirect ∧ listening.provider.isSome = true ∧
      listening.asyncProvider.isSome = true ∧
      (listening.evaluate eagerSum 0).1 = .ok (.string "bb") ∧
        (listening.evaluate eagerSum 0).2.asked .sync = ["b", "a", "b"] ∧
          (listening.evaluateAsync eagerSum 0 false).2.asked (.async Run.callerToken) =
            ["b", "a", "b"] := by
  have eager : listening.CallsEagerly eagerSum := by
    intro name position arguments function member found
    obtain ⟨rfl, -⟩ | ⟨rfl, -⟩ | ⟨rfl, -⟩ :
        (name = "later" ∧ _) ∨ (name = "later" ∧ _) ∨ name = "later" ∧ _ := by
      simpa [eagerSum, Expr.nodes, Expr.operandNodes, Expr.argumentNodes] using member
    all_goals
      cases found
      rfl
  have isDirect : eagerSum.IsDirect := by
    intro operator position left right member
    obtain ⟨rfl, -⟩ : operator = "+" ∧ _ := by
      simpa [eagerSum, Expr.nodes, Expr.operandNodes, Expr.argumentNodes] using member
    exact ⟨by decide, by decide⟩
  obtain ⟨inOrder, inOrder'⟩ := lookups_inOrder eager 0
  exact ⟨eager, isDirect, rfl, rfl, rfl, (inOrder rfl).whole isDirect (.string "bb") rfl,
    (inOrder' rfl false).whole isDirect (.string "bb") rfl⟩

end Configuration

end Formula

import Formula.Proofs.Evaluation.Links

/-!
# From a node to its children

One step of the walk: where the evaluation of a node comes to an operand or an argument, in which
mode, and what has been done by then.  Two evaluations of nodes with the same head are linked as
soon as they are linked at the children that the first really comes to.  Their configurations may
differ in whatever the operations and bodies do not look at.
-/

namespace Formula

variable {σ : Type}

/-- Nodes that differ at most in their positions and in what their children are. -/
inductive Expr.SameHead : Expr → Expr → Prop
  | number (text : String) (position position' : Nat) :
      SameHead (.number text position) (.number text position')
  | string (content : String) (position position' : Nat) :
      SameHead (.string content position) (.string content position')
  | identifier (name : String) (position position' : Nat) :
      SameHead (.identifier name position) (.identifier name position')
  | call (name : String) (position position' : Nat) {arguments arguments' : List (Option Expr)}
      (empty : arguments.map Option.isNone = arguments'.map Option.isNone) :
      SameHead (.call name position arguments) (.call name position' arguments')
  | operation (operator : String) (position position' : Nat)
      (left left' right right' : Option Expr) :
      SameHead (.operation operator position left right)
        (.operation operator position' left' right')

theorem Expr.sameHead_self (expr : Expr) : expr.SameHead expr := by
  cases expr with
  | number text position => exact .number text _ _
  | string content position => exact .string content _ _
  | identifier name position => exact .identifier name _ _
  | call name position arguments => exact .call name _ _ rfl
  | operation operator position left right => exact .operation operator _ _ _ _ _ _

/-! ## Shown other settings -/

/-- The operations come to the same, each table in its own environment. -/
structure Settings.SameOperations (first second : Settings) : Prop where
  convertToNumber (text : String) :
    first.operators.convertToNumber first.toEnvironment text =
      second.operators.convertToNumber second.toEnvironment text
  decides (operator : String) (left : Value) :
    first.operators.decides first.toEnvironment operator left =
      second.operators.decides second.toEnvironment operator left
  apply (operator : String) (left right : Option Value) :
    first.operators.apply first.toEnvironment operator left right =
      second.operators.apply second.toEnvironment operator left right

namespace Settings.SameOperations

variable {first second third : Settings}

theorem refl (settings : Settings) : settings.SameOperations settings :=
  ⟨fun _ => rfl, fun _ _ => rfl, fun _ _ _ => rfl⟩

theorem symm (same : first.SameOperations second) : second.SameOperations first :=
  ⟨fun text => (same.convertToNumber text).symm,
    fun operator left => (same.decides operator left).symm,
    fun operator left right => (same.apply operator left right).symm⟩

theorem trans (same : first.SameOperations second) (same' : second.SameOperations third) :
    first.SameOperations third :=
  ⟨fun text => (same.convertToNumber text).trans (same'.convertToNumber text),
    fun operator left => (same.decides operator left).trans (same'.decides operator left),
    fun operator left right =>
      (same.apply operator left right).trans (same'.apply operator left right)⟩

/-- The standard operations look at nothing but the conventions. -/
theorem of_standard (standard : first.operators = .standard)
    (standard' : second.operators = .standard)
    (conventions : first.conventions = second.conventions) : first.SameOperations second := by
  obtain ⟨⟨_, _, _, _, _⟩, _⟩ := first
  obtain ⟨⟨_, _, _, _, _⟩, _⟩ := second
  subst standard standard' conventions
  refine ⟨fun _ => rfl, fun _ _ => rfl, fun operator left right => ?_⟩
  cases left <;> cases right <;> rfl

end Settings.SameOperations

namespace Configuration

/-- The operations and the bodies do the same when they are shown these settings. -/
structure ActsAlikeUnder (configuration : Configuration σ) (settings : Settings) : Prop where
  operations : configuration.toSettings.SameOperations settings
  body {name : String} {function : Function σ} {body : Body σ} :
    configuration.function? name = some function → function.HasBody body →
      ∀ arguments, body configuration.toSettings arguments = body settings arguments

theorem actsAlikeUnder_self (configuration : Configuration σ) :
    configuration.ActsAlikeUnder configuration.toSettings :=
  ⟨.refl _, fun _ _ _ => rfl⟩

/-- The standard functions, too, look at nothing but the conventions. -/
theorem actsAlikeUnder_of_standard {configuration : Configuration σ} {settings : Settings}
    (operators : configuration.operators = .standard) (operators' : settings.operators = .standard)
    (conventions : configuration.conventions = settings.conventions)
    (standard : configuration.genericFunctions = Builtin.functions)
    (added : ∀ name function body, configuration.functions.find? name = some function →
      function.HasBody body → ∀ arguments,
        body configuration.toSettings arguments = body settings arguments) :
    configuration.ActsAlikeUnder settings := by
  refine ⟨.of_standard operators operators' conventions, fun found hasBody arguments => ?_⟩
  obtain ⟨name, kept⟩ | ⟨entry, -, rfl⟩ := added_or_standard standard found
  · exact added name _ _ kept hasBody arguments
  · simp only [Builtin.eq_of_hasBody_functionOf hasBody, conventions]

/-! ## Coming to a child -/

/-- Evaluated in a mode, at a depth and from a run, the node comes to the child at the place, in a
mode and at a moment of its own. -/
inductive ComesTo (configuration : Configuration σ) (mode : Mode) (depth : Nat) (run : Run σ) :
    Expr → Place → Mode → Run σ → Prop
  | left {operator : String} {position : Nat} {left right : Option Expr} {moment : Run σ}
      (entered : (configuration.enter (.operation operator position left right) mode depth).runFrom
        run = (.ok (), moment)) :
      ComesTo configuration mode depth run (.operation operator position left right) .left mode
        moment
  | right {operator : String} {position : Nat} {left right : Option Expr} {value : Option Value}
      {between moment : Run σ}
      (entered : (configuration.enter (.operation operator position left right) mode depth).runFrom
        run = (.ok (), between))
      (given : (configuration.evalOperand left mode (depth + 1)).runFrom between =
        (.ok value, moment))
      (undecided : value.filter
        (configuration.operators.decides configuration.toEnvironment operator) = none) :
      ComesTo configuration mode depth run (.operation operator position left right) .right mode
        moment
  | eager {name : String} {position : Nat} {arguments : List (Option Expr)} {index : Nat}
      {function : Function σ} {chosen : Body σ × Bool} {values : List Value}
      {between moment : Run σ}
      (entered : (configuration.enter (.call name position arguments) mode depth).runFrom run =
        (.ok (), between))
      (found : configuration.function? name = some function) (isEager : function.isLazy = false)
      (selected : selectBody function mode = some chosen)
      (given : (configuration.evalArguments (arguments.take index) mode (depth + 1)).runFrom
        between = (.ok values, moment)) :
      ComesTo configuration mode depth run (.call name position arguments) (.argument index) mode
        moment
  | lazy {name : String} {position : Nat} {arguments : List (Option Expr)} {index : Nat}
      {function : Function σ} {chosen : Body σ} {isAsync : Bool} {body : Mode}
      {between handed moment : Run σ}
      (entered : (configuration.enter (.call name position arguments) mode depth).runFrom run =
        (.ok (), between))
      (found : configuration.function? name = some function) (isLazy : function.isLazy = true)
      (selected : selectBody function mode = some (chosen, isAsync))
      (hands : (bodyMode isAsync mode).runFrom between = (.ok body, handed))
      (asks : Eval.Asks (configuration.thunks arguments body (depth + 1)) body index moment
        (chosen configuration.toSettings (.lazy (arguments.map Option.isNone))).run
        (handed.record (.called name body))) :
      ComesTo configuration mode depth run (.call name position arguments) (.argument index) body
        moment

/-! ## One step of the walk -/

/-- Configurations that differ at most in what constants stand for and in how deep they go, as far
as an evaluation can tell. -/
structure TakesSameSteps (first second : Configuration σ) : Prop where
  alike : first.ActsAlikeUnder second.toSettings
  function? (name : String) : first.function? name = second.function? name
  asyncProvider : first.asyncProvider = second.asyncProvider

theorem TakesSameSteps.refl (configuration : Configuration σ) :
    configuration.TakesSameSteps configuration :=
  ⟨configuration.actsAlikeUnder_self, fun _ => rfl, rfl⟩

section Step

variable {link : Run σ → Run σ → Prop} (transparent : Transparent link)
  {first second : Configuration σ} (same : first.TakesSameSteps second) {mode : Mode}
  {depth depth' : Nat} {run run' : Run σ}
include transparent same

theorem simulatesAt_call {name : String} {position position' : Nat}
    {arguments arguments' : List (Option Expr)}
    (empty : arguments.map Option.isNone = arguments'.map Option.isNone)
    (entered : SimulatesAt link Eq (first.enter (.call name position arguments) mode depth)
      (second.enter (.call name position' arguments') mode depth') run run')
    (children : ∀ {index child moment moment'},
      first.ComesTo mode depth run (.call name position arguments) (.argument index) child
          moment → link moment moment' →
        SimulatesAt link Eq (first.evalOperand arguments[index]?.join child (depth + 1))
          (second.evalOperand arguments'[index]?.join child (depth' + 1)) moment moment') :
    SimulatesAt link Eq (first.eval (.call name position arguments) mode depth)
      (second.eval (.call name position' arguments') mode depth') run run' := by
  have sameLength : arguments.length = arguments'.length := by
    simpa using congrArg List.length empty
  unfold eval
  refine entered.bind ?_
  rintro _ _ between between' entering - linkedBetween
  unfold resolveFunction
  rw [← same.function?]
  cases found : first.function? name with
  | none => exact Simulates.throw _ linkedBetween
  | some function =>
      simp only [pure_bind]
      cases selected : selectBody function mode with
      | none => exact Simulates.throw _ linkedBetween
      | some chosen =>
          obtain ⟨body, isAsync⟩ := chosen
          have sameBody := same.alike.body found (hasBody_of_selectBody selected)
          simp only [runBody, ← sameBody]
          split
          · next isLazy =>
              refine SimulatesAt.bind
                (simulates_bodyMode_self transparent isAsync mode linkedBetween) ?_
              rintro mode _ handed handed' hands rfl linkedHanded
              refine SimulatesAt.bind (Simulates.record transparent _ linkedHanded) ?_
              rintro _ _ calling calling' ⟨⟩ - linkedCalling
              rw [← empty]
              refine SimulatesAt.perform transparent linkedCalling fun asks linkedMoment => ?_
              exact simulatesAt_thunk sameLength linkedMoment
                (children (.lazy entering found isLazy selected hands asks) linkedMoment)
          · next notLazy =>
              have isEager : function.isLazy = false := Bool.eq_false_iff.mpr notLazy
              refine SimulatesAt.bind (simulatesAt_evalArguments sameLength linkedBetween
                fun given => children (.eager entering found isEager selected given)) ?_
              rintro values _ _ _ - rfl linkedAfter
              refine SimulatesAt.bind
                (simulates_bodyMode_self transparent isAsync mode linkedAfter) ?_
              rintro mode _ _ _ - rfl linkedHanded
              refine SimulatesAt.bind (Simulates.record transparent _ linkedHanded) ?_
              rintro _ _ _ _ - - linkedCalling
              exact Simulates.perform_nil transparent _ _ linkedCalling

/-- Evaluations of nodes with the same head are linked if entering the nodes and looking up their
names are, and if the children are wherever the first evaluation comes to them. -/
theorem simulatesAt_eval {node node' : Expr} (head : node.SameHead node')
    (entered : SimulatesAt link Eq (first.enter node mode depth)
      (second.enter node' mode depth') run run')
    (constant : ∀ {name position}, node = .identifier name position →
      Simulates link Eq (first.resolveConstant name) (second.resolveConstant name))
    (children : ∀ {place child moment moment'},
      first.ComesTo mode depth run node place child moment → link moment moment' →
        SimulatesAt link Eq (first.evalOperand (node.child place) child (depth + 1))
          (second.evalOperand (node'.child place) child (depth' + 1)) moment moment') :
    SimulatesAt link Eq (first.eval node mode depth) (second.eval node' mode depth') run run' := by
  cases head with
  | call name position position' empty =>
      exact simulatesAt_call transparent same empty entered fun comes => children comes
  | number text position position' =>
      unfold eval
      refine entered.bind ?_
      rintro _ _ _ _ - - linkedAfter
      rw [same.alike.operations.convertToNumber]
      exact Simulates.ofExcept _ linkedAfter
  | string content position position' =>
      unfold eval
      refine entered.bind ?_
      rintro _ _ _ _ - - linkedAfter
      exact Simulates.pure rfl linkedAfter
  | identifier name position position' =>
      unfold eval
      refine entered.bind ?_
      rintro _ _ _ _ - - linkedAfter
      exact simulates_resolveIdentifier_of_constant transparent same.asyncProvider (constant rfl)
        mode linkedAfter
  | operation operator position position' left left' right right' =>
      unfold eval
      refine entered.bind ?_
      rintro _ _ between between' entering - linkedBetween
      refine SimulatesAt.bind (children (.left entering) linkedBetween) ?_
      rintro value _ after after' given rfl linkedAfter
      rw [← funext (same.alike.operations.decides operator)]
      cases decided : value.filter (first.operators.decides first.toEnvironment operator) with
      | some value => exact Simulates.pure rfl linkedAfter
      | none =>
          refine SimulatesAt.bind (children (.right entering given decided) linkedAfter) ?_
          rintro value' _ _ _ - rfl linkedEnd
          rw [same.alike.operations.apply]
          exact Simulates.ofExcept _ linkedEnd

end Step

end Configuration

end Formula

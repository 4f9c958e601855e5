import Formula.Proofs.Evaluation.Bindings
import Formula.Proofs.Evaluation.Consultation

/-!
# What is not evaluated does not matter

A subtree stands in a context of enclosing nodes.  A run that never comes to it, because a lazy
function does not ask for the argument or because a left operand decides, cannot tell it from any
other subtree, however deep it stands: the outcome, the state of the host and all that was asked of
the host stay the same.
-/

namespace Formula

variable {σ α β : Type}

/-! ## Contexts -/

namespace Expr

/-- A node that one child has been taken out of. -/
inductive Frame where
  | inLeft (operator : String) (position : Nat) (right : Option Expr)
  | inRight (operator : String) (position : Nat) (left : Option Expr)
  | inArgument (name : String) (position : Nat) (before after : List (Option Expr))

namespace Frame

def place : Frame → Place
  | .inLeft .. => .left
  | .inRight .. => .right
  | .inArgument _ _ before _ => .argument before.length

def fill (expr : Expr) : Frame → Expr
  | .inLeft operator position right => .operation operator position (some expr) right
  | .inRight operator position left => .operation operator position left (some expr)
  | .inArgument name position before after => .call name position (before ++ some expr :: after)

theorem child_fill_place (frame : Frame) (expr : Expr) :
    (frame.fill expr).child frame.place = some expr := by
  cases frame with
  | inLeft | inRight => rfl
  | inArgument name position before after => simp [fill, child, place]

theorem child_fill_of_ne {frame : Frame} {place : Place} (elsewhere : place ≠ frame.place)
    (expr expr' : Expr) : (frame.fill expr).child place = (frame.fill expr').child place := by
  cases frame with
  | inLeft =>
      cases place with
      | left => exact absurd rfl elsewhere
      | right | argument => rfl
  | inRight =>
      cases place with
      | right => exact absurd rfl elsewhere
      | left | argument => rfl
  | inArgument name position before after =>
      cases place with
      | left | right => rfl
      | argument index =>
          have other : index ≠ before.length := fun same => elsewhere (same ▸ rfl)
          simp only [fill, child, List.getElem?_append, List.getElem?_cons]
          split
          · rfl
          · rw [if_neg (by omega), if_neg (by omega)]

theorem sameHead_fill (frame : Frame) (expr expr' : Expr) :
    (frame.fill expr).SameHead (frame.fill expr') := by
  cases frame with
  | inLeft operator position right => exact .operation operator _ _ _ _ _ _
  | inRight operator position left => exact .operation operator _ _ _ _ _ _
  | inArgument name position before after => exact .call name _ _ (by simp)

end Frame

/-- Puts the expression into a context, whose first frame is the outermost. -/
def fill (context : List Frame) (expr : Expr) : Expr :=
  context.foldr (fun frame inner => frame.fill inner) expr

theorem fill_cons (frame : Frame) (context : List Frame) (expr : Expr) :
    fill (frame :: context) expr = frame.fill (fill context expr) := rfl

end Expr

open Formula.Expr (Frame fill fill_cons)

/-! ## Runs that do the same to the host -/

def Event.isNode : Event → Bool
  | .entered _ => true
  | _ => false

namespace Run

/-- What a run did but for the nodes it entered: the providers it asked, the bodies it called and
the arguments these asked for, in order. -/
def conduct (run : Run σ) : List Event :=
  run.history.filter fun event => !event.isNode

theorem conduct_record (event : Event) (run : Run σ) :
    (run.record event).conduct = run.conduct ++ if event.isNode then [] else [event] := by
  cases event with
  | entered | lookup | asyncLookup | called | forced =>
      simp [conduct, history, record, Event.isNode]

structure SameConduct (first second : Run σ) : Prop where
  state : SameState first second
  conduct : first.conduct = second.conduct

theorem SameConduct.refl (run : Run σ) : SameConduct run run :=
  ⟨.refl run, rfl⟩

theorem SameConduct.entered {first second : Run σ} (linked : SameConduct first second)
    (node node' : Expr) :
    SameConduct (first.record (.entered node)) (second.record (.entered node')) := by
  refine ⟨linked.state.record _ _, ?_⟩
  rw [conduct_record, conduct_record, linked.conduct]
  rfl

theorem SameConduct.transparent : Transparent (σ := σ) SameConduct where
  state := SameConduct.state
  record event linked := by
    refine ⟨linked.state.record event event, ?_⟩
    rw [conduct_record, conduct_record, linked.conduct]
  update _ _ _ linked := ⟨⟨rfl, rfl, rfl⟩, linked.conduct⟩

end Run

open Run (SameConduct)

namespace Configuration

variable {configuration : Configuration σ}

/-! ## Coming to the subtree -/

/-- The evaluation of the expression in its context, in a mode, at a depth and from a run, evaluates
the expression itself. -/
inductive Enters (configuration : Configuration σ) (expr : Expr) :
    List Frame → Mode → (depth : Nat) → Run σ → Prop
  | here {mode : Mode} {depth : Nat} {run : Run σ}
      (uncancelled : run.isModeCancelled mode = false) :
      Enters configuration expr [] mode depth run
  | inside {frame : Frame} {context : List Frame} {mode child : Mode} {depth : Nat}
      {run moment : Run σ}
      (comes : configuration.ComesTo mode depth run (frame.fill (fill context expr)) frame.place
        child moment)
      (enters : Enters configuration expr context child (depth + 1) moment) :
      Enters configuration expr (frame :: context) mode depth run

/-- As long as the first run does not come to the expression, another one in its place makes no
difference. -/
theorem simulatesAt_fill {expr : Expr} (other : Expr) {context : List Frame} {mode : Mode}
    {depth : Nat} {run run' : Run σ}
    (spared : ¬ configuration.Enters expr context mode depth run)
    (linked : SameConduct run run') :
    SimulatesAt SameConduct Eq (configuration.eval (fill context expr) mode depth)
      (configuration.eval (fill context other) mode depth) run run' := by
  induction context generalizing mode depth run run' with
  | nil =>
      -- The expression is spared here only because the token stops the walk in front of it.
      have cancelled : run.isModeCancelled mode = true := by
        by_contra uncancelled
        exact spared (.here (by simpa using uncancelled))
      have cancelled' : run'.isModeCancelled mode = true := by
        rw [← linked.state.isModeCancelled mode, cancelled]
      unfold SimulatesAt
      rw [eval_stopsWhenCancelled _ run cancelled, eval_stopsWhenCancelled _ run' cancelled']
      exact ⟨.error _, linked⟩
  | cons frame context ih =>
      rw [fill_cons, fill_cons]
      refine simulatesAt_eval SameConduct.transparent (.refl configuration)
        (frame.sameHead_fill (fill context expr) (fill context other))
        (simulates_enter_of (fun linked => linked.state.isModeCancelled mode)
          (fun linked => linked.entered _ _) (.inl ⟨rfl, rfl⟩) linked)
        (fun _ => simulates_resolveConstant_self SameConduct.transparent _) ?_
      intro place child moment moment' comes linkedMoment
      by_cases inside : place = frame.place
      · subst inside
        rw [frame.child_fill_place, frame.child_fill_place]
        refine SimulatesAt.bind (ih (fun enters => spared (.inside comes enters)) linkedMoment) ?_
        rintro value _ _ _ - rfl linkedAfter
        exact Simulates.pure rfl linkedAfter
      -- Every other child is the same in both nodes.
      · rw [Frame.child_fill_of_ne inside (fill context expr) (fill context other)]
        exact simulates_evalOperand (rel_self fun operand _ =>
          similar_self SameConduct.transparent configuration child _ operand) linkedMoment

end Configuration

/-! ## What the record shows -/

/-- A run beside itself, which has kept all that was recorded at a certain time. -/
def Run.Since (events : List Event) (first second : Run σ) : Prop :=
  first = second ∧ events <:+ first.events

theorem Run.Since.transparent (events : List Event) : Transparent (σ := σ) (Since events) where
  state linked := linked.1 ▸ .refl _
  record event linked := ⟨congrArg (record event) linked.1,
    linked.2.trans (List.suffix_cons _ _)⟩
  update _ _ _ linked := ⟨by rw [linked.1], linked.2⟩

/-- A computation that only adds to the record. -/
def Eval.Grows (computation : Eval σ α) : Prop :=
  ∀ events, Simulates (Run.Since events) Eq computation computation

namespace Eval

theorem Grows.bind {computation : Eval σ α} {next : α → Eval σ β} (grows : computation.Grows)
    (rest : ∀ result, (next result).Grows) : (computation >>= next).Grows := by
  refine fun events => (grows events).bind ?_
  rintro result _ rfl
  exact rest result events

theorem suffix_bind {next : α → Eval σ β} (rest : ∀ result, (next result).Grows)
    (computation : Eval σ α) (run : Run σ) :
    (computation.runFrom run).2.events <:+ ((computation >>= next).runFrom run).2.events := by
  rw [runFrom_bind]
  generalize computation.runFrom run = reached
  obtain ⟨outcome, after⟩ := reached
  cases outcome with
  | ok result => exact (rest result after.events ⟨rfl, List.suffix_rfl⟩).2.2
  | error error => exact List.suffix_rfl

/-- What the program has been given by the argument stays in the record. -/
theorem Asks.suffix {thunks : List (Eval σ Value)} {mode : Mode} {index : Nat}
    {program : Program σ (Except Error α)} {run moment : Run σ}
    (grows : ∀ index, (thunk thunks index).Grows)
    (asks : Asks thunks mode index moment program run) :
    ((thunk thunks index).runFrom moment).2.events <:+
      (runFrom (ExceptT.mk (perform thunks mode program)) run).2.events := by
  have performs (program : Program σ (Except Error α)) (run : Run σ) : run.events <:+
      (runFrom (ExceptT.mk (perform thunks mode program)) run).2.events :=
    (SimulatesAt.perform (Run.Since.transparent run.events) ⟨rfl, List.suffix_rfl⟩
      fun _ linked => grows _ run.events linked).2.2
  induction asks with
  | now same =>
      subst same
      exact performs _ _
  | later _ ih | readState _ ih | writeState _ ih | cancel _ ih | isCancelled _ ih => exact ih

end Eval

namespace Configuration

variable {configuration : Configuration σ}

theorem grows_evalOperand (operand : Option Expr) (mode : Mode) (depth : Nat) :
    (configuration.evalOperand operand mode depth).Grows := fun events =>
  simulates_evalOperand (rel_self fun expr _ =>
    similar_self (Run.Since.transparent events) configuration mode depth expr)

theorem grows_evalArguments (arguments : List (Option Expr)) (mode : Mode) (depth : Nat) :
    (configuration.evalArguments arguments mode depth).Grows := fun events _ _ linked =>
  simulatesAt_evalArguments rfl linked fun _ linked => grows_evalOperand _ mode depth events linked

theorem grows_thunk (arguments : List (Option Expr)) (mode : Mode) (depth : Nat) (index : Nat) :
    (Eval.thunk (configuration.thunks arguments mode depth) index).Grows := fun events _ _ linked =>
  simulatesAt_thunk rfl linked (grows_evalOperand _ mode depth events linked)

theorem suffix_thunk (arguments : List (Option Expr)) (mode : Mode) (depth index : Nat)
    (run : Run σ) :
    ((configuration.evalOperand arguments[index]?.join mode depth).runFrom run).2.events <:+
      ((Eval.thunk (configuration.thunks arguments mode depth) index).runFrom run).2.events := by
  unfold Eval.thunk
  rw [thunks_eq_map, List.getElem?_map]
  cases arguments[index]? with
  | none => exact List.suffix_rfl
  | some argument => exact Eval.suffix_bind (fun _ _ => Simulates.pure rfl) _ _

theorem suffix_evalArguments {arguments : List (Option Expr)} {mode : Mode} {depth index : Nat}
    {values : List Value} {run moment : Run σ}
    (given : (configuration.evalArguments (arguments.take index) mode depth).runFrom run =
      (.ok values, moment)) :
    ((configuration.evalOperand arguments[index]?.join mode depth).runFrom moment).2.events <:+
      ((configuration.evalArguments arguments mode depth).runFrom run).2.events := by
  induction arguments generalizing index values run with
  | nil =>
      rw [List.take_nil] at given
      cases given
      exact List.suffix_rfl
  | cons argument arguments ih =>
      have rest (value : Option Value) : Eval.Grows (do
          let values ← configuration.evalArguments arguments mode depth
          return value.getD .null :: values) :=
        (grows_evalArguments arguments mode depth).bind fun _ _ => Simulates.pure rfl
      unfold evalArguments
      cases index with
      | zero =>
          cases given
          exact Eval.suffix_bind rest _ _
      | succ index =>
          rw [List.take_succ_cons] at given
          unfold evalArguments at given
          obtain ⟨value, between, first, given⟩ := Eval.runFrom_bind_eq_ok given
          obtain ⟨values, _, given, ⟨⟩⟩ := Eval.runFrom_bind_eq_ok given
          rw [Eval.runFrom_bind, first]
          exact (ih given).trans (Eval.suffix_bind (fun _ _ => Simulates.pure rfl) _ _)

/-- What a child has done stays in the record of its node. -/
theorem ComesTo.suffix {node : Expr} {place : Place} {mode child : Mode} {depth : Nat}
    {run moment : Run σ} (comes : configuration.ComesTo mode depth run node place child moment) :
    ((configuration.evalOperand (node.child place) child (depth + 1)).runFrom moment).2.events <:+
      ((configuration.eval node mode depth).runFrom run).2.events := by
  unfold eval
  cases comes with
  | @left operator position left right _ entered =>
      rw [Eval.runFrom_bind, entered]
      refine Eval.suffix_bind (fun value => ?_) _ _
      split
      · exact fun _ => Simulates.pure rfl
      · exact (grows_evalOperand _ _ _).bind fun _ _ => Simulates.ofExcept _
  | @right operator position left right value between _ entered given undecided =>
      rw [Eval.runFrom_bind, entered]
      dsimp only
      rw [Eval.runFrom_bind, given]
      dsimp only
      rw [undecided]
      exact Eval.suffix_bind (fun _ _ => Simulates.ofExcept _) _ _
  | @eager name position arguments index function chosen values between _ entered found isEager
      selected given =>
      obtain ⟨body, isAsync⟩ := chosen
      have resolved : configuration.resolveFunction name = pure function := by
        simp [resolveFunction, found]
      rw [Eval.runFrom_bind, entered]
      simp only [resolved, pure_bind, selected, isEager, Bool.false_eq_true, ↓reduceIte]
      refine (suffix_evalArguments given).trans (Eval.suffix_bind (fun values => ?_) _ _)
      refine Eval.Grows.bind (fun events =>
        simulates_bodyMode_self (Run.Since.transparent events) isAsync mode) fun mode => ?_
      refine Eval.Grows.bind (fun events =>
        Simulates.record (Run.Since.transparent events) _) fun _ events => ?_
      exact Simulates.perform_nil (Run.Since.transparent events) _ _
  | @lazy name position arguments index function chosen isAsync body between handed _ entered
      found isLazy selected hands asks =>
      have resolved : configuration.resolveFunction name = pure function := by
        simp [resolveFunction, found]
      rw [Eval.runFrom_bind, entered]
      simp only [resolved, pure_bind, selected, isLazy, ↓reduceIte]
      rw [Eval.runFrom_bind, hands]
      exact (suffix_thunk arguments child _ index moment).trans
        (asks.suffix (grows_thunk arguments child _))

theorem Enters.mem_events {expr : Expr} {context : List Frame} {mode : Mode} {depth : Nat}
    {run : Run σ} (enters : configuration.Enters expr context mode depth run) :
    .entered expr ∈ ((configuration.eval (fill context expr) mode depth).runFrom run).2.events := by
  induction enters with
  | @here mode depth run uncancelled =>
      let transparent := Run.Since.transparent (σ := σ) (.entered expr :: run.events)
      have entered : SimulatesAt (Run.Since (.entered expr :: run.events)) Eq
          (configuration.enter expr mode depth) (configuration.enter expr mode depth) run run := by
        unfold SimulatesAt
        rw [runFrom_enter]
        simp only [uncancelled, Bool.false_eq_true, ↓reduceIte]
        split
        · exact ⟨.error _, rfl, List.suffix_rfl⟩
        · exact ⟨.ok rfl, rfl, List.suffix_rfl⟩
      have evaluated := simulatesAt_eval transparent (.refl configuration) expr.sameHead_self
        entered (fun _ => simulates_resolveConstant_self transparent _)
        fun _ linked => simulates_evalOperand (rel_self fun operand _ =>
          similar_self transparent configuration _ _ operand) linked
      exact evaluated.2.2.mem (.head _)
  | @inside frame context mode child depth run moment comes _ ih =>
      have recorded := comes.suffix
      rw [frame.child_fill_place] at recorded
      exact recorded.mem (Eval.suffix_bind (fun _ _ => Simulates.pure rfl) _ _ |>.mem ih)

/-- An expression that the run does not evaluate can be replaced by any other: the outcome and the
state of the host are the same, and so is all that is asked of the host. -/
theorem conduct_of_not_enters (configuration : Configuration σ) (context : List Frame)
    (expr other : Expr) (host : σ) :
    (¬ configuration.Enters expr context .sync 0 (.start host false) →
      SameEnding (configuration.evaluate (fill context expr) host)
          (configuration.evaluate (fill context other) host) ∧
        (configuration.evaluate (fill context expr) host).2.conduct =
          (configuration.evaluate (fill context other) host).2.conduct) ∧
    ∀ cancelled, ¬ configuration.Enters expr context (.async Run.callerToken) 0
        (.start host cancelled) →
      SameEnding (configuration.evaluateAsync (fill context expr) host cancelled)
          (configuration.evaluateAsync (fill context other) host cancelled) ∧
        (configuration.evaluateAsync (fill context expr) host cancelled).2.conduct =
          (configuration.evaluateAsync (fill context other) host cancelled).2.conduct := by
  have same {mode : Mode} {run : Run σ} (spared : ¬ configuration.Enters expr context mode 0 run) :
      SameEnding ((configuration.eval (fill context expr) mode 0).runFrom run)
          ((configuration.eval (fill context other) mode 0).runFrom run) ∧
        ((configuration.eval (fill context expr) mode 0).runFrom run).2.conduct =
          ((configuration.eval (fill context other) mode 0).runFrom run).2.conduct := by
    have ⟨outcomes, linked⟩ := simulatesAt_fill other spared (.refl run)
    exact ⟨⟨sameOutcome_eq_iff.mp outcomes, linked.state⟩, linked.conduct⟩
  exact ⟨same, fun _ => same⟩

/-- The right operand of an `||` in a lazy argument. -/
def decidedFrames : List Frame :=
  [.inArgument "first" 6 [] [some (.identifier "b" 20)],
    .inRight "||" 14 (some (.identifier "a" 12))]

/-- In `later(first(a || c, b))` the provider is asked for the first name only, so the second may as
well be a division by zero. -/
theorem conduct_of_decidedFrames :
    let context := .inArgument "later" 0 [] [] :: decidedFrames
    let skipped : Expr := .identifier "c" 17
    let quotient : Expr := .operation "/" 18 (some (.number "1" 17)) (some (.number "0" 19))
    ¬ counting.Enters skipped context .sync 0 (.start 0 false) ∧
      SameEnding (counting.evaluate (fill context skipped) 0)
          (counting.evaluate (fill context quotient) 0) ∧
        (counting.evaluate (fill context skipped) 0).2.conduct =
          (counting.evaluate (fill context quotient) 0).2.conduct := by
  intro context skipped quotient
  have spared : ¬ counting.Enters skipped context .sync 0 (.start 0 false) := by
    intro enters
    have entered : Event.entered skipped ∈ [.called "later" (.async 1), .lookup "a",
        .entered (.identifier "a" 12), .entered (fill (decidedFrames.drop 1) skipped), .forced 0,
        .called "first" .sync, .entered (fill decidedFrames skipped),
        .entered (fill context skipped)] := enters.mem_events
    simp [context, skipped, decidedFrames, fill, Frame.fill] at entered
  exact ⟨spared, (conduct_of_not_enters counting context skipped quotient 0).1 spared⟩

end Configuration

end Formula

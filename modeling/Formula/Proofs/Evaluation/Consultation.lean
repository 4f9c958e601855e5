import Formula.Proofs.Evaluation.Modes
import Formula.Proofs.Expr.Height

/-!
# Whom an identifier is asked of

An identifier is looked up, and an asynchronous body run, in the mode in which the walk comes to it.
Operands and eager arguments are walked in the mode of their node.  The arguments of a lazy function
are walked in the mode of its body: a function with only a synchronous body takes the asynchronous
provider and the caller's token away from them, and in a synchronous walk one with only an
asynchronous body brings in the asynchronous provider, with a token of its own.
-/

namespace Formula

variable {σ α β : Type}

/-! ## Places -/

/-- The mode in which a body runs, and in which its thunks are walked, by the mode of the call. -/
inductive HandsOver : (isAsync : Bool) → (call body : Mode) → Prop
  | sync (call : Mode) : HandsOver false call .sync
  | async (token : Nat) : HandsOver true (.async token) (.async token)
  | fresh {token : Nat} (isFresh : token ≠ Run.callerToken) : HandsOver true .sync (.async token)

namespace Configuration

/-- A call of the name in the first mode runs a body in the second. -/
def RunsBody (configuration : Configuration σ) (name : String) (isLazy : Bool)
    (call body : Mode) : Prop :=
  ∃ function chosen isAsync, configuration.function? name = some function ∧
    function.isLazy = isLazy ∧ selectBody function call = some (chosen, isAsync) ∧
      HandsOver isAsync call body

/-- The walk that enters the root in a mode and at a depth can come to a node in a mode and at a
depth. -/
inductive Reaches (configuration : Configuration σ) (root : Expr) (entry : Mode) (start : Nat) :
    Expr → Mode → (depth : Nat) → Prop
  | root : Reaches configuration root entry start root entry start
  | left {operator : String} {position : Nat} {left : Expr} {right : Option Expr} {mode : Mode}
      {depth : Nat}
      (above : Reaches configuration root entry start
        (.operation operator position (some left) right) mode depth) :
      Reaches configuration root entry start left mode (depth + 1)
  | right {operator : String} {position : Nat} {left : Option Expr} {right : Expr} {mode : Mode}
      {depth : Nat}
      (above : Reaches configuration root entry start
        (.operation operator position left (some right)) mode depth) :
      Reaches configuration root entry start right mode (depth + 1)
  | eager {name : String} {position : Nat} {arguments : List (Option Expr)} {argument : Expr}
      {mode : Mode} {depth : Nat} {function : Function σ}
      (above : Reaches configuration root entry start (.call name position arguments) mode depth)
      (found : configuration.function? name = some function) (isEager : function.isLazy = false)
      (member : some argument ∈ arguments) :
      Reaches configuration root entry start argument mode (depth + 1)
  | lazy {name : String} {position : Nat} {arguments : List (Option Expr)} {argument : Expr}
      {mode body : Mode} {depth : Nat}
      (above : Reaches configuration root entry start (.call name position arguments) mode depth)
      (runs : configuration.RunsBody name true mode body) (member : some argument ∈ arguments) :
      Reaches configuration root entry start argument body (depth + 1)

/-- The node lies in an argument of a lazy function that is called in the entry's mode, and whose
body takes the walk over in another one. -/
structure LiesUnder (configuration : Configuration σ) (root : Expr) (entry : Mode) (start : Nat)
    (function : Function σ) (body : Mode) (expr : Expr) (mode : Mode) (depth : Nat) : Prop where
  isLazy : function.isLazy = true
  argument : ∃ name position arguments argument above,
    configuration.Reaches root entry start (.call name position arguments) entry above ∧
      configuration.function? name = some function ∧ some argument ∈ arguments ∧
        configuration.Reaches argument body (above + 1) expr mode depth

variable {configuration : Configuration σ} {root expr : Expr} {entry mode : Mode}
  {start depth : Nat}

theorem Reaches.mode_eq_or_liesUnder
    (reaches : configuration.Reaches root entry start expr mode depth) :
    mode = entry ∨ ∃ function chosen isAsync body,
      selectBody function entry = some (chosen, isAsync) ∧ HandsOver isAsync entry body ∧
        body ≠ entry ∧ configuration.LiesUnder root entry start function body expr mode depth := by
  -- The walk goes on inside the argument of the first call that changed the mode.
  have inside : ∀ {expr expr' : Expr} {mode mode' : Mode} {depth depth' : Nat},
      (∀ {argument : Expr} {body : Mode} {above : Nat},
        configuration.Reaches argument body above expr mode depth →
          configuration.Reaches argument body above expr' mode' depth') →
      (∃ function chosen isAsync body, selectBody function entry = some (chosen, isAsync) ∧
        HandsOver isAsync entry body ∧ body ≠ entry ∧
          configuration.LiesUnder root entry start function body expr mode depth) →
      ∃ function chosen isAsync body, selectBody function entry = some (chosen, isAsync) ∧
        HandsOver isAsync entry body ∧ body ≠ entry ∧
          configuration.LiesUnder root entry start function body expr' mode' depth' := by
    rintro _ _ _ _ _ _ continues ⟨function, chosen, isAsync, body, selected, handed, other, isLazy,
      name, position, arguments, argument, above, call, found, member, below⟩
    exact ⟨function, chosen, isAsync, body, selected, handed, other, isLazy, name, position,
      arguments, argument, above, call, found, member, continues below⟩
  induction reaches with
  | root => exact .inl rfl
  | left above ih => exact ih.imp_right (inside .left)
  | right above ih => exact ih.imp_right (inside .right)
  | eager above found isEager member ih =>
      exact ih.imp_right (inside fun above => .eager above found isEager member)
  | @lazy name position arguments argument mode body depth above runs member ih =>
      rcases ih with rfl | under
      · by_cases same : body = mode
        · exact .inl same
        · obtain ⟨function, chosen, isAsync, found, isLazy, selected, handed⟩ := runs
          exact .inr ⟨function, chosen, isAsync, body, selected, handed, same, isLazy, name,
            position, arguments, argument, depth, above, found, member, .root⟩
      · exact .inr (inside (fun above => .lazy above runs member) under)

theorem Reaches.of_async {token : Nat}
    (reaches : configuration.Reaches root (.async token) start expr mode depth) :
    mode = .async token ∨ ∃ function, function.async = none ∧
      configuration.LiesUnder root (.async token) start function .sync expr mode depth := by
  rcases reaches.mode_eq_or_liesUnder with same | ⟨function, chosen, isAsync, body, selected,
    handed, other, under⟩
  · exact .inl same
  · cases handed with
    | async => exact absurd rfl other
    | sync =>
        refine .inr ⟨function, ?_, under⟩
        cases given : function.async with
        | none => rfl
        | some async => simp [selectBody, given] at selected

theorem Reaches.of_sync (reaches : configuration.Reaches root .sync start expr mode depth) :
    mode = .sync ∨ ∃ function token, function.sync = none ∧ token ≠ Run.callerToken ∧
      configuration.LiesUnder root .sync start function (.async token) expr mode depth := by
  rcases reaches.mode_eq_or_liesUnder with same | ⟨function, chosen, isAsync, body, selected,
    handed, other, under⟩
  · exact .inl same
  · cases handed with
    | sync => exact absurd rfl other
    | @fresh token isFresh =>
        refine .inr ⟨function, token, ?_, isFresh, under⟩
        cases given : function.sync with
        | none => rfl
        | some sync => simp [selectBody, given] at selected

end Configuration

/-! ## Accounts of a run -/

/-- Whom an identifier is asked of first. -/
def Mode.consultation (name : String) : Mode → Event
  | .sync => .lookup name
  | .async token => .asyncLookup name token

/-- What a run did, in order. -/
def Run.history (run : Run σ) : List Event :=
  run.events.reverse

namespace Configuration

variable (configuration : Configuration σ) (root : Expr) (entry : Mode) (start : Nat)

/-- An event that the walk from the root can come to, with what it did next. -/
def Accounts : Event → (next : List Event) → Prop
  | .entered (.identifier name position), next => ∃ mode depth,
      configuration.Reaches root entry start (.identifier name position) mode depth ∧
        (configuration.maxDepth < depth ∨ next.head? = some (mode.consultation name))
  | .asyncLookup name token, _ => ∃ position depth,
      configuration.Reaches root entry start (.identifier name position) (.async token) depth
  | .called name body, _ => ∃ position arguments call depth isLazy,
      configuration.Reaches root entry start (.call name position arguments) call depth ∧
        configuration.RunsBody name isLazy call body
  | _, _ => True

/-- The walk from the root accounts for every event. -/
def AccountsAll : List Event → Prop
  | [] => True
  | event :: next => configuration.Accounts root entry start event next ∧ AccountsAll next

variable {configuration root entry start}

theorem Accounts.append {event : Event} {next : List Event}
    (accounts : configuration.Accounts root entry start event next) (more : List Event) :
    configuration.Accounts root entry start event (next ++ more) := by
  cases event with
  | entered node =>
      cases node with
      | identifier name position =>
          obtain ⟨mode, depth, reaches, rest⟩ := accounts
          refine ⟨mode, depth, reaches, rest.imp_right fun asked => ?_⟩
          rw [List.head?_append, asked]
          rfl
      | number | string | call | operation => trivial
  | asyncLookup | called => exact accounts
  | lookup | forced => trivial

theorem AccountsAll.append {first second : List Event}
    (accounts : configuration.AccountsAll root entry start first)
    (accounts' : configuration.AccountsAll root entry start second) :
    configuration.AccountsAll root entry start (first ++ second) := by
  induction first with
  | nil => exact accounts'
  | cons event first ih => exact ⟨accounts.1.append second, ih accounts.2⟩

variable (configuration root entry start) in
/-- A computation that the walk from the root accounts for, wherever it starts. -/
def Records (computation : Eval σ α) : Prop :=
  ∀ run, Run.callerToken < run.nextToken →
    Run.callerToken < (computation.runFrom run).2.nextToken ∧
      ∃ added, (computation.runFrom run).2.history = run.history ++ added ∧
        configuration.AccountsAll root entry start added

namespace Records

theorem quiet {computation : Eval σ α}
    (silent : ∀ run, (computation.runFrom run).2.nextToken = run.nextToken ∧
      (computation.runFrom run).2.events = run.events) :
    configuration.Records root entry start computation := by
  intro run fresh
  obtain ⟨sameToken, sameEvents⟩ := silent run
  rw [sameToken]
  exact ⟨fresh, [], by simp [Run.history, sameEvents], trivial⟩

theorem pure (result : α) :
    configuration.Records root entry start (Pure.pure result : Eval σ α) :=
  quiet fun _ => ⟨rfl, rfl⟩

theorem throw (error : Error) :
    configuration.Records root entry start (MonadExcept.throw error : Eval σ α) :=
  quiet fun _ => ⟨rfl, rfl⟩

theorem ofExcept (outcome : Except Error α) :
    configuration.Records root entry start (Eval.ofExcept outcome : Eval σ α) :=
  quiet fun _ => ⟨rfl, rfl⟩

theorem record {event : Event} (accounts : configuration.Accounts root entry start event []) :
    configuration.Records root entry start (Eval.record event) := by
  intro run fresh
  exact ⟨fresh, [event], by simp [Run.history, Run.record], accounts, trivial⟩

theorem bind {first : Eval σ α} {next : α → Eval σ β}
    (records : configuration.Records root entry start first)
    (continues : ∀ result, configuration.Records root entry start (next result)) :
    configuration.Records root entry start (first >>= next) := by
  intro run fresh
  obtain ⟨freshBetween, added, history, accounts⟩ := records run fresh
  rw [Eval.runFrom_bind]
  generalize first.runFrom run = reached at freshBetween history ⊢
  obtain ⟨outcome, between⟩ := reached
  cases outcome with
  | error error => exact ⟨freshBetween, added, history, accounts⟩
  | ok result =>
      obtain ⟨freshAfter, more, history', accounts'⟩ := continues result between freshBetween
      refine ⟨freshAfter, added ++ more, ?_, accounts.append accounts'⟩
      rw [history', history, List.append_assoc]

/-- A program does nothing that is recorded but ask for its arguments. -/
theorem perform {thunks : List (Eval σ Value)}
    (forces : ∀ index, configuration.Records root entry start (Eval.thunk thunks index))
    (mode : Mode) (program : Program σ (Except Error α)) :
    configuration.Records root entry start (ExceptT.mk (Eval.perform thunks mode program)) := by
  induction program with
  | done result => exact quiet fun _ => ⟨rfl, rfl⟩
  | argument index next ih =>
      intro run fresh
      rw [Eval.runFrom_argument]
      obtain ⟨freshBetween, added, history, accounts⟩ :=
        forces index (run.record (.forced index)) fresh
      generalize (Eval.thunk thunks index).runFrom (run.record (.forced index)) = reached
        at freshBetween history ⊢
      obtain ⟨freshAfter, more, history', accounts'⟩ := ih reached.1 reached.2 freshBetween
      have asked : configuration.AccountsAll root entry start (.forced index :: added) :=
        ⟨trivial, accounts⟩
      refine ⟨freshAfter, .forced index :: added ++ more, ?_, asked.append accounts'⟩
      rw [history', history]
      simp [Run.history, Run.record]
  | readState next ih =>
      intro run fresh
      rw [Eval.runFrom_readState]
      exact ih run.host run fresh
  | writeState state next ih =>
      intro run fresh
      rw [Eval.runFrom_writeState]
      exact ih { run with host := state } fresh
  | cancel next ih =>
      intro run fresh
      rw [Eval.runFrom_cancel]
      cases mode with
      | sync => exact ih run fresh
      | async token => exact ih (run.cancel token) fresh
  | isCancelled next ih =>
      intro run fresh
      rw [Eval.runFrom_isCancelled]
      exact ih _ run fresh

end Records

/-! ## The walk -/

section Providers

variable (hasProvider : configuration.provider.isSome = true)
  (hasAsyncProvider : configuration.asyncProvider.isSome = true)
include hasProvider hasAsyncProvider

end Providers

end Configuration

end Formula

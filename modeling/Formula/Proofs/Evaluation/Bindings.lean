import Formula.Proofs.Evaluation.Children

/-!
# What a host has to bind

The constants of a configuration and its provider are what identifiers stand for, and an evaluation
sees them only through the names that the expression lists as its variables.  Where two
configurations differ in nothing else and agree on these names, the expression evaluates alike under
both.
-/

namespace Formula

variable {σ : Type}

/-! ## Names of the children -/

namespace Expr

theorem mem_variableUsesOfArguments_iff {use : String × Nat} {arguments : List (Option Expr)} :
    use ∈ variableUsesOfArguments arguments ↔
      ∃ argument, some argument ∈ arguments ∧ use ∈ argument.variableUses := by
  induction arguments with
  | nil => simp [variableUsesOfArguments]
  | cons argument arguments ih =>
      rw [variableUsesOfArguments, List.mem_append, ih]
      cases argument with
      | none => simp [variableUsesOfOperand]
      | some argument => simp [variableUsesOfOperand]

theorem variableUses_subset_of_child {expr child : Expr} {place : Place}
    (given : expr.child place = some child) : child.variableUses ⊆ expr.variableUses := by
  intro use member
  cases expr with
  | number | string | identifier => cases given
  | call name position arguments =>
      cases place with
      | left | right => cases given
      | argument index =>
          exact mem_variableUsesOfArguments_iff.mpr ⟨child, mem_of_join_eq_some given, member⟩
  | operation operator position left right =>
      cases place with
      | left =>
          cases given
          exact List.mem_append_left _ member
      | right =>
          cases given
          exact List.mem_append_right _ member
      | argument index => cases given

end Expr

/-! ## Evaluations that resolve their names alike -/

namespace Configuration

section Names

variable {link : Run σ → Run σ → Prop} (transparent : Transparent link)
  {first second : Configuration σ} (sameLimit : first.maxDepth = second.maxDepth)
include transparent sameLimit

/-- Only the names that the expression lists are ever resolved. -/
theorem similar_of_names (same : first.TakesSameSteps second) {expr : Expr}
    (names : ∀ use ∈ expr.variableUses,
      Simulates link Eq (first.resolveConstant use.1) (second.resolveConstant use.1))
    (mode : Mode) (depth : Nat) : Similar link first second mode mode depth depth expr expr := by
  induction expr using Expr.childInduction generalizing mode depth with
  | node expr ih =>
      intro run run' linked
      refine simulatesAt_eval transparent same expr.sameHead_self
        (simulates_enter_of (fun linked => (transparent.state linked).isModeCancelled mode)
          (transparent.record _) (.inl ⟨sameLimit, rfl⟩) linked) ?_ ?_
      · rintro name position rfl
        exact names (name, position) (.head _)
      · intro place mode moment moment' _ linkedMoment
        refine simulates_evalOperand (rel_self fun child given => ?_) linkedMoment
        exact ih place child given.symm
          (fun use member => names use (Expr.variableUses_subset_of_child given.symm member)) _ _

end Names

theorem similar_self {link : Run σ → Run σ → Prop} (transparent : Transparent link)
    (configuration : Configuration σ) (mode : Mode) (depth : Nat) (expr : Expr) :
    Similar link configuration configuration mode mode depth depth expr expr :=
  similar_of_names transparent rfl (.refl configuration)
    (fun _ _ => simulates_resolveConstant_self transparent _) mode depth

end Configuration

/-! ## Bindings -/

/-- What identifiers stand for.  The answers to a name do not depend on what was asked before. -/
structure Bindings where
  constants : Table Value
  genericConstants : Table Value
  answer : Option (String → Option Value)

/-- What the name resolves to: the answer, else a constant, else null. -/
def Bindings.valueOf (bindings : Bindings) (name : String) : Value :=
  (bindings.answer.bind (· name)).getD
    ((bindings.constants.lookup name <|> bindings.genericConstants.lookup name).getD .null)

def Settings.withConstants (settings : Settings) (constants genericConstants : Table Value) :
    Settings :=
  { settings with constants := constants, genericConstants := genericConstants }

namespace Configuration

/-- The same configuration with other constants and another provider. -/
def withBindings (configuration : Configuration σ) (bindings : Bindings) : Configuration σ :=
  { configuration with
    constants := bindings.constants
    genericConstants := bindings.genericConstants
    provider := bindings.answer.map fun answer name host => (answer name, host) }

/-- Neither the operations nor the bodies read the constants off what they are shown. -/
def HidesConstants (configuration : Configuration σ) : Prop :=
  ∀ constants genericConstants, configuration.ActsAlikeUnder
    (configuration.toSettings.withConstants constants genericConstants)

variable {configuration : Configuration σ}

theorem TakesSameSteps.withBindings (hides : configuration.HidesConstants)
    (bindings bindings' : Bindings) :
    (configuration.withBindings bindings).TakesSameSteps
      (configuration.withBindings bindings') where
  alike :=
    have alike := hides bindings.constants bindings.genericConstants
    have alike' := hides bindings'.constants bindings'.genericConstants
    ⟨alike.operations.symm.trans alike'.operations, fun found hasBody arguments =>
      (alike.body found hasBody arguments).symm.trans (alike'.body found hasBody arguments)⟩
  function? _ := rfl
  asyncProvider := rfl

theorem resolveConstant_withBindings (configuration : Configuration σ) (bindings : Bindings)
    (name : String) (run : Run σ) :
    ∃ after, ((configuration.withBindings bindings).resolveConstant name).runFrom run =
      (.ok (bindings.valueOf name), after) ∧ run.SameState after := by
  obtain ⟨constants, genericConstants, answer⟩ := bindings
  rw [runFrom_resolveConstant]
  cases answer with
  | none => exact ⟨run, rfl, .refl run⟩
  | some answer => exact ⟨_, rfl, ⟨rfl, rfl, rfl⟩⟩

theorem simulates_resolveConstant_withBindings {bindings bindings' : Bindings} {name : String}
    (sameValue : bindings.valueOf name = bindings'.valueOf name) :
    Simulates Run.SameState Eq ((configuration.withBindings bindings).resolveConstant name)
      ((configuration.withBindings bindings').resolveConstant name) := by
  intro run run' linked
  obtain ⟨after, reached, same⟩ := configuration.resolveConstant_withBindings bindings name run
  obtain ⟨after', reached', same'⟩ :=
    configuration.resolveConstant_withBindings bindings' name run'
  rw [reached, reached']
  exact ⟨.ok sameValue, same.symm.trans (linked.trans same')⟩

/-- An expression evaluates alike under any two bindings of its variables that agree on each of
them. -/
theorem sameEnding_withBindings (hides : configuration.HidesConstants)
    {bindings bindings' : Bindings} {expr : Expr}
    (agree : ∀ use ∈ expr.variableUses, bindings.valueOf use.1 = bindings'.valueOf use.1)
    (host : σ) :
    SameEnding ((configuration.withBindings bindings).evaluate expr host)
        ((configuration.withBindings bindings').evaluate expr host) ∧
      ∀ cancelled, SameEnding
        ((configuration.withBindings bindings).evaluateAsync expr host cancelled)
        ((configuration.withBindings bindings').evaluateAsync expr host cancelled) := by
  have sameLimit : (configuration.withBindings bindings).maxDepth =
      (configuration.withBindings bindings').maxDepth := rfl
  have similar := similar_of_names Run.SameState.transparent sameLimit
    (.withBindings hides bindings bindings')
    fun use member => simulates_resolveConstant_withBindings (agree use member)
  exact ⟨(similar .sync 0).sameEnding _, fun _ => (similar _ 0).sameEnding _⟩

theorem hidesConstants_counting : counting.HidesConstants := by
  refine fun _ _ => actsAlikeUnder_of_standard rfl rfl rfl rfl ?_
  intro name function body found hasBody
  simp only [counting, Table.find?, Table.lookup_cons] at found
  split at found
  · cases found
    obtain ⟨⟨⟩⟩ | ⟨⟨⟩⟩ := hasBody
    exact fun _ => rfl
  · split at found
    · cases found
      obtain ⟨⟨⟩⟩ | ⟨⟨⟩⟩ := hasBody
      exact fun _ => rfl
    · cases found

/-- Both variables stand in the tables, and so does the name of a function. -/
def tabled : Bindings :=
  ⟨⟨[("b", .string "7"), ("first", .string "1")]⟩, ⟨[("a", .bool true)]⟩, none⟩

/-- The provider answers where the tables would not do. -/
def answered : Bindings :=
  ⟨⟨[("a", .bool false)]⟩, .empty, some fun name =>
    if name = "a" then some (.bool true) else if name = "b" then some (.string "7") else none⟩

/-- The tree of `later(first(b, a)) && (a || b)`. -/
def decidedEarly : Expr :=
  .operation "&&" 19
    (some (.call "later" 0
      [some (.call "first" 6 [some (.identifier "b" 12), some (.identifier "a" 15)])]))
    (some (.operation "||" 25 (some (.identifier "a" 23)) (some (.identifier "b" 28))))

theorem sameEnding_of_decidedEarly :
    counting.HidesConstants ∧
      (∀ use ∈ decidedEarly.variableUses, tabled.valueOf use.1 = answered.valueOf use.1) ∧
        ((counting.withBindings tabled).evaluate decidedEarly 3).1 = .ok (.bool true) ∧
          SameEnding ((counting.withBindings tabled).evaluate decidedEarly 3)
            ((counting.withBindings answered).evaluate decidedEarly 3) := by
  have agree : ∀ use ∈ decidedEarly.variableUses,
      tabled.valueOf use.1 = answered.valueOf use.1 := by
    have listed : decidedEarly.variableUses = [("b", 12), ("a", 15), ("a", 23), ("b", 28)] := rfl
    rw [listed]
    simp only [List.forall_mem_cons]
    exact ⟨rfl, rfl, rfl, rfl, nofun⟩
  exact ⟨hidesConstants_counting, agree, rfl,
    (sameEnding_withBindings hidesConstants_counting agree 3).1⟩

end Configuration

end Formula

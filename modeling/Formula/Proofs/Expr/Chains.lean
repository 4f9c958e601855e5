import Formula.Proofs.Expr.Limits
import Formula.Proofs.Expr.Roots

/-!
# Chains of binary operators

In a chain there is an operator between each two operands.  When no operator is a prefix or suffix
operator and no tier mixes associativities, every chain is built, as the one binary tree in which
each root is the root of its part of the chain.
-/

namespace Formula.Expr

open TokenTree (operators mem_operators_iff operators_append operators_cons)

variable {grammar : Grammar}

/-! ## Chains -/

/-- Operands with an operator of the grammar between each two. -/
inductive Alternates (grammar : Grammar) (isOperand : TokenTree → Prop) : List TokenTree → Prop
  | operand {tree : TokenTree} (given : isOperand tree) : Alternates grammar isOperand [tree]
  | longer {operand tree : TokenTree} {operator : String} {trees : List TokenTree}
      (given : isOperand operand) (isOperator : tree.operator? = some operator)
      (known : operator ∈ grammar.tiers.flatten) (rest : Alternates grammar isOperand trees) :
      Alternates grammar isOperand (operand :: tree :: trees)

namespace Alternates

variable {isOperand : TokenTree → Prop} {trees before after : List TokenTree} {tree : TokenTree}
  {operator : String}

theorem known_of_mem (noOperator : ∀ tree, isOperand tree → tree.operator? = none)
    (alternates : Alternates grammar isOperand trees) (member : operator ∈ operators trees) :
    operator ∈ grammar.tiers.flatten := by
  induction alternates with
  | operand given => simp [operators, noOperator _ given] at member
  | longer given isOperator known _ ih =>
      rw [operators, List.filterMap_cons_none (noOperator _ given)] at member
      rw [← operators, operators_cons isOperator] at member
      rcases List.mem_cons.mp member with rfl | later
      · exact known
      · exact ih later

/-- On either side of an operator stands a chain again. -/
theorem sides (noOperator : ∀ tree, isOperand tree → tree.operator? = none)
    (alternates : Alternates grammar isOperand (before ++ tree :: after))
    (isOperator : tree.operator? = some operator) :
    Alternates grammar isOperand before ∧ Alternates grammar isOperand after := by
  generalize whole : before ++ tree :: after = trees at alternates
  induction alternates generalizing before with
  | operand given =>
      cases before with
      | nil =>
          obtain ⟨rfl, -⟩ := List.cons.inj whole
          simp [noOperator _ given] at isOperator
      | cons first before => simp at whole
  | longer given isNext known rest ih =>
      match before with
      | [] =>
          obtain ⟨rfl, -⟩ := List.cons.inj whole
          simp [noOperator _ given] at isOperator
      | [first] =>
          obtain ⟨rfl, behind⟩ := List.cons.inj whole
          obtain ⟨rfl, rfl⟩ := List.cons.inj behind
          exact ⟨.operand given, rest⟩
      | first :: second :: before =>
          obtain ⟨rfl, behind⟩ := List.cons.inj whole
          obtain ⟨rfl, further⟩ := List.cons.inj behind
          obtain ⟨chainBefore, chainAfter⟩ := ih further
          exact ⟨.longer given isNext known chainBefore, chainAfter⟩

end Alternates

/-- A binary tree over a chain, whose roots are all chosen in one way. -/
inductive Nests (isRoot : List String → String → List String → Prop)
    (isOperand : TokenTree → Expr → Prop) : List TokenTree → Expr → Prop
  | operand {tree : TokenTree} {expr : Expr} (given : isOperand tree expr) :
      Nests isRoot isOperand [tree] expr
  | node {before after : List TokenTree} {tree : TokenTree} {operator : String}
      {left right : Expr} (isOperator : tree.operator? = some operator)
      (root : isRoot (operators before) operator (operators after))
      (nestsLeft : Nests isRoot isOperand before left)
      (nestsRight : Nests isRoot isOperand after right) :
      Nests isRoot isOperand (before ++ tree :: after)
        (.operation operator tree.position (some left) (some right))

/-- What is built alone, with this many levels below it. -/
def BuildsAlone (grammar : Grammar) (room : Nat) (tree : TokenTree) (expr : Expr) : Prop :=
  build grammar room [tree] = .ok expr

/-- A chain whose operands can be built alone. -/
def IsChain (grammar : Grammar) (room : Nat) (trees : List TokenTree) : Prop :=
  Alternates grammar (fun tree => ∃ expr, BuildsAlone grammar room tree expr) trees

theorem BuildsAlone.operator?_eq_none {room : Nat} {tree : TokenTree} {expr : Expr}
    (builds : BuildsAlone grammar room tree expr) : tree.operator? = none :=
  (Builds.of_ok builds).operator?_eq_none

namespace Nests

variable {isRoot isRoot' : List String → String → List String → Prop}
  {isOperand : TokenTree → Expr → Prop} {trees : List TokenTree} {expr : Expr} {room : Nat}

theorem ne_nil (nests : Nests isRoot isOperand trees expr) : trees ≠ [] := by
  cases nests <;> simp

/-- Another choice of roots makes the same tree where it chooses the same. -/
theorem mono (nests : Nests isRoot isOperand trees expr)
    (weaker : ∀ before operator after, before ++ operator :: after ⊆ operators trees →
      isRoot before operator after → isRoot' before operator after) :
    Nests isRoot' isOperand trees expr := by
  induction nests with
  | operand given => exact .operand given
  | @node before after tree operator left right isOperator root _ _ ihLeft ihRight =>
      rw [operators_append, operators_cons isOperator] at weaker
      refine .node isOperator (weaker _ _ _ (List.Subset.refl _) root) ?_ ?_
      · refine ihLeft fun _ _ _ within => weaker _ _ _ ?_
        exact List.Subset.trans within (List.subset_append_left _ _)
      · refine ihRight fun _ _ _ within => weaker _ _ _ ?_
        refine List.Subset.trans within fun other member => ?_
        exact List.mem_append_right _ (.tail _ member)

/-- Each operator takes one level at most. -/
theorem builds (uniform : HasUniformTiers grammar)
    (nests : Nests (IsRoot grammar) (BuildsAlone grammar room) trees expr)
    (known : ∀ operator ∈ operators trees,
      operator ∈ grammar.tiers.flatten ∧ IsBinary grammar operator) :
    Builds grammar (room + 1 + (operators trees).length) trees expr := by
  induction nests with
  | operand given => exact (Builds.of_ok given).mono (Nat.le_add_right _ _)
  | @node before after tree operator left right isOperator root nestsLeft nestsRight ihLeft
      ihRight =>
      rw [operators_append, operators_cons isOperator] at known ⊢
      obtain ⟨inGrammar, binary⟩ := known operator (by simp)
      have splits := (split?_eq_root_iff uniform isOperator inGrammar).mpr root
      have fits : (Shape.infixed before after).Fits grammar
          ⟨before, operator, tree.position, after⟩ :=
        ⟨binary, rfl, rfl, nestsLeft.ne_nil, nestsRight.ne_nil⟩
      have builtLeft := ihLeft fun other member => known other (by simp [member])
      have builtRight := ihRight fun other member => known other (by simp [member])
      rw [List.length_append, List.length_cons, ← Nat.add_assoc, ← Nat.add_assoc]
      refine .infixed splits fits (builtLeft.mono ?_) (builtRight.mono ?_)
      · exact Nat.le_add_right _ _
      · exact Nat.add_le_add_right (Nat.le_add_right _ _) _

end Nests

theorem exists_split {trees : List TokenTree} {operator : String}
    (occurs : operator ∈ operators trees) (known : operator ∈ grammar.tiers.flatten) :
    ∃ split, split? grammar trees = some split := by
  obtain ⟨looser, tier, tighter, same, member, -⟩ := Grammar.exists_tier known
  obtain ⟨tree, inTrees, isOperator⟩ := mem_operators_iff.mp occurs
  obtain ⟨index, found⟩ :
      ∃ index, grammar.tiers.findSome? (tierIndex? grammar trees) = some index :=
    Option.ne_none_iff_exists'.mp fun nowhere => by
      have notHere := List.findSome?_eq_none_iff.mp nowhere tier (by simp [same])
      exact tierIndex?_eq_none_iff.mp notHere operator member tree inTrees isOperator
  obtain ⟨other, -, picks⟩ := List.exists_of_findSome?_eq_some found
  obtain ⟨⟨spelling, -, occurrence⟩, -⟩ := tierIndex?_eq_some_iff.mp picks
  obtain ⟨before, root, after, rfl, rfl, isRoot, -⟩ := occurrence?_eq_some_iff.mp occurrence
  exact ⟨_, by rw [split?, found]; exact splitAt?_append isRoot before after⟩

/-- Every chain has a tree.  The induction is on its length; each side of the root is shorter. -/
theorem IsChain.exists_nests (uniform : HasUniformTiers grammar) {room : Nat}
    {trees : List TokenTree}
    (chain : IsChain grammar room trees) :
    ∃ expr, Nests (IsRoot grammar) (BuildsAlone grammar room) trees expr := by
  have noOperator : ∀ tree, (∃ expr, BuildsAlone grammar room tree expr) → tree.operator? = none :=
    fun tree ⟨_, isOperand⟩ => isOperand.operator?_eq_none
  induction size : trees.length using Nat.strong_induction_on generalizing trees with
  | _ length ih =>
      by_cases none : operators trees = []
      · cases chain with
        | operand given =>
            obtain ⟨expr, isOperand⟩ := given
            exact ⟨expr, .operand isOperand⟩
        | longer given isOperator _ _ =>
            rw [operators, List.filterMap_cons_none (noOperator _ given), ← operators,
              operators_cons isOperator] at none
            cases none
      · obtain ⟨operator, occurs⟩ := List.exists_mem_of_ne_nil _ none
        obtain ⟨split, splits⟩ := exists_split occurs (chain.known_of_mem noOperator occurs)
        obtain ⟨tree, isOperator, samePosition, rfl⟩ := split?_eq_some splits
        have known := chain.known_of_mem noOperator
          (mem_operators_iff.mpr ⟨tree, by simp, isOperator⟩)
        have root := (split?_eq_root_iff uniform isOperator known).mp (by rw [samePosition, splits])
        obtain ⟨chainBefore, chainAfter⟩ := chain.sides noOperator isOperator
        rw [List.length_append, List.length_cons] at size
        obtain ⟨left, nestsLeft⟩ := ih _ (by omega) chainBefore rfl
        obtain ⟨right, nestsRight⟩ := ih _ (by omega) chainAfter rfl
        exact ⟨_, .node isOperator root nestsLeft nestsRight⟩

/-- A chain of binary operators has one tree with the roots that the grammar chooses, and this is
what is built once the nesting limit allows it.  Where the right-associative operators of a tier are
spelled alike, they all nest to the right. -/
theorem build_chain {room : Nat} {trees : List TokenTree}
    (binary : ∀ operator ∈ grammar.tiers.flatten, IsBinary grammar operator)
    (uniform : HasUniformTiers grammar)
    (chain : IsChain grammar room trees) :
    ∃ expr,
      (∀ other, Nests (IsRoot grammar) (BuildsAlone grammar room) trees other ↔ other = expr) ∧
      (∃ depth ≤ room + (operators trees).length,
        IsThreshold (fun maxDepth => build grammar maxDepth trees) depth (.ok expr)) ∧
      ((∀ operator ∈ operators trees, ∀ other ∈ operators trees,
          grammar.isRightAssociative operator = true →
            grammar.tierOf other = grammar.tierOf operator → other = operator) →
        Nests (IsUsualRoot grammar) (BuildsAlone grammar room) trees expr) := by
  have noOperator : ∀ tree, (∃ expr, BuildsAlone grammar room tree expr) → tree.operator? = none :=
    fun tree ⟨_, isOperand⟩ => isOperand.operator?_eq_none
  have known (operator : String) (member : operator ∈ operators trees) :
      operator ∈ grammar.tiers.flatten ∧ IsBinary grammar operator :=
    have inGrammar := chain.known_of_mem noOperator member
    ⟨inGrammar, binary operator inGrammar⟩
  have built {other : Expr}
      (nests : Nests (IsRoot grammar) (BuildsAlone grammar room) trees other) :
      build grammar (room + (operators trees).length) trees = .ok other := by
    have builds := nests.builds uniform known
    rw [Nat.add_right_comm] at builds
    exact builds.ok _
  obtain ⟨expr, nests⟩ := chain.exists_nests uniform
  refine ⟨expr, fun other => ⟨fun nestsOther => ?_, fun same => same ▸ nests⟩,
    exists_isThreshold_build (built nests), fun alike => ?_⟩
  · exact Except.ok.inj ((built nestsOther).symm.trans (built nests))
  · refine nests.mono fun before operator after within root => root.isUsualRoot ?_
    intro rightward other member
    exact alike operator (within (by simp)) other (within (by simp [member])) rightward

/-- A tier with two right-associative spellings. -/
def powers : Grammar :=
  { Grammar.standard with
    tiers := [["+", "-"], ["^", "**"]]
    rightAssociative := .ofList ["^", "**"]
    prefixOperators := .ofList []
    suffixOperators := .ofList [] }

def nameLeaf (text : String) (position : Nat) : TokenTree :=
  .leaf ⟨.identifier, some text, position⟩

def operatorLeaf (text : String) (position : Nat) : TokenTree :=
  .leaf ⟨.operator, some text, position⟩

theorem operator?_operatorLeaf (text : String) (position : Nat) :
    (operatorLeaf text position).operator? = some text := rfl

/-- The trees of `b ^ c ** d`. -/
def mixedPowers (start : Nat) : List TokenTree :=
  [nameLeaf "b" start, operatorLeaf "^" (start + 2), nameLeaf "c" (start + 4),
    operatorLeaf "**" (start + 6), nameLeaf "d" (start + 9)]

theorem isChain_mixedPowers (start : Nat) : IsChain powers 0 (mixedPowers start) :=
  .longer ⟨_, rfl⟩ (operator?_operatorLeaf "^" _) (by decide) <|
    .longer ⟨_, rfl⟩ (operator?_operatorLeaf "**" _) (by decide) <| .operand ⟨_, rfl⟩

theorem hasUniformTiers_powers : HasUniformTiers powers := by
  unfold HasUniformTiers
  decide

/-- The powers of `a - b ^ c ** d` nest to the left. -/
theorem build_chain_of_powers :
    let power : Expr := .operation "**" 10
      (some (.operation "^" 6 (some (.identifier "b" 4)) (some (.identifier "c" 8))))
      (some (.identifier "d" 13))
    ∃ depth ≤ 3, IsThreshold
      (fun maxDepth =>
        build powers maxDepth (nameLeaf "a" 0 :: operatorLeaf "-" 2 :: mixedPowers 4))
      depth (.ok (.operation "-" 2 (some (.identifier "a" 0)) (some power))) := by
  intro power
  have chain : IsChain powers 0 (nameLeaf "a" 0 :: operatorLeaf "-" 2 :: mixedPowers 4) :=
    .longer ⟨_, rfl⟩ (operator?_operatorLeaf "-" _) (by decide) (isChain_mixedPowers 4)
  obtain ⟨expr, -, ⟨depth, bound, threshold⟩, -⟩ :=
    build_chain (by simp only [IsBinary]; decide) hasUniformTiers_powers chain
  have built : build powers 3 (nameLeaf "a" 0 :: operatorLeaf "-" 2 :: mixedPowers 4) =
      .ok (.operation "-" 2 (some (.identifier "a" 0)) (some power)) := rfl
  rw [(threshold.of_ok built).2] at threshold
  exact ⟨depth, bound, threshold⟩

/-- The spellings of a right-associative tier do not nest to the right when they are mixed. -/
theorem not_build_chain_usual :
    ¬ ∀ (grammar : Grammar) (room : Nat) (trees : List TokenTree),
      grammar.tiers.Pairwise List.Disjoint →
      grammar.prefixOperators = .ofList [] → grammar.suffixOperators = .ofList [] →
      HasUniformTiers grammar → IsChain grammar room trees →
      ∃ expr, Nests (IsUsualRoot grammar) (BuildsAlone grammar room) trees expr ∧
        ∃ depth, IsThreshold (fun maxDepth => build grammar maxDepth trees) depth (.ok expr) := by
  intro usual
  obtain ⟨expr, nests, depth, threshold⟩ := usual powers 0 (mixedPowers 0)
    (by simp [powers, List.Disjoint]) rfl rfl hasUniformTiers_powers (isChain_mixedPowers 0)
  have built : build powers 2 (mixedPowers 0) = .ok (.operation "**" 6
      (some (.operation "^" 2 (some (.identifier "b" 0)) (some (.identifier "c" 4))))
      (some (.identifier "d" 9))) := rfl
  obtain rfl := Except.ok.inj (threshold.of_ok built).2
  generalize whole : mixedPowers 0 = trees at nests
  generalize leftward : Expr.operation "**" 6 _ _ = expr at nests
  unfold mixedPowers at whole
  cases nests with
  | operand given => cases whole
  | @node before after tree operator _ _ isOperator root _ _ =>
      -- The power that is written last has the other one in front of it.
      obtain rfl : "**" = operator := by
        injection leftward
      match before with
      | [] | [_] | [_, _] | [_, _, _, _] =>
          cases whole
          exact absurd isOperator (by decide)
      | [_, _, _] =>
          cases whole
          exact root.rightward rfl "^" (by decide) (by decide)
      | _ :: _ :: _ :: _ :: _ :: _ => simp at whole

end Formula.Expr

import Formula.Compiled
import Formula.Proofs.Expr.Precedence
import Formula.Proofs.Expr.Printing

/-!
# Compiling a print

Grouping and building undo the printing of an expression node by node.  With what the lexer and
folding make of a print, compiling it gives the expression back.
-/

namespace Formula

namespace Expr

/-! ## Grouping gives the tree of the print -/

mutual

/-- The token tree of the print. -/
def tree : Expr → TokenTree
  | .number text _ => .leaf ⟨.number, some text, 0⟩
  | .string content _ => .leaf ⟨.stringLiteral, some content, 0⟩
  | .identifier name _ => .leaf ⟨.identifier, some name, 0⟩
  | .call name _ arguments => .call name 0 (argumentTrees arguments)
  | .operation operator _ left right =>
      .group 0 (operandTrees left ++ .leaf ⟨.operator, some operator, 0⟩ :: operandTrees right)

def operandTrees : Option Expr → List TokenTree
  | none => []
  | some expr => [tree expr]

def argumentTrees : List (Option Expr) → List (List TokenTree)
  | [] => []
  | argument :: arguments => operandTrees argument :: argumentTrees arguments

end

theorem argumentTrees_eq_map (arguments : List (Option Expr)) :
    argumentTrees arguments = arguments.map operandTrees := by
  induction arguments with
  | nil => rfl
  | cons argument arguments ih => rw [argumentTrees, ih, List.map_cons]

open TokenTree (Groups groups_nil groups_leaf groupOnto_leaf groupOnto_parenthesised splitArguments
  countAll countArguments)

theorem groups_intercalate {room : Nat} {parts : List (Option Expr)}
    (each : ∀ part ∈ parts, Groups room (operandTokens part) (operandTrees part)) :
    Groups room ([Token.comma].intercalate (parts.map operandTokens))
      ([TokenTree.leaf .comma].intercalate (parts.map operandTrees)) := by
  induction parts with
  | nil => exact groups_nil room
  | cons part parts ih =>
      obtain ⟨first, each⟩ := List.forall_mem_cons.mp each
      cases parts with
      | nil => simpa using first
      | cons second parts =>
          have separated := first.separated (ih each) (.inr (rfl : Token.comma.kind = .comma))
          simpa [List.intercalate_cons_cons] using separated

theorem isComma_tree (expr : Expr) : expr.tree.isComma = false := by
  cases expr <;> rfl

/-- Splitting at the commas gives the arguments back, unless the only one is empty. -/
theorem splitArguments_intercalate {arguments : List (Option Expr)}
    (notSingle : arguments ≠ [none]) :
    splitArguments ([TokenTree.leaf .comma].intercalate (arguments.map operandTrees)) =
      arguments.map operandTrees := by
  cases arguments with
  | nil => rfl
  | cons argument arguments =>
      have noComma : ∀ part ∈ (argument :: arguments).map operandTrees,
          ∀ tree ∈ part, tree.isComma = false := by
        rw [List.forall_mem_map]
        intro operand _
        cases operand with
        | none => simp [operandTrees]
        | some expr => simpa [operandTrees] using isComma_tree expr
      have separates : (TokenTree.leaf .comma).isComma = true := rfl
      have split := TokenTree.splitAtCommas_intercalate separates (by simp) noComma
      -- Empty parentheses hold no argument, so only here the lone empty one matters.
      cases content : [TokenTree.leaf .comma].intercalate ((argument :: arguments).map operandTrees)
        with
      | nil =>
          rw [content] at split
          obtain ⟨empty, none⟩ := List.cons.inj split
          obtain rfl : arguments = [] := by simpa using none.symm
          cases argument with
          | none => contradiction
          | some expr => cases empty
      | cons tree trees =>
          rw [content] at split
          exact split

theorem groups_operand {operand : Option Expr} {room : Nat}
    (each : ∀ expr, some expr = operand → Groups expr.tree.count expr.tokens [expr.tree])
    (bound : countAll (operandTrees operand) ≤ room) :
    Groups room (operandTokens operand) (operandTrees operand) := by
  cases operand with
  | none => exact groups_nil room
  | some expr => exact (each expr rfl).mono bound

theorem groups_operation {operator : String} {position : Nat} {left right : Option Expr}
    (ofLeft : ∀ expr, some expr = left → Groups expr.tree.count expr.tokens [expr.tree])
    (ofRight : ∀ expr, some expr = right → Groups expr.tree.count expr.tokens [expr.tree]) :
    Groups (tree (.operation operator position left right)).count
      (tokens (.operation operator position left right))
      [tree (.operation operator position left right)] := by
  let leaf : TokenTree := .leaf ⟨.operator, some operator, 0⟩
  have sameCount := TokenTree.countAll_append (operandTrees left) (leaf :: operandTrees right)
  rw [countAll] at sameCount
  have content : Groups (countAll (operandTrees left ++ leaf :: operandTrees right)) _ _ :=
    Groups.separated (groups_operand ofLeft (by omega)) (groups_operand ofRight (by omega))
      (.inl (rfl : Token.kind ⟨.operator, some operator, 0⟩ = .operator))
  rw [tree, TokenTree.count, tokens]
  have enclosed := content.parenthesised (rfl : Token.opening.kind = _)
    (rfl : Token.closing.kind = _)
  simpa [Token.opening] using enclosed

theorem groups_call {name : String} {position : Nat} {arguments : List (Option Expr)}
    (notSingle : arguments ≠ [none])
    (each : ∀ expr, some expr ∈ arguments → Groups expr.tree.count expr.tokens [expr.tree]) :
    Groups (tree (.call name position arguments)).count (tokens (.call name position arguments))
      [tree (.call name position arguments)] := by
  have content : Groups (countArguments (arguments.map operandTrees))
      ([Token.comma].intercalate (arguments.map operandTokens))
      ([TokenTree.leaf .comma].intercalate (arguments.map operandTrees)) := by
    refine groups_intercalate fun part isPart => groups_operand ?_ ?_
    · rintro expr rfl
      exact each expr isPart
    · exact TokenTree.countAll_le_countArguments (List.mem_map_of_mem isPart)
  intro maxDepth frames level rest enough noName
  rw [tree, TokenTree.count, argumentTrees_eq_map] at enough
  rw [tokens, tree, argumentTokens_eq_map, argumentTrees_eq_map]
  simp only [List.cons_append, List.append_assoc, List.nil_append]
  rw [groupOnto_leaf (by simp) (by simp), ← List.cons_append,
    groupOnto_parenthesised content rfl rfl enough]
  simp [TokenTree.Frame.close, splitArguments_intercalate notSingle, Token.lexeme]

theorem Printable.groups {expr : Expr} (printable : Printable expr) :
    Groups expr.tree.count expr.tokens [expr.tree] := by
  induction printable with
  | number => exact groups_leaf (by simp) (by simp) _
  | string => exact groups_leaf (by simp) (by simp) _
  | identifier => exact groups_leaf (by simp) (by simp) _
  | call _ notSingle _ ih => exact groups_call notSingle ih
  | binary _ _ _ _ ihLeft ihRight =>
      refine groups_operation ?_ ?_
      · rintro _ ⟨⟩
        exact ihLeft
      · rintro _ ⟨⟩
        exact ihRight
  | negation _ ih =>
      refine groups_operation ?_ ?_
      · rintro _ ⟨⟩
      · rintro _ ⟨⟩
        exact ih
  | factorial _ ih =>
      refine groups_operation ?_ ?_
      · rintro _ ⟨⟩
        exact ih
      · rintro _ ⟨⟩

theorem Printable.ofTokens {expr : Expr} (printable : Printable expr) {maxDepth : Nat}
    (enough : expr.tree.count ≤ maxDepth) :
    TokenTree.ofTokens maxDepth expr.tokens = .ok [expr.tree] :=
  printable.groups.ofTokens enough

/-! ## Building gives the expression -/

theorem derives_group {left right : List TokenTree} {operator : String} {first second : Expr}
    (isSpelling : operator ∈ Grammar.standard.spellings) (isBinary : operator ≠ "!")
    (ofLeft : Derives atomTier left first) (ofRight : Derives atomTier right second) :
    Derives atomTier [.group 0 (left ++ .leaf ⟨.operator, some operator, 0⟩ :: right)]
      (.operation operator 0 (some first) (some second)) := by
  have tiers : ∀ operator ∈ Grammar.standard.spellings, operator ≠ "!" →
      operator = "**" ∨
        tierOf operator ≤ 10 ∧ operator ∈ spellingsOfTier (tierOf operator) := by
    rw [Lexer.spellings_standard]
    decide
  have isOperator :
      (TokenTree.leaf ⟨.operator, some operator, 0⟩).operator? = some operator := rfl
  obtain rfl | ⟨bound, member⟩ := tiers operator isSpelling isBinary
  · have power := Derives.power isOperator (ofLeft.loosen (by decide)) (ofRight.loosen (by decide))
    exact .group (power.loosen (by decide))
  · have belowLeft : tierOf operator ≤ atomTier := Nat.le_trans bound (by decide)
    have belowRight : tierOf operator + 1 ≤ atomTier := by
      simp only [atomTier]
      omega
    have chain := Derives.chain bound isOperator member (ofLeft.loosen belowLeft)
      (ofRight.loosen belowRight)
    exact .group (chain.loosen (Nat.le_add_left 1 _))

theorem Printable.derives {expr : Expr} (printable : Printable expr) :
    Derives atomTier [expr.tree] (expr.relocate origin) := by
  induction printable with
  | number => exact .number rfl
  | string => exact .string rfl
  | identifier => exact .identifier rfl
  | @call name position arguments _ _ _ ih =>
      rw [tree, argumentTrees_eq_map, relocate_call]
      refine .call ?_ fun argument value member => ?_
      · rw [List.map_map, List.map_map]
        refine List.map_congr_left fun operand _ => ?_
        cases operand with
        | none => rfl
        | some expr => rfl
      · rw [List.zip_map'] at member
        obtain ⟨operand, isArgument, same⟩ := List.mem_map.mp member
        cases operand with
        | none => cases same
        | some expr =>
            cases same
            exact (ih expr isArgument).loosen (by decide)
  | binary isSpelling isBinary _ _ ihLeft ihRight =>
      exact derives_group isSpelling isBinary ihLeft ihRight
  | negation _ ih =>
      have negation := @Derives.negation _ (.leaf ⟨.operator, some "!", 0⟩) _ rfl ih
      exact .group (negation.loosen (by decide))
  | factorial _ ih =>
      have factorial := @Derives.factorial _ (.leaf ⟨.operator, some "!", 0⟩) _ rfl
        (ih.loosen (by decide))
      exact .group (factorial.loosen (by decide))

theorem Printable.build {expr : Expr} (printable : Printable expr) {maxDepth : Nat}
    (enough : expr.tree.count ≤ maxDepth) :
    Expr.build .standard maxDepth [expr.tree] = .ok (expr.relocate origin) := by
  refine buildWithin_eq_ok_iff.mpr (printable.derives.builds ?_)
  simp only [countAll]
  omega

end Expr

theorem relocateOutcome_eq_ok {α : Type} {move : Nat → Nat} {relocate : α → α}
    {outcome : Except Error α} {result : α}
    (moved : relocateOutcome move relocate outcome = .ok result) :
    ∃ before, outcome = .ok before ∧ relocate before = result := by
  cases outcome with
  | ok before => exact ⟨before, rfl, Except.ok.inj moved⟩
  | error error => cases moved

/-- Compiling the print of an expression gives the expression back, up to positions. -/
theorem Compiled.ofText_render {σ : Type} {configuration : Configuration σ}
    (standard : configuration.grammar = .standard) {expr : Expr} (printable : expr.Printable)
    (enough : expr.tree.count ≤ configuration.maxDepth) :
    ∃ compiled, Compiled.ofText configuration expr.render = .ok compiled ∧
      compiled.root.relocate origin = expr.relocate origin := by
  obtain ⟨tokens, tokenized, sameTokens⟩ := printable.tokenize
  have moved : relocateOutcome origin (List.map (TokenTree.relocate origin))
      (TokenTree.ofTokens configuration.maxDepth (Token.foldSigns .standard tokens)) =
        .ok [expr.tree] := by
    rw [← TokenTree.ofTokens_relocate, ← Token.foldSigns_relocate, sameTokens,
      printable.keeps.foldSigns, printable.ofTokens enough]
  obtain ⟨trees, grouped, sameTrees⟩ := relocateOutcome_eq_ok moved
  have moved : relocateOutcome origin (Expr.relocate origin)
      (Expr.build .standard configuration.maxDepth trees) = .ok (expr.relocate origin) := by
    rw [← Expr.build_relocate, sameTrees, printable.build enough]
  obtain ⟨root, built, sameRoot⟩ := relocateOutcome_eq_ok moved
  have valid : Grammar.standard.validate = .ok () := by decide
  have compiled : Expr.ofText .standard configuration.maxDepth expr.render = .ok root :=
    bind_eq_ok_iff.mpr ⟨(), valid, bind_eq_ok_iff.mpr ⟨tokens, tokenized,
      bind_eq_ok_iff.mpr ⟨trees, grouped, built⟩⟩⟩
  rw [← standard] at compiled
  exact ⟨⟨root, configuration⟩, bind_eq_ok_iff.mpr ⟨root, compiled, rfl⟩, sameRoot⟩

/-- The difference of a call with an empty argument and a negated number. -/
def Expr.difference : Expr :=
  .operation "-" 0 (some (.call "f" 0 [none, some (.string "a\"b" 0)]))
    (some (.operation "!" 0 none (some (.number "1.5e3" 0))))

theorem Expr.printable_difference : difference.Printable := by
  refine .binary (by decide) (by decide) (.call ?_ (by simp) ?_) (.negation (.number ?_))
  · have written : "f".toList = ['f'] := rfl
    simp [IsName, written]
    decide
  · simp [Printable.string]
  · rfl

theorem Compiled.ofText_render_difference :
    Expr.difference.render = "( f ( , \"a\\\"b\" ) - ( ! 1.5e3 ) )" ∧
      Expr.difference.Printable ∧
        ∃ compiled, Compiled.ofText (.ofType .float64 : Configuration Unit)
            Expr.difference.render = .ok compiled ∧
          compiled.root.relocate origin = Expr.difference.relocate origin := by
  have enough : Expr.difference.tree.count ≤ Configuration.defaultMaxDepth := by decide
  exact ⟨by decide, Expr.printable_difference,
    Compiled.ofText_render rfl Expr.printable_difference enough⟩

end Formula

import Formula.Expr.Builder

/-!
# Where a sequence splits

A split takes one operator out of a sequence and keeps everything on either side of it.  In a tier
without right-associative operators the last operator of the tier splits, whatever its spelling.
-/

namespace Formula

theorem TokenTree.operator?_eq_some_iff {tree : TokenTree} {spelling : String} :
    tree.operator? = some spelling ↔
      ∃ token, tree = .leaf token ∧ token.kind = .operator ∧ token.lexeme = spelling := by
  cases tree with
  | leaf token => simp [TokenTree.operator?]
  | group position content => simp [TokenTree.operator?]
  | call name position arguments => simp [TokenTree.operator?]

namespace Expr

/-! ## The last item of a kind -/

theorem lastIndex?_eq_none_iff {α : Type} {found : α → Bool} {items : List α} :
    lastIndex? found items = none ↔ ∀ item ∈ items, found item = false := by
  induction items with
  | nil => simp [lastIndex?]
  | cons item items ih =>
      cases later : lastIndex? found items with
      | none => simp_all [lastIndex?]
      | some index => simp_all [lastIndex?]

theorem lastIndex?_eq_some_iff {α : Type} {found : α → Bool} {items : List α} {index : Nat} :
    lastIndex? found items = some index ↔
      ∃ before item after, items = before ++ item :: after ∧ before.length = index ∧
        found item = true ∧ ∀ other ∈ after, found other = false := by
  induction items generalizing index with
  | nil => simp [lastIndex?]
  | cons first items ih =>
      constructor
      · intro located
        rw [lastIndex?] at located
        cases later : lastIndex? found items with
        | some position =>
            simp only [later, Option.some.injEq] at located
            obtain ⟨before, item, after, rfl, rfl, isFound, noneAfter⟩ := ih.mp later
            exact ⟨first :: before, item, after, rfl, by simpa using located, isFound, noneAfter⟩
        | none =>
            simp only [later, Option.ite_none_right_eq_some, Option.some.injEq] at located
            exact ⟨[], first, items, rfl, by simpa using located.2, located.1,
              lastIndex?_eq_none_iff.mp later⟩
      · rintro ⟨before, item, after, same, rfl, isFound, noneAfter⟩
        rw [lastIndex?]
        cases before with
        | nil =>
            obtain ⟨rfl, rfl⟩ : first = item ∧ items = after := by simpa using same
            simp [lastIndex?_eq_none_iff.mpr noneAfter, isFound]
        | cons head before =>
            obtain ⟨rfl, rfl⟩ : first = head ∧ items = before ++ item :: after := by
              simpa using same
            simp [ih.mpr ⟨before, item, after, rfl, rfl, isFound, noneAfter⟩]

theorem findIdx?_eq_some_iff_append {α : Type} {found : α → Bool} {items : List α} {index : Nat} :
    items.findIdx? found = some index ↔
      ∃ before item after, items = before ++ item :: after ∧ before.length = index ∧
        found item = true ∧ ∀ other ∈ before, found other = false := by
  induction items generalizing index with
  | nil => simp
  | cons first items ih =>
      rw [List.findIdx?_cons]
      constructor
      · intro located
        split at located
        · rename_i isFound
          obtain rfl := Option.some.inj located
          exact ⟨[], first, items, rfl, rfl, isFound, by simp⟩
        · rename_i notFound
          obtain ⟨position, later, rfl⟩ := Option.map_eq_some_iff.mp located
          obtain ⟨before, item, after, rfl, rfl, isFound, noneBefore⟩ := ih.mp later
          exact ⟨first :: before, item, after, rfl, rfl, isFound, by simp_all⟩
      · rintro ⟨before, item, after, same, rfl, isFound, noneBefore⟩
        cases before with
        | nil =>
            obtain ⟨rfl, rfl⟩ : first = item ∧ items = after := by simpa using same
            simp [isFound]
        | cons head before =>
            obtain ⟨rfl, rfl⟩ : first = head ∧ items = before ++ item :: after := by
              simpa using same
            have later : (before ++ item :: after).findIdx? found = some before.length :=
              ih.mpr ⟨before, item, after, rfl, rfl, isFound,
                fun other member => noneBefore other (List.mem_cons_of_mem _ member)⟩
            simp [noneBefore first (by simp), later]

theorem later_lastIndex? {α : Type} (left right : α → Bool) (items : List α) :
    later (lastIndex? left items) (lastIndex? right items) =
      lastIndex? (fun item => left item || right item) items := by
  induction items with
  | nil => rfl
  | cons item items ih =>
      rw [lastIndex?, lastIndex?, lastIndex?, ← ih]
      by_cases onLeft : left item = true <;> by_cases onRight : right item = true <;>
        cases lastIndex? left items <;> cases lastIndex? right items <;>
          simp [later, onLeft, onRight]

/-! ## The operator of a tier that splits -/

theorem tierIndex?_of_leftAssociative {grammar : Grammar} {tier : List String}
    (leftward : ∀ spelling ∈ tier, grammar.isRightAssociative spelling = false)
    (trees : List TokenTree) :
    tierIndex? grammar trees tier =
      lastIndex? (fun tree => tier.any fun spelling => isSpelling spelling tree) trees := by
  suffices ∀ (found : TokenTree → Bool),
      tier.foldl (fun index spelling => later index (occurrence? grammar spelling trees))
          (lastIndex? found trees) =
        lastIndex? (fun tree => found tree || tier.any fun spelling => isSpelling spelling tree)
          trees by
    have nothing : lastIndex? (fun _ : TokenTree => false) trees = none :=
      lastIndex?_eq_none_iff.mpr fun _ _ => rfl
    simpa [tierIndex?, nothing] using this fun _ => false
  induction tier with
  | nil => simp
  | cons spelling tier ih =>
      intro found
      have last : occurrence? grammar spelling trees = lastIndex? (isSpelling spelling) trees := by
        simp [occurrence?, leftward spelling]
      rw [List.foldl_cons, last, later_lastIndex?,
        ih fun other member => leftward other (List.mem_cons_of_mem _ member)]
      simp [Bool.or_assoc]

theorem occurrence?_eq_none_iff {grammar : Grammar} {spelling : String}
    {trees : List TokenTree} :
    occurrence? grammar spelling trees = none ↔
      ∀ tree ∈ trees, tree.operator? ≠ some spelling := by
  unfold occurrence?
  split
  · simp [List.findIdx?_eq_none_iff, isSpelling]
  · simp [lastIndex?_eq_none_iff, isSpelling]

theorem later_eq_none_iff {left right : Option Nat} :
    later left right = none ↔ left = none ∧ right = none := by
  cases left <;> cases right <;> simp [later]

theorem tierIndex?_eq_none_iff {grammar : Grammar} {trees : List TokenTree}
    {tier : List String} :
    tierIndex? grammar trees tier = none ↔
      ∀ spelling ∈ tier, ∀ tree ∈ trees, tree.operator? ≠ some spelling := by
  suffices ∀ index : Option Nat,
      tier.foldl (fun index spelling => later index (occurrence? grammar spelling trees)) index =
          none ↔
        index = none ∧ ∀ spelling ∈ tier, ∀ tree ∈ trees, tree.operator? ≠ some spelling by
    simpa [tierIndex?] using this none
  induction tier with
  | nil => simp
  | cons spelling tier ih =>
      intro index
      rw [List.foldl_cons, ih, later_eq_none_iff, occurrence?_eq_none_iff]
      simp [and_assoc]

theorem tierIndex?_singleton_of_rightAssociative {grammar : Grammar} {spelling : String}
    (rightward : grammar.isRightAssociative spelling = true) (trees : List TokenTree) :
    tierIndex? grammar trees [spelling] = trees.findIdx? (isSpelling spelling) := by
  simp only [tierIndex?, List.foldl_cons, List.foldl_nil, occurrence?, rightward, if_true]
  cases trees.findIdx? (isSpelling spelling) <;> rfl

/-! ## Splitting -/

theorem splitAt?_append {tree : TokenTree} {operator : String}
    (isOperator : tree.operator? = some operator) (before after : List TokenTree) :
    splitAt? (before ++ tree :: after) before.length =
      some ⟨before, operator, tree.position, after⟩ := by
  simp [splitAt?, isOperator]

theorem splitAt?_eq_some {trees : List TokenTree} {index : Nat} {split : Split}
    (found : splitAt? trees index = some split) :
    ∃ tree, tree.operator? = some split.operator ∧ tree.position = split.position ∧
      trees = split.before ++ tree :: split.after := by
  unfold splitAt? at found
  split at found
  · rename_i tree after remaining
    obtain ⟨operator, isOperator, rfl⟩ := Option.map_eq_some_iff.mp found
    refine ⟨tree, isOperator, rfl, ?_⟩
    rw [← remaining, List.take_append_drop]
  · contradiction

/-- A split loses nothing but the leaf of its operator. -/
theorem split?_eq_some {grammar : Grammar} {trees : List TokenTree} {split : Split}
    (found : split? grammar trees = some split) :
    ∃ tree, tree.operator? = some split.operator ∧ tree.position = split.position ∧
      trees = split.before ++ tree :: split.after := by
  obtain ⟨index, -, located⟩ := Option.bind_eq_some_iff.mp found
  exact splitAt?_eq_some located

theorem split?_eq_none {grammar : Grammar} {trees : List TokenTree}
    (noOperator : ∀ tree ∈ trees, tree.operator? = none) : split? grammar trees = none := by
  cases splits : split? grammar trees with
  | none => rfl
  | some split =>
      obtain ⟨tree, isOperator, -, rfl⟩ := split?_eq_some splits
      simp [noOperator tree (by simp)] at isOperator

theorem split?_singleton {grammar : Grammar} {tree : TokenTree}
    (isOperand : tree.operator? = none) : split? grammar [tree] = none :=
  split?_eq_none (by simpa using isOperand)

end Expr

end Formula

import Formula.Proofs.Expr.Nesting

/-!
# Precedence in the standard grammar

The languages of the twelve tiers are given by rules, each sequence with its expression.  The
builder accepts the language of the loosest tier and makes the expression that the rules assign;
whatever else it is given, it reports a structural error.
-/

namespace Formula.Expr

open TokenTree (countAll)

/-! ## The languages of the tiers -/

/-- The spellings of a tier.  Tiers are counted from one. -/
def spellingsOfTier : Nat → List String
  | 0 => []
  | tier + 1 => Grammar.standardTiers[tier]?.getD []

/-- The tier of the operands that hold no operator. -/
def atomTier : Nat := 13

/-- `Derives tier trees expr`: the sequence is in the language of the tier, as the expression.  A
leading minus subtracts from zero, a leading plus leaves its operand alone. -/
inductive Derives : (tier : Nat) → List TokenTree → Expr → Prop
  | tighter {tier : Nat} {trees : List TokenTree} {expr : Expr} :
      Derives (tier + 1) trees expr → Derives tier trees expr
  | chain {tier : Nat} {before after : List TokenTree} {tree : TokenTree} {operator : String}
      {left right : Expr} :
      tier ≤ 10 → tree.operator? = some operator → operator ∈ spellingsOfTier tier →
      Derives tier before left → Derives (tier + 1) after right →
      Derives tier (before ++ tree :: after)
        (.operation operator tree.position (some left) (some right))
  | minus {after : List TokenTree} {tree : TokenTree} {operand : Expr} :
      tree.operator? = some "-" → Derives 10 after operand →
      Derives 9 (tree :: after)
        (.operation "-" tree.position (some (.number "0" tree.position)) (some operand))
  | plus {after : List TokenTree} {tree : TokenTree} {operand : Expr} :
      tree.operator? = some "+" → Derives 10 after operand → Derives 9 (tree :: after) operand
  | power {before after : List TokenTree} {tree : TokenTree} {left right : Expr} :
      tree.operator? = some "**" → Derives 12 before left → Derives 11 after right →
      Derives 11 (before ++ tree :: after)
        (.operation "**" tree.position (some left) (some right))
  | factorial {before : List TokenTree} {tree : TokenTree} {operand : Expr} :
      tree.operator? = some "!" → Derives 12 before operand →
      Derives 12 (before ++ [tree]) (.operation "!" tree.position (some operand) none)
  | negation {after : List TokenTree} {tree : TokenTree} {operand : Expr} :
      tree.operator? = some "!" → Derives atomTier after operand →
      Derives 12 (tree :: after) (.operation "!" tree.position none (some operand))
  | number {token : Token} :
      token.kind = .number →
      Derives atomTier [.leaf token] (.number token.lexeme token.position)
  | string {token : Token} :
      token.kind = .stringLiteral →
      Derives atomTier [.leaf token] (.string token.lexeme token.position)
  | identifier {token : Token} :
      token.kind = .identifier →
      Derives atomTier [.leaf token] (.identifier token.lexeme token.position)
  | group {position : Nat} {content : List TokenTree} {expr : Expr} :
      Derives 1 content expr → Derives atomTier [.group position content] expr
  | call {name : String} {position : Nat} {arguments : List (List TokenTree)}
      {values : List (Option Expr)} :
      values.map Option.isNone = arguments.map List.isEmpty →
      (∀ argument value, (argument, some value) ∈ arguments.zip values →
        Derives 1 argument value) →
      Derives atomTier [.call name position arguments] (.call name position values)

/-! ## Tiers -/

/-- The tier that a spelling belongs to. -/
def tierOf (spelling : String) : Nat :=
  Grammar.standardTiers.findIdx (List.contains · spelling) + 1

theorem spellingsOfTier_of_append {looser tighter : List (List String)} {tier : List String}
    (same : Grammar.standardTiers = looser ++ tier :: tighter) :
    spellingsOfTier (looser.length + 1) = tier := by
  simp [spellingsOfTier, same]

theorem tierOf_eq {tier : Nat} {spelling : String} (member : spelling ∈ spellingsOfTier tier) :
    tierOf spelling = tier := by
  have each : ∀ index < 12, ∀ spelling ∈ spellingsOfTier (index + 1),
      tierOf spelling = index + 1 := by decide
  cases tier with
  | zero => simp [spellingsOfTier] at member
  | succ index =>
      rcases Nat.lt_or_ge index 12 with below | above
      · exact each index below spelling member
      · have outside : Grammar.standardTiers[index]? = none := List.getElem?_eq_none above
        simp [spellingsOfTier, outside] at member

theorem eq_tierOf {tier : Nat} {spelling : String} (member : spelling ∈ spellingsOfTier tier) :
    tier = tierOf spelling :=
  (tierOf_eq member).symm

/-- No operator of the tier stands between the parentheses of the sequence. -/
def Lacks (tier : Nat) (trees : List TokenTree) : Prop :=
  ∀ tree ∈ trees, ∀ spelling ∈ spellingsOfTier tier, tree.operator? ≠ some spelling

def LacksBelow (tier : Nat) (trees : List TokenTree) : Prop :=
  ∀ looser < tier, Lacks looser trees

theorem lacks_append {tier : Nat} {before after : List TokenTree} :
    Lacks tier (before ++ after) ↔ Lacks tier before ∧ Lacks tier after :=
  List.forall_mem_append

theorem lacksBelow_append {tier : Nat} {before after : List TokenTree} :
    LacksBelow tier (before ++ after) ↔ LacksBelow tier before ∧ LacksBelow tier after := by
  simp only [LacksBelow, lacks_append, forall_and]

theorem lacksBelow_cons {tier : Nat} {tree : TokenTree} {trees : List TokenTree} :
    LacksBelow tier (tree :: trees) ↔ LacksBelow tier [tree] ∧ LacksBelow tier trees :=
  @lacksBelow_append tier [tree] trees

theorem lacksBelow_succ {tier : Nat} {trees : List TokenTree} :
    LacksBelow (tier + 1) trees ↔ LacksBelow tier trees ∧ Lacks tier trees := by
  unfold LacksBelow
  grind

theorem LacksBelow.mono {low high : Nat} {trees : List TokenTree}
    (lacks : LacksBelow high trees) (bound : low ≤ high) : LacksBelow low trees := by
  intro looser below
  apply lacks looser
  omega

theorem lacksBelow_of_operator {tier : Nat} {tree : TokenTree} {spelling : String}
    (isOperator : tree.operator? = some spelling) (member : spelling ∈ spellingsOfTier tier) :
    LacksBelow tier [tree] := by
  intro looser below other otherMember found foundMember isFound
  obtain rfl := List.mem_singleton.mp otherMember
  obtain rfl : spelling = found := Option.some.inj (isOperator.symm.trans isFound)
  have := tierOf_eq member
  have := tierOf_eq foundMember
  omega

theorem lacksBelow_of_operand {tree : TokenTree} (isOperand : tree.operator? = none)
    (tier : Nat) : LacksBelow tier [tree] := by
  intro looser _ other otherMember
  obtain rfl := List.mem_singleton.mp otherMember
  simp [isOperand]

/-! ## Splits of the standard grammar -/

theorem rightAssociative_standard {spelling : String} :
    Grammar.standard.isRightAssociative spelling = true ↔ spelling = "**" := by
  simp [Grammar.isRightAssociative, Grammar.standard, SortedSet.contains, SortedSet.ofList,
    SortedSet.insertInto]

/-- A tier splits at its last operator, the tier of the power at its first. -/
theorem tierIndex?_standard_eq_some_iff {tier index : Nat} {trees : List TokenTree} :
    tierIndex? .standard trees (spellingsOfTier tier) = some index ↔
      ∃ before tree after, trees = before ++ tree :: after ∧ before.length = index ∧
        (∃ spelling ∈ spellingsOfTier tier, tree.operator? = some spelling) ∧
        if tier = 11 then Lacks tier before else Lacks tier after := by
  by_cases power : tier = 11
  · subst power
    have onlyPower : spellingsOfTier 11 = ["**"] := by decide
    rw [onlyPower, tierIndex?_singleton_of_rightAssociative (rightAssociative_standard.mpr rfl),
      findIdx?_eq_some_iff_append]
    simp [isSpelling, Lacks, onlyPower]
  · have leftward : ∀ spelling ∈ spellingsOfTier tier,
        Grammar.standard.isRightAssociative spelling = false := by
      intro spelling member
      refine Bool.eq_false_iff.mpr fun rightward => power ?_
      rw [rightAssociative_standard.mp rightward] at member
      exact eq_tierOf member
    rw [tierIndex?_of_leftAssociative leftward, lastIndex?_eq_some_iff]
    simp [isSpelling, Lacks, power]

theorem lacksBelow_iff {looser tighter : List (List String)} {trees : List TokenTree}
    (same : Grammar.standardTiers = looser ++ tighter) :
    LacksBelow (looser.length + 1) trees ↔
      ∀ tier ∈ looser, tierIndex? .standard trees tier = none := by
  have spellings : ∀ index (below : index < looser.length),
      spellingsOfTier (index + 1) = looser[index] := by
    intro index below
    simp [spellingsOfTier, same, List.getElem?_append_left below, below]
  constructor
  · intro lacks tier member
    obtain ⟨index, below, rfl⟩ := List.mem_iff_getElem.mp member
    refine tierIndex?_eq_none_iff.mpr fun spelling isSpelling tree inTrees => ?_
    rw [← spellings index below] at isSpelling
    exact lacks (index + 1) (by omega) tree inTrees spelling isSpelling
  · intro nowhere tier below tree inTrees spelling isSpelling
    cases tier with
    | zero => simp [spellingsOfTier] at isSpelling
    | succ index =>
        have within : index < looser.length := by omega
        rw [spellings index within] at isSpelling
        exact tierIndex?_eq_none_iff.mp (nowhere _ (List.getElem_mem within)) spelling isSpelling
          tree inTrees

theorem standardTiers_of_mem {tier : Nat} {spelling : String}
    (member : spelling ∈ spellingsOfTier tier) :
    ∃ looser tighter, Grammar.standardTiers = looser ++ spellingsOfTier tier :: tighter ∧
      looser.length + 1 = tier := by
  cases tier with
  | zero => simp [spellingsOfTier] at member
  | succ index =>
      cases found : Grammar.standardTiers[index]? with
      | none => simp [spellingsOfTier, found] at member
      | some spellings =>
          obtain ⟨below, rfl⟩ := List.getElem?_eq_some_iff.mp found
          refine ⟨Grammar.standardTiers.take index, Grammar.standardTiers.drop (index + 1), ?_, ?_⟩
          · simp [spellingsOfTier, found]
          · simp only [List.length_take]
            omega

theorem split?_standard_eq_some_iff {trees : List TokenTree} {split : Split} :
    split? .standard trees = some split ↔
      ∃ tree, trees = split.before ++ tree :: split.after ∧
        tree.operator? = some split.operator ∧ tree.position = split.position ∧
        ∃ tier, split.operator ∈ spellingsOfTier tier ∧ LacksBelow tier trees ∧
          if tier = 11 then Lacks tier split.before else Lacks tier split.after := by
  constructor
  · intro splits
    obtain ⟨index, located, splitHere⟩ := Option.bind_eq_some_iff.mp splits
    obtain ⟨looser, spellings, tighter, same, found, nowhere⟩ :=
      List.findSome?_eq_some_iff.mp located
    rw [← spellingsOfTier_of_append same] at found
    obtain ⟨before, tree, after, rfl, rfl, ⟨spelling, member, isOperator⟩, lacks⟩ :=
      tierIndex?_standard_eq_some_iff.mp found
    rw [splitAt?_append isOperator] at splitHere
    obtain rfl := Option.some.inj splitHere
    exact ⟨tree, rfl, isOperator, rfl, looser.length + 1, member, (lacksBelow_iff same).mpr nowhere,
      lacks⟩
  · obtain ⟨before, operator, position, after⟩ := split
    rintro ⟨tree, rfl, isOperator, rfl, tier, member, lacksBelow, lacks⟩
    obtain ⟨looser, tighter, same, rfl⟩ := standardTiers_of_mem member
    have found := tierIndex?_standard_eq_some_iff.mpr
      ⟨before, tree, after, rfl, rfl, ⟨operator, member, isOperator⟩, lacks⟩
    have located : Grammar.standardTiers.findSome?
        (tierIndex? .standard (before ++ tree :: after)) = some before.length :=
      List.findSome?_eq_some_iff.mpr
        ⟨looser, _, tighter, same, found, (lacksBelow_iff same).mp lacksBelow⟩
    exact Option.bind_eq_some_iff.mpr ⟨_, located, splitAt?_append isOperator before after⟩

/-- What a split leaves on either side is of the operator's tier, or tighter where the tier does not
go on. -/
theorem sides_of_split?_standard {trees : List TokenTree} {split : Split}
    (splits : split? .standard trees = some split) :
    ∃ tree tier, trees = split.before ++ tree :: split.after ∧
      tree.operator? = some split.operator ∧ tree.position = split.position ∧
      split.operator ∈ spellingsOfTier tier ∧
      LacksBelow tier split.before ∧ LacksBelow tier split.after ∧
      (tier = 11 → LacksBelow 12 split.before) ∧
      (tier ≠ 11 → LacksBelow (tier + 1) split.after) := by
  obtain ⟨tree, same, isOperator, samePosition, tier, member, below, lacks⟩ :=
    split?_standard_eq_some_iff.mp splits
  rw [same, lacksBelow_append, lacksBelow_cons] at below
  obtain ⟨before, -, after⟩ := below
  refine ⟨tree, tier, same, isOperator, samePosition, member, before, after, ?_, ?_⟩
  · rintro rfl
    exact lacksBelow_succ.mpr ⟨before, lacks⟩
  · intro notPower
    rw [if_neg notPower] at lacks
    exact lacksBelow_succ.mpr ⟨after, lacks⟩

theorem prefixOperator_standard {spelling : String} :
    Grammar.standard.isPrefixOperator spelling = true ↔ spelling = "!" := by
  simp [Grammar.isPrefixOperator, Grammar.standard, SortedSet.contains, SortedSet.ofList,
    SortedSet.insertInto]

theorem suffixOperator_standard {spelling : String} :
    Grammar.standard.isSuffixOperator spelling = true ↔ spelling = "!" := by
  simp [Grammar.isSuffixOperator, Grammar.standard, SortedSet.contains, SortedSet.ofList,
    SortedSet.insertInto]

theorem isBinary_standard {spelling : String} :
    IsBinary .standard spelling ↔ spelling ≠ "!" := by
  simp only [IsBinary, ← Bool.not_eq_true, prefixOperator_standard, suffixOperator_standard,
    and_self, ne_eq]

/-! ## Derivations between tiers -/

theorem Derives.loosen {low high : Nat} {trees : List TokenTree} {expr : Expr}
    (bound : low ≤ high) (derives : Derives high trees expr) : Derives low trees expr := by
  revert derives
  induction bound with
  | refl => exact id
  | step _ ih => exact fun derives => ih (.tighter derives)

theorem Derives.ne_nil {tier : Nat} {trees : List TokenTree} {expr : Expr}
    (derives : Derives tier trees expr) : trees ≠ [] := by
  induction derives with
  | tighter _ ih => exact ih
  | _ => simp

/-- A sequence of a tier holds no operator of a looser one. -/
theorem Derives.lacksBelow {tier : Nat} {trees : List TokenTree} {expr : Expr}
    (derives : Derives tier trees expr) : LacksBelow tier trees := by
  induction derives with
  | tighter _ ih => exact ih.mono (by omega)
  | chain _ isOperator member _ _ ihLeft ihRight =>
      have here := lacksBelow_of_operator isOperator member
      exact lacksBelow_append.mpr
        ⟨ihLeft, lacksBelow_cons.mpr ⟨here, ihRight.mono (by omega)⟩⟩
  | minus isOperator _ ih | plus isOperator _ ih =>
      exact lacksBelow_cons.mpr
        ⟨lacksBelow_of_operator isOperator (by decide), ih.mono (by omega)⟩
  | power isOperator _ _ ihLeft ihRight =>
      exact lacksBelow_append.mpr ⟨ihLeft.mono (by omega), lacksBelow_cons.mpr
        ⟨lacksBelow_of_operator isOperator (by decide), ihRight⟩⟩
  | factorial isOperator _ ih =>
      exact lacksBelow_append.mpr ⟨ih, lacksBelow_of_operator isOperator (by decide)⟩
  | negation isOperator _ ih =>
      exact lacksBelow_cons.mpr
        ⟨lacksBelow_of_operator isOperator (by decide), ih.mono (by decide)⟩
  | number kind | string kind | identifier kind =>
      exact lacksBelow_of_operand (by simp [TokenTree.operator?, kind]) _
  | group _ | call _ _ => exact lacksBelow_of_operand rfl _

theorem LacksBelow.le_of_mem {low high : Nat} {trees : List TokenTree} {tree : TokenTree}
    {spelling : String} (lacks : LacksBelow high trees) (inTrees : tree ∈ trees)
    (isOperator : tree.operator? = some spelling) (member : spelling ∈ spellingsOfTier low) :
    high ≤ low :=
  Nat.le_of_not_lt fun below => lacks low below tree inTrees spelling member isOperator

/-- A sequence without operators of the looser tiers belongs to a tighter one. -/
theorem Derives.tighten {low high : Nat} {trees : List TokenTree} {expr : Expr}
    (derives : Derives low trees expr) (bound : low ≤ high) (highest : high ≤ atomTier)
    (lacks : LacksBelow high trees) : Derives high trees expr := by
  -- Only the first rule changes the tier; every other one names the tier of the sequence.
  have stay : ∀ {low : Nat} {trees : List TokenTree} {expr : Expr},
      Derives low trees expr → low ≤ high → high ≤ low → Derives high trees expr :=
    fun derives bound least => Nat.le_antisymm bound least ▸ derives
  induction derives with
  | @tighter low trees expr inner ih =>
      rcases Nat.eq_or_lt_of_le bound with rfl | above
      · exact .tighter inner
      · exact ih above lacks
  | chain leftward isOperator member left right _ _ =>
      exact stay (.chain leftward isOperator member left right) bound
        (lacks.le_of_mem (by simp) isOperator member)
  | minus isOperator operand _ =>
      exact stay (.minus isOperator operand) bound
        (lacks.le_of_mem (by simp) isOperator (by decide))
  | plus isOperator operand _ =>
      exact stay (.plus isOperator operand) bound
        (lacks.le_of_mem (by simp) isOperator (by decide))
  | power isOperator left right _ _ =>
      exact stay (.power isOperator left right) bound
        (lacks.le_of_mem (by simp) isOperator (by decide))
  | factorial isOperator operand _ =>
      exact stay (.factorial isOperator operand) bound
        (lacks.le_of_mem (by simp) isOperator (by decide))
  | negation isOperator operand _ =>
      exact stay (.negation isOperator operand) bound
        (lacks.le_of_mem (by simp) isOperator (by decide))
  | number kind => exact stay (.number kind) bound highest
  | string kind => exact stay (.string kind) bound highest
  | identifier kind => exact stay (.identifier kind) bound highest
  | group content _ => exact stay (.group content) bound highest
  | call same arguments _ => exact stay (.call same arguments) bound highest

/-! ## The builder follows the rules -/

theorem Derives.of_ofLeaf {token : Token} {expr : Expr} (isOperand : ofLeaf token = .ok expr) :
    Derives atomTier [.leaf token] expr := by
  unfold ofLeaf fail at isOperand
  split at isOperand <;> cases isOperand
  · exact .number ‹_›
  · exact .string ‹_›
  · exact .identifier ‹_›

theorem tier_of_binary {tier : Nat} {spelling : String} (member : spelling ∈ spellingsOfTier tier)
    (binary : IsBinary .standard spelling) :
    1 ≤ tier ∧ tier ≤ 10 ∨ tier = 11 ∧ spelling = "**" := by
  obtain ⟨looser, tighter, same, rfl⟩ := standardTiers_of_mem member
  have lengths := congrArg List.length same
  simp only [Grammar.standardTiers, List.length_cons, List.length_nil, List.length_append]
    at lengths
  by_cases power : looser.length + 1 = 11
  · rw [power] at member
    exact .inr ⟨power, by simpa [spellingsOfTier, Grammar.standardTiers] using member⟩
  · by_cases unary : looser.length + 1 = 12
    · rw [unary] at member
      exact absurd (by simpa [spellingsOfTier, Grammar.standardTiers] using member)
        (isBinary_standard.mp binary)
    · omega

theorem Derives.of_builds {levels : Nat} {trees : List TokenTree} {expr : Expr}
    (builds : Builds .standard levels trees expr) : Derives 1 trees expr := by
  induction builds with
  | prefixed splits fits _ ih =>
      obtain ⟨isPrefix, empty, rfl, -⟩ := fits
      obtain ⟨tree, tier, rfl, isOperator, same, member, -, -, -, tighter⟩ :=
        sides_of_split?_standard splits
      have spelled := prefixOperator_standard.mp isPrefix
      rw [spelled] at isOperator member
      obtain rfl : tier = 12 := eq_tierOf member
      rw [empty, spelled, ← same]
      have operand := ih.tighten (by decide) (by decide) (tighter (by decide))
      exact .loosen (by decide) (.negation isOperator operand)
  | suffixed splits fits _ ih =>
      obtain ⟨isSuffix, rfl, empty, -⟩ := fits
      obtain ⟨tree, tier, rfl, isOperator, same, member, left, -⟩ :=
        sides_of_split?_standard splits
      have spelled := suffixOperator_standard.mp isSuffix
      rw [spelled] at isOperator member
      obtain rfl : tier = 12 := eq_tierOf member
      rw [empty, spelled, ← same]
      have operand := ih.tighten (by decide) (by decide) left
      exact .loosen (by decide) (.factorial isOperator operand)
  | infixed splits fits _ _ ihLeft ihRight =>
      obtain ⟨binary, rfl, rfl, -⟩ := fits
      obtain ⟨tree, tier, rfl, isOperator, same, member, left, right, tighterLeft, tighterRight⟩ :=
        sides_of_split?_standard splits
      rw [← same]
      rcases tier_of_binary member binary with ⟨positive, leftward⟩ | ⟨rfl, power⟩
      · have ofLeft := ihLeft.tighten positive (by simp only [atomTier]; omega) left
        have ofRight := ihRight.tighten (by omega) (by simp only [atomTier]; omega)
          (tighterRight (by omega))
        exact .loosen positive (.chain leftward isOperator member ofLeft ofRight)
      · have ofLeft := ihLeft.tighten (by decide) (by decide) (tighterLeft rfl)
        have ofRight := ihRight.tighten (by decide) (by decide) right
        rw [power] at isOperator ⊢
        exact .loosen (by decide) (.power isOperator ofLeft ofRight)
  | negated splits fits _ ih =>
      obtain ⟨-, spelled, empty, rfl, -⟩ := fits
      obtain ⟨tree, tier, rfl, isOperator, same, member, -, -, -, tighter⟩ :=
        sides_of_split?_standard splits
      rw [spelled] at isOperator member
      obtain rfl : tier = 9 := eq_tierOf member
      rw [empty, spelled, ← same]
      have operand := ih.tighten (by decide) (by decide) (tighter (by decide))
      exact .loosen (by decide) (.minus isOperator operand)
  | plain splits fits _ ih =>
      obtain ⟨-, spelled, empty, rfl, -⟩ := fits
      obtain ⟨tree, tier, rfl, isOperator, same, member, -, -, -, tighter⟩ :=
        sides_of_split?_standard splits
      rw [spelled] at isOperator member
      obtain rfl : tier = 9 := eq_tierOf member
      rw [empty]
      have operand := ih.tighten (by decide) (by decide) (tighter (by decide))
      exact .loosen (by decide) (.plus isOperator operand)
  | leaf isOperand => exact .loosen (by decide) (.of_ofLeaf isOperand)
  | group _ ih => exact .loosen (by decide) (.group ih)
  | call same _ ih => exact .loosen (by decide) (.call same ih)

theorem split?_of_derives {tier : Nat} {before after : List TokenTree} {tree : TokenTree}
    {operator : String} {expr : Expr} (derives : Derives tier (before ++ tree :: after) expr)
    (isOperator : tree.operator? = some operator) (member : operator ∈ spellingsOfTier tier)
    (lacks : if tier = 11 then Lacks tier before else Lacks tier after) :
    split? .standard (before ++ tree :: after) = some ⟨before, operator, tree.position, after⟩ :=
  split?_standard_eq_some_iff.mpr
    ⟨tree, rfl, isOperator, rfl, tier, member, derives.lacksBelow, lacks⟩

theorem Derives.lacks {tier : Nat} {trees : List TokenTree} {expr : Expr}
    (derives : Derives (tier + 1) trees expr) : Lacks tier trees :=
  derives.lacksBelow tier (by omega)

theorem Derives.builds {tier : Nat} {trees : List TokenTree} {expr : Expr}
    (derives : Derives tier trees expr) {levels : Nat} (room : countAll trees < levels) :
    Builds .standard levels trees expr := by
  induction derives generalizing levels with
  | tighter _ ih => exact ih room
  | @chain tier before after tree operator left right leftward isOperator member ofLeft ofRight
      ihLeft ihRight =>
      obtain ⟨levels, rfl⟩ := Nat.exists_eq_add_of_lt room
      have notPower : tier ≠ 11 := by omega
      have splits := split?_of_derives (.chain leftward isOperator member ofLeft ofRight)
        isOperator member (by simpa [notPower] using ofRight.lacks)
      have binary : IsBinary .standard operator := by
        refine isBinary_standard.mpr fun negation => ?_
        rw [negation] at member
        have : tier = 12 := eq_tierOf member
        omega
      have positive := tree.count_pos
      rw [TokenTree.countAll_append, TokenTree.countAll] at *
      exact .infixed splits ⟨binary, rfl, rfl, ofLeft.ne_nil, ofRight.ne_nil⟩
        (ihLeft (by omega)) (ihRight (by omega))
  | @minus after tree operand isOperator ofOperand ih =>
      obtain ⟨levels, rfl⟩ := Nat.exists_eq_add_of_lt room
      have splits : split? .standard (tree :: after) = some ⟨[], "-", tree.position, after⟩ :=
        @split?_of_derives 9 [] after _ _ _ (.minus isOperator ofOperand) isOperator (by decide)
          ofOperand.lacks
      have positive := tree.count_pos
      rw [TokenTree.countAll] at *
      exact .negated splits
        ⟨isBinary_standard.mpr (by simp), rfl, rfl, rfl, ofOperand.ne_nil⟩ (ih (by omega))
  | @plus after tree operand isOperator ofOperand ih =>
      obtain ⟨levels, rfl⟩ := Nat.exists_eq_add_of_lt room
      have splits : split? .standard (tree :: after) = some ⟨[], "+", tree.position, after⟩ :=
        @split?_of_derives 9 [] after _ _ _ (.plus isOperator ofOperand) isOperator (by decide)
          ofOperand.lacks
      have positive := tree.count_pos
      rw [TokenTree.countAll] at *
      exact .plain splits
        ⟨isBinary_standard.mpr (by simp), rfl, rfl, rfl, ofOperand.ne_nil⟩ (ih (by omega))
  | @power before after tree left right isOperator ofLeft ofRight ihLeft ihRight =>
      obtain ⟨levels, rfl⟩ := Nat.exists_eq_add_of_lt room
      have splits := split?_of_derives (.power isOperator ofLeft ofRight) isOperator (by decide)
        ofLeft.lacks
      have positive := tree.count_pos
      rw [TokenTree.countAll_append, TokenTree.countAll] at *
      exact .infixed splits
        ⟨isBinary_standard.mpr (by simp), rfl, rfl, ofLeft.ne_nil, ofRight.ne_nil⟩
        (ihLeft (by omega)) (ihRight (by omega))
  | @factorial before tree operand isOperator ofOperand ih =>
      obtain ⟨levels, rfl⟩ := Nat.exists_eq_add_of_lt room
      have splits := split?_of_derives (.factorial isOperator ofOperand) isOperator (by decide)
        (by simp [Lacks])
      have positive := tree.count_pos
      rw [TokenTree.countAll_append, TokenTree.countAll] at *
      exact .suffixed splits
        ⟨suffixOperator_standard.mpr rfl, rfl, rfl, ofOperand.ne_nil⟩ (ih (by omega))
  | @negation after tree operand isOperator ofOperand ih =>
      obtain ⟨levels, rfl⟩ := Nat.exists_eq_add_of_lt room
      have splits : split? .standard (tree :: after) = some ⟨[], "!", tree.position, after⟩ :=
        @split?_of_derives 12 [] after _ _ _ (.negation isOperator ofOperand) isOperator
          (by decide) ofOperand.lacks
      have positive := tree.count_pos
      rw [TokenTree.countAll] at *
      exact .prefixed splits
        ⟨prefixOperator_standard.mpr rfl, rfl, rfl, ofOperand.ne_nil⟩ (ih (by omega))
  | number kind | string kind | identifier kind =>
      obtain ⟨levels, rfl⟩ := Nat.exists_eq_add_of_lt room
      exact .leaf (by simp [ofLeaf, kind])
  | group _ ih =>
      obtain ⟨levels, rfl⟩ := Nat.exists_eq_add_of_lt room
      simp only [TokenTree.countAll, TokenTree.count] at *
      exact .group (ih (by omega))
  | call same _ ih =>
      obtain ⟨levels, rfl⟩ := Nat.exists_eq_add_of_lt room
      simp only [TokenTree.countAll, TokenTree.count] at *
      refine .call same fun argument value member => ih argument value member ?_
      have := TokenTree.countAll_le_countArguments (List.of_mem_zip member).1
      omega

/-- The builder accepts exactly the language of the loosest tier and makes the derived expression;
every other sequence is a structural error. -/
theorem build_standard_iff_derives {maxDepth : Nat} {trees : List TokenTree}
    (room : countAll trees ≤ maxDepth) :
    (∀ expr, build .standard maxDepth trees = .ok expr ↔ Derives 1 trees expr) ∧
      ((¬ ∃ expr, Derives 1 trees expr) →
        ∃ position fault,
          build .standard maxDepth trees = .error (.structural position fault)) := by
  have accepts : ∀ expr, build .standard maxDepth trees = .ok expr ↔ Derives 1 trees expr := by
    intro expr
    rw [build, buildWithin_eq_ok_iff]
    exact ⟨.of_builds, fun derives => derives.builds (by omega)⟩
  constructor
  · exact accepts
  · intro underivable
    cases outcome : build .standard maxDepth trees with
    | ok expr => exact absurd ⟨expr, (accepts expr).mp outcome⟩ underivable
    | error error =>
        obtain ⟨position, fault, rfl⟩ := isStructural_of_buildWithin (by omega) outcome
        exact ⟨position, fault, rfl⟩

/-- The sequence of `-a ** 2! < f(, !(b))`. -/
theorem derives_signed_power_below_call :
    let trees : List TokenTree :=
      [.leaf ⟨.operator, some "-", 0⟩, .leaf ⟨.identifier, some "a", 1⟩,
        .leaf ⟨.operator, some "**", 3⟩, .leaf ⟨.number, some "2", 6⟩,
        .leaf ⟨.operator, some "!", 7⟩, .leaf ⟨.operator, some "<", 9⟩,
        .call "f" 11 [[], [.leaf ⟨.operator, some "!", 15⟩,
          .group 16 [.leaf ⟨.identifier, some "b", 17⟩]]]]
    let factorial : Expr := .operation "!" 7 (some (.number "2" 6)) none
    let power : Expr := .operation "**" 3 (some (.identifier "a" 1)) (some factorial)
    let difference : Expr := .operation "-" 0 (some (.number "0" 0)) (some power)
    let negation : Expr := .operation "!" 15 none (some (.identifier "b" 17))
    countAll trees ≤ 10 ∧
      Derives 1 trees
        (.operation "<" 9 (some difference) (some (.call "f" 11 [none, some negation]))) := by
  intro trees factorial power difference negation
  have room : countAll trees ≤ 10 := by decide
  exact ⟨room, ((build_standard_iff_derives room).1 _).mp (by rfl)⟩

end Formula.Expr

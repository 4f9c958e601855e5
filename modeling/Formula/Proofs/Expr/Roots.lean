import Formula.Proofs.Expr.Split
import Mathlib.Data.List.Basic

/-!
# Roots

The operator at which a sequence splits is the root of what is built.  It is one of the loosest tier
that occurs; inside the tier, associativity decides.  The spellings of a right-associative tier do
not count as one operator: the root is the spelling whose first occurrence comes last.
-/

namespace Formula

/-! ## Tiers of a grammar -/

namespace Grammar

variable {grammar : Grammar} {looser tighter : List (List String)} {tier : List String}
  {spelling : String}

/-- The loosest tier that a spelling belongs to. -/
def tierOf (grammar : Grammar) (spelling : String) : Nat :=
  grammar.tiers.findIdx (List.contains · spelling)

theorem length_le_tierOf_iff (same : grammar.tiers = looser ++ tighter) :
    looser.length ≤ grammar.tierOf spelling ↔ ∀ tier ∈ looser, spelling ∉ tier := by
  have outside : (∀ tier ∈ looser, spelling ∉ tier) ↔
      ¬ looser.findIdx (List.contains · spelling) < looser.length := by
    rw [List.findIdx_lt_length]
    simp
  rw [outside, tierOf, same, List.findIdx_append]
  split <;> omega

theorem tierOf_eq_length_iff (same : grammar.tiers = looser ++ tier :: tighter)
    (notLooser : ∀ other ∈ looser, spelling ∉ other) :
    grammar.tierOf spelling = looser.length ↔ spelling ∈ tier := by
  have atLeast := (length_le_tierOf_iff same).mpr notLooser
  have beyond : (looser ++ [tier]).length ≤ grammar.tierOf spelling ↔
      ∀ other ∈ looser ++ [tier], spelling ∉ other :=
    @length_le_tierOf_iff grammar (looser ++ [tier]) tighter spelling (by simpa using same)
  rw [List.length_append, List.length_singleton] at beyond
  constructor
  · intro here
    by_contra outside
    have := beyond.mpr fun other member => by
      rcases List.mem_append.mp member with inLooser | isTier
      · exact notLooser other inLooser
      · obtain rfl := List.mem_singleton.mp isTier
        exact outside
    omega
  · intro inTier
    by_contra elsewhere
    exact beyond.mp (by omega) tier (by simp) inTier

/-- A spelling of the grammar stands in its tier, and in no looser one. -/
theorem exists_tier (known : spelling ∈ grammar.tiers.flatten) :
    ∃ looser tier tighter, grammar.tiers = looser ++ tier :: tighter ∧ spelling ∈ tier ∧
      ∀ other ∈ looser, spelling ∉ other := by
  obtain ⟨tier, isTier, member⟩ := List.mem_flatten.mp known
  obtain ⟨first, found⟩ : ∃ first, grammar.tiers.find? (List.contains · spelling) = some first :=
    Option.isSome_iff_exists.mp (List.find?_isSome.mpr ⟨tier, isTier, by simpa using member⟩)
  obtain ⟨contains, looser, tighter, same, notLooser⟩ := List.find?_eq_some_iff_append.mp found
  exact ⟨looser, first, tighter, same, by simpa using contains, by simpa using notLooser⟩

end Grammar

/-! ## Operators of a sequence -/

namespace TokenTree

/-- The spellings of the operators that stand in a sequence, but in no group or call of it. -/
def operators (trees : List TokenTree) : List String :=
  trees.filterMap operator?

theorem mem_operators_iff {trees : List TokenTree} {spelling : String} :
    spelling ∈ operators trees ↔ ∃ tree ∈ trees, tree.operator? = some spelling :=
  List.mem_filterMap

theorem operators_append (before after : List TokenTree) :
    operators (before ++ after) = operators before ++ operators after :=
  List.filterMap_append

theorem operators_cons {tree : TokenTree} {operator : String}
    (isOperator : tree.operator? = some operator) (trees : List TokenTree) :
    operators (tree :: trees) = operator :: operators trees :=
  List.filterMap_cons_some isOperator

theorem operators_mono {some all : List TokenTree} (within : some ⊆ all) :
    operators some ⊆ operators all := by
  intro spelling member
  obtain ⟨tree, inSome, isOperator⟩ := mem_operators_iff.mp member
  exact mem_operators_iff.mpr ⟨tree, within inSome, isOperator⟩

end TokenTree

namespace Expr

open TokenTree (operators mem_operators_iff operators_append operators_cons operators_mono)

variable {grammar : Grammar}

/-! ## The occurrence that a tier picks -/

theorem occurrence?_eq_some_iff {spelling : String} {trees : List TokenTree} {index : Nat} :
    occurrence? grammar spelling trees = some index ↔
      ∃ before tree after, trees = before ++ tree :: after ∧ before.length = index ∧
        tree.operator? = some spelling ∧
          if grammar.isRightAssociative spelling then spelling ∉ operators before
          else spelling ∉ operators after := by
  unfold occurrence?
  split
  · simp [findIdx?_eq_some_iff_append, isSpelling, mem_operators_iff]
  · simp [lastIndex?_eq_some_iff, isSpelling, mem_operators_iff]

theorem occurrence?_ne_none {spelling : String} {trees : List TokenTree}
    (occurs : spelling ∈ operators trees) :
    ∃ index, occurrence? grammar spelling trees = some index := by
  obtain ⟨tree, member, isOperator⟩ := mem_operators_iff.mp occurs
  refine Option.ne_none_iff_exists'.mp fun nowhere => ?_
  exact occurrence?_eq_none_iff.mp nowhere tree member isOperator

theorem later_eq_some_iff {left right : Option Nat} {index : Nat} :
    later left right = some index ↔ (left = some index ∨ right = some index) ∧
      (∀ other, left = some other → other ≤ index) ∧
        ∀ other, right = some other → other ≤ index := by
  cases left <;> cases right <;> simp [later] <;> grind

theorem forall_later_iff {left right : Option Nat} {index : Nat} :
    (∀ other, later left right = some other → other ≤ index) ↔
      (∀ other, left = some other → other ≤ index) ∧
        ∀ other, right = some other → other ≤ index := by
  cases left with
  | none => simp [later]
  | some left =>
      cases right with
      | none => simp [later]
      | some right => simp only [later, Option.some.injEq, forall_eq', Nat.max_le]

/-- The last of the occurrences that the spellings of the tier pick. -/
theorem tierIndex?_eq_some_iff {trees : List TokenTree} {tier : List String} {index : Nat} :
    tierIndex? grammar trees tier = some index ↔
      (∃ spelling ∈ tier, occurrence? grammar spelling trees = some index) ∧
        ∀ spelling ∈ tier, ∀ other, occurrence? grammar spelling trees = some other →
          other ≤ index := by
  suffices ∀ found : Option Nat,
      tier.foldl (fun index spelling => later index (occurrence? grammar spelling trees)) found =
          some index ↔
        (found = some index ∨
            ∃ spelling ∈ tier, occurrence? grammar spelling trees = some index) ∧
          (∀ other, found = some other → other ≤ index) ∧
            ∀ spelling ∈ tier, ∀ other, occurrence? grammar spelling trees = some other →
              other ≤ index by
    simpa [tierIndex?] using this none
  induction tier with
  | nil =>
      intro found
      cases found <;> simp
      omega
  | cons spelling tier ih =>
      intro found
      rw [List.foldl_cons, ih, forall_later_iff, later_eq_some_iff]
      simp only [List.exists_mem_cons_iff, List.forall_mem_cons]
      grind

/-- Two items of one list: one of them stands before the other, or they are the same. -/
theorem append_cons_cases {α : Type} {before after first rest : List α} {item other : α}
    (same : before ++ item :: after = first ++ other :: rest) :
    (∃ between, first = before ++ item :: between ∧ after = between ++ other :: rest) ∨
      (before = first ∧ item = other ∧ after = rest) ∨
        ∃ between, before = first ++ other :: between ∧ rest = between ++ item :: after := by
  rcases List.append_eq_append_iff.mp same with ⟨between, rfl, later⟩ | ⟨between, rfl, later⟩
  · cases between with
    | nil =>
        obtain ⟨rfl, rfl⟩ := List.cons.inj later
        exact .inr (.inl ⟨by simp, rfl, rfl⟩)
    | cons _ between =>
        obtain ⟨rfl, rfl⟩ := List.cons.inj later
        exact .inl ⟨between, rfl, rfl⟩
  · cases between with
    | nil =>
        obtain ⟨rfl, rfl⟩ := List.cons.inj later
        exact .inr (.inl ⟨by simp, rfl, rfl⟩)
    | cons _ between =>
        obtain ⟨rfl, rfl⟩ := List.cons.inj later
        exact .inr (.inr ⟨between, rfl, rfl⟩)

/-- Whether the occurrence that a spelling picks stands behind some operator. -/
theorem forall_occurrence?_iff {before after : List TokenTree} {tree : TokenTree}
    {spelling : String} :
    (∀ index, occurrence? grammar spelling (before ++ tree :: after) = some index →
        index ≤ before.length) ↔
      (spelling ∈ operators after → grammar.isRightAssociative spelling = true ∧
        spelling ∈ operators (before ++ [tree])) := by
  constructor
  · intro bounded isAfter
    obtain ⟨index, picks⟩ := @occurrence?_ne_none grammar spelling (before ++ tree :: after)
      (operators_mono (by simp) isAfter)
    have bound := bounded index picks
    obtain ⟨first, other, rest, same, rfl, isOperator, picked⟩ := occurrence?_eq_some_iff.mp picks
    rcases append_cons_cases same with ⟨between, rfl, -⟩ | ⟨rfl, rfl, rfl⟩ | ⟨between, rfl, rfl⟩
    · simp only [List.length_append, List.length_cons] at bound
      omega
    · split at picked
      · next rightward => exact ⟨rightward, mem_operators_iff.mpr ⟨tree, by simp, isOperator⟩⟩
      · exact absurd isAfter picked
    · split at picked
      · next rightward => exact ⟨rightward, mem_operators_iff.mpr ⟨other, by simp, isOperator⟩⟩
      · exact absurd (operators_mono (by simp) isAfter) picked
  · intro before index picks
    obtain ⟨first, other, rest, same, rfl, isOperator, picked⟩ := occurrence?_eq_some_iff.mp picks
    rcases append_cons_cases same with ⟨between, rfl, rfl⟩ | ⟨rfl, rfl, rfl⟩ | ⟨between, rfl, rfl⟩
    · obtain ⟨rightward, already⟩ := before (mem_operators_iff.mpr ⟨other, by simp, isOperator⟩)
      rw [if_pos rightward] at picked
      refine absurd (operators_mono ?_ already) picked
      simp
    · exact Nat.le_refl _
    · simp

/-- The operator of a tier at which the tier splits a sequence. -/
theorem tierIndex?_eq_length_iff {before after : List TokenTree} {tree : TokenTree}
    {operator : String} {tier : List String} (isOperator : tree.operator? = some operator)
    (uniform : ∀ spelling ∈ tier, ∀ other ∈ tier,
      grammar.isRightAssociative spelling = grammar.isRightAssociative other) :
    tierIndex? grammar (before ++ tree :: after) tier = some before.length ↔
      operator ∈ tier ∧
        if grammar.isRightAssociative operator then
          operator ∉ operators before ∧ ∀ spelling ∈ tier, spelling ∈ operators after →
            spelling = operator ∨ spelling ∈ operators before
        else ∀ spelling ∈ tier, spelling ∉ operators after := by
  have here {spelling : String} :
      occurrence? grammar spelling (before ++ tree :: after) = some before.length ↔
        spelling = operator ∧ if grammar.isRightAssociative spelling then
          spelling ∉ operators before else spelling ∉ operators after := by
    rw [occurrence?_eq_some_iff]
    constructor
    · rintro ⟨first, other, rest, same, sameLength, isOther, picked⟩
      obtain ⟨rfl, sameRest⟩ := List.append_inj same sameLength.symm
      obtain ⟨rfl, rfl⟩ := List.cons.inj sameRest
      exact ⟨Option.some.inj (isOther.symm.trans isOperator), picked⟩
    · rintro ⟨rfl, picked⟩
      exact ⟨before, tree, after, rfl, rfl, isOperator, picked⟩
  have inFront {spelling : String} : spelling ∈ operators (before ++ [tree]) ↔
      spelling = operator ∨ spelling ∈ operators before := by
    rw [operators_append, operators_cons isOperator, List.mem_append, or_comm]
    simp [operators]
  simp only [tierIndex?_eq_some_iff, here, forall_occurrence?_iff, inFront]
  grind

/-! ## Roots -/

/-- What tiers and left associativity ask of the root of a chain, in front of and behind which these
operators stand. -/
structure IsLoosest (grammar : Grammar) (before : List String) (operator : String)
    (after : List String) : Prop where
  loosest : ∀ other ∈ before ++ after, grammar.tierOf operator ≤ grammar.tierOf other
  leftward : grammar.isRightAssociative operator = false →
    ∀ other ∈ after, grammar.tierOf other ≠ grammar.tierOf operator

/-- Right-associative operators of one tier nest to the right, whatever their spellings. -/
structure IsUsualRoot (grammar : Grammar) (before : List String) (operator : String)
    (after : List String) : Prop extends IsLoosest grammar before operator after where
  rightward : grammar.isRightAssociative operator = true →
    ∀ other ∈ before, grammar.tierOf other ≠ grammar.tierOf operator

/-- Right-associative operators of one spelling nest to the right.  Among the spellings of a tier
the root has the one whose first occurrence comes last. -/
structure IsRoot (grammar : Grammar) (before : List String) (operator : String)
    (after : List String) : Prop extends IsLoosest grammar before operator after where
  firstOccurrence : grammar.isRightAssociative operator = true → operator ∉ before
  lastSpelling : grammar.isRightAssociative operator = true → ∀ other ∈ after,
    grammar.tierOf other = grammar.tierOf operator → other = operator ∨ other ∈ before

theorem IsRoot.isUsualRoot {before after : List String} {operator : String}
    (root : IsRoot grammar before operator after)
    (alike : grammar.isRightAssociative operator = true → ∀ other ∈ before,
      grammar.tierOf other = grammar.tierOf operator → other = operator) :
    IsUsualRoot grammar before operator after where
  toIsLoosest := root.toIsLoosest
  rightward rightward other member sameTier :=
    root.firstOccurrence rightward (alike rightward other member sameTier ▸ member)

/-- A grammar none of whose tiers mixes right-associative operators with others. -/
def HasUniformTiers (grammar : Grammar) : Prop :=
  ∀ tier ∈ grammar.tiers, ∀ spelling ∈ tier, ∀ other ∈ tier,
    grammar.isRightAssociative spelling = grammar.isRightAssociative other

theorem isRoot_iff {looser tighter : List (List String)} {tier before after : List String}
    {operator : String} (same : grammar.tiers = looser ++ tier :: tighter)
    (notLooser : ∀ spelling ∈ before ++ operator :: after, ∀ other ∈ looser, spelling ∉ other)
    (member : operator ∈ tier) :
    IsRoot grammar before operator after ↔
      if grammar.isRightAssociative operator then
        operator ∉ before ∧ ∀ spelling ∈ tier, spelling ∈ after →
          spelling = operator ∨ spelling ∈ before
      else ∀ spelling ∈ tier, spelling ∉ after := by
  have loosest (spelling : String) (isOperator : spelling ∈ before ++ operator :: after) :
      looser.length ≤ grammar.tierOf spelling :=
    (Grammar.length_le_tierOf_iff same).mpr (notLooser spelling isOperator)
  have inTier (spelling : String) (isOperator : spelling ∈ before ++ operator :: after) :
      grammar.tierOf spelling = looser.length ↔ spelling ∈ tier :=
    Grammar.tierOf_eq_length_iff same (notLooser spelling isOperator)
  have here : grammar.tierOf operator = looser.length := (inTier operator (by simp)).mpr member
  constructor
  · intro root
    split
    · next rightward =>
        refine ⟨root.firstOccurrence rightward, fun spelling isMember isAfter => ?_⟩
        refine root.lastSpelling rightward spelling isAfter ?_
        rw [here, inTier spelling (by simp [isAfter])]
        exact isMember
    · next notRightward =>
        intro spelling isMember isAfter
        refine root.leftward (by simpa using notRightward) spelling isAfter ?_
        rw [here, inTier spelling (by simp [isAfter])]
        exact isMember
  · intro picked
    refine ⟨⟨fun other isOther => ?_, fun leftward other isAfter sameTier => ?_⟩,
      fun rightward => ?_, fun rightward other isAfter sameTier => ?_⟩
    · rw [here]
      refine loosest other ?_
      simp only [List.mem_append, List.mem_cons] at isOther ⊢
      exact isOther.imp_right .inr
    · rw [here, inTier other (by simp [isAfter])] at sameTier
      rw [if_neg (by simp [leftward])] at picked
      exact picked other sameTier isAfter
    · rw [if_pos rightward] at picked
      exact picked.1
    · rw [here, inTier other (by simp [isAfter])] at sameTier
      rw [if_pos rightward] at picked
      exact picked.2 other sameTier isAfter

theorem split?_eq_some_iff {trees before after : List TokenTree} {tree : TokenTree}
    {operator : String} (same : trees = before ++ tree :: after)
    (isOperator : tree.operator? = some operator) :
    split? grammar trees = some ⟨before, operator, tree.position, after⟩ ↔
      ∃ looser tier tighter, grammar.tiers = looser ++ tier :: tighter ∧
        tierIndex? grammar trees tier = some before.length ∧
          ∀ other ∈ looser, tierIndex? grammar trees other = none := by
  have located (index : Nat) :
      splitAt? trees index = some ⟨before, operator, tree.position, after⟩ ↔
        index = before.length := by
    constructor
    · intro found
      unfold splitAt? at found
      split at found
      · next tree' after' remaining =>
          obtain ⟨_, -, sameSplit⟩ := Option.map_eq_some_iff.mp found
          have front : trees.take index = before := congrArg Split.before sameSplit
          have inside : index < trees.length := by
            by_contra outside
            rw [List.drop_eq_nil_of_le (by omega)] at remaining
            cases remaining
          rw [← front, List.length_take]
          omega
      · cases found
    · rintro rfl
      rw [same]
      exact splitAt?_append isOperator before after
  rw [split?, Option.bind_eq_bind, Option.bind_eq_some_iff]
  simp only [located]
  rw [exists_eq_right, List.findSome?_eq_some_iff]

/-- A sequence splits at its root. -/
theorem split?_eq_root_iff (uniform : HasUniformTiers grammar) {before after : List TokenTree}
    {tree : TokenTree} {operator : String} (isOperator : tree.operator? = some operator)
    (known : operator ∈ grammar.tiers.flatten) :
    split? grammar (before ++ tree :: after) = some ⟨before, operator, tree.position, after⟩ ↔
      IsRoot grammar (operators before) operator (operators after) := by
  have all : operators (before ++ tree :: after) =
      operators before ++ operator :: operators after := by
    rw [operators_append, operators_cons isOperator]
  have nowhere {looser : List (List String)} :
      (∀ tier ∈ looser, tierIndex? grammar (before ++ tree :: after) tier = none) ↔
        ∀ spelling ∈ operators before ++ operator :: operators after, ∀ tier ∈ looser,
          spelling ∉ tier := by
    simp only [tierIndex?_eq_none_iff, ← all, mem_operators_iff]
    grind
  rw [split?_eq_some_iff rfl isOperator]
  constructor
  · rintro ⟨looser, tier, tighter, same, index, none⟩
    have picked := (tierIndex?_eq_length_iff isOperator (uniform tier (by simp [same]))).mp index
    exact (isRoot_iff same (nowhere.mp none) picked.1).mpr picked.2
  · intro root
    obtain ⟨looser, tier, tighter, same, member, notLooser⟩ := Grammar.exists_tier known
    have none : ∀ spelling ∈ operators before ++ operator :: operators after,
        ∀ tier ∈ looser, spelling ∉ tier := by
      intro spelling isOperator
      have here := (Grammar.tierOf_eq_length_iff same notLooser).mpr member
      rw [← Grammar.length_le_tierOf_iff same, ← here]
      simp only [List.mem_append, List.mem_cons] at isOperator
      rcases isOperator with inFront | rfl | behind
      · exact root.loosest spelling (List.mem_append_left _ inFront)
      · exact Nat.le_refl _
      · exact root.loosest spelling (List.mem_append_right _ behind)
    refine ⟨looser, tier, tighter, same, ?_, nowhere.mpr none⟩
    exact (tierIndex?_eq_length_iff isOperator (uniform tier (by simp [same]))).mpr
      ⟨member, (isRoot_iff same none member).mp root⟩

end Expr

end Formula

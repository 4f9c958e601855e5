import Formula.Proofs.Expr.Failures
import Mathlib.Data.Nat.Find

/-!
# Two nesting limits

A computation that gets along with a nesting limit does the same under every larger one.  So each
limited computation has a depth from which on its outcome is settled, and below which it ends at its
limit.
-/

namespace Formula

variable {α β : Type}

/-- What ended under the smaller limit otherwise than at this limit ends in the same way under the
larger one. -/
def Settles (limit : Nat) (small large : Except Error α) : Prop :=
  small = .error (.nestingLimit limit) ∨ large = small

namespace Settles

variable {limit : Nat}

theorem refl (outcome : Except Error α) : Settles limit outcome outcome :=
  .inr rfl

theorem bind {small large : Except Error α} {next next' : α → Except Error β}
    (settles : Settles limit small large)
    (rest : ∀ result, Settles limit (next result) (next' result)) :
    Settles limit (small >>= next) (large >>= next') := by
  rcases settles with rfl | rfl
  · exact .inl rfl
  · cases large with
    | ok result => exact rest result
    | error error => exact .refl _

theorem mapM {step step' : α → Except Error β} {items : List α}
    (settles : ∀ item ∈ items, Settles limit (step item) (step' item)) :
    Settles limit (items.mapM step) (items.mapM step') := by
  induction items with
  | nil => exact .refl _
  | cons item items ih =>
      rw [List.mapM_cons, List.mapM_cons]
      obtain ⟨first, rest⟩ := List.forall_mem_cons.mp settles
      exact first.bind fun result => (ih rest).bind fun results => .refl _

end Settles

/-! ## Thresholds -/

/-- Below the depth the computation ends at its limit, from the depth on it has one outcome, which
no limit causes. -/
structure IsThreshold (outcome : Nat → Except Error α) (depth : Nat) (settled : Except Error α) :
    Prop where
  below : ∀ maxDepth < depth, outcome maxDepth = .error (.nestingLimit maxDepth)
  above : ∀ maxDepth, depth ≤ maxDepth → outcome maxDepth = settled
  unlimited : ∀ limit, settled ≠ .error (.nestingLimit limit)

theorem exists_isThreshold {outcome : Nat → Except Error α}
    (settles : ∀ {small large}, small ≤ large → Settles small (outcome small) (outcome large))
    {room : Nat} (enough : ∀ limit, outcome room ≠ .error (.nestingLimit limit)) :
    ∃ depth ≤ room, IsThreshold outcome depth (outcome room) := by
  classical
  have possible : ∃ maxDepth, outcome maxDepth ≠ .error (.nestingLimit maxDepth) :=
    ⟨room, enough room⟩
  have least : Nat.find possible ≤ room := Nat.find_min' possible (enough room)
  have fromThere {maxDepth : Nat} (above : Nat.find possible ≤ maxDepth) :
      outcome maxDepth = outcome (Nat.find possible) :=
    (settles above).resolve_left (Nat.find_spec possible)
  refine ⟨Nat.find possible, least, fun maxDepth below => ?_, fun maxDepth above => ?_, enough⟩
  · exact not_not.mp (Nat.find_min possible below)
  · rw [fromThere above, fromThere least]

/-- The depth of a threshold is where the limit begins to suffice. -/
theorem IsThreshold.unique {outcome : Nat → Except Error α} {depth other : Nat}
    {settled settled' : Except Error α} (threshold : IsThreshold outcome depth settled)
    (threshold' : IsThreshold outcome other settled') : depth = other ∧ settled = settled' := by
  have le {depth other : Nat} {settled settled' : Except Error α}
      (threshold : IsThreshold outcome depth settled)
      (threshold' : IsThreshold outcome other settled') : depth ≤ other := by
    by_contra below
    have limited := threshold.below other (by omega)
    rw [threshold'.above other (Nat.le_refl _)] at limited
    exact threshold'.unlimited other limited
  have same : depth = other := Nat.le_antisymm (le threshold threshold') (le threshold' threshold)
  subst same
  exact ⟨rfl, (threshold.above depth (Nat.le_refl _)).symm.trans
    (threshold'.above depth (Nat.le_refl _))⟩

theorem IsThreshold.of_ok {outcome : Nat → Except Error α} {depth maxDepth : Nat}
    {settled : Except Error α} {result : α} (threshold : IsThreshold outcome depth settled)
    (succeeds : outcome maxDepth = .ok result) : depth ≤ maxDepth ∧ settled = .ok result := by
  have enough : depth ≤ maxDepth := by
    by_contra less
    exact nomatch succeeds.symm.trans (threshold.below maxDepth (by omega))
  exact ⟨enough, (threshold.above maxDepth enough).symm.trans succeeds⟩

/-! ## Each stage -/

theorem TokenTree.settles_groupOnto {small large : Nat} (bound : small ≤ large)
    (frames : List Frame) (level : List TokenTree) (tokens : List Token) :
    Settles small (groupOnto small frames level tokens) (groupOnto large frames level tokens) := by
  fun_induction groupOnto small frames level tokens with
  | case1 => exact .refl _
  | case2 => exact .refl _
  | case3 _ _ _ _ _ kind ih =>
      rw [groupOnto_closing kind]
      exact ih
  | case4 => exact .inl rfl
  | case5 _ _ _ frames kind below ih =>
      have alsoBelow : ¬ large ≤ frames.length := by omega
      rw [groupOnto_opening kind, if_neg alsoBelow]
      exact ih
  | case6 level token tokens frames notClosing notOpening ih =>
      have closesNothing : token.kind = .rightParen → frames = [] := by
        intro kind
        cases frames with
        | nil => rfl
        | cons frame frames => exact absurd rfl (notClosing frame frames kind)
      rw [groupOnto_leaf notOpening closesNothing]
      exact ih

/-- A build with more levels settles even under another limit. -/
theorem Expr.settles_buildWithin {grammar : Grammar} {small large levels more : Nat}
    (bound : levels ≤ more) (trees : List TokenTree) :
    Settles small (buildWithin grammar small levels trees)
      (buildWithin grammar large more trees) := by
  induction levels generalizing more trees with
  | zero => exact .inl rfl
  | succ levels ih =>
      obtain ⟨more, rfl⟩ : ∃ rest, more = rest + 1 := ⟨more - 1, by omega⟩
      have inside := fun trees => ih (Nat.le_of_succ_le_succ bound) trees
      unfold buildWithin
      split
      · refine .bind (.refl _) fun shape => ?_
        cases shape with
        | prefixed operand => exact (inside operand).bind fun _ => .refl _
        | suffixed operand => exact (inside operand).bind fun _ => .refl _
        | infixed left right =>
            exact (inside left).bind fun _ => (inside right).bind fun _ => .refl _
        | negated operand => exact (inside operand).bind fun _ => .refl _
        | plain operand => exact inside operand
      · split
        · exact .refl _
        · exact .refl _
        · exact inside _
        · refine .bind (.mapM fun argument _ => ?_) fun _ => .refl _
          split
          · exact .refl _
          · exact (inside argument).bind fun _ => .refl _
        · exact .refl _

theorem Expr.settles_ofText (grammar : Grammar) (text : String) {small large : Nat}
    (bound : small ≤ large) :
    Settles small (ofText grammar small text) (ofText grammar large text) :=
  .bind (.refl _) fun _ => .bind (.refl _) fun _ =>
    (TokenTree.settles_groupOnto bound [] [] _).bind fun trees =>
      settles_buildWithin (Nat.succ_le_succ bound) trees

/-! ## Enough room -/

/-- No more parentheses are open at once than there are tokens. -/
theorem TokenTree.groupOnto_ne_nestingLimit {maxDepth limit : Nat} {frames : List Frame}
    {level : List TokenTree} {tokens : List Token}
    (room : frames.length + tokens.length ≤ maxDepth) :
    groupOnto maxDepth frames level tokens ≠ .error (.nestingLimit limit) := by
  fun_induction groupOnto maxDepth frames level tokens with
  | case1 => simp
  | case2 => simp
  | case3 _ _ _ _ _ _ ih =>
      simp only [List.length_cons] at room
      exact ih (by omega)
  | case4 _ _ _ _ _ above =>
      simp only [List.length_cons] at room
      omega
  | case5 _ _ _ _ _ _ ih =>
      simp only [List.length_cons] at room
      exact ih (by simp only [List.length_cons]; omega)
  | case6 _ _ _ _ _ _ ih =>
      simp only [List.length_cons] at room
      exact ih (by omega)

theorem Expr.build_ne_nestingLimit {grammar : Grammar} {maxDepth limit : Nat}
    {trees : List TokenTree} (room : TokenTree.countAll trees ≤ maxDepth) :
    build grammar maxDepth trees ≠ .error (.nestingLimit limit) := by
  intro failed
  obtain ⟨_, _, ⟨⟩⟩ := isStructural_of_buildWithin (Nat.lt_succ_of_le room) failed

theorem Expr.ofText_eq_nestingLimit {grammar : Grammar} {maxDepth limit : Nat} {text : String}
    (failed : ofText grammar maxDepth text = .error (.nestingLimit limit)) :
    ∃ tokens, Lexer.tokenize grammar text = .ok tokens ∧
      (TokenTree.ofTokens maxDepth (Token.foldSigns grammar tokens) >>= build grammar maxDepth) =
        .error (.nestingLimit limit) := by
  obtain invalid | ⟨_, -, failed⟩ := bind_eq_error_iff.mp failed
  · obtain ⟨_, ⟨⟩⟩ := Grammar.validate_eq_error invalid
  obtain unread | ⟨tokens, tokenized, failed⟩ := bind_eq_error_iff.mp failed
  · obtain ⟨_, _, ⟨⟩⟩ := (Lexer.fails_tokensFrom _ _ _ _ _ unread).isLexical
  · exact ⟨tokens, tokenized, failed⟩

/-- Some limit is large enough for a text. -/
theorem Expr.exists_ofText_ne_nestingLimit (grammar : Grammar) (text : String) :
    ∃ maxDepth, ∀ limit, ofText grammar maxDepth text ≠ .error (.nestingLimit limit) := by
  by_contra! always
  obtain ⟨limit, failed⟩ := always 0
  obtain ⟨tokens, tokenized, -⟩ := ofText_eq_nestingLimit failed
  -- Grouping has room for all tokens, and what it gives has a size that building has room for.
  let folded := Token.foldSigns grammar tokens
  have grouping {maxDepth : Nat} (room : folded.length ≤ maxDepth) :
      TokenTree.ofTokens maxDepth folded = TokenTree.ofTokens folded.length folded :=
    (TokenTree.settles_groupOnto room [] [] folded).resolve_left
      (TokenTree.groupOnto_ne_nestingLimit (by simp))
  have fails (maxDepth : Nat) (room : folded.length ≤ maxDepth) :
      ∃ trees, TokenTree.ofTokens folded.length folded = .ok trees ∧
        ∃ limit, build grammar maxDepth trees = .error (.nestingLimit limit) := by
    obtain ⟨limit, failed⟩ := always maxDepth
    obtain ⟨_, sameTokens, failed⟩ := ofText_eq_nestingLimit failed
    obtain rfl := Except.ok.inj (tokenized.symm.trans sameTokens)
    obtain limited | ⟨trees, grouped, failed⟩ := bind_eq_error_iff.mp failed
    · exact absurd limited (TokenTree.groupOnto_ne_nestingLimit (by simpa using room))
    · exact ⟨trees, (grouping room).symm.trans grouped, limit, failed⟩
  obtain ⟨trees, grouped, -⟩ := fails folded.length (Nat.le_refl _)
  obtain ⟨_, grouped', limit, failed⟩ :=
    fails (max folded.length (TokenTree.countAll trees)) (Nat.le_max_left _ _)
  obtain rfl := Except.ok.inj (grouped.symm.trans grouped')
  exact build_ne_nestingLimit (Nat.le_max_right _ _) failed

/-! ## Thresholds of the stages -/

theorem Expr.settles_build (grammar : Grammar) (trees : List TokenTree) {small large : Nat}
    (bound : small ≤ large) :
    Settles small (build grammar small trees) (build grammar large trees) :=
  settles_buildWithin (Nat.succ_le_succ bound) trees

theorem Expr.exists_isThreshold_build {grammar : Grammar} {room : Nat} {trees : List TokenTree}
    {expr : Expr} (built : build grammar room trees = .ok expr) :
    ∃ depth ≤ room,
      IsThreshold (fun maxDepth => build grammar maxDepth trees) depth (.ok expr) := by
  rw [← built]
  exact exists_isThreshold (settles_build grammar trees) fun _ => by simp [built]

theorem Expr.exists_isThreshold_ofText (grammar : Grammar) (text : String) :
    ∃ depth settled,
      IsThreshold (fun maxDepth => ofText grammar maxDepth text) depth settled := by
  obtain ⟨room, enough⟩ := exists_ofText_ne_nestingLimit grammar text
  obtain ⟨depth, -, threshold⟩ := exists_isThreshold (settles_ofText grammar text) enough
  exact ⟨depth, _, threshold⟩

end Formula

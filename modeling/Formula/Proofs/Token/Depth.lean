import Formula.Proofs.Expr.Limits
import Formula.Proofs.Token.Places

/-!
# Parentheses of tokens

How many parentheses are open at once decides whether grouping meets its limit.  Parentheses that
only follow names make no groups.  Folding signs changes neither.
-/

namespace Formula

/-! ## Open parentheses -/

namespace Token

/-- How many parentheses are open at once, at most, when some are open in front of the tokens. -/
def deepest : (opened : Nat) → List Token → Nat
  | opened, [] => opened
  | opened, token :: tokens =>
      match token.kind with
      | .leftParen => deepest (opened + 1) tokens
      | .rightParen => max opened (deepest (opened - 1) tokens)
      | _ => deepest opened tokens

/-- How many parentheses are open at once, at most. -/
def nesting (tokens : List Token) : Nat :=
  deepest 0 tokens

theorem le_deepest (opened : Nat) (tokens : List Token) : opened ≤ deepest opened tokens := by
  fun_induction deepest opened tokens with
  | case1 => exact Nat.le_refl _
  | case2 _ _ _ _ ih => omega
  | case3 => exact Nat.le_max_left _ _
  | case4 _ _ _ _ _ ih => exact ih

def isParenthesis (token : Token) : Bool :=
  token.kind == .leftParen || token.kind == .rightParen

theorem deepest_filter (opened : Nat) (tokens : List Token) :
    deepest opened (tokens.filter isParenthesis) = deepest opened tokens := by
  fun_induction deepest opened tokens with
  | case1 => rfl
  | case2 opened token tokens kind ih =>
      rw [List.filter_cons_of_pos (by simp [isParenthesis, kind]), deepest]
      simp only [kind, ih]
  | case3 opened token tokens kind ih =>
      rw [List.filter_cons_of_pos (by simp [isParenthesis, kind]), deepest]
      simp only [kind, ih]
  | case4 opened token tokens notOpening notClosing ih =>
      have neither : token.isParenthesis = false := by
        simp only [isParenthesis, Bool.or_eq_false_iff, beq_eq_false_iff_ne]
        exact ⟨notOpening, notClosing⟩
      rw [List.filter_cons_of_neg (by simp [neither]), ih]

variable {grammar : Grammar}

theorem isParenthesis_of_kind {token : Token}
    (kind : token.kind = .operator ∨ token.kind = .number) :
    token.isParenthesis = false := by
  rcases kind with kind | kind <;> simp [isParenthesis, kind]

theorem filter_foldOnto (folded : List Token) (token : Token) :
    (foldOnto grammar folded token).filter isParenthesis =
      (token :: folded).filter isParenthesis := by
  obtain pushed | ⟨sign, before, merged, rfl, merges, samePlace, signKind, kind⟩ :=
    @foldOnto_cases grammar folded token
  · rw [pushed]
  · have sameKind : merged.kind = token.kind := congrArg Prod.fst samePlace
    have mergedKind : merged.kind = .operator ∨ merged.kind = .number := sameKind ▸ kind
    rw [merges, List.filter_cons_of_neg (by simp [isParenthesis_of_kind mergedKind]),
      List.filter_cons_of_neg (by simp [isParenthesis_of_kind kind]),
      List.filter_cons_of_neg (by simp [isParenthesis_of_kind (.inl signKind)])]

theorem filter_foldSigns (tokens : List Token) :
    (foldSigns grammar tokens).filter isParenthesis = tokens.filter isParenthesis := by
  suffices ∀ folded : List Token, (tokens.foldl (foldOnto grammar) folded).filter isParenthesis =
      (tokens.filter isParenthesis).reverse ++ folded.filter isParenthesis by
    rw [foldSigns, List.filter_reverse, this]
    simp
  induction tokens with
  | nil => exact fun _ => rfl
  | cons token tokens ih =>
      intro folded
      rw [List.foldl_cons, ih, filter_foldOnto]
      cases keeps : token.isParenthesis <;> simp [keeps]

theorem nesting_foldSigns (tokens : List Token) :
    nesting (foldSigns grammar tokens) = nesting tokens := by
  rw [nesting, ← deepest_filter, filter_foldSigns, deepest_filter, nesting]

/-! ## Parentheses of calls -/

/-- Every opening parenthesis comes right behind a name, when this kind of token comes first. -/
def OpensCalls : (previous : Option Token.Kind) → List Token → Prop
  | _, [] => True
  | previous, token :: tokens =>
      (token.kind = .leftParen → previous = some .identifier) ∧ OpensCalls (some token.kind) tokens

instance decidableOpensCalls (previous : Option Token.Kind) :
    (tokens : List Token) → Decidable (OpensCalls previous tokens)
  | [] => inferInstanceAs (Decidable True)
  | token :: tokens =>
      have := decidableOpensCalls (some token.kind) tokens
      inferInstanceAs (Decidable ((token.kind = .leftParen → previous = some .identifier) ∧
        OpensCalls (some token.kind) tokens))

theorem opensCalls_append {previous : Option Token.Kind} {before after : List Token} :
    OpensCalls previous (before ++ after) ↔ OpensCalls previous before ∧
      OpensCalls ((before.getLast?.map kind).or previous) after := by
  induction before generalizing previous with
  | nil => simp [OpensCalls]
  | cons token before ih =>
      rw [List.cons_append, OpensCalls, OpensCalls, ih, and_assoc, List.getLast?_cons]
      cases before.getLast? <;> simp

theorem head?_foldOnto (folded : List Token) (token : Token) :
    (foldOnto grammar folded token).head?.map kind = some token.kind := by
  obtain pushed | ⟨sign, before, merged, rfl, merges, samePlace, -⟩ :=
    @foldOnto_cases grammar folded token
  · rw [pushed]
    rfl
  · rw [merges]
    exact congrArg some (congrArg Prod.fst samePlace)

theorem OpensCalls.foldOnto {folded : List Token} {token : Token}
    (opensCalls : OpensCalls none (folded.reverse ++ [token])) :
    OpensCalls none (foldOnto grammar folded token).reverse := by
  obtain pushed | ⟨sign, before, merged, rfl, merges, samePlace, -, kind⟩ :=
    @foldOnto_cases grammar folded token
  · rw [pushed, List.reverse_cons]
    exact opensCalls
  · have sameKind : merged.kind = token.kind := congrArg Prod.fst samePlace
    rw [List.reverse_cons, List.append_assoc, opensCalls_append] at opensCalls
    rw [merges, List.reverse_cons, opensCalls_append]
    refine ⟨opensCalls.1, fun opening => ?_, trivial⟩
    rw [sameKind] at opening
    rcases kind with kind | kind <;> cases kind.symm.trans opening

theorem OpensCalls.foldSigns {tokens : List Token} (opensCalls : OpensCalls none tokens) :
    OpensCalls none (foldSigns grammar tokens) := by
  suffices general : ∀ (tokens folded : List Token), OpensCalls none folded.reverse →
      OpensCalls (folded.head?.map kind) tokens →
        OpensCalls none (tokens.foldl (Token.foldOnto grammar) folded).reverse from
    general tokens [] trivial opensCalls
  intro tokens
  induction tokens with
  | nil => exact fun folded already _ => already
  | cons token tokens ih =>
      intro folded already opens
      refine ih _ (foldOnto (opensCalls_append.mpr ⟨already, ?_, trivial⟩)) ?_
      · rw [List.getLast?_reverse, Option.or_none]
        exact opens.1
      · rw [head?_foldOnto]
        exact opens.2

end Token

/-! ## Grouping -/

namespace TokenTree

/-- As long as the limit is above the open parentheses, it is met where too many are open. -/
theorem groupOnto_eq_nestingLimit_iff {maxDepth : Nat} {frames : List Frame}
    {level : List TokenTree} {tokens : List Token} (room : frames.length ≤ maxDepth) :
    groupOnto maxDepth frames level tokens = .error (.nestingLimit maxDepth) ↔
      maxDepth < Token.deepest frames.length tokens := by
  fun_induction groupOnto maxDepth frames level tokens with
  | case1 level => simp [Token.deepest]
  | case2 level frame frames => simpa [Token.deepest] using room
  | case3 level token tokens frame frames kind ih =>
      rw [List.length_cons] at room ⊢
      rw [ih (by omega), Token.deepest]
      simp only [kind, Nat.add_sub_cancel]
      omega
  | case4 level token tokens frames kind above =>
      have := Token.le_deepest (frames.length + 1) tokens
      simp only [Token.deepest, kind, true_iff]
      omega
  | case5 level token tokens frames kind below ih =>
      rw [ih (by simp only [List.length_cons]; omega), Token.deepest]
      simp only [kind, List.length_cons]
  | case6 level token tokens frames notClosing notOpening ih =>
      rw [ih room, Token.deepest]
      split
      · next kind => exact absurd kind notOpening
      · next kind =>
          cases frames with
          | nil => simp
          | cons frame frames => exact absurd rfl (notClosing frame frames kind)
      · rfl

/-- Grouping gets along with a limit exactly when no more parentheses are open at once. -/
theorem isThreshold_ofTokens {room : Nat} {tokens : List Token} {trees : List TokenTree}
    (grouped : ofTokens room tokens = .ok trees) :
    IsThreshold (fun maxDepth => ofTokens maxDepth tokens) (Token.nesting tokens) (.ok trees) where
  below maxDepth less := (groupOnto_eq_nestingLimit_iff (Nat.zero_le _)).mpr less
  above maxDepth enough := by
    have settles {small large : Nat} (bound : small ≤ large) :=
      settles_groupOnto bound [] [] tokens
    have notLimited : ofTokens maxDepth tokens ≠ .error (.nestingLimit maxDepth) := fun limited =>
      absurd ((groupOnto_eq_nestingLimit_iff (Nat.zero_le _)).mp limited) (Nat.not_lt.mpr enough)
    have one := (settles (Nat.le_max_left maxDepth room)).resolve_left notLimited
    have other := (settles (Nat.le_max_right maxDepth room)).resolve_left fun limited =>
      nomatch grouped.symm.trans limited
    exact one.symm.trans (other.trans grouped)
  unlimited := nofun

/-! ## Trees without groups -/

mutual

/-- No parentheses but those of calls. -/
def GroupFree : TokenTree → Prop
  | .leaf _ => True
  | .group .. => False
  | .call _ _ arguments => GroupFreeArguments arguments

def GroupFreeAll : List TokenTree → Prop
  | [] => True
  | tree :: trees => tree.GroupFree ∧ GroupFreeAll trees

def GroupFreeArguments : List (List TokenTree) → Prop
  | [] => True
  | argument :: arguments => GroupFreeAll argument ∧ GroupFreeArguments arguments

end

theorem groupFreeAll_iff {trees : List TokenTree} :
    GroupFreeAll trees ↔ ∀ tree ∈ trees, tree.GroupFree := by
  induction trees with
  | nil => simp [GroupFreeAll]
  | cons tree trees ih => rw [GroupFreeAll, ih, List.forall_mem_cons]

theorem groupFreeArguments_iff {arguments : List (List TokenTree)} :
    GroupFreeArguments arguments ↔ ∀ argument ∈ arguments, GroupFreeAll argument := by
  induction arguments with
  | nil => simp [GroupFreeArguments]
  | cons argument arguments ih => rw [GroupFreeArguments, ih, List.forall_mem_cons]

theorem groupFreeArguments_splitAtCommas {content : List TokenTree}
    (free : GroupFreeAll content) : GroupFreeArguments (splitAtCommas content) := by
  induction content with
  | nil => exact ⟨trivial, trivial⟩
  | cons tree content ih =>
      obtain ⟨freeTree, freeContent⟩ := free
      unfold splitAtCommas
      split
      · exact ⟨trivial, ih freeContent⟩
      · cases parts : splitAtCommas content with
        | nil => exact ⟨⟨freeTree, trivial⟩, trivial⟩
        | cons first rest =>
            obtain ⟨freeFirst, freeRest⟩ := parts ▸ ih freeContent
            exact ⟨⟨freeTree, freeFirst⟩, freeRest⟩

theorem groupFreeArguments_splitArguments {content : List TokenTree}
    (free : GroupFreeAll content) : GroupFreeArguments (splitArguments content) := by
  cases content with
  | nil => exact trivial
  | cons tree content => exact groupFreeArguments_splitAtCommas free

/-- What stands in front of an open parenthesis ends in the name of a call. -/
def Frame.IsCall (frame : Frame) : Prop :=
  GroupFreeAll frame.before ∧
    ∃ name before, frame.before = .leaf name :: before ∧ name.kind = .identifier

theorem Frame.IsCall.close {frame : Frame} (isCall : frame.IsCall) {content : List TokenTree}
    (free : GroupFreeAll content) : GroupFreeAll (frame.close content) := by
  obtain ⟨freeBefore, name, before, same, isName⟩ := isCall
  rw [same] at freeBefore
  simp only [Frame.close, same, isName, if_true]
  exact ⟨groupFreeArguments_splitArguments free, freeBefore.2⟩

/-- The previous token, if it is a name, is the last tree of the level. -/
theorem groupFree_of_groupOnto {maxDepth : Nat} {frames : List Frame}
    {level trees : List TokenTree} {tokens : List Token} {previous : Option Token.Kind}
    (grouped : groupOnto maxDepth frames level tokens = .ok trees)
    (opensCalls : Token.OpensCalls previous tokens)
    (last : previous = some .identifier →
      ∃ name before, level = .leaf name :: before ∧ name.kind = .identifier)
    (free : GroupFreeAll level) (calls : ∀ frame ∈ frames, frame.IsCall) :
    GroupFreeAll trees := by
  fun_induction groupOnto maxDepth frames level tokens generalizing previous with
  | case1 level =>
      obtain rfl := Except.ok.inj grouped
      rw [groupFreeAll_iff] at free ⊢
      simpa using free
  | case2 => cases grouped
  | case3 level token tokens frame frames kind ih =>
      obtain ⟨isCall, calls⟩ := List.forall_mem_cons.mp calls
      refine ih grouped opensCalls.2 ?_ (isCall.close ?_) calls
      · simp [kind]
      · rw [groupFreeAll_iff] at free ⊢
        simpa using free
  | case4 => cases grouped
  | case5 level token tokens frames kind below ih =>
      refine ih grouped opensCalls.2 ?_ trivial (List.forall_mem_cons.mpr ⟨?_, calls⟩)
      · simp [kind]
      · exact ⟨free, last (opensCalls.1 kind)⟩
  | case6 level token tokens frames notClosing notOpening ih =>
      refine ih grouped opensCalls.2 (fun isName => ?_) ⟨trivial, free⟩ calls
      exact ⟨token, level, rfl, Option.some.inj isName⟩

theorem groupFree_of_ofTokens {maxDepth : Nat} {tokens : List Token} {trees : List TokenTree}
    (grouped : ofTokens maxDepth tokens = .ok trees)
    (opensCalls : Token.OpensCalls none tokens) : GroupFreeAll trees :=
  groupFree_of_groupOnto grouped opensCalls nofun trivial nofun

end TokenTree

end Formula

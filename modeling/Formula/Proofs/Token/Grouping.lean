import Formula.Token.Tree

/-!
# Matching parentheses, step by step

What grouping does with the next token, by its kind, which tokens it puts together whatever stands
around them, and how commas split the contents of a call.
-/

namespace Formula.TokenTree

/-! ## One token -/

section Token

variable {maxDepth : Nat} {frame : Frame} {frames : List Frame} {level : List TokenTree}
  {token : Token} {tokens : List Token}

theorem groupOnto_closing (kind : token.kind = .rightParen) :
    groupOnto maxDepth (frame :: frames) level (token :: tokens) =
      groupOnto maxDepth frames (frame.close level.reverse) tokens := by
  rw [groupOnto.eq_def]
  simp only [kind]

theorem groupOnto_opening (kind : token.kind = .leftParen) :
    groupOnto maxDepth frames level (token :: tokens) =
      if maxDepth ≤ frames.length then .error (.nestingLimit maxDepth)
      else groupOnto maxDepth (⟨token.position, level⟩ :: frames) [] tokens := by
  rw [groupOnto.eq_def]
  simp only [kind]

/-- A closing parenthesis that closes nothing stays a leaf. -/
theorem groupOnto_leaf (notOpening : token.kind ≠ .leftParen)
    (notClosing : token.kind = .rightParen → frames = []) :
    groupOnto maxDepth frames level (token :: tokens) =
      groupOnto maxDepth frames (.leaf token :: level) tokens := by
  cases frames with
  | nil =>
      rw [groupOnto.eq_def]
      dsimp only
      split
      · next none => cases none
      · exact absurd ‹token.kind = .leftParen› notOpening
      · rfl
  | cons frame frames =>
      rw [groupOnto.eq_def]
      dsimp only
      split
      · cases notClosing ‹token.kind = .rightParen›
      · exact absurd ‹token.kind = .leftParen› notOpening
      · rfl

/-- Grouping fails at parentheses only. -/
theorem groupOnto_eq_error {error : Error}
    (failed : groupOnto maxDepth frames level tokens = .error error) :
    error = .nestingLimit maxDepth ∨ ∃ position, error = .unmatchedParenthesis position := by
  fun_induction groupOnto maxDepth frames level tokens with
  | case1 => cases failed
  | case2 _ frame =>
      cases failed
      exact .inr ⟨frame.position, rfl⟩
  | case3 _ _ _ _ _ _ ih => exact ih failed
  | case4 =>
      cases failed
      exact .inl rfl
  | case5 _ _ _ _ _ _ ih => exact ih failed
  | case6 _ _ _ _ _ _ ih => exact ih failed

end Token

/-- What stands last and is no parenthesis stays a leaf of the outermost level. -/
theorem leaf_mem_of_last {maxDepth : Nat} {frames : List Frame} {level trees : List TokenTree}
    {tokens : List Token} {last : Token}
    (grouped : groupOnto maxDepth frames level (tokens ++ [last]) = .ok trees)
    (notOpening : last.kind ≠ .leftParen) (notClosing : last.kind ≠ .rightParen) :
    .leaf last ∈ trees := by
  induction tokens generalizing frames level with
  | nil =>
      rw [List.nil_append, groupOnto_leaf notOpening fun closing => absurd closing notClosing]
        at grouped
      cases frames with
      | nil =>
          simp only [groupOnto, Except.ok.injEq] at grouped
          simp [← grouped]
      | cons => simp [groupOnto] at grouped
  | cons token tokens ih =>
      rw [List.cons_append] at grouped
      by_cases opens : token.kind = .leftParen
      · rw [groupOnto_opening opens] at grouped
        split at grouped
        · cases grouped
        · exact ih grouped
      · by_cases closes : token.kind = .rightParen ∧ frames ≠ []
        · obtain ⟨closes, present⟩ := closes
          obtain ⟨frame, outer, rfl⟩ := List.exists_cons_of_ne_nil present
          rw [groupOnto_closing closes] at grouped
          exact ih grouped
        · have closesNothing : token.kind = .rightParen → frames = [] := by
            intro kind
            cases frames with
            | nil => rfl
            | cons => exact absurd ⟨kind, by simp⟩ closes
          rw [groupOnto_leaf opens closesNothing] at grouped
          exact ih grouped

/-! ## Tokens that belong together -/

/-- A level onto which parentheses make a group and no call. -/
def EndsInNoName (level : List TokenTree) : Prop :=
  ∀ token before, level = .leaf token :: before → token.kind ≠ .identifier

theorem endsInNoName_nil : EndsInNoName [] := by
  rintro _ _ ⟨⟩

/-- The tokens are grouped to the trees, whatever stands around them. -/
def Groups (room : Nat) (tokens : List Token) (trees : List TokenTree) : Prop :=
  ∀ maxDepth frames level rest, frames.length + room ≤ maxDepth → EndsInNoName level →
    groupOnto maxDepth frames level (tokens ++ rest) =
      groupOnto maxDepth frames (trees.reverse ++ level) rest

theorem Groups.mono {small large : Nat} {tokens : List Token} {trees : List TokenTree}
    (groups : Groups small tokens trees) (bound : small ≤ large) : Groups large tokens trees := by
  intro maxDepth frames level rest enough noName
  apply groups maxDepth frames level rest _ noName
  omega

theorem Groups.ofTokens {room maxDepth : Nat} {tokens : List Token} {trees : List TokenTree}
    (groups : Groups room tokens trees) (enough : room ≤ maxDepth) :
    TokenTree.ofTokens maxDepth tokens = .ok trees := by
  have grouped := groups maxDepth [] [] [] (by simpa using enough) endsInNoName_nil
  rw [List.append_nil] at grouped
  rw [TokenTree.ofTokens, grouped]
  simp [groupOnto]

theorem groups_nil (room : Nat) : Groups room [] [] :=
  fun _ _ _ _ _ _ => rfl

theorem groups_leaf {token : Token} (notOpening : token.kind ≠ .leftParen)
    (notClosing : token.kind ≠ .rightParen) (room : Nat) : Groups room [token] [.leaf token] := by
  intro maxDepth frames level rest _ _
  exact groupOnto_leaf notOpening fun closing => absurd closing notClosing

/-- Behind an operator or a comma no parenthesis opens a call. -/
theorem Groups.separated {room : Nat} {before after : List Token}
    {treesBefore treesAfter : List TokenTree} (ofBefore : Groups room before treesBefore)
    (ofAfter : Groups room after treesAfter) {token : Token}
    (separates : token.kind = .operator ∨ token.kind = .comma) :
    Groups room (before ++ token :: after) (treesBefore ++ .leaf token :: treesAfter) := by
  intro maxDepth frames level rest enough noName
  have kinds : token.kind ≠ .leftParen ∧ token.kind ≠ .rightParen ∧ token.kind ≠ .identifier := by
    rcases separates with kind | kind <;> simp [kind]
  obtain ⟨notOpening, notClosing, notIdentifier⟩ := kinds
  have noNameBehind : EndsInNoName (.leaf token :: (treesBefore.reverse ++ level)) := by
    rintro _ _ ⟨⟩
    exact notIdentifier
  rw [List.append_assoc, ofBefore maxDepth frames level _ enough noName, List.cons_append,
    groupOnto_leaf notOpening fun closing => absurd closing notClosing,
    ofAfter maxDepth frames _ rest enough noNameBehind]
  simp

section Parenthesised

variable {room : Nat} {content : List Token} {trees : List TokenTree} {opening closing : Token}
  (groups : Groups room content trees) (opens : opening.kind = .leftParen)
  (closes : closing.kind = .rightParen)
include groups opens closes

theorem groupOnto_parenthesised {maxDepth : Nat} {frames : List Frame}
    (enough : frames.length + (room + 1) ≤ maxDepth) (level : List TokenTree)
    (rest : List Token) :
    groupOnto maxDepth frames level (opening :: content ++ closing :: rest) =
      groupOnto maxDepth frames (Frame.close ⟨opening.position, level⟩ trees) rest := by
  have below : ¬ maxDepth ≤ frames.length := by omega
  rw [List.cons_append, groupOnto_opening opens, if_neg below,
    groups maxDepth _ [] _ (by simp only [List.length_cons]; omega) endsInNoName_nil,
    groupOnto_closing closes]
  simp

omit groups opens closes in
theorem close_of_endsInNoName {level : List TokenTree} (noName : EndsInNoName level)
    (position : Nat) (content : List TokenTree) :
    Frame.close ⟨position, level⟩ content = .group position content :: level := by
  cases level with
  | nil => rfl
  | cons last before =>
      cases last with
      | leaf token =>
          have notIdentifier := noName token before rfl
          simp [Frame.close, notIdentifier]
      | group => rfl
      | call => rfl

theorem Groups.parenthesised :
    Groups (room + 1) (opening :: content ++ [closing]) [.group opening.position trees] := by
  intro maxDepth frames level rest enough noName
  rw [List.append_assoc, List.singleton_append,
    groupOnto_parenthesised groups opens closes enough, close_of_endsInNoName noName]
  rfl

end Parenthesised

/-! ## Grouping inside other tokens

What groups alone groups to the same trees inside other tokens, if no closing parenthesis was left
over: inside others it would have closed one of theirs. -/

/-- What stands on the outermost level, last tree first. -/
def outermost : List Frame → List TokenTree → List TokenTree
  | [], level => level
  | frame :: frames, _ => outermost frames frame.before

theorem Frame.leaf_mem_close {frame : Frame} {leaf : Token} (member : .leaf leaf ∈ frame.before)
    (notName : leaf.kind ≠ .identifier) (content : List TokenTree) :
    .leaf leaf ∈ frame.close content := by
  unfold close
  split
  · next token earlier same =>
      rw [same] at member
      split
      · next isName =>
          rcases List.mem_cons.mp member with same | member
          · cases same
            exact absurd isName notName
          · exact .tail _ member
      · rw [same]
        exact .tail _ member
  · exact .tail _ member

/-- A leaf on the outermost level stays there, unless it is the name of a call. -/
theorem leaf_mem_of_groupOnto {maxDepth : Nat} {frames : List Frame}
    {level trees : List TokenTree} {tokens : List Token} {leaf : Token}
    (grouped : groupOnto maxDepth frames level tokens = .ok trees)
    (member : .leaf leaf ∈ outermost frames level) (notName : leaf.kind ≠ .identifier) :
    .leaf leaf ∈ trees := by
  fun_induction groupOnto maxDepth frames level tokens with
  | case1 level =>
      obtain rfl := Except.ok.inj grouped
      exact List.mem_reverse.mpr member
  | case2 => cases grouped
  | case3 level token tokens frame frames kind ih =>
      refine ih grouped ?_
      cases frames with
      | cons => exact member
      | nil => exact frame.leaf_mem_close member notName _
  | case4 => cases grouped
  | case5 level token tokens frames kind below ih => exact ih grouped member
  | case6 level token tokens frames notClosing notOpening ih =>
      refine ih grouped ?_
      cases frames with
      | cons => exact member
      | nil => exact .tail _ member

/-- A level that is the outermost one of its own stands on the level around it. -/
def levelOnto (base : List TokenTree) (frames : List Frame) (level : List TokenTree) :
    List TokenTree :=
  if frames.isEmpty then level ++ base else level

def framesOnto (base : List TokenTree) : List Frame → List Frame
  | [] => []
  | frame :: frames =>
      ⟨frame.position, levelOnto base frames frame.before⟩ :: framesOnto base frames

theorem length_framesOnto (base : List TokenTree) (frames : List Frame) :
    (framesOnto base frames).length = frames.length := by
  induction frames with
  | nil => rfl
  | cons frame frames ih => rw [framesOnto, List.length_cons, List.length_cons, ih]

theorem close_levelOnto {base : List TokenTree} (noName : EndsInNoName base) (frame : Frame)
    (frames : List Frame) (content : List TokenTree) :
    Frame.close ⟨frame.position, levelOnto base frames frame.before⟩ content =
      levelOnto base frames (frame.close content) := by
  obtain ⟨position, before⟩ := frame
  cases frames with
  | cons => rfl
  | nil =>
      simp only [levelOnto, List.isEmpty_nil, if_true]
      cases before with
      | nil =>
          rw [List.nil_append, close_of_endsInNoName noName,
            close_of_endsInNoName endsInNoName_nil]
          rfl
      | cons last before =>
          cases last with
          | leaf token =>
              simp only [Frame.close, List.cons_append]
              split
              · rfl
              · rfl
          | group => rfl
          | call => rfl

theorem groupOnto_inside {room maxDepth : Nat} {frames outer : List Frame}
    {level base trees : List TokenTree} {tokens rest : List Token}
    (grouped : groupOnto room frames level tokens = .ok trees)
    (matched : ∀ leaf, .leaf leaf ∈ trees → leaf.kind ≠ .rightParen)
    (enough : outer.length + room ≤ maxDepth) (noName : EndsInNoName base) :
    groupOnto maxDepth (framesOnto base frames ++ outer) (levelOnto base frames level)
        (tokens ++ rest) =
      groupOnto maxDepth outer (trees.reverse ++ base) rest := by
  fun_induction groupOnto room frames level tokens with
  | case1 level =>
      obtain rfl := Except.ok.inj grouped
      simp [framesOnto, levelOnto]
  | case2 => cases grouped
  | case3 level token tokens frame frames kind ih =>
      rw [List.cons_append, framesOnto, List.cons_append, groupOnto_closing kind, ← ih grouped,
        ← close_levelOnto noName]
      rfl
  | case4 => cases grouped
  | case5 level token tokens frames kind below ih =>
      have shallow : ¬ maxDepth ≤ (framesOnto base frames ++ outer).length := by
        rw [List.length_append, length_framesOnto]
        omega
      rw [List.cons_append, groupOnto_opening kind, if_neg shallow, ← ih grouped]
      rfl
  | case6 level token tokens frames notClosing notOpening ih =>
      have notClosing : token.kind ≠ .rightParen := by
        intro kind
        cases frames with
        | cons frame frames => exact notClosing frame frames kind rfl
        | nil =>
            have left := leaf_mem_of_groupOnto grouped (.head _) (by simp [kind])
            exact matched token left kind
      have sameLevel : levelOnto base frames (.leaf token :: level) =
          .leaf token :: levelOnto base frames level := by
        cases frames with
        | nil => rfl
        | cons => rfl
      rw [List.cons_append, groupOnto_leaf notOpening fun closing => absurd closing notClosing,
        ← sameLevel, ih grouped]

theorem groups_of_ofTokens {room : Nat} {tokens : List Token} {trees : List TokenTree}
    (grouped : ofTokens room tokens = .ok trees)
    (matched : ∀ leaf, .leaf leaf ∈ trees → leaf.kind ≠ .rightParen) :
    Groups room tokens trees :=
  fun _ _ _ _ enough noName => groupOnto_inside grouped matched enough noName

/-! ## Commas -/

theorem splitAtCommas_append {before after first : List TokenTree} {rest : List (List TokenTree)}
    (noComma : ∀ tree ∈ before, tree.isComma = false)
    (split : splitAtCommas after = first :: rest) :
    splitAtCommas (before ++ after) = (before ++ first) :: rest := by
  induction before with
  | nil => exact split
  | cons tree before ih =>
      obtain ⟨notComma, noComma⟩ := List.forall_mem_cons.mp noComma
      simp [splitAtCommas, notComma, ih noComma, consFirst]

theorem splitAtCommas_intercalate {comma : TokenTree} (isComma : comma.isComma = true)
    {parts : List (List TokenTree)} (present : parts ≠ [])
    (each : ∀ part ∈ parts, ∀ tree ∈ part, tree.isComma = false) :
    splitAtCommas ([comma].intercalate parts) = parts := by
  induction parts with
  | nil => contradiction
  | cons part parts ih =>
      obtain ⟨noComma, each⟩ := List.forall_mem_cons.mp each
      cases parts with
      | nil =>
          have alone := splitAtCommas_append noComma (rfl : splitAtCommas [] = [[]])
          rw [List.append_nil] at alone
          rw [List.intercalate_singleton, alone]
      | cons second parts =>
          have split : splitAtCommas (comma :: [comma].intercalate (second :: parts)) =
              [] :: second :: parts := by
            rw [splitAtCommas, if_pos isComma, ih (by simp) each]
          have joined := splitAtCommas_append noComma split
          rw [List.append_nil] at joined
          rw [List.intercalate_cons_cons, List.append_assoc, List.singleton_append, joined]

end Formula.TokenTree

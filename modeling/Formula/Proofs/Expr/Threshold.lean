import Formula.Proofs.Expr.Height
import Formula.Proofs.Expr.Words
import Formula.Proofs.Token.Depth
import Mathlib.Data.List.Perm.Subperm

/-!
# The depth that a text needs

Each text has a depth from which on the nesting limit does not matter.  Without groups, and without
pluses that leave no node, this depth can be read off the expression and its parentheses.
-/

namespace Formula.Expr

open TokenTree (wordsOfAll wordsOfArguments GroupFreeAll)

/-! ## Builds that waste no level -/

/-- When the arguments of a call lose no words together, none of them loses any. -/
theorem length_words_le_of_arguments {arguments : List (List TokenTree)}
    {values : List (Option Expr)}
    (same : values.map Option.isNone = arguments.map List.isEmpty)
    (each : ∀ argument value, (argument, some value) ∈ arguments.zip values →
      LosesPluses value.words (wordsOfAll argument))
    (whole : (wordsOfArguments arguments).length ≤ (argumentWords values).length) :
    ∀ argument value, (argument, some value) ∈ arguments.zip values →
      (wordsOfAll argument).length ≤ value.words.length := by
  induction arguments generalizing values with
  | nil => simp
  | cons first arguments ih =>
      cases values with
      | nil => simp
      | cons value values =>
          obtain ⟨sameFirst, sameRest⟩ := List.cons.inj same
          have eachLater := fun argument value later => each argument value (.tail _ later)
          have later := (losesPluses_arguments sameRest eachLater).1.length_le
          rw [wordsOfArguments, argumentWords, List.length_append, List.length_append] at whole
          cases value with
          | none =>
              obtain rfl : first = [] := by simpa using sameFirst
              simp only [wordsOfAll, operandWords, List.length_nil, Nat.zero_add] at whole
              simpa using ih sameRest eachLater whole
          | some value =>
              have here := (each first value (.head _)).1.length_le
              rw [operandWords] at whole
              simp only [List.zip_cons_cons, List.mem_cons]
              rintro argument other (⟨⟨⟩⟩ | member)
              · omega
              · exact ih sameRest eachLater (by omega) argument other member

theorem Builds.tight {grammar : Grammar} {levels : Nat} {trees : List TokenTree} {expr : Expr}
    (builds : Builds grammar levels trees expr) (apart : NumbersApart (wordsOfAll trees))
    (free : GroupFreeAll trees) (whole : (wordsOfAll trees).length ≤ expr.words.length) :
    Builds grammar (expr.height + 1) trees expr := by
  have sides {trees : List TokenTree} {split : Split} (splits : split? grammar trees = some split)
      (free : GroupFreeAll trees) : GroupFreeAll split.before ∧ GroupFreeAll split.after := by
    obtain ⟨tree, -, -, rfl⟩ := split?_eq_some splits
    simp only [TokenTree.groupFreeAll_iff, List.forall_mem_append, List.forall_mem_cons] at free ⊢
    exact ⟨free.1, free.2.2⟩
  induction builds with
  | @prefixed _ _ content split operand splits fits built ih =>
      have empty : split.before = [] := fits.2.1
      obtain rfl : split.after = content := fits.2.2.1
      rw [wordsOfAll_of_split? splits, empty] at whole
      have higher : height (.operation split.operator split.position none (some operand)) =
          operand.height + 1 := by simp [height, operandHeight]
      rw [higher]
      refine .prefixed splits fits (ih (apart.sides splits).2 (sides splits free).2 ?_)
      simpa [wordsOfAll, words, operandWords, isImpliedZero] using whole
  | @suffixed _ _ content split operand splits fits built ih =>
      have empty : split.after = [] := fits.2.2.1
      obtain rfl : split.before = content := fits.2.1
      have kept := built.losesPluses (apart.sides splits).1
      rw [words, isImpliedZero_eq_false splits apart kept.1, wordsOfAll_of_split? splits, empty]
        at whole
      have higher : height (.operation split.operator split.position (some operand) none) =
          operand.height + 1 := by simp [height, operandHeight]
      rw [higher]
      refine .suffixed splits fits (ih (apart.sides splits).1 (sides splits free).1 ?_)
      simpa [wordsOfAll, words, operandWords] using whole
  | @infixed _ _ before after split left right splits fits builtLeft builtRight ihLeft ihRight =>
      obtain rfl : split.before = before := fits.2.1
      obtain rfl : split.after = after := fits.2.2.1
      have keptLeft := builtLeft.losesPluses (apart.sides splits).1
      have keptRight := builtRight.losesPluses (apart.sides splits).2
      rw [words, isImpliedZero_eq_false splits apart keptLeft.1, wordsOfAll_of_split? splits]
        at whole
      simp only [Bool.false_eq_true, if_false, List.length_append, List.length_cons, operandWords]
        at whole
      have lengthLeft := keptLeft.1.length_le
      have lengthRight := keptRight.1.length_le
      have tightLeft := ihLeft (apart.sides splits).1 (sides splits free).1 (by omega)
      have tightRight := ihRight (apart.sides splits).2 (sides splits free).2 (by omega)
      rw [height, operandHeight, operandHeight]
      exact .infixed splits fits (tightLeft.mono (Nat.le_max_left _ _))
        (tightRight.mono (Nat.le_max_right _ _))
  | @negated _ _ content split operand splits fits built ih =>
      have minus : split.operator = "-" := fits.2.1
      have empty : split.before = [] := fits.2.2.1
      obtain rfl : split.after = content := fits.2.2.2.1
      have isZero : isImpliedZero split.operator split.position
          (some (.number "0" split.position)) = true := by simp [isImpliedZero, minus]
      rw [words, isZero, wordsOfAll_of_split? splits, empty] at whole
      have higher : height (.operation split.operator split.position
          (some (.number "0" split.position)) (some operand)) = operand.height + 1 := by
        simp [height, operandHeight]
      rw [higher]
      refine .negated splits fits (ih (apart.sides splits).2 (sides splits free).2 ?_)
      simpa [wordsOfAll, operandWords] using whole
  | plain splits fits built _ =>
      -- The plus would be a word that the expression lacks.
      obtain ⟨-, -, empty, rfl, -⟩ := fits
      have kept := (built.losesPluses (apart.sides splits).2).1.length_le
      rw [wordsOfAll_of_split? splits, empty] at whole
      simp only [wordsOfAll, List.nil_append, List.length_cons] at whole
      omega
  | leaf isOperand =>
      exact .leaf isOperand
  | group _ _ => exact absurd free.1 (by simp [TokenTree.GroupFree])
  | @call _ position name arguments values same built ih =>
      rw [wordsOfAll, wordsOfAll, List.append_nil, TokenTree.words] at apart whole
      have apartEach {argument : List TokenTree} (member : argument ∈ arguments) :
          NumbersApart (wordsOfAll argument) :=
        apart.mono fun _ isWord => .tail _ (wordsOfAll_subset_wordsOfArguments member isWord)
      have kept (argument : List TokenTree) (value : Expr)
          (member : (argument, some value) ∈ arguments.zip values) :
          LosesPluses value.words (wordsOfAll argument) :=
        (built argument value member).losesPluses (apartEach (List.of_mem_zip member).1)
      rw [words, List.length_cons, List.length_cons, Nat.succ_le_succ_iff] at whole
      refine .call same fun argument value member => ?_
      have listed := List.of_mem_zip member
      have freeEach := TokenTree.groupFreeArguments_iff.mp free.1 argument listed.1
      have wholeEach := length_words_le_of_arguments same kept whole argument value member
      have lower : value.height + 1 ≤ argumentsHeight values :=
        argumentsHeight_le_iff.mp (Nat.le_refl _) (some value) listed.2
      exact (ih argument value member (apartEach listed.1) freeEach wholeEach).mono lower

/-! ## Expressions with all words -/

theorem nodup_words {tokens : List Token}
    (ordered : (tokens.map Token.position).Pairwise (· < ·)) : (Token.words tokens).Nodup := by
  refine (List.pairwise_map.mp ordered).filterMap Token.word? fun token other less => ?_
  rintro word isWord _ isWord' rfl
  have := (Token.word?_eq_some isWord).2.2
  have := (Token.word?_eq_some isWord').2.2
  omega

/-- Only a plus without node is missing from the words of an expression. -/
theorem LosesPluses.length_le {read given : List Word} (loses : LosesPluses read given)
    (distinct : given.Nodup) (pluses : ∀ word ∈ given, word.isPlus = true → word ∈ read) :
    given.length ≤ read.length := by
  refine (distinct.subperm fun word isGiven => ?_).length_le
  cases isPlus : word.isPlus with
  | true => exact pluses word isGiven isPlus
  | false =>
      have kept : word ∈ given.filter fun word => !word.isPlus :=
        List.mem_filter.mpr ⟨isGiven, by simp [isPlus]⟩
      rw [← loses.2] at kept
      exact List.mem_of_mem_filter kept

theorem isThreshold_ofText {grammar : Grammar} {text : String} {tokens : List Token}
    {room : Nat} {expr : Expr} (tokenized : Lexer.tokenize grammar text = .ok tokens)
    (compiles : ofText grammar room text = .ok expr) (opensCalls : Token.OpensCalls none tokens)
    (pluses : ∀ token ∈ Token.foldSigns grammar tokens, token.isPlus = true →
      ∃ left right, .operation "+" token.position left right ∈ expr.nodes) :
    IsThreshold (fun maxDepth => ofText grammar maxDepth text)
      (max expr.height (Token.nesting tokens)) (.ok expr) := by
  obtain ⟨valid, _, trees, sameTokens, grouped, builds⟩ := ofText_eq_ok_iff.mp compiles
  obtain rfl := Except.ok.inj (tokenized.symm.trans sameTokens)
  have stand := Lexer.standsIn_of_tokenize tokenized
  have sameWords := TokenTree.wordsOfAll_of_ofTokens grouped
  have apart : NumbersApart (wordsOfAll trees) :=
    sameWords ▸ Token.numbersApart (Token.standsIn_foldSigns stand)
  have free := TokenTree.groupFree_of_ofTokens grouped opensCalls.foldSigns
  have whole : (wordsOfAll trees).length ≤ expr.words.length := by
    refine (builds.losesPluses apart).length_le ?_ ?_
    · rw [sameWords]
      exact nodup_words (Token.ordered_foldSigns (Lexer.ordered_of_tokenize valid tokenized))
    · intro word isWord isPlus
      rw [sameWords, Token.mem_words_iff] at isWord
      obtain ⟨token, member, isWord⟩ := isWord
      obtain ⟨kind, text, position⟩ := Token.word?_eq_some isWord
      simp only [Word.isPlus, Bool.and_eq_true, beq_iff_eq] at isPlus
      have tokenIsPlus : token.isPlus = true := by
        simp [Token.isPlus, Token.isOperator, ← kind, ← text, isPlus]
      obtain ⟨left, right, isNode⟩ := pluses token member tokenIsPlus
      have kept : ⟨.operator, "+", token.position⟩ ∈ expr.words :=
        (word_mem_words isNode).resolve_right (by rintro ⟨_, ⟨⟩, -⟩)
      rwa [← position, ← isPlus.1, ← isPlus.2] at kept
  have tight := builds.tight apart free whole
  have grouping := TokenTree.isThreshold_ofTokens grouped
  rw [Token.nesting_foldSigns] at grouping
  have stages := ofText_of_tokenize valid tokenized
  refine ⟨fun maxDepth below => ?_, fun maxDepth enough => ?_, fun _ => by simp⟩
  · rcases Nat.lt_or_ge maxDepth (Token.nesting tokens) with few | enough
    · simp only [stages, grouping.below maxDepth few, bind, Except.bind]
    · simp only [stages, grouping.above maxDepth enough, bind, Except.bind]
      -- A build that does not meet its limit gives the same expression, for which it is too low.
      obtain limited | same := settles_build grammar trees (Nat.le_max_left maxDepth room)
      · exact limited
      · have larger := (builds.mono (Nat.succ_le_succ (Nat.le_max_right maxDepth room))).ok
          (max maxDepth room)
        have := (Builds.of_ok (same.symm.trans larger)).height_lt
        omega
  · simp only [stages, grouping.above maxDepth (by omega), bind, Except.bind]
    exact (tight.mono (by omega)).ok maxDepth

/-- Every text has a depth below which it ends at the nesting limit, and from which on it has one
outcome.  When the text compiles, opens parentheses behind names only, and each plus that is left
after folding signs is an operator of the expression, this is the height of the expression or the
number of parentheses that are open at once, whichever is larger. -/
theorem ofText_threshold (grammar : Grammar) (text : String) :
    ∃ depth settled, IsThreshold (fun maxDepth => ofText grammar maxDepth text) depth settled ∧
      ∀ tokens expr, Lexer.tokenize grammar text = .ok tokens → settled = .ok expr →
        Token.OpensCalls none tokens →
        (∀ token ∈ Token.foldSigns grammar tokens, token.isPlus = true →
          ∃ left right, .operation "+" token.position left right ∈ expr.nodes) →
        depth = max expr.height (Token.nesting tokens) := by
  obtain ⟨depth, settled, threshold⟩ := exists_isThreshold_ofText grammar text
  refine ⟨depth, settled, threshold, ?_⟩
  rintro tokens expr tokenized rfl opensCalls pluses
  have compiles := threshold.above depth (Nat.le_refl _)
  exact (threshold.unique (isThreshold_ofText tokenized compiles opensCalls pluses)).1

/-- An expression that is deeper than its parentheses. -/
theorem ofText_threshold_of_calls :
    let negation : Expr := .operation "-" 2 (some (.number "0" 2))
      (some (.call "g" 3 [some (.identifier "a" 5)]))
    let sum : Expr := .operation "+" 8 (some negation) (some (.number "1" 10))
    IsThreshold (fun maxDepth => ofText .standard maxDepth "f(-g(a) + 1)") 4
      (.ok (.call "f" 0 [some sum])) := by
  intro negation sum
  let tokens : List Token :=
    [⟨.identifier, some "f", 0⟩, ⟨.leftParen, none, 1⟩, ⟨.operator, some "-", 2⟩,
      ⟨.identifier, some "g", 3⟩, ⟨.leftParen, none, 4⟩, ⟨.identifier, some "a", 5⟩,
      ⟨.rightParen, none, 6⟩, ⟨.operator, some "+", 8⟩, ⟨.number, some "1", 10⟩,
      ⟨.rightParen, none, 11⟩]
  have tokenized : Lexer.tokenize .standard "f(-g(a) + 1)" = .ok tokens := by decide +kernel
  have compiles : ofText .standard 4 "f(-g(a) + 1)" = .ok (.call "f" 0 [some sum]) := by
    rw [ofText_of_tokenize (by decide +kernel) tokenized]
    rfl
  have onePlus : ∀ token ∈ Token.foldSigns .standard tokens, token.isPlus = true →
      token.position = 8 := by decide
  obtain ⟨depth, settled, threshold, readOff⟩ := ofText_threshold .standard "f(-g(a) + 1)"
  obtain ⟨-, rfl⟩ := threshold.of_ok compiles
  have same := readOff tokens _ tokenized rfl (by decide) fun token member isPlus =>
    ⟨some negation, some (.number "1" 10), by
      rw [onePlus token member isPlus]
      exact .tail _ (.head _)⟩
  obtain rfl : depth = 4 := same
  exact threshold

/-- Two signs make a plus that is not written and takes a level. -/
theorem not_ofText_threshold_unfolded :
    ¬ ∀ text tokens expr depth, Lexer.tokenize .standard text = .ok tokens →
      IsThreshold (fun maxDepth => ofText .standard maxDepth text) depth (.ok expr) →
      Token.OpensCalls none tokens →
      (∀ token ∈ tokens, token.isPlus = true →
        ∃ left right, .operation "+" token.position left right ∈ expr.nodes) →
      depth = max expr.height (Token.nesting tokens) := by
  intro readOff
  have tokenized : Lexer.tokenize .standard "--x" =
      .ok [⟨.operator, some "-", 0⟩, ⟨.operator, some "-", 1⟩, ⟨.identifier, some "x", 2⟩] := by
    decide +kernel
  have compiles := ofText_of_tokenize (by decide +kernel) tokenized
  obtain ⟨depth, settled, threshold⟩ := exists_isThreshold_ofText .standard "--x"
  have succeeds : ofText .standard 1 "--x" = .ok (.identifier "x" 2) := by
    rw [compiles]
    rfl
  have limited : ofText .standard 0 "--x" = .error (.nestingLimit 0) := by
    rw [compiles]
    rfl
  obtain ⟨-, rfl⟩ := threshold.of_ok succeeds
  have noPlus : ∀ token ∈ [(⟨.operator, some "-", 0⟩ : Token), ⟨.operator, some "-", 1⟩,
      ⟨.identifier, some "x", 2⟩], token.isPlus = false := by decide
  have same := readOff "--x" _ _ depth tokenized threshold (by decide) fun token member isPlus =>
    Bool.noConfusion ((noPlus token member).symm.trans isPlus)
  obtain rfl : depth = 0 := same
  exact nomatch (threshold.above 0 (Nat.le_refl 0)).symm.trans limited

end Formula.Expr

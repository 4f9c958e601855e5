import Formula.Proofs.Position
import Mathlib.Data.List.Forall2

/-!
# Token trees written out again

Trees that are written out, a group as its contents between parentheses and a call as its name in
front of its arguments between commas, give back the tokens that they were grouped from.  The trees
keep no positions of closing parentheses and of the parentheses and commas of calls; all other
positions come back too.
-/

namespace Formula

/-- What trees keep of a token: all but its position in some places. -/
structure Mark where
  kind : Token.Kind
  text : Option String
  position : Option Nat
deriving DecidableEq, Repr

/-- Of the tokens that the lexer makes, parentheses and commas are those without text. -/
def Mark.IsLexed (mark : Mark) : Prop :=
  mark.text = none ↔ mark.kind ∈ [Token.Kind.leftParen, Token.Kind.rightParen, Token.Kind.comma]

namespace Token

def mark (token : Token) : Mark :=
  ⟨token.kind, token.text, some token.position⟩

def IsLexed (token : Token) : Prop :=
  token.mark.IsLexed

instance (token : Token) : Decidable token.IsLexed :=
  inferInstanceAs (Decidable (_ ↔ _))

end Token

namespace Mark

/-- A mark that has the kind and the text of the other one, and its position or none. -/
structure Recalls (mark full : Mark) : Prop where
  kind : mark.kind = full.kind
  text : mark.text = full.text
  position : ∀ position, mark.position = some position → full.position = some position

theorem Recalls.refl (mark : Mark) : Recalls mark mark :=
  ⟨rfl, rfl, fun _ known => known⟩

theorem Recalls.trans {first second third : Mark} (recalls : Recalls first second)
    (recalls' : Recalls second third) : Recalls first third where
  kind := recalls.kind.trans recalls'.kind
  text := recalls.text.trans recalls'.text
  position place known := recalls'.position place (recalls.position place known)

theorem recalls_of_unplaced (kind : Token.Kind) (text : Option String) (position : Option Nat) :
    Recalls ⟨kind, text, none⟩ ⟨kind, text, position⟩ where
  kind := rfl
  text := rfl
  position := nofun

/-- One mark after the other. -/
def RecallsAll (marks full : List Mark) : Prop :=
  List.Forall₂ Recalls marks full

namespace RecallsAll

theorem refl (marks : List Mark) : RecallsAll marks marks :=
  List.forall₂_same.mpr fun mark _ => .refl mark

theorem trans {first second third : List Mark} (recalls : RecallsAll first second)
    (recalls' : RecallsAll second third) : RecallsAll first third := by
  induction recalls generalizing third with
  | nil => exact recalls'
  | cons keeps _ ih =>
      cases recalls' with
      | cons keeps' recalls' => exact .cons (keeps.trans keeps') (ih recalls')

theorem append {before before' after after' : List Mark} (recalls : RecallsAll before before')
    (recalls' : RecallsAll after after') : RecallsAll (before ++ after) (before' ++ after') :=
  List.rel_append recalls recalls'

theorem exists_of_mem {marks full : List Mark} (recalls : RecallsAll marks full) {mark : Mark}
    (member : mark ∈ marks) : ∃ other ∈ full, Recalls mark other := by
  induction recalls with
  | nil => cases member
  | cons keeps _ ih =>
      rcases List.mem_cons.mp member with rfl | later
      · exact ⟨_, .head _, keeps⟩
      · obtain ⟨other, isOther, keeps⟩ := ih later
        exact ⟨other, .tail _ isOther, keeps⟩

end RecallsAll

/-- The token of a mark, at no place of its own. -/
def unplaced (mark : Mark) : Token :=
  ⟨mark.kind, mark.text, 0⟩

theorem RecallsAll.map_unplaced {marks full : List Mark} (recalls : RecallsAll marks full) :
    marks.map unplaced = full.map unplaced := by
  induction recalls with
  | nil => rfl
  | cons keeps _ ih =>
      rw [List.map_cons, List.map_cons, ih, unplaced, unplaced, keeps.kind, keeps.text]

theorem RecallsAll.isLexed {marks full : List Mark} (recalls : RecallsAll marks full)
    (lexed : ∀ mark ∈ full, mark.IsLexed) : ∀ mark ∈ marks, mark.IsLexed := by
  induction recalls with
  | nil => simp
  | cons keeps _ ih =>
      obtain ⟨first, rest⟩ := List.forall_mem_cons.mp lexed
      refine List.forall_mem_cons.mpr ⟨?_, ih rest⟩
      unfold IsLexed
      rw [keeps.kind, keeps.text]
      exact first

end Mark

namespace TokenTree

open Mark (Recalls RecallsAll)

/-! ## Writing trees out -/

mutual

def flatten : TokenTree → List Mark
  | .leaf token => [token.mark]
  | .group position content =>
      ⟨.leftParen, none, some position⟩ :: flattenAll content ++ [⟨.rightParen, none, none⟩]
  | .call name position arguments =>
      ⟨.identifier, some name, some position⟩ :: ⟨.leftParen, none, none⟩ ::
        [⟨.comma, none, none⟩].intercalate (flattenEach arguments) ++ [⟨.rightParen, none, none⟩]

def flattenAll : List TokenTree → List Mark
  | [] => []
  | tree :: trees => tree.flatten ++ flattenAll trees

def flattenEach : List (List TokenTree) → List (List Mark)
  | [] => []
  | argument :: arguments => flattenAll argument :: flattenEach arguments

end

theorem flattenAll_append (before after : List TokenTree) :
    flattenAll (before ++ after) = flattenAll before ++ flattenAll after := by
  induction before with
  | nil => rfl
  | cons tree before ih => simp only [List.cons_append, flattenAll, ih, List.append_assoc]

theorem flattenAll_reverse_cons (tree : TokenTree) (trees : List TokenTree) :
    flattenAll (tree :: trees).reverse = flattenAll trees.reverse ++ tree.flatten := by
  simp [flattenAll_append, flattenAll]

/-! ## Arguments -/

/-- The arguments of a call, with commas between them again. -/
def joined (arguments : List (List TokenTree)) : List Mark :=
  [⟨.comma, none, none⟩].intercalate (flattenEach arguments)

theorem joined_consFirst (tree : TokenTree) (arguments : List (List TokenTree)) :
    joined (consFirst tree arguments) = tree.flatten ++ joined arguments := by
  cases arguments with
  | nil => simp [joined, consFirst, flattenEach, flattenAll]
  | cons first rest =>
      cases rest with
      | nil => simp [joined, consFirst, flattenEach, flattenAll]
      | cons second rest =>
          simp [joined, consFirst, flattenEach, flattenAll, List.intercalate_cons_cons]

theorem joined_nil_cons {arguments : List (List TokenTree)} (present : arguments ≠ []) :
    joined ([] :: arguments) = ⟨.comma, none, none⟩ :: joined arguments := by
  cases arguments with
  | nil => contradiction
  | cons first rest =>
      simp [joined, flattenEach, flattenAll, List.intercalate_cons_cons]

theorem joined_cons (argument : List TokenTree) (arguments : List (List TokenTree)) :
    ∃ between, joined (argument :: arguments) =
      flattenAll argument ++ between ++ joined arguments := by
  cases arguments with
  | nil => exact ⟨[], by simp [joined, flattenEach]⟩
  | cons second rest =>
      exact ⟨[⟨.comma, none, none⟩], by simp [joined, flattenEach, List.intercalate_cons_cons]⟩

theorem splitAtCommas_ne_nil (content : List TokenTree) : splitAtCommas content ≠ [] := by
  intro none
  have parts := length_splitAtCommas content
  rw [none] at parts
  simp at parts

theorem recallsAll_splitAtCommas {content : List TokenTree}
    (lexed : ∀ mark ∈ flattenAll content, mark.IsLexed) :
    RecallsAll (joined (splitAtCommas content)) (flattenAll content) := by
  induction content with
  | nil => exact .nil
  | cons tree content ih =>
      rw [flattenAll, List.forall_mem_append] at lexed
      obtain ⟨lexedTree, lexedContent⟩ := lexed
      unfold splitAtCommas
      split
      · next isComma =>
          rw [joined_nil_cons (splitAtCommas_ne_nil content), flattenAll]
          refine @RecallsAll.append [_] _ _ _ ?_ (ih lexedContent)
          cases tree with
          | leaf token =>
              have kind : token.kind = .comma := by simpa [TokenTree.isComma] using isComma
              have textless : token.text = none :=
                (lexedTree token.mark (.head _)).mpr (by simp [Token.mark, kind])
              rw [flatten, Token.mark, kind, textless]
              exact .cons (Mark.recalls_of_unplaced _ _ _) .nil
          | group => simp [TokenTree.isComma] at isComma
          | call => simp [TokenTree.isComma] at isComma
      · rw [joined_consFirst, flattenAll]
        exact (RecallsAll.refl _).append (ih lexedContent)

theorem recallsAll_splitArguments {content : List TokenTree}
    (lexed : ∀ mark ∈ flattenAll content, mark.IsLexed) :
    RecallsAll (joined (splitArguments content)) (flattenAll content) := by
  cases content with
  | nil => exact .nil
  | cons tree content => exact recallsAll_splitAtCommas lexed

/-! ## Grouping -/

/-- Closing a parenthesis drops its position and, in a call, those of its commas. -/
theorem Frame.recallsAll_close {frame : Frame} {content : List TokenTree}
    (lexedBefore : ∀ mark ∈ flattenAll frame.before.reverse, mark.IsLexed)
    (lexed : ∀ mark ∈ flattenAll content, mark.IsLexed) :
    RecallsAll (flattenAll (frame.close content).reverse)
      (flattenAll frame.before.reverse ++ ⟨.leftParen, none, some frame.position⟩ ::
        flattenAll content ++ [⟨.rightParen, none, none⟩]) := by
  unfold close
  split
  · next token before same =>
      rw [same, flattenAll_reverse_cons, List.forall_mem_append] at lexedBefore
      split
      · next isName =>
          have named : token.text = some token.lexeme := by
            have isLexed := lexedBefore.2 token.mark (.head _)
            cases text : token.text with
            | none => simp [Mark.IsLexed, Token.mark, text, isName] at isLexed
            | some name => rw [Token.lexeme, text, Option.getD_some]
          rw [same, flattenAll_reverse_cons, flattenAll_reverse_cons]
          simp only [flatten, List.append_assoc, List.cons_append, List.nil_append]
          refine (RecallsAll.refl _).append (.cons ?_ (.cons (Mark.recalls_of_unplaced _ _ _) ?_))
          · rw [Token.mark, isName, named]
            exact .refl _
          · exact (recallsAll_splitArguments lexed).append (.refl _)
      · rw [flattenAll_reverse_cons, same, flatten]
        simpa using .refl _
  · rw [flattenAll_reverse_cons, flatten]
    simpa using .refl _

/-- What was written down before the open parentheses and with them, the outermost first. -/
def marksOfFrames : List Frame → List Mark
  | [] => []
  | frame :: frames =>
      marksOfFrames frames ++ flattenAll frame.before.reverse ++
        [⟨.leftParen, none, some frame.position⟩]

/-- The marks of what was read so far, in front of those of the tokens to come. -/
def allMarks (frames : List Frame) (level : List TokenTree) (tokens : List Token) : List Mark :=
  marksOfFrames frames ++ flattenAll level.reverse ++ tokens.map Token.mark

section Step

variable {frame : Frame} {frames : List Frame} {level : List TokenTree} {token : Token}
  {tokens : List Token}

theorem allMarks_leaf :
    allMarks frames (.leaf token :: level) tokens = allMarks frames level (token :: tokens) := by
  rw [allMarks, allMarks, flattenAll_reverse_cons, flatten]
  simp

theorem allMarks_opening (kind : token.kind = .leftParen) (textless : token.text = none) :
    allMarks (⟨token.position, level⟩ :: frames) [] tokens =
      allMarks frames level (token :: tokens) := by
  simp [allMarks, marksOfFrames, flattenAll, Token.mark, kind, textless]

theorem recallsAll_closing (kind : token.kind = .rightParen)
    (lexed : ∀ mark ∈ allMarks (frame :: frames) level (token :: tokens), mark.IsLexed) :
    RecallsAll (allMarks frames (frame.close level.reverse) tokens)
      (allMarks (frame :: frames) level (token :: tokens)) := by
  simp only [allMarks, marksOfFrames, List.map_cons, List.forall_mem_append, List.forall_mem_cons]
    at lexed
  obtain ⟨⟨⟨⟨_, lexedBefore⟩, _⟩, lexedLevel⟩, lexedToken, _⟩ := lexed
  have textless : token.text = none := lexedToken.mpr (by simp [Token.mark, kind])
  have placed : RecallsAll [⟨.rightParen, none, none⟩] [token.mark] := by
    rw [Token.mark, kind, textless]
    exact .cons (Mark.recalls_of_unplaced _ _ _) .nil
  have closed := (frame.recallsAll_close lexedBefore lexedLevel).trans
    ((RecallsAll.refl _).append placed)
  have whole := ((RecallsAll.refl (marksOfFrames frames)).append closed).append
    (.refl (tokens.map Token.mark))
  simpa [allMarks, marksOfFrames] using whole

end Step

theorem recallsAll_of_groupOnto {maxDepth : Nat} {frames : List Frame}
    {level trees : List TokenTree} {tokens : List Token}
    (grouped : groupOnto maxDepth frames level tokens = .ok trees)
    (lexed : ∀ mark ∈ allMarks frames level tokens, mark.IsLexed) :
    RecallsAll (flattenAll trees) (allMarks frames level tokens) := by
  fun_induction groupOnto maxDepth frames level tokens with
  | case1 level =>
      obtain rfl := Except.ok.inj grouped
      simpa [allMarks, marksOfFrames] using .refl _
  | case2 => cases grouped
  | case3 level token tokens frame frames kind ih =>
      have step := recallsAll_closing kind lexed
      exact (ih grouped (step.isLexed lexed)).trans step
  | case4 => cases grouped
  | case5 level token tokens frames kind below ih =>
      have isLexed : token.mark.IsLexed := lexed _ (by simp [allMarks])
      have textless : token.text = none := isLexed.mpr (by simp [Token.mark, kind])
      rw [← allMarks_opening kind textless] at lexed ⊢
      exact ih grouped lexed
  | case6 level token tokens frames notClosing notOpening ih =>
      rw [← allMarks_leaf] at lexed ⊢
      exact ih grouped lexed

/-! ## Trees in trees -/

mutual

/-- The tree itself and every tree in it. -/
def parts : TokenTree → List TokenTree
  | .leaf token => [.leaf token]
  | .group position content => .group position content :: partsOfAll content
  | .call name position arguments => .call name position arguments :: partsOfEach arguments

def partsOfAll : List TokenTree → List TokenTree
  | [] => []
  | tree :: trees => tree.parts ++ partsOfAll trees

def partsOfEach : List (List TokenTree) → List TokenTree
  | [] => []
  | argument :: arguments => partsOfAll argument ++ partsOfEach arguments

end

theorem self_mem_parts (tree : TokenTree) : tree ∈ tree.parts := by
  cases tree with
  | leaf | group | call =>
      unfold parts
      exact .head _

theorem mem_partsOfAll_iff {trees : List TokenTree} {part : TokenTree} :
    part ∈ partsOfAll trees ↔ ∃ tree ∈ trees, part ∈ tree.parts := by
  induction trees with
  | nil => simp [partsOfAll]
  | cons tree trees ih => simp [partsOfAll, ih]

theorem mem_partsOfEach_iff {arguments : List (List TokenTree)} {part : TokenTree} :
    part ∈ partsOfEach arguments ↔ ∃ argument ∈ arguments, part ∈ partsOfAll argument := by
  induction arguments with
  | nil => simp [partsOfEach]
  | cons argument arguments ih => simp [partsOfEach, ih]

theorem mem_partsOfAll {trees : List TokenTree} {tree : TokenTree} (member : tree ∈ trees) :
    tree ∈ partsOfAll trees :=
  mem_partsOfAll_iff.mpr ⟨tree, member, tree.self_mem_parts⟩

theorem partsOfAll_subset {some all : List TokenTree} (within : some ⊆ all) :
    partsOfAll some ⊆ partsOfAll all := by
  intro part isPart
  obtain ⟨tree, member, inside⟩ := mem_partsOfAll_iff.mp isPart
  exact mem_partsOfAll_iff.mpr ⟨tree, within member, inside⟩

mutual

theorem flatten_subset_of_mem_parts {tree part : TokenTree} (member : part ∈ tree.parts) :
    part.flatten ⊆ tree.flatten := by
  cases tree with
  | leaf token =>
      obtain rfl := List.mem_singleton.mp member
      exact List.Subset.refl _
  | group position content =>
      obtain rfl | inside := List.mem_cons.mp member
      · exact List.Subset.refl _
      · have within := flatten_subset_of_mem_partsOfAll inside
        exact fun _ isMark => List.mem_append_left _ (.tail _ (within isMark))
  | call name position arguments =>
      obtain rfl | inside := List.mem_cons.mp member
      · exact List.Subset.refl _
      · have within := flatten_subset_of_mem_partsOfEach inside
        exact fun _ isMark => List.mem_append_left _ (.tail _ (.tail _ (within isMark)))

theorem flatten_subset_of_mem_partsOfAll {trees : List TokenTree} {part : TokenTree}
    (member : part ∈ partsOfAll trees) : part.flatten ⊆ flattenAll trees := by
  cases trees with
  | nil => cases member
  | cons tree trees =>
      rw [flattenAll]
      rcases List.mem_append.mp member with first | later
      · have within := flatten_subset_of_mem_parts first
        exact fun _ isMark => List.mem_append_left _ (within isMark)
      · have within := flatten_subset_of_mem_partsOfAll later
        exact fun _ isMark => List.mem_append_right _ (within isMark)

theorem flatten_subset_of_mem_partsOfEach {arguments : List (List TokenTree)} {part : TokenTree}
    (member : part ∈ partsOfEach arguments) : part.flatten ⊆ joined arguments := by
  cases arguments with
  | nil => cases member
  | cons argument arguments =>
      obtain ⟨between, parts⟩ := joined_cons argument arguments
      rw [parts]
      rcases List.mem_append.mp member with first | later
      · have within := flatten_subset_of_mem_partsOfAll first
        exact fun _ isMark => List.mem_append_left _ (List.mem_append_left _ (within isMark))
      · have within := flatten_subset_of_mem_partsOfEach later
        exact fun _ isMark => List.mem_append_right _ (within isMark)

end

theorem mark_mem_flatten (tree : TokenTree) :
    ∃ mark ∈ tree.flatten, mark.position = some tree.position := by
  cases tree with
  | leaf | group | call =>
      unfold flatten
      exact ⟨_, .head _, rfl⟩

/-! ## Trees at other places -/

mutual

theorem unplaced_flatten_relocate (move : Nat → Nat) (tree : TokenTree) :
    (tree.relocate move).flatten.map Mark.unplaced = tree.flatten.map Mark.unplaced := by
  cases tree with
  | leaf token => rfl
  | group position content =>
      simp only [relocate, flatten, List.map_append, List.map_cons,
        unplaced_flattenAll_relocate move content]
      rfl
  | call name position arguments =>
      simp only [relocate, flatten, List.map_append, List.map_cons, map_intercalate,
        unplaced_flattenEach_relocate move arguments]
      rfl

theorem unplaced_flattenAll_relocate (move : Nat → Nat) (trees : List TokenTree) :
    (flattenAll (relocateAll move trees)).map Mark.unplaced =
      (flattenAll trees).map Mark.unplaced := by
  cases trees with
  | nil => rfl
  | cons tree trees =>
      simp only [relocateAll, flattenAll, List.map_append, unplaced_flatten_relocate move tree,
        unplaced_flattenAll_relocate move trees]

theorem unplaced_flattenEach_relocate (move : Nat → Nat) (arguments : List (List TokenTree)) :
    (flattenEach (relocateArguments move arguments)).map (List.map Mark.unplaced) =
      (flattenEach arguments).map (List.map Mark.unplaced) := by
  cases arguments with
  | nil => rfl
  | cons argument arguments =>
      simp only [relocateArguments, flattenEach, List.map_cons,
        unplaced_flattenAll_relocate move argument, unplaced_flattenEach_relocate move arguments]

end

/-! ## All tokens -/

section Tokens

variable {maxDepth : Nat} {tokens : List Token} {trees : List TokenTree}
  (lexed : ∀ token ∈ tokens, token.IsLexed) (grouped : ofTokens maxDepth tokens = .ok trees)
include lexed grouped

theorem recallsAll_of_ofTokens : RecallsAll (flattenAll trees) (tokens.map Token.mark) := by
  apply @recallsAll_of_groupOnto maxDepth [] [] trees tokens grouped
  intro mark member
  obtain ⟨token, isToken, rfl⟩ : ∃ token ∈ tokens, token.mark = mark := by
    simpa [allMarks, marksOfFrames, flattenAll] using member
  exact lexed token isToken

theorem exists_token_of_mem_partsOfAll {part : TokenTree} (member : part ∈ partsOfAll trees) :
    ∃ token ∈ tokens, token.position = part.position := by
  obtain ⟨mark, isMark, known⟩ := mark_mem_flatten part
  have inside := flatten_subset_of_mem_partsOfAll member isMark
  obtain ⟨other, isOther, recalls⟩ := (recallsAll_of_ofTokens lexed grouped).exists_of_mem inside
  obtain ⟨token, isToken, rfl⟩ := List.mem_map.mp isOther
  exact ⟨token, isToken, Option.some.inj (recalls.position _ known)⟩

theorem eq_nil_of_ofTokens (noTree : trees = []) : tokens = [] := by
  subst noTree
  have recalls := recallsAll_of_ofTokens lexed grouped
  cases tokens with
  | nil => rfl
  | cons => cases recalls

theorem unplaced_flattenAll_of_ofTokens :
    (flattenAll trees).map Mark.unplaced = tokens.map (Token.relocate origin) := by
  rw [(recallsAll_of_ofTokens lexed grouped).map_unplaced, List.map_map]
  rfl

/-- Trees give back the kinds and the texts of the tokens in order, with the positions that they
keep.  So trees that are the same up to positions come from the same tokens up to positions, and
calls with different arguments stay different. -/
theorem ofTokens_flatten :
    RecallsAll (flattenAll trees) (tokens.map Token.mark) ∧
      ∀ maxDepth' tokens' trees', (∀ token ∈ tokens', token.IsLexed) →
        ofTokens maxDepth' tokens' = .ok trees' →
          trees'.map (relocate origin) = trees.map (relocate origin) →
            tokens'.map (Token.relocate origin) = tokens.map (Token.relocate origin) := by
  refine ⟨recallsAll_of_ofTokens lexed grouped, ?_⟩
  intro maxDepth' tokens' trees' lexed' grouped' same
  rw [← relocateAll_eq_map, ← relocateAll_eq_map] at same
  calc tokens'.map (Token.relocate origin)
      = (flattenAll trees').map Mark.unplaced :=
        (unplaced_flattenAll_of_ofTokens lexed' grouped').symm
    _ = (flattenAll (relocateAll origin trees')).map Mark.unplaced :=
        (unplaced_flattenAll_relocate origin trees').symm
    _ = (flattenAll trees).map Mark.unplaced := by
        rw [same, unplaced_flattenAll_relocate]
    _ = tokens.map (Token.relocate origin) := unplaced_flattenAll_of_ofTokens lexed grouped

end Tokens

/-- A call with two empty arguments, a group behind it and a closing parenthesis too many; the same
tokens without the first comma make other trees. -/
theorem ofTokens_flatten_of_emptyArguments :
    let call : List Token := [⟨.identifier, some "f", 0⟩, ⟨.leftParen, none, 1⟩]
    let comma : List Token := [⟨.comma, none, 2⟩]
    let rest : List Token :=
      [⟨.rightParen, none, 3⟩, ⟨.leftParen, none, 4⟩, ⟨.identifier, some "g", 5⟩,
        ⟨.leftParen, none, 6⟩, ⟨.stringLiteral, some "a", 7⟩, ⟨.comma, none, 10⟩,
        ⟨.rightParen, none, 11⟩, ⟨.rightParen, none, 12⟩, ⟨.rightParen, none, 13⟩]
    let trees : List TokenTree :=
      [.call "f" 0 [[], []], .group 4 [.call "g" 5 [[.leaf ⟨.stringLiteral, some "a", 7⟩], []]],
        .leaf ⟨.rightParen, none, 13⟩]
    (∀ token ∈ call ++ comma ++ rest, token.IsLexed) ∧
      ofTokens 2 (call ++ comma ++ rest) = .ok trees ∧
      RecallsAll (flattenAll trees) ((call ++ comma ++ rest).map Token.mark) ∧
        ∀ maxDepth' trees', ofTokens maxDepth' (call ++ rest) = .ok trees' →
          trees'.map (relocate origin) ≠ trees.map (relocate origin) := by
  intro call comma rest trees
  have lexed : ∀ token ∈ call ++ comma ++ rest, token.IsLexed := by decide
  have grouped : ofTokens 2 (call ++ comma ++ rest) = .ok trees := by rfl
  have ⟨recalls, distinct⟩ := ofTokens_flatten lexed grouped
  refine ⟨lexed, grouped, recalls, fun maxDepth' trees' grouped' same => ?_⟩
  have impossible := distinct maxDepth' (call ++ rest) trees' (by decide) grouped' same
  revert impossible
  decide

end TokenTree

end Formula

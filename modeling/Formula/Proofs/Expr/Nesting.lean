import Formula.Proofs.Expr.Builds
import Formula.Proofs.Token.Flattening

/-!
# Enough levels

Each level of a build takes at least one tree out of the sequence.  With more levels than there are
trees, the nesting limit is never met, and a build that fails blames the structure: it points at one
of the trees, or at nothing where a sequence is empty.
-/

namespace Formula

/-! ## Counting trees -/

namespace TokenTree

mutual

/-- The trees in a tree, on all levels. -/
def count : TokenTree → Nat
  | .leaf _ => 1
  | .group _ content => countAll content + 1
  | .call _ _ arguments => countArguments arguments + 1

def countAll : List TokenTree → Nat
  | [] => 0
  | tree :: trees => tree.count + countAll trees

def countArguments : List (List TokenTree) → Nat
  | [] => 0
  | argument :: arguments => countAll argument + countArguments arguments

end

theorem count_pos (tree : TokenTree) : 0 < tree.count := by
  cases tree <;> simp [count]

theorem countAll_append (before after : List TokenTree) :
    countAll (before ++ after) = countAll before + countAll after := by
  induction before with
  | nil => simp [countAll]
  | cons tree before ih => simp [countAll, ih, Nat.add_assoc]

theorem countAll_le_countArguments {arguments : List (List TokenTree)} {argument : List TokenTree}
    (member : argument ∈ arguments) : countAll argument ≤ countArguments arguments := by
  induction arguments with
  | nil => simp at member
  | cons first arguments ih =>
      rw [countArguments]
      rcases List.mem_cons.mp member with rfl | later
      · omega
      · have := ih later
        omega

end TokenTree

namespace Expr

open TokenTree (countAll partsOfAll partsOfAll_subset mem_partsOfAll)

/-! ## Operands are smaller -/

def Shape.operands : Shape → List (List TokenTree)
  | .prefixed operand | .suffixed operand | .negated operand | .plain operand => [operand]
  | .infixed left right => [left, right]

theorem Shape.Fits.sides {grammar : Grammar} {split : Split} {form : Shape}
    (fits : form.Fits grammar split) {operand : List TokenTree} (member : operand ∈ form.operands) :
    operand ≠ [] ∧ (operand = split.before ∨ operand = split.after) := by
  cases form <;> simp [Shape.Fits, Shape.operands] at fits member <;> grind

theorem countAll_operand_lt {grammar : Grammar} {trees operand : List TokenTree} {split : Split}
    {form : Shape} (splits : split? grammar trees = some split)
    (fits : form.Fits grammar split) (member : operand ∈ form.operands) :
    countAll operand < countAll trees := by
  obtain ⟨tree, -, -, rfl⟩ := split?_eq_some splits
  have parts : countAll (split.before ++ tree :: split.after) =
      countAll split.before + (tree.count + countAll split.after) := by
    rw [TokenTree.countAll_append, TokenTree.countAll]
  have positive := tree.count_pos
  rcases (fits.sides member).2 with rfl | rfl <;> omega

theorem operand_subset {grammar : Grammar} {trees operand : List TokenTree} {split : Split}
    {form : Shape} (splits : split? grammar trees = some split)
    (fits : form.Fits grammar split) (member : operand ∈ form.operands) : operand ⊆ trees := by
  obtain ⟨tree, -, -, rfl⟩ := split?_eq_some splits
  rcases (fits.sides member).2 with rfl | rfl
  · exact List.subset_append_left _ _
  · exact fun _ inside => List.mem_append_right _ (.tail _ inside)

/-! ## Errors of a build -/

def IsStructural (error : Error) : Prop :=
  ∃ position fault, error = .structural position fault

/-- An error that points at a tree of the sequence, or at nothing where a sequence is empty. -/
inductive Blames (trees : List TokenTree) : Error → Prop
  | tree {tree : TokenTree} (member : tree ∈ partsOfAll trees) (fault : StructuralFault) :
      Blames trees (.structural (some tree.position) fault)
  | empty (nothing : trees = [] ∨ ∃ position, .group position [] ∈ partsOfAll trees)
      (fault : StructuralFault) : Blames trees (.structural none fault)

theorem Blames.isStructural {trees : List TokenTree} {error : Error}
    (blames : Blames trees error) : IsStructural error := by
  cases blames with
  | tree _ fault => exact ⟨_, fault, rfl⟩
  | empty _ fault => exact ⟨_, fault, rfl⟩

theorem Blames.mono {some all : List TokenTree} {error : Error} (blames : Blames some error)
    (within : partsOfAll some ⊆ partsOfAll all)
    (present : some = [] → ∃ position, .group position [] ∈ partsOfAll all) :
    Blames all error := by
  cases blames with
  | tree member fault => exact .tree (within member) fault
  | empty nothing fault =>
      refine .empty (.inr ?_) fault
      obtain rfl | ⟨position, member⟩ := nothing
      · exact present rfl
      · exact ⟨position, within member⟩

theorem blames_of_mem {trees : List TokenTree} {tree : TokenTree} (member : tree ∈ trees)
    {fault : StructuralFault} : Blames trees (.structural (some tree.position) fault) :=
  .tree (mem_partsOfAll member) fault

theorem blames_of_shape {grammar : Grammar} {trees : List TokenTree} {split : Split} {error : Error}
    (splits : split? grammar trees = some split)
    (failed : shape grammar split = .error error) : Blames trees error := by
  obtain ⟨tree, -, position, rfl⟩ := split?_eq_some splits
  have here : tree ∈ split.before ++ tree :: split.after := by simp
  have complete : ∀ {form : Shape}, (if form.lacksOperand then
      fail split.position (.missingOperand split.operator) else .ok form) = .error error →
        Blames (split.before ++ tree :: split.after) error := by
    intro form failed
    split at failed <;> cases failed
    rw [← position]
    exact blames_of_mem here
  unfold shape at failed
  split at failed
  · rcases bind_eq_error_iff.mp failed with misplaced | ⟨form, -, failed⟩
    · unfold unaryShape at misplaced
      split at misplaced
      · cases misplaced
      · split at misplaced
        · cases misplaced
        · next extra following behind =>
            cases misplaced
            exact blames_of_mem (by simp [behind])
      · cases misplaced
        rw [← position]
        exact blames_of_mem here
    · exact complete failed
  · exact complete failed

theorem blames_of_ofLeaf {token : Token} {error : Error}
    (failed : ofLeaf token = .error error) : Blames [.leaf token] error := by
  unfold ofLeaf fail at failed
  split at failed <;> cases failed <;> exact blames_of_mem (.head _)

/-- A build that runs out of levels has met a tree on each of them. -/
theorem buildWithin_eq_error {grammar : Grammar} {maxDepth levels : Nat} {trees : List TokenTree}
    {error : Error} (failed : buildWithin grammar maxDepth levels trees = .error error) :
    Blames trees error ∨ error = .nestingLimit maxDepth ∧ levels ≤ countAll trees := by
  induction levels generalizing trees error with
  | zero =>
      cases failed
      exact .inr ⟨rfl, Nat.zero_le _⟩
  | succ levels ih =>
      have inside {operand : List TokenTree} (within : partsOfAll operand ⊆ partsOfAll trees)
          (present : operand = [] → ∃ position, .group position [] ∈ partsOfAll trees)
          (smaller : countAll operand < countAll trees)
          (failed : buildWithin grammar maxDepth levels operand = .error error) :
          Blames trees error ∨ error = .nestingLimit maxDepth ∧ levels + 1 ≤ countAll trees :=
        (ih failed).imp (fun blames => blames.mono within present)
          fun limited => ⟨limited.1, by omega⟩
      unfold buildWithin at failed
      split at failed
      · rename_i split splits
        rcases bind_eq_error_iff.mp failed with misshapen | ⟨form, shaped, failed⟩
        · exact .inl (blames_of_shape splits misshapen)
        · have fits := shape_eq_ok_iff.mp shaped
          have inOperand {operand : List TokenTree} (member : operand ∈ form.operands)
              (failed : buildWithin grammar maxDepth levels operand = .error error) :
              Blames trees error ∨ error = .nestingLimit maxDepth ∧ levels + 1 ≤ countAll trees :=
            inside (partsOfAll_subset (operand_subset splits fits member))
              (fun empty => absurd empty (fits.sides member).1)
              (countAll_operand_lt splits fits member) failed
          cases form with
          | prefixed operand =>
              rcases bind_eq_error_iff.mp failed with failed | ⟨_, _, ⟨⟩⟩
              exact inOperand (.head _) failed
          | suffixed operand =>
              rcases bind_eq_error_iff.mp failed with failed | ⟨_, _, ⟨⟩⟩
              exact inOperand (.head _) failed
          | infixed left right =>
              rcases bind_eq_error_iff.mp failed with failed | ⟨_, _, failed⟩
              · exact inOperand (.head _) failed
              · rcases bind_eq_error_iff.mp failed with failed | ⟨_, _, ⟨⟩⟩
                exact inOperand (.tail _ (.head _)) failed
          | negated operand =>
              rcases bind_eq_error_iff.mp failed with failed | ⟨_, _, ⟨⟩⟩
              exact inOperand (.head _) failed
          | plain operand => exact inOperand (.head _) failed
      · split at failed
        · cases failed
          exact .inl (.empty (.inl rfl) _)
        · exact .inl (blames_of_ofLeaf failed)
        · next position content _ =>
            refine inside ?_ ?_ (by simp [TokenTree.countAll, TokenTree.count]) failed
            · simp [partsOfAll, TokenTree.parts]
            · rintro rfl
              exact ⟨position, mem_partsOfAll (.head _)⟩
        · rcases bind_eq_error_iff.mp failed with failed | ⟨_, _, ⟨⟩⟩
          obtain ⟨argument, member, failed⟩ := mapM_eq_error failed
          have smaller := TokenTree.countAll_le_countArguments member
          split at failed
          · simp [pure, Except.pure] at failed
          · next present =>
              refine inside ?_ (fun empty => absurd empty (by simpa using present)) ?_
                (map_eq_error_iff.mp failed)
              · intro part isPart
                have inArguments := TokenTree.mem_partsOfEach_iff.mpr ⟨argument, member, isPart⟩
                simp [partsOfAll, TokenTree.parts, inArguments]
              · simp only [TokenTree.countAll, TokenTree.count]
                omega
        · cases failed
          exact .inl (blames_of_mem (by simp))

theorem isStructural_of_buildWithin {grammar : Grammar} {maxDepth levels : Nat}
    {trees : List TokenTree} {error : Error} (room : countAll trees < levels)
    (failed : buildWithin grammar maxDepth levels trees = .error error) :
    IsStructural error :=
  ((buildWithin_eq_error failed).resolve_right fun limited => by omega).isStructural

end Expr

end Formula

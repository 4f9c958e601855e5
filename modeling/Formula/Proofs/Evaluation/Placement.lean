import Formula.Proofs.Evaluation.Children
import Formula.Proofs.Expr.Height
import Formula.Proofs.Position

/-!
# Where an expression stands

An expression may stand elsewhere in a text, deeper inside another expression or under a different
nesting limit.  As long as its nodes stay within the limit it does the same to the host and comes to
the same outcome; only the record of the nodes it entered tells the places apart.
-/

namespace Formula

variable {σ : Type}

open Run (SameState)

/-! ## Another position -/

namespace Expr

theorem sameHead_relocate {move : Nat → Nat} (expr : Expr) :
    expr.SameHead (expr.relocate move) := by
  cases expr with
  | number text position => exact .number text _ _
  | string content position => exact .string content _ _
  | identifier name position => exact .identifier name _ _
  | call name position arguments =>
      rw [relocate_call]
      exact .call name _ _ (by simp [Function.comp_def])
  | operation operator position left right => exact .operation operator _ _ _ _ _ _

theorem child_relocate {move : Nat → Nat} (expr : Expr) (place : Place) :
    (expr.relocate move).child place = (expr.child place).map (relocate move) := by
  cases expr with
  | number | string | identifier => rfl
  | call name position arguments =>
      rw [relocate_call]
      cases place with
      | left | right => rfl
      | argument index =>
          simp only [child, List.getElem?_map]
          cases arguments[index]? with
          | none => rfl
          | some argument => rfl
  | operation operator position left right =>
      rw [relocate, relocateOperand_eq_map, relocateOperand_eq_map]
      cases place with
      | left | right | argument => rfl

end Expr

/-! ## Another limit -/

namespace Configuration

def withMaxDepth (configuration : Configuration σ) (limit : Nat) : Configuration σ :=
  { configuration with maxDepth := limit }

/-- Neither the operations nor the bodies read the nesting limit off what they are shown. -/
def HidesMaxDepth (configuration : Configuration σ) (limit : Nat) : Prop :=
  configuration.ActsAlikeUnder (configuration.withMaxDepth limit).toSettings

theorem hidesMaxDepth_self (configuration : Configuration σ) :
    configuration.HidesMaxDepth configuration.maxDepth :=
  configuration.actsAlikeUnder_self

/-- Two depths that an expression of this height cannot tell apart: the very same depth, or two that
leave room for it. -/
def SameRoom (configuration : Configuration σ) (limit height depth depth' : Nat) : Prop :=
  limit = configuration.maxDepth ∧ depth = depth' ∨
    depth + height ≤ configuration.maxDepth ∧ depth' + height ≤ limit

theorem SameRoom.deeper {configuration : Configuration σ}
    {limit height lower depth depth' : Nat}
    (room : configuration.SameRoom limit height depth depth') (below : lower < height) :
    configuration.SameRoom limit lower (depth + 1) (depth' + 1) := by
  unfold SameRoom at *
  omega

variable {configuration : Configuration σ} {limit : Nat}

/-! ## Steps of the walk -/

theorem simulates_enter_of_sameRoom {height depth depth' : Nat}
    (room : configuration.SameRoom limit height depth depth') (node node' : Expr) (mode : Mode) :
    Simulates SameState Eq (configuration.enter node mode depth)
      ((configuration.withMaxDepth limit).enter node' mode depth') := by
  refine simulates_enter_of (fun linked => linked.isModeCancelled mode)
    (SameState.record _ _) ?_
  rcases room with ⟨rfl, rfl⟩ | ⟨fits, fits'⟩
  · exact .inl ⟨rfl, rfl⟩
  · exact .inr ⟨Nat.le_of_add_right_le fits, Nat.le_of_add_right_le fits'⟩

/-! ## The walk -/

variable {move : Nat → Nat}

theorem TakesSameSteps.withMaxDepth (hides : configuration.HidesMaxDepth limit) :
    configuration.TakesSameSteps (configuration.withMaxDepth limit) :=
  ⟨hides, fun _ => rfl, rfl⟩

/-- An expression that evaluates alike wherever it has the same room. -/
def Movable (configuration : Configuration σ) (limit : Nat) (move : Nat → Nat) (expr : Expr) :
    Prop :=
  ∀ mode depth depth', configuration.SameRoom limit expr.height depth depth' →
    Simulates SameState Eq (configuration.eval expr mode depth)
      ((configuration.withMaxDepth limit).eval (expr.relocate move) mode depth')

theorem movable (hides : configuration.HidesMaxDepth limit) (move : Nat → Nat) (expr : Expr) :
    configuration.Movable limit move expr := by
  induction expr using Expr.childInduction with
  | node expr ih =>
      intro mode depth depth' room run run' linked
      refine simulatesAt_eval SameState.transparent (TakesSameSteps.withMaxDepth hides)
        (Expr.sameHead_relocate expr) (simulates_enter_of_sameRoom room _ _ mode linked)
        (fun _ => simulates_resolveConstant_self SameState.transparent _) ?_
      intro place mode moment moment' _ linkedMoment
      rw [Expr.child_relocate]
      refine simulates_evalOperand (rel_map fun child given => ?_) linkedMoment
      exact ih place child given.symm mode _ _
        (room.deeper (Expr.height_lt_of_child given.symm))

end Configuration

end Formula

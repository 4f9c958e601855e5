import Formula.Builtin.Functions
import Formula.Proofs.Number.Representation
import Mathlib.Data.List.Basic

/-!
# Representations of values

Over null, truth values and numbers of one type, the standard operations and functions stay among
these: each converts its result back or leaves it as it was.  Strings can become numbers of another
type, so they have no place here.
-/

namespace Formula

/-- The values that computing in a type is about. -/
inductive Value.OfType (type : NumericType) : Value → Prop
  | null : OfType type .null
  | bool (value : Bool) : OfType type (.bool value)
  | number {value : Number} (same : value.type = type) : OfType type (.number value)

theorem Conventions.convert_of_ofType {conventions : Conventions} {type : NumericType}
    {value : Value} (ofType : value.OfType type) : conventions.convert value = value := by
  cases ofType with
  | null | bool | number => rfl

/-! ## Operations -/

namespace Standard

open Value (OfType)

variable {conventions : Conventions} {operator : String}

theorem gives_number {type : NumericType} {outcome : Except Error Number}
    (gives : Gives (Number.HasType type) outcome) :
    Gives (OfType type) (outcome.map .number) :=
  gives.map fun _ => .number

theorem gives_bool {α : Type} (type : NumericType) (outcome : Except Error α) (holds : α → Bool) :
    Gives (OfType type) (do return .bool (holds (← outcome))) :=
  .of_bind fun _ => .ok (.bool _)

section Operands

variable {left right : Value} (ofLeft : left.OfType conventions.numericType)
  (ofRight : right.OfType conventions.numericType)
include ofLeft ofRight

theorem gives_numericOperands :
    Gives (fun operands : Option (Number × Number) => ∀ first second,
        operands = some (first, second) →
          first.type = conventions.numericType ∧ second.type = conventions.numericType)
      (numericOperands conventions operator left right) := by
  unfold numericOperands
  rw [Conventions.convert_of_ofType ofLeft, Conventions.convert_of_ofType ofRight]
  cases ofLeft with
  | null => exact .ok (by simp)
  | bool value =>
      cases ofRight with
      | null => exact .ok (by simp)
      | bool | number => exact .error _
  | number sameLeft =>
      cases ofRight with
      | null => exact .ok (by simp)
      | bool => exact .error _
      | number sameRight =>
          refine .ok ?_
          rintro _ _ ⟨⟩
          exact ⟨sameLeft, sameRight⟩

theorem gives_arithmetic {compute : Number → Number → Except Error Number}
    (computes : ∀ first second : Number, first.type = conventions.numericType →
      second.type = conventions.numericType →
        Gives (Number.HasType conventions.numericType) (compute first second)) :
    Gives (OfType conventions.numericType)
      (arithmetic conventions operator compute left right) := by
  refine (gives_numericOperands ofLeft ofRight).bind fun operands sameTypes => ?_
  cases operands with
  | none => exact .ok .null
  | some operands =>
      obtain ⟨first, second⟩ := operands
      obtain ⟨sameFirst, sameSecond⟩ := sameTypes first second rfl
      exact (computes first second sameFirst sameSecond).bind fun _ same => .ok (.number same)

/-- Two numbers of one type meet in that type. -/
theorem gives_arithmetic_promoted {compute : Number → Number → Except Error Number}
    (computes : ∀ first second : Number,
      Gives (Number.HasType (first.type.promoted second.type)) (compute first second)) :
    Gives (OfType conventions.numericType)
      (arithmetic conventions operator compute left right) := by
  refine gives_arithmetic ofLeft ofRight fun first second sameFirst sameSecond => ?_
  have gives := computes first second
  rw [sameFirst, sameSecond, NumericType.promoted_self] at gives
  exact gives

theorem gives_integral (compute : Int64 → Int64 → Int64) :
    Gives (OfType conventions.numericType)
      (integral conventions operator compute left right) := by
  refine (gives_numericOperands ofLeft ofRight).bind fun operands _ => ?_
  cases operands with
  | none => exact .ok .null
  | some operands => exact .ok (.number (Number.type_ofInt64 _ _))

theorem gives_add : Gives (OfType conventions.numericType) (add conventions left right) := by
  have added : Gives (OfType conventions.numericType)
      (arithmetic conventions "+" Number.add left right) :=
    gives_arithmetic_promoted ofLeft ofRight Number.gives_add
  cases ofLeft with
  | null | bool | number =>
      cases ofRight with
      | null | bool | number => exact added

end Operands

theorem gives_factorial {operand : Value} (ofOperand : operand.OfType conventions.numericType) :
    Gives (OfType conventions.numericType) (factorial conventions operand) := by
  unfold factorial
  rw [Conventions.convert_of_ofType ofOperand]
  cases ofOperand with
  | null => exact .ok .null
  | bool => exact .error _
  | @number value same =>
      rw [← same]
      exact gives_number (Number.gives_factorial value)

end Standard

namespace Operators

open Standard
open Value (OfType)

variable {environment : Environment}

theorem gives_convertToNumber (text : String) :
    Gives (OfType environment.conventions.numericType)
      (standard.convertToNumber environment text) := by
  refine gives_number fun value reads => ?_
  unfold Conventions.readLiteral at reads
  cases read : Number.read? environment.conventions.numericType .invariant text with
  | none =>
      rw [read] at reads
      cases reads
  | some value' =>
      rw [read] at reads
      cases reads
      exact Number.type_of_read? read

theorem gives_applyBinary {left right : Value}
    (ofLeft : left.OfType environment.conventions.numericType)
    (ofRight : right.OfType environment.conventions.numericType) (operator : String) :
    Gives (OfType environment.conventions.numericType)
      (standard.applyBinary environment operator left right) := by
  have power : Gives (OfType environment.conventions.numericType)
      (Standard.pow environment.conventions left right) :=
    gives_arithmetic ofLeft ofRight fun _ _ _ _ => Number.gives_ofDouble _ _
  unfold applyBinary
  split
  · exact gives_add ofLeft ofRight
  · exact gives_arithmetic_promoted ofLeft ofRight Number.gives_sub
  · exact gives_arithmetic_promoted ofLeft ofRight Number.gives_mul
  · exact gives_arithmetic_promoted ofLeft ofRight Number.gives_div
  · exact gives_arithmetic_promoted ofLeft ofRight Number.gives_div
  · exact gives_arithmetic_promoted ofLeft ofRight Number.gives_rem
  · exact power
  · exact gives_integral ofLeft ofRight _
  · exact gives_integral ofLeft ofRight _
  · exact gives_integral ofLeft ofRight _
  · exact gives_integral ofLeft ofRight _
  · exact gives_integral ofLeft ofRight _
  · exact gives_bool _ (order environment.conventions "<" left right) _
  · exact gives_bool _ (order environment.conventions "<=" left right) _
  · exact gives_bool _ (order environment.conventions ">" left right) _
  · exact gives_bool _ (order environment.conventions ">=" left right) _
  · exact .ok (.bool _)
  · exact .ok (.bool _)
  · exact .ok (.bool _)
  · exact .ok (.bool _)
  · exact .ok ofRight
  · exact .ok ofRight
  · exact .error _

/-- However many operands there are. -/
theorem gives_apply {left right : Option Value}
    (ofLeft : ∀ value, left = some value → value.OfType environment.conventions.numericType)
    (ofRight : ∀ value, right = some value → value.OfType environment.conventions.numericType)
    (operator : String) :
    Gives (OfType environment.conventions.numericType)
      (standard.apply environment operator left right) := by
  match left, right with
  | some left, some right => exact gives_applyBinary (ofLeft left rfl) (ofRight right rfl) operator
  | none, some operand =>
      have zero : Value.OfType environment.conventions.numericType
          (.number environment.conventions.zero) :=
        .number (Number.type_ofInt64 _ 0)
      simp only [apply, applyPrefix]
      split
      · exact .ok (.bool _)
      · exact gives_arithmetic_promoted zero (ofRight operand rfl) Number.gives_sub
      · exact .ok (ofRight operand rfl)
      · exact .error _
  | some operand, none =>
      simp only [apply, applySuffix]
      split
      · exact gives_factorial (ofLeft operand rfl)
      · exact .error _
  | none, none => exact .error _

end Operators

/-! ## Functions

Only an extremum is one of its arguments; the other functions convert what they have computed. -/

namespace Builtin

open Value (OfType)

variable (conventions : Conventions) (values : List Value)

theorem gives_conventions_ofDouble (value : Double) :
    Gives (OfType conventions.numericType) (conventions.ofDouble value) :=
  Standard.gives_number (Number.gives_ofDouble _ _)

theorem gives_ofArgument {good : Value → Prop} {next : Number → Except Error Value}
    (rest : ∀ value, Gives good (next value)) (index : Nat) :
    Gives good (numericArgument conventions values index >>= next) :=
  .of_bind rest

theorem gives_unary (compute : Double → Double) :
    Gives (OfType conventions.numericType) (unary compute conventions values) :=
  gives_ofArgument conventions values (fun _ => gives_conventions_ofDouble conventions _) 0

theorem gives_binary (compute : Double → Double → Double) :
    Gives (OfType conventions.numericType) (binary compute conventions values) :=
  gives_ofArgument conventions values (fun _ => gives_ofArgument conventions values
    (fun _ => gives_conventions_ofDouble conventions _) 1) 0

theorem gives_log : Gives (OfType conventions.numericType) (log conventions values) := by
  refine gives_ofArgument conventions values (fun value => ?_) 0
  split
  · exact gives_ofArgument conventions values
      (fun _ => gives_conventions_ofDouble conventions _) 1
  · exact gives_conventions_ofDouble conventions _

theorem gives_castResult (compute : Number → Number) :
    Gives (OfType conventions.numericType) (do
      let value ← numericArgument conventions values 0
      return .number (← (compute value).cast conventions.numericType)) :=
  gives_ofArgument conventions values (fun _ => (Number.gives_cast _ _).bind
    fun _ same => .ok (.number same)) 0

theorem gives_sign : Gives (OfType conventions.numericType) (sign conventions values) := by
  refine gives_ofArgument conventions values (fun value => ?_) 0
  split
  · exact .error _
  · exact .ok (.number (Number.type_ofInt64 _ _))

variable {conventions values}

theorem gives_extremumFrom {type : NumericType}
    (ofValues : ∀ value ∈ values, value.OfType type) (wanted : Ordering) {best : Option Value}
    (ofBest : ∀ value, best = some value → value.OfType type) :
    Gives (OfType type) (extremumFrom conventions wanted best values) := by
  induction values generalizing best with
  | nil =>
      cases best with
      | none => exact .ok .null
      | some best => exact .ok (ofBest best rfl)
  | cons value values ih =>
      have ofValue := ofValues value (.head _)
      have ofRest : ∀ value ∈ values, value.OfType type :=
        fun value member => ofValues value (.tail _ member)
      unfold extremumFrom
      rw [Conventions.convert_of_ofType ofValue]
      split
      · exact .ok .null
      · refine ih ofRest ?_
        rintro _ ⟨⟩
        exact ofValue
      · next current _ =>
          refine .of_bind fun order => ih ofRest ?_
          rintro _ ⟨⟩
          split
          · exact ofValue
          · exact ofBest current rfl

theorem gives_of_mem (ofValues : ∀ value ∈ values, value.OfType conventions.numericType)
    {entry : String × Operation} (member : entry ∈ operations) :
    Gives (OfType conventions.numericType) (entry.2 conventions values) := by
  have ofDoubles := gives_unary conventions values
  have ofDoublePairs := gives_binary conventions values
  have casts := gives_castResult conventions values
  have selects (wanted : Ordering) :
      Gives (OfType conventions.numericType) (extremum wanted conventions values) :=
    gives_extremumFrom ofValues wanted nofun
  revert entry
  rw [← List.forall_iff_forall_mem]
  exact ⟨casts _, ofDoubles _, ofDoubles _, ofDoubles _, ofDoublePairs _, casts _, ofDoubles _,
    ofDoubles _, ofDoubles _, casts _, gives_log conventions values, ofDoubles _, ofDoubles _,
    selects _, selects _, ofDoublePairs _, casts _, gives_sign conventions values, ofDoubles _,
    ofDoubles _, ofDoubles _, ofDoubles _, ofDoubles _, casts _⟩

end Builtin

end Formula

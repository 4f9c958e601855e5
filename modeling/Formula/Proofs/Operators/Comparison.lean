import Formula.Operators.Basic
import Formula.Proofs.Number.Order

/-!
# Comparisons

The six comparison operators coerce their operands alike, so what they say about two values fits
together.  Equality is symmetric on all values, and reflexive except on arrays that hold a NaN.
-/

namespace Formula

namespace Number

theorem same_comm (left right : Number) : left.same right = right.same left := by
  unfold same
  rw [order_swap right left, Bool.and_comm (!right.isNaN)]
  cases right.order left <;> rfl

theorem same_self (number : Number) : number.same number = !number.isNaN := by
  simp [same, order_self]

end Number

namespace Value

mutual

/-- The numbers in a value, at any depth. -/
def numbers : Value → List Number
  | .number value => [value]
  | .array items => itemNumbers items
  | _ => []

def itemNumbers : List Value → List Number
  | [] => []
  | item :: items => item.numbers ++ itemNumbers items

end

mutual

theorem same_comm (left right : Value) : left.same right = right.same left := by
  cases left with
  | null => cases right <;> rfl
  | bool left =>
      cases right with
      | bool right => exact Bool.beq_comm
      | null | number | string | array => rfl
  | number left =>
      cases right with
      | number right => exact Number.same_comm left right
      | null | bool | string | array => rfl
  | string left =>
      cases right with
      | string right => exact Bool.beq_comm
      | null | bool | number | array => rfl
  | array lefts =>
      cases right with
      | array rights => exact sameItems_comm lefts rights
      | null | bool | number | string => rfl

theorem sameItems_comm (lefts rights : List Value) :
    sameItems lefts rights = sameItems rights lefts := by
  cases lefts with
  | nil => cases rights <;> rfl
  | cons left lefts =>
      cases rights with
      | nil => rfl
      | cons right rights =>
          rw [sameItems, sameItems, same_comm left right, sameItems_comm lefts rights]

end

mutual

theorem same_self (value : Value) : value.same value = value.numbers.all (!·.isNaN) := by
  cases value with
  | null => rfl
  | bool | string => simp [same, numbers]
  | number value => simp [same, numbers, Number.same_self]
  | array items => rw [same, numbers, sameItems_self items]

theorem sameItems_self (items : List Value) :
    sameItems items items = (itemNumbers items).all (!·.isNaN) := by
  cases items with
  | nil => rfl
  | cons item items =>
      rw [sameItems, itemNumbers, List.all_append, same_self item, sameItems_self items]

end

end Value

namespace Standard

/-! ## Equality -/

theorem coerce_swap (conventions : Conventions) (left right : Value) :
    coerce conventions right left = (coerce conventions left right).swap := by
  cases left <;> cases right <;> rfl

theorem coerce_self (conventions : Conventions) (value : Value) :
    coerce conventions value value = (value, value) := by
  cases value <;> rfl

theorem equal_comm (conventions : Conventions) (left right : Value) :
    equal conventions right left = equal conventions left right := by
  unfold equal
  rw [coerce_swap conventions left right]
  generalize coerce conventions left right = coerced
  obtain ⟨left, right⟩ := coerced
  cases left with
  | number left =>
      cases right with
      | number right =>
          change (right.order left == .eq) = (left.order right == .eq)
          rw [Number.order_swap left right]
          cases left.order right <;> rfl
      | null | bool | string | array => exact Value.same_comm _ _
  | null | bool | string | array => cases right <;> exact Value.same_comm _ _

/-- Equality sets a NaN apart only inside of an array. -/
theorem equal_self (conventions : Conventions) (value : Value) :
    equal conventions value value =
      (value.kind != .array || value.numbers.all (!·.isNaN)) := by
  unfold equal
  rw [coerce_self]
  cases value with
  | number value => simp [Number.order_self, Value.kind]
  | array items => exact Value.same_self _
  | null | bool | string => simp [Value.same, Value.kind]

/-- Equality is symmetric and has inequality as its negation.  A value equals itself unless it is an
array with a NaN in it, at any depth. -/
theorem equals_reflexive_symmetric (environment : Environment) (left right : Value) :
    (Operators.standard.equals environment left left = .ok (.bool true) ↔
      ¬ (left.kind = .array ∧ ∃ number ∈ left.numbers, number.isNaN = true)) ∧
    Operators.standard.equals environment right left =
      Operators.standard.equals environment left right ∧
    ∃ same : Bool, Operators.standard.equals environment left right = .ok (.bool same) ∧
      Operators.standard.notEquals environment left right = .ok (.bool !same) := by
  refine ⟨?_, ?_, equal environment.conventions left right, rfl, rfl⟩
  · change Except.ok (Value.bool (equal environment.conventions left left)) = _ ↔ _
    rw [equal_self]
    simp [imp_iff_not_or]
  · exact congrArg (fun same => Except.ok (Value.bool same))
      (equal_comm environment.conventions left right)

/-- An array with a NaN in it is not equal to itself, though the NaN is. -/
theorem not_equals_reflexive :
    ¬ ∀ (environment : Environment) (value : Value),
      Operators.standard.equals environment value value = .ok (.bool true) := by
  intro always
  have same := always ⟨.ofType .float64, .standard, 256, .empty, .empty⟩
    (.array [.number (.float64 .nan)])
  cases same

/-! ## Order -/

/-- Two values that have an order: both are numbers, strings or truth values once a string that
faces a number has been read as one. -/
def Comparable (conventions : Conventions) (left right : Value) : Prop :=
  (coerce conventions left right).1.kind = (coerce conventions left right).2.kind ∧
    (coerce conventions left right).1.kind ∈ [.number, .string, .bool]

theorem same_string (left right : String) :
    (Value.string left).same (.string right) = (compare left right == .eq) := by
  rw [Value.same, Bool.eq_iff_iff, beq_iff_eq, beq_iff_eq, Std.compare_eq_iff_eq]

theorem same_bool (left right : Bool) :
    (Value.bool left).same (.bool right) = (compare left right == .eq) := by
  cases left <;> cases right <;> rfl

/-- On comparable values all operators find one order, and equality finds it too. -/
theorem order_by_kinds (conventions : Conventions) (left right : Value) :
    (Comparable conventions left right ∧
      ∃ ordering, (∀ operator, order conventions operator left right = .ok ordering) ∧
        equal conventions left right = (ordering == .eq)) ∨
    (¬ Comparable conventions left right ∧
      ∀ operator, order conventions operator left right =
        .error (.typeMismatch operator (coerce conventions left right).1.kind
          (coerce conventions left right).2.kind)) := by
  unfold Comparable order equal
  generalize coerce conventions left right = coerced
  obtain ⟨left, right⟩ := coerced
  cases left with
  | null | array => exact .inr ⟨by simp [Value.kind], fun _ => rfl⟩
  | number left =>
      cases right with
      | number right => exact .inl ⟨by simp [Value.kind], _, fun _ => rfl, rfl⟩
      | null | bool | string | array => exact .inr ⟨by simp [Value.kind], fun _ => rfl⟩
  | string left =>
      cases right with
      | string right =>
          exact .inl ⟨by simp [Value.kind], _, fun _ => rfl, same_string left right⟩
      | null | bool | number | array => exact .inr ⟨by simp [Value.kind], fun _ => rfl⟩
  | bool left =>
      cases right with
      | bool right => exact .inl ⟨by simp [Value.kind], _, fun _ => rfl, same_bool left right⟩
      | null | number | string | array => exact .inr ⟨by simp [Value.kind], fun _ => rfl⟩

/-- An operator of order passes on an error, and asks the order a question otherwise. -/
theorem return_order {conventions : Conventions} {left right : Value} {operator : String}
    {outcome : Except Error Ordering}
    (isOrder : order conventions operator left right = outcome) (holds : Ordering → Bool) :
    (do return Value.bool (holds (← order conventions operator left right))) =
      outcome.map fun ordering => Value.bool (holds ordering) := by
  rw [isOrder]
  cases outcome with
  | ok | error => rfl

/-- The four operators of order fail together, each with a type mismatch, or succeed together.  When
they succeed, exactly one of less, equal and greater holds, and the other operators follow from
these. -/
theorem comparisons_agree (environment : Environment) (left right : Value) :
    let apply operator := Operators.standard.applyBinary environment operator left right
    ∃ equal : Bool, apply "==" = .ok (.bool equal) ∧ apply "!=" = .ok (.bool !equal) ∧
      ((Comparable environment.conventions left right ∧
          ∃ less greater : Bool, apply "<" = .ok (.bool less) ∧
            apply ">" = .ok (.bool greater) ∧ [less, equal, greater].count true = 1 ∧
            apply "<=" = .ok (.bool (less || equal)) ∧
            apply ">=" = .ok (.bool (greater || equal))) ∨
        (¬ Comparable environment.conventions left right ∧
          ∀ operator ∈ ["<", "<=", ">", ">="], apply operator =
            .error (.typeMismatch operator (coerce environment.conventions left right).1.kind
              (coerce environment.conventions left right).2.kind))) := by
  refine ⟨equal environment.conventions left right, rfl, rfl, ?_⟩
  obtain ⟨comparable, ordering, isOrder, isEqual⟩ | ⟨incomparable, mismatches⟩ :=
    order_by_kinds environment.conventions left right
  · left
    refine ⟨comparable, ordering == .lt, ordering == .gt, return_order (isOrder _) _,
      return_order (isOrder _) _, ?_⟩
    rw [isEqual]
    refine ⟨?_, (return_order (isOrder _) _).trans ?_, (return_order (isOrder _) _).trans ?_⟩
    all_goals cases ordering <;> rfl
  · right
    refine ⟨incomparable, fun operator member => ?_⟩
    simp only [List.mem_cons, List.not_mem_nil, or_false] at member
    rcases member with rfl | rfl | rfl | rfl
    all_goals exact return_order (mismatches _) _

/-- A text that is no number stays a text, which has no order with numbers. -/
theorem comparisons_agree_of_text :
    let environment : Environment := ⟨.ofType .float64, .standard, 256, .empty, .empty⟩
    let text := Value.string "ten"
    let number := Value.number (.int32 10)
    ¬ Comparable environment.conventions text number ∧ "<" ∈ ["<", "<=", ">", ">="] ∧
      Operators.standard.applyBinary environment "<" text number =
        .error (.typeMismatch "<" .string .number) := by
  intro environment text number
  have incomparable : ¬ Comparable environment.conventions text number :=
    fun ⟨same, _⟩ => by cases same
  have isOrder : "<" ∈ ["<", "<=", ">", ">="] := List.mem_cons_self
  obtain ⟨equal, -, -, ⟨comparable, -⟩ | ⟨-, fails⟩⟩ := comparisons_agree environment text number
  · exact absurd comparable incomparable
  · exact ⟨incomparable, isOrder, fails "<" isOrder⟩

end Standard

end Formula

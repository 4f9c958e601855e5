import Formula.Builtin.Functions
import Formula.Proofs.Number.StrictOrder
import Formula.Proofs.Operators.Comparison
import Mathlib.Data.List.TakeWhile

/-!
# The arguments of an extremum

An extremum reads its arguments from the left and stops at a null, or at an argument that has no
order with the first one.  A null further on goes unseen, and an argument without an order behind a
null does, too.  Apart from this the order of the arguments matters only to numbers whose strict
order is not transitive.
-/

namespace Formula.Builtin

variable {conventions : Conventions} {wanted : Ordering} {left middle right best result : Value}
  {values given : List Value}

/-! ## Two arguments -/

/-- Both are numbers, both strings or both truth values. -/
def Ordered (left right : Value) : Prop :=
  left.kind = right.kind ∧ left.kind ∈ [.number, .string, .bool]

theorem ordered_iff : Ordered left right ↔ ∃ order, orderArguments left right = .ok order := by
  cases left <;> cases right <;> simp [Ordered, orderArguments, Value.kind]

theorem Ordered.symm {left right : Value} (ordered : Ordered left right) : Ordered right left :=
  ⟨ordered.1.symm, ordered.1 ▸ ordered.2⟩

instance : Std.Symm Ordered := ⟨fun _ _ => Ordered.symm⟩

theorem Ordered.trans (ordered : Ordered left middle) (ordered' : Ordered middle right) :
    Ordered left right :=
  ⟨ordered.1.trans ordered'.1, ordered.2⟩

theorem orderArguments_swap {order : Ordering} (isOrder : orderArguments left right = .ok order) :
    orderArguments right left = .ok order.swap := by
  unfold orderArguments at isOrder
  split at isOrder
  · cases isOrder
    exact congrArg Except.ok (Number.order_swap _ _)
  · cases isOrder
    exact congrArg Except.ok Std.OrientedCmp.eq_swap
  · cases isOrder
    exact congrArg Except.ok Std.OrientedCmp.eq_swap
  · cases isOrder

theorem orderArguments_self (ordered : Ordered left left) : orderArguments left left = .ok .eq := by
  obtain ⟨order, isOrder⟩ := ordered_iff.mp ordered
  have same := isOrder.symm.trans (orderArguments_swap isOrder)
  cases order with
  | eq => exact isOrder
  | lt | gt => cases same

theorem equal_of_orderArguments (isOrder : orderArguments left right = .ok .eq) :
    Standard.equal conventions left right = true := by
  unfold orderArguments at isOrder
  split at isOrder
  · next left right =>
      change (left.order right == .eq) = true
      rw [Except.ok.inj isOrder]
      rfl
  · next left right =>
      change (Value.string left).same (.string right) = true
      rw [Standard.same_string, Except.ok.inj isOrder]
      rfl
  · next left right =>
      change (Value.bool left).same (.bool right) = true
      rw [Standard.same_bool, Except.ok.inj isOrder]
      rfl
  · cases isOrder

/-- The numbers among some arguments. -/
def numbersOf (given : List Value) : Set Number :=
  {number | .number number ∈ given}

theorem lt_trans_of_mem (strict : Number.HasStrictOrder (numbersOf given))
    (isLeft : left ∈ given) (isMiddle : middle ∈ given) (isRight : right ∈ given)
    (below : orderArguments left middle = .ok .lt)
    (below' : orderArguments middle right = .ok .lt) :
    orderArguments left right = .ok .lt := by
  unfold orderArguments at below
  split at below
  · next left middle =>
      cases right with
      | number right =>
          exact congrArg Except.ok (strict left isLeft middle isMiddle right isRight
            (Except.ok.inj below) (Except.ok.inj below'))
      | null | bool | string | array => cases below'
  · next left middle =>
      cases right with
      | string right =>
          exact congrArg Except.ok
            (Std.TransCmp.lt_trans (Except.ok.inj below) (Except.ok.inj below'))
      | null | bool | number | array => cases below'
  · next left middle =>
      cases right with
      | bool right =>
          exact congrArg Except.ok
            (Std.TransCmp.lt_trans (Except.ok.inj below) (Except.ok.inj below'))
      | null | string | number | array => cases below'
  · cases below

/-- What stands strictly on the wanted side of something does so of all that this does. -/
theorem wanted_trans (notEq : wanted ≠ .eq) (strict : Number.HasStrictOrder (numbersOf given))
    (isLeft : left ∈ given) (isMiddle : middle ∈ given) (isRight : right ∈ given)
    (beats : orderArguments left middle = .ok wanted)
    (beats' : orderArguments middle right = .ok wanted) :
    orderArguments left right = .ok wanted := by
  cases wanted with
  | eq => exact absurd rfl notEq
  | lt => exact lt_trans_of_mem strict isLeft isMiddle isRight beats beats'
  | gt =>
      have below := orderArguments_swap beats
      have below' := orderArguments_swap beats'
      exact orderArguments_swap (lt_trans_of_mem strict isRight isMiddle isLeft below' below)

/-! ## The search -/

/-- The arguments before the first null. -/
def reached (given : List Value) : List Value :=
  given.takeWhile (!·.isNull)

theorem isNull_iff {value : Value} : value.isNull = true ↔ value = .null := by
  cases value <;> simp [Value.isNull]

theorem extremumFrom_null {value : Value} (null : conventions.convert value = .null)
    (best : Option Value) : extremumFrom conventions wanted best (value :: values) = .ok .null := by
  unfold extremumFrom
  rw [null]

theorem extremumFrom_none {value : Value} (notNull : conventions.convert value ≠ .null) :
    extremumFrom conventions wanted none (value :: values) =
      extremumFrom conventions wanted (some (conventions.convert value)) values := by
  conv_lhs => unfold extremumFrom
  cases converted : conventions.convert value with
  | null => exact absurd converted notNull
  | bool | number | string | array => rfl

theorem extremumFrom_some {value : Value} (notNull : conventions.convert value ≠ .null) :
    extremumFrom conventions wanted (some best) (value :: values) =
      (orderArguments (conventions.convert value) best).bind fun order =>
        extremumFrom conventions wanted
          (some (if order = wanted then conventions.convert value else best)) values := by
  conv_lhs => unfold extremumFrom
  cases converted : conventions.convert value with
  | null => exact absurd converted notNull
  | bool | number | string | array => rfl

theorem reached_cons {value : Value} {later : List Value} (notNull : value ≠ .null) :
    reached (value :: later) = value :: reached later := by
  simp [reached, mt isNull_iff.mp notNull]

theorem reached_eq_self (notNull : .null ∉ given) : reached given = given := by
  rw [reached, List.takeWhile_eq_self_iff]
  intro value member
  simp [mt isNull_iff.mp fun null => notNull (null ▸ member)]

theorem reached_sublist (given : List Value) :
    (reached given).Sublist (given.filter (!·.isNull)) := by
  have all : (reached given).filter (!·.isNull) = reached given :=
    List.filter_eq_self.mpr fun _ member =>
      List.mem_takeWhile_imp (p := fun value : Value => !value.isNull) member
  exact all ▸ (List.takeWhile_sublist _).filter _

/-- The search fails at the first argument that has no order with the best so far, and so with the
one it began with. -/
theorem extremumFrom_isOk_iff :
    (∃ result, extremumFrom conventions wanted (some best) values = .ok result) ↔
      ∀ value ∈ reached (values.map conventions.convert), Ordered best value := by
  induction values generalizing best with
  | nil => simp [extremumFrom, reached]
  | cons value values ih =>
      by_cases null : conventions.convert value = .null
      · simp [extremumFrom_null null, reached, null, Value.isNull]
      · rw [extremumFrom_some null, List.map_cons, reached_cons null, List.forall_mem_cons]
        by_cases ordered : Ordered (conventions.convert value) best
        · obtain ⟨order, isOrder⟩ := ordered_iff.mp ordered
          -- Whichever of the two is kept, the rest has to be ordered with the same values.
          have next :
              Ordered (if order = wanted then conventions.convert value else best) best := by
            split
            · exact ordered
            · exact ordered.symm.trans ordered
          rw [isOrder]
          refine ih.trans ⟨fun all => ⟨ordered.symm, fun later member => ?_⟩, fun all => ?_⟩
          · exact next.symm.trans (all later member)
          · exact fun later member => next.trans (all.2 later member)
        · refine iff_of_false ?_ fun all => ordered all.1.symm
          rintro ⟨result, isResult⟩
          obtain ⟨order, isOrder, -⟩ := bind_eq_ok_iff.mp isResult
          exact ordered (ordered_iff.mpr ⟨order, isOrder⟩)

theorem extremumFrom_eq_null {best : Option Value} {result : Value}
    (null : .null ∈ values.map conventions.convert)
    (isResult : extremumFrom conventions wanted best values = .ok result) : result = .null := by
  induction values generalizing best with
  | nil => cases null
  | cons value values ih =>
      by_cases isNull : conventions.convert value = .null
      · rw [extremumFrom_null isNull] at isResult
        exact (Except.ok.inj isResult).symm
      · have later : .null ∈ values.map conventions.convert :=
          (List.mem_cons.mp null).resolve_left (Ne.symm isNull)
        cases best with
        | none => exact ih later (extremumFrom_none isNull ▸ isResult)
        | some best =>
            rw [extremumFrom_some isNull] at isResult
            obtain ⟨order, -, isResult⟩ := bind_eq_ok_iff.mp isResult
            exact ih later isResult

/-- What a search finds that begins with one argument and goes on to others. -/
structure Found (wanted : Ordering) (best : Value) (later : List Value) (result : Value) :
    Prop where
  mem : result ∈ best :: later
  moved : result = best ∨ orderArguments result best = .ok wanted
  unbeaten : ∀ value ∈ best :: later, orderArguments value result ≠ .ok wanted

theorem not_beats_self (notEq : wanted ≠ .eq) : orderArguments left left ≠ .ok wanted := by
  intro beats
  have ordered := ordered_iff.mpr ⟨wanted, beats⟩
  exact notEq (Except.ok.inj (beats.symm.trans (orderArguments_self ordered)))

/-- What the search passes by does not beat its result, whether the search moves on or stays. -/
theorem Found.cons {value : Value} {later : List Value} (notEq : wanted ≠ .eq)
    (strict : Number.HasStrictOrder (numbersOf given))
    (within : ∀ value' ∈ best :: value :: later, value' ∈ given)
    {order : Ordering} (isOrder : orderArguments value best = .ok order)
    (found : Found wanted (if order = wanted then value else best) later result) :
    Found wanted best (value :: later) result := by
  have isBest : best ∈ given := within best (by simp)
  have isValue : value ∈ given := within value (by simp)
  by_cases moves : order = wanted
  -- The result is the argument or beats it, and so it beats what the argument beat.
  · rw [if_pos moves] at found
    rw [moves] at isOrder
    have isResult : result ∈ given := within result (.tail _ found.mem)
    refine ⟨.tail _ found.mem, .inr ?_, List.forall_mem_cons.mpr ⟨fun beats => ?_, found.unbeaten⟩⟩
    · rcases found.moved with rfl | beats
      · exact isOrder
      · exact wanted_trans notEq strict isResult isValue isBest beats isOrder
    · exact found.unbeaten value List.mem_cons_self
        (wanted_trans notEq strict isValue isBest isResult isOrder beats)
  -- An argument that beat the result would have beaten the best so far.
  · rw [if_neg moves] at found
    have stays : orderArguments value best ≠ .ok wanted :=
      fun beats => moves (Except.ok.inj (isOrder.symm.trans beats))
    have mem : result ∈ best :: value :: later := by
      have := found.mem
      grind
    have isResult : result ∈ given := within result mem
    obtain ⟨unbeaten, unbeaten'⟩ := List.forall_mem_cons.mp found.unbeaten
    refine ⟨mem, found.moved, List.forall_mem_cons.mpr
      ⟨unbeaten, List.forall_mem_cons.mpr ⟨fun beats => ?_, unbeaten'⟩⟩⟩
    rcases found.moved with rfl | beats'
    · exact stays beats
    · exact stays (wanted_trans notEq strict isValue isResult isBest beats beats')

theorem found_of_extremumFrom (notEq : wanted ≠ .eq)
    (strict : Number.HasStrictOrder (numbersOf given))
    (within : ∀ value ∈ best :: values.map conventions.convert, value ∈ given)
    (notNull : .null ∉ values.map conventions.convert)
    (isResult : extremumFrom conventions wanted (some best) values = .ok result) :
    Found wanted best (values.map conventions.convert) result := by
  induction values generalizing best with
  | nil =>
      cases isResult
      refine ⟨List.mem_cons_self, .inl rfl, fun value member => ?_⟩
      rw [List.mem_singleton.mp member]
      exact not_beats_self notEq
  | cons value values ih =>
      have valueNotNull : conventions.convert value ≠ .null :=
        fun null => notNull (null ▸ List.mem_cons_self)
      rw [extremumFrom_some valueNotNull] at isResult
      obtain ⟨order, isOrder, isResult⟩ := bind_eq_ok_iff.mp isResult
      refine .cons notEq strict within isOrder (ih ?_ (fun null => notNull (.tail _ null)) isResult)
      refine List.forall_mem_cons.mpr ⟨?_, fun later member => within later (by simp_all)⟩
      split
      · exact within _ (.tail _ List.mem_cons_self)
      · exact within _ List.mem_cons_self

/-! ## All arguments -/

theorem extremum_isOk_iff (wanted : Ordering) :
    (∃ result, extremum wanted conventions values = .ok result) ↔
      (reached (values.map conventions.convert)).Pairwise Ordered := by
  cases values with
  | nil => simp [extremum, extremumFrom, reached]
  | cons value values =>
      by_cases null : conventions.convert value = .null
      · simp [extremum, extremumFrom_null null, reached, null, Value.isNull]
      · rw [extremum, extremumFrom_none null, extremumFrom_isOk_iff, List.map_cons,
          reached_cons null, List.pairwise_cons]
        refine ⟨fun ordered => ⟨ordered, ?_⟩, And.left⟩
        exact List.pairwise_of_forall_mem_list fun first isFirst second isSecond =>
          (ordered first isFirst).symm.trans (ordered second isSecond)

theorem extremum_eq_null_iff (null : .null ∈ values.map conventions.convert) :
    extremum wanted conventions values = .ok .null ↔
      (reached (values.map conventions.convert)).Pairwise Ordered := by
  rw [← extremum_isOk_iff wanted]
  refine ⟨fun isNull => ⟨_, isNull⟩, ?_⟩
  rintro ⟨result, isResult⟩
  exact extremumFrom_eq_null null isResult ▸ isResult

theorem unbeaten_of_extremum (notEq : wanted ≠ .eq) (notEmpty : values ≠ [])
    (strict : Number.HasStrictOrder (numbersOf (values.map conventions.convert)))
    (notNull : .null ∉ values.map conventions.convert)
    (isResult : extremum wanted conventions values = .ok result) :
    result ∈ values.map conventions.convert ∧
      ∀ value ∈ values.map conventions.convert, orderArguments value result ≠ .ok wanted := by
  cases values with
  | nil => exact absurd rfl notEmpty
  | cons value values =>
      have valueNotNull : conventions.convert value ≠ .null :=
        fun null => notNull (null ▸ List.mem_cons_self)
      rw [extremum, extremumFrom_none valueNotNull] at isResult
      have found := found_of_extremumFrom notEq strict (fun _ member => member)
        (fun null => notNull (.tail _ null)) isResult
      exact ⟨found.mem, found.unbeaten⟩

/-- Both fail, or both succeed with equal results. -/
def Agree (conventions : Conventions) : Except Error Value → Except Error Value → Prop
  | .ok result, .ok result' =>
      result' = result ∨ Standard.equal conventions result result' = true
  | .error _, .error _ => True
  | _, _ => False

/-- No null comes together with arguments that have no order. -/
def NullSettles (given : List Value) : Prop :=
  .null ∈ given → (given.filter (!·.isNull)).Pairwise Ordered

theorem orderArguments_eq_eq (notEq : wanted ≠ .eq) (ordered : Ordered left right)
    (notBeats : orderArguments left right ≠ .ok wanted)
    (notBeats' : orderArguments right left ≠ .ok wanted) : orderArguments left right = .ok .eq := by
  obtain ⟨order, isOrder⟩ := ordered_iff.mp ordered
  rw [isOrder] at notBeats
  rw [orderArguments_swap isOrder] at notBeats'
  cases wanted with
  | eq => exact absurd rfl notEq
  | lt | gt => cases order <;> simp_all

theorem agree_of_error {outcome outcome' : Except Error Value}
    (fails : ¬ ∃ result, outcome = .ok result) (fails' : ¬ ∃ result, outcome' = .ok result) :
    Agree conventions outcome outcome' := by
  cases outcome with
  | ok result => exact absurd ⟨result, rfl⟩ fails
  | error =>
      cases outcome' with
      | ok result => exact absurd ⟨result, rfl⟩ fails'
      | error => trivial

theorem NullSettles.of_perm {given' : List Value} (settles : NullSettles given)
    (perm : given'.Perm given) : NullSettles given' := fun null =>
  ((perm.filter _).pairwise_iff Ordered.symm).mpr (settles (perm.mem_iff.mp null))

theorem extremum_eq_null (wanted : Ordering)
    (settles : NullSettles (values.map conventions.convert))
    (null : .null ∈ values.map conventions.convert) :
    extremum wanted conventions values = .ok .null :=
  (extremum_eq_null_iff null).mpr ((settles null).sublist (reached_sublist _))

theorem isOk_iff_of_not_null (notNull : .null ∉ values.map conventions.convert) :
    (∃ result, extremum wanted conventions values = .ok result) ↔
      (values.map conventions.convert).Pairwise Ordered := by
  rw [extremum_isOk_iff, reached_eq_self notNull]

variable {permuted : List Value}

/-- With a null in front nothing is compared, and with all nulls at the end everything else is. -/
theorem nullSettles_of_isOk_perm
    (sameSuccess : ∀ permuted : List Value, permuted.Perm values →
      ((∃ result, extremum wanted conventions permuted = .ok result) ↔
        ∃ result, extremum wanted conventions values = .ok result)) :
    NullSettles (values.map conventions.convert) := by
  intro null
  let isNull (value : Value) := (conventions.convert value).isNull
  have inFront : (values.filter isNull ++ values.filter (!isNull ·)).Perm values :=
    List.filter_append_perm isNull values
  have atEnd : (values.filter (!isNull ·) ++ values.filter isNull).Perm values :=
    List.perm_append_comm.trans inFront
  have isFront : extremum wanted conventions
      (values.filter isNull ++ values.filter (!isNull ·)) = .ok .null := by
    obtain ⟨value, member, converted⟩ := List.mem_map.mp null
    have isMember : value ∈ values.filter isNull :=
      List.mem_filter.mpr ⟨member, isNull_iff.mpr converted⟩
    obtain ⟨first, nulls, split⟩ := List.exists_cons_of_ne_nil (List.ne_nil_of_mem isMember)
    have firstNull : isNull first = true := List.of_mem_filter (split ▸ List.mem_cons_self)
    rw [split]
    exact extremumFrom_null (isNull_iff.mp firstNull) none
  have isOk := (sameSuccess _ atEnd).trans (sameSuccess _ inFront).symm
  have ordered := (extremum_isOk_iff wanted).mp (isOk.mpr ⟨_, isFront⟩)
  rw [List.map_append, reached, List.takeWhile_append_of_pos] at ordered
  · rw [List.filter_map]
    exact (List.pairwise_append.mp ordered).1
  · intro value member
    obtain ⟨value, isPresent, rfl⟩ := List.mem_map.mp member
    exact (List.mem_filter.mp isPresent).2

theorem isOk_perm_iff (wanted : Ordering) :
    (∀ permuted : List Value, permuted.Perm values →
        ((∃ result, extremum wanted conventions permuted = .ok result) ↔
          ∃ result, extremum wanted conventions values = .ok result)) ↔
      NullSettles (values.map conventions.convert) := by
  refine ⟨nullSettles_of_isOk_perm, fun settles permuted perm => ?_⟩
  have permGiven := perm.map conventions.convert
  by_cases null : .null ∈ values.map conventions.convert
  · have isNull := extremum_eq_null wanted settles null
    have isNull' := extremum_eq_null wanted (settles.of_perm permGiven)
      (permGiven.mem_iff.mpr null)
    exact iff_of_true ⟨_, isNull'⟩ ⟨_, isNull⟩
  · rw [isOk_iff_of_not_null null, isOk_iff_of_not_null (mt permGiven.mem_iff.mp null),
      permGiven.pairwise_iff Ordered.symm]

/-- Two results that no argument beats do not beat each other. -/
theorem agree_of_results {result' : Value} (notEq : wanted ≠ .eq)
    (notNull : .null ∉ values.map conventions.convert)
    (strict : Number.HasStrictOrder (numbersOf (values.map conventions.convert)))
    (perm : permuted.Perm values) (isResult : extremum wanted conventions values = .ok result)
    (isResult' : extremum wanted conventions permuted = .ok result') :
    Agree conventions (.ok result) (.ok result') := by
  have permGiven := perm.map conventions.convert
  by_cases empty : values = []
  · subst empty
    rw [perm.eq_nil] at isResult'
    exact .inl (Except.ok.inj (isResult'.symm.trans isResult))
  · have strict' : Number.HasStrictOrder (numbersOf (permuted.map conventions.convert)) :=
      strict.mono fun _ member => permGiven.mem_iff.mp member
    have empty' : permuted ≠ [] := fun empty' => empty (empty' ▸ perm).symm.eq_nil
    obtain ⟨member, unbeaten⟩ := unbeaten_of_extremum notEq empty strict notNull isResult
    obtain ⟨member', unbeaten'⟩ :=
      unbeaten_of_extremum notEq empty' strict' (mt permGiven.mem_iff.mp notNull) isResult'
    have isMember := permGiven.mem_iff.mp member'
    by_cases same : result' = result
    · exact .inl same
    · have ordered := (isOk_iff_of_not_null notNull).mp ⟨result, isResult⟩
      have apart := ordered.forall member isMember (Ne.symm same)
      exact .inr (equal_of_orderArguments (orderArguments_eq_eq notEq apart
        (unbeaten' result (permGiven.mem_iff.mpr member)) (unbeaten result' isMember)))

theorem agree_of_perm (notEq : wanted ≠ .eq)
    (settles : NullSettles (values.map conventions.convert))
    (strict : Number.HasStrictOrder (numbersOf (values.map conventions.convert)))
    (perm : permuted.Perm values) :
    Agree conventions (extremum wanted conventions values)
      (extremum wanted conventions permuted) := by
  have sameSuccess := (isOk_perm_iff wanted).mpr settles permuted perm
  by_cases succeeds : ∃ result, extremum wanted conventions values = .ok result
  · obtain ⟨result', isResult'⟩ := sameSuccess.mpr succeeds
    obtain ⟨result, isResult⟩ := succeeds
    rw [isResult, isResult']
    by_cases null : .null ∈ values.map conventions.convert
    · have null' := (perm.map conventions.convert).mem_iff.mpr null
      rw [extremumFrom_eq_null null isResult, extremumFrom_eq_null null' isResult']
      exact .inl rfl
    · exact agree_of_results notEq null strict perm isResult isResult'
  · exact agree_of_error succeeds (mt sameSuccess.mp succeeds)

/-! ## The strict order -/

theorem extremum_number (low middle high : Number) :
    extremum wanted conventions [.number low, .number middle, .number high] =
      .ok (.number (
        let best := if middle.order low = wanted then middle else low
        if high.order best = wanted then high else best)) := by
  have step (value best : Number) (values : List Value) :
      extremumFrom conventions wanted (some (.number best)) (.number value :: values) =
        extremumFrom conventions wanted
          (some (.number (if value.order best = wanted then value else best))) values := by
    rw [apply_ite Value.number]
    rfl
  exact (step _ _ _).trans (step _ _ _)

/-- Where two steps do not make one, the place of the third number decides. -/
theorem wanted_trans_of_agree {low middle high : Number} (notEq : wanted ≠ .eq)
    (agree : Agree conventions
      (extremum wanted conventions [.number low, .number middle, .number high])
      (extremum wanted conventions [.number low, .number high, .number middle]))
    (step : middle.order low = wanted) (step' : high.order middle = wanted) :
    high.order low = wanted := by
  by_contra stays
  -- One search ends at `high`, and the other passes it by and ends at `middle`.
  rw [extremum_number, extremum_number] at agree
  simp only [step, step', stays, if_true, if_false] at agree
  have isEq : high.order middle = .eq := by
    rcases agree with same | equal
    · rw [Value.number.inj same, Number.order_self]
    · exact eq_of_beq equal
  exact notEq (step'.symm.trans isEq)

/-- Every argument is one of the numbers. -/
def AreNumbers (numbers : Set Number) (given : List Value) : Prop :=
  ∀ value ∈ given, ∃ number ∈ numbers, value = .number number

theorem AreNumbers.nullSettles {numbers : Set Number} (areNumbers : AreNumbers numbers given) :
    NullSettles given := by
  intro null
  obtain ⟨number, -, isNumber⟩ := areNumbers .null null
  cases isNumber

theorem AreNumbers.hasStrictOrder {numbers : Set Number} (areNumbers : AreNumbers numbers given)
    (strict : Number.HasStrictOrder numbers) : Number.HasStrictOrder (numbersOf given) := by
  refine strict.mono fun number member => ?_
  obtain ⟨number', isMember, same⟩ := areNumbers (.number number) member
  cases same
  exact isMember

/-- On numbers, the agreement of all orders of the arguments is the transitivity of their strict
order. -/
theorem hasStrictOrder_of_agree {numbers : Set Number} (notEq : wanted ≠ .eq)
    (agree : ∀ values permuted : List Value, AreNumbers numbers (values.map conventions.convert) →
      permuted.Perm values → Agree conventions (extremum wanted conventions values)
        (extremum wanted conventions permuted)) : Number.HasStrictOrder numbers := by
  have trans {low middle high : Number} (isLow : low ∈ numbers) (isMiddle : middle ∈ numbers)
      (isHigh : high ∈ numbers) : middle.order low = wanted → high.order middle = wanted →
        high.order low = wanted := by
    refine wanted_trans_of_agree notEq (agree _ _ ?_ ((List.Perm.swap _ _ _).cons _))
    simp [AreNumbers, Conventions.convert, isLow, isMiddle, isHigh]
  intro low isLow middle isMiddle high isHigh below below'
  cases wanted with
  | eq => exact absurd rfl notEq
  | lt => exact trans isHigh isMiddle isLow below' below
  | gt =>
      rw [Number.order_swap high low, Ordering.swap_eq_lt]
      refine trans isLow isMiddle isHigh ?_ ?_
      · rw [Number.order_swap low middle, below]
        rfl
      · rw [Number.order_swap middle high, below']
        rfl

/-- A null decides the result if all arguments before it have an order among each other.  Whether
there is a result does not depend on the order of the arguments exactly if no null comes with
arguments that have no order.  All orders then give equal results if the strict order of the numbers
is transitive, and for given numbers only then.  Without floats or without decimals it is. -/
theorem extremum_perm_iff (notEq : wanted ≠ .eq) (conventions : Conventions)
    (values : List Value) :
    let given := values.map conventions.convert
    (.null ∈ given →
      (extremum wanted conventions values = .ok .null ↔ (reached given).Pairwise Ordered)) ∧
    ((∀ permuted : List Value, permuted.Perm values →
        ((∃ result, extremum wanted conventions permuted = .ok result) ↔
          ∃ result, extremum wanted conventions values = .ok result)) ↔ NullSettles given) ∧
    (NullSettles given → Number.HasStrictOrder (numbersOf given) →
      ∀ permuted : List Value, permuted.Perm values →
        Agree conventions (extremum wanted conventions values)
          (extremum wanted conventions permuted)) ∧
    ∀ numbers : Set Number,
      ((∀ values permuted : List Value, AreNumbers numbers (values.map conventions.convert) →
          permuted.Perm values → Agree conventions (extremum wanted conventions values)
            (extremum wanted conventions permuted)) ↔ Number.HasStrictOrder numbers) ∧
      ((∀ number ∈ numbers, number.type.isFloat = false) ∨
          (∀ number ∈ numbers, number.type ≠ .decimal) → Number.HasStrictOrder numbers) := by
  intro given
  refine ⟨extremum_eq_null_iff, isOk_perm_iff wanted,
    fun settles strict permuted perm => agree_of_perm notEq settles strict perm, fun numbers =>
      ⟨⟨hasStrictOrder_of_agree notEq, fun strict values permuted areNumbers perm => ?_⟩, ?_⟩⟩
  · exact agree_of_perm notEq areNumbers.nullSettles (areNumbers.hasStrictOrder strict) perm
  · rintro (exacts | plain)
    · exact Number.hasStrictOrder_of_exact exacts
    · exact Number.hasStrictOrder_of_plain plain

/-- The text is read as a number, and one order finds it where the other keeps it. -/
theorem extremum_perm_of_text :
    let conventions := Conventions.ofType .int32
    let values := [Value.number (.int64 9), .string "10", .number (.int32 10)]
    let given := values.map conventions.convert
    NullSettles given ∧ Number.HasStrictOrder (numbersOf given) ∧
      extremum .gt conventions values = .ok (.number (.int32 10)) ∧
      ∀ permuted : List Value, permuted.Perm values →
        Agree conventions (extremum .gt conventions values)
          (extremum .gt conventions permuted) := by
  intro conventions values given
  obtain ⟨-, -, agrees, ofNumbers⟩ :=
    extremum_perm_iff (nofun : Ordering.gt ≠ .eq) conventions values
  have isGiven : given = [.number (.int64 9), .number (.int32 10), .number (.int32 10)] := by
    rfl
  have settles : NullSettles given := by simp [NullSettles, isGiven]
  have strict : Number.HasStrictOrder (numbersOf given) := by
    refine (ofNumbers _).2 (.inl fun number member => ?_)
    have isOne : number = .int64 9 ∨ number = .int32 10 := by
      simpa [numbersOf, isGiven] using member
    rcases isOne with rfl | rfl
    · rfl
    · rfl
  exact ⟨settles, strict, rfl, agrees settles strict⟩

/-- A null goes unseen behind a truth value that faces a number, and is seen before it. -/
theorem not_extremum_perm :
    ¬ ∀ wanted ∈ [Ordering.gt, .lt], ∀ (conventions : Conventions) (values : List Value),
      (.null ∈ values.map conventions.convert → extremum wanted conventions values = .ok .null) ∧
      ∀ permuted : List Value, permuted.Perm values →
        Agree conventions (extremum wanted conventions values)
          (extremum wanted conventions permuted) := by
  intro always
  obtain ⟨isNull, -⟩ := always .gt List.mem_cons_self (.ofType .float64)
    [.number (.float64 Number.twoPow53), .bool true, .null]
  cases isNull (.tail _ (.tail _ List.mem_cons_self))

end Formula.Builtin

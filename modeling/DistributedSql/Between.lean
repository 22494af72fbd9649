/-
`BETWEEN` and the conjunction it abbreviates (`planner/binder.py`, `planner/expressions.py`).

`x BETWEEN a AND b` casts all three operands to the common type of `x` and `a`, the cast of
`b` being one that may lose digits or raise, and is NULL as soon as one operand is.
`x >= a AND x <= b` compares `x` and `b` in their own common type, and is false as soon as
one comparison is.

Main results:
* `between_agrees_iff` — exactly when the two give the same;
* `boundsSettled_of_sameType` — they do on operands of one type, without NULL bounds;
* `between_null_bound` — and do not on `5 BETWEEN 10 AND NULL`.
-/
import DistributedSql.Coercions

namespace DistributedSql

/-! ### Binding -/

/-- `BETWEEN` in `_bind_expression`: the type of `high` is not asked to go with the others. -/
def bindBetween (betweenValue low high : Expression) : Except DistributedSQLError Expression := do
  let (betweenValue, low, comparisonType) ← coercePair betweenValue low
  return .between betweenValue low (coerce high comparisonType) false

/-- The binding of `x >= low AND x <= high`. -/
def bindConjunction (x low high : Expression) : Except DistributedSQLError Expression := do
  let atLeast ← bindComparison .greaterThanOrEqual x low
  let atMost ← bindComparison .lessThanOrEqual x high
  bindLogical .and atLeast atMost

theorem bindConjunction_eq_ok {x low high conjunction : Expression}
    (h : bindConjunction x low high = .ok conjunction) : ∃ lowType highType,
      commonType x.typeInfo low.typeInfo = .ok lowType ∧
      commonType x.typeInfo high.typeInfo = .ok highType ∧
      conjunction = .binary .and (comparison .greaterThanOrEqual x low lowType)
        (comparison .lessThanOrEqual x high highType)
        ⟨.boolean, lowType.nullable || highType.nullable⟩ := by
  rw [bindConjunction] at h
  obtain ⟨atLeast, hlow, h⟩ := ExceptState.bind_eq_ok h
  obtain ⟨atMost, hhigh, h⟩ := ExceptState.bind_eq_ok h
  obtain ⟨lowType, hlowType, rfl⟩ := bindComparison_eq_ok_iff.mp hlow
  obtain ⟨highType, hhighType, rfl⟩ := bindComparison_eq_ok_iff.mp hhigh
  exact ⟨lowType, highType, hlowType, hhighType, (Except.ok.inj h).symm⟩

theorem bindBetween_eq_ok {x low high : Expression} {lowType : TypeInfo}
    (h : commonType x.typeInfo low.typeInfo = .ok lowType) :
    bindBetween x low high
      = .ok (.between (coerce x lowType) (coerce low lowType) (coerce high lowType) false) := by
  rw [bindBetween, coercePair, h]
  rfl

/-! ### Comparisons -/

private theorem orderNumbers_swap {left right : SQLValue} {x y : Number} {o : Option Ordering}
    (h : orderNumbers left right x y = .ok o) :
    orderNumbers right left y x = .ok (o.map Ordering.swap) := by
  unfold orderNumbers at h ⊢
  split at h
  case isTrue hnan =>
    rw [if_pos hnan.symm]
    split at h
    case isTrue => cases h
    case isFalse hdecimal =>
      rw [if_neg (mt Or.symm hdecimal)]
      cases h
      rfl
  case isFalse hnan =>
    rw [if_neg (mt Or.symm hnan)]
    cases h
    rw [Option.map_some, cmp_swap]

/-- A comparison read from the other side. -/
theorem SQLValue.order_swap {op : String} (op' : String) {left right : SQLValue}
    {o : Option Ordering} (h : left.order op right = .ok o) :
    right.order op' left = .ok (o.map Ordering.swap) := by
  rw [SQLValue.order.eq_def] at h
  split at h
  case h_1 a b =>
    cases h
    rw [Option.map_some, cmp_swap]
    rfl
  case h_2 a b =>
    cases h
    rw [Option.map_some, cmp_swap]
    rfl
  case h_3 a b =>
    cases h
    rw [Option.map_some, cmp_swap]
    rfl
  case h_4 a b =>
    cases h
    rw [Option.map_some, cmp_swap]
    rfl
  case h_5 a b =>
    rw [SQLValue.order]
    split at h
    case h_1 ha hb =>
      cases h
      rw [ha, hb, Option.map_some, cmp_swap]
    case h_2 ha hb =>
      cases h
      rw [ha, hb, Option.map_some, cmp_swap]
    case h_3 => cases h
  case h_6 hint hstr hbytes hdate hdatetime =>
    split at h
    case h_2 => cases h
    case h_1 x y hx hy =>
      rw [SQLValue.order.eq_def]
      split
      case h_6 =>
        rw [hx, hy]
        exact orderNumbers_swap h
      case h_1 a b => exact absurd rfl (hint b a rfl)
      all_goals cases hx

theorem SQLValue.le_eq_ok_iff {left right : SQLValue} {b : Bool} :
    left.le right = .ok b ↔ right.ge left = .ok b := by
  constructor
  · intro h
    cases ho : left.order "<=" right with
    | error e =>
      rw [SQLValue.le, ho] at h
      cases h
    | ok o =>
      rw [SQLValue.le, ho] at h
      cases h
      rw [SQLValue.ge, SQLValue.order_swap ">=" ho]
      rcases o with _ | _ | _ | _ <;> rfl
  · intro h
    cases ho : right.order ">=" left with
    | error e =>
      rw [SQLValue.ge, ho] at h
      cases h
    | ok o =>
      rw [SQLValue.ge, ho] at h
      cases h
      rw [SQLValue.le, SQLValue.order_swap "<=" ho]
      rcases o with _ | _ | _ | _ <;> rfl

theorem lessThanOrEqual_eq (py : Python) (left right : SQLValue) :
    binaryValue py .lessThanOrEqual left right
      = if left = .null ∨ right = .null then .ok .null else (left.le right).map .bool := rfl

theorem greaterThanOrEqual_eq (py : Python) (left right : SQLValue) :
    binaryValue py .greaterThanOrEqual left right
      = if left = .null ∨ right = .null then .ok .null else (left.ge right).map .bool := rfl

/-- `<=` is true, false or NULL, where it does not raise. -/
theorem lessThanOrEqual_results {py : Python} {row : Row} {left right : Expression}
    {common : TypeInfo} {value : SQLValue}
    (h : (comparison .lessThanOrEqual left right common).evaluate py row = .ok value) :
    value = .null ∨ ∃ b, value = .bool b := by
  rw [comparison, Expression.evaluate] at h
  obtain ⟨l, -, h⟩ := ExceptState.bind_eq_ok h
  obtain ⟨r, -, h⟩ := ExceptState.bind_eq_ok h
  rw [lessThanOrEqual_eq] at h
  split at h
  · exact Or.inl (Except.ok.inj h).symm
  · cases hle : l.le r with
    | error e =>
      rw [hle] at h
      cases h
    | ok b =>
      rw [hle] at h
      exact Or.inr ⟨b, (Except.ok.inj h).symm⟩

/-! ### Results -/

/-- Both have the same result, or both raise. -/
def SameResult (left right : Except PyError SQLValue) : Prop :=
  ∀ value, left = .ok value ↔ right = .ok value

def Raises (result : Except PyError SQLValue) : Prop := ∀ value, result ≠ .ok value

/-- What settles that `x BETWEEN low AND high` may stand for the conjunction: where `x` is at
least `low`, the cast of `high` does not change how `x` compares with it; where it is not,
`high` is not NULL; where `low` or `x` is NULL, `x` is not above `high`; and the cast of
`high` raises only together with its comparison. -/
def BoundsSettled (py : Python) (row : Row) (x low high : Expression)
    (lowType highType : TypeInfo) : Prop :=
  let atMost := (comparison .lessThanOrEqual x high highType).evaluate py row
  let castHigh := (coerce high lowType).evaluate py row
  match (comparison .greaterThanOrEqual x low lowType).evaluate py row with
  | .ok (.bool true) =>
      SameResult ((comparison .lessThanOrEqual x high lowType).evaluate py row) atMost
  | .ok (.bool false) => high.evaluate py row ≠ .ok .null ∧ (Raises castHigh ↔ Raises atMost)
  | .ok _ => atMost ≠ .ok (.bool false) ∧ (Raises castHigh ↔ Raises atMost)
  | .error _ =>
      high.evaluate py row = .ok .null →
        Raises ((coerce x lowType).evaluate py row) ∨ Raises ((coerce low lowType).evaluate py row)

/-! ### Agreement -/

section

variable {py : Python} {row : Row}

theorem sameResult_error_iff {e : PyError} {result : Except PyError SQLValue} :
    SameResult (.error e) result ↔ Raises result :=
  ⟨fun h value hvalue => (by cases (h value).mpr hvalue), fun h value => ⟨nofun, fun hv => absurd hv (h value)⟩⟩

theorem sameResult_ok_iff {value : SQLValue} {result : Except PyError SQLValue} :
    SameResult (.ok value) result ↔ result = .ok value := by
  refine ⟨fun h => (h value).mp rfl, fun h other => ?_⟩
  rw [h]

theorem raises_error (e : PyError) : Raises (.error e) := nofun

theorem not_raises_ok (value : SQLValue) : ¬Raises (.ok value) := fun h => h value rfl

/-- `sql_and` with a false left side. -/
theorem sqlAnd_false (right : SQLValue) : sqlAnd (.bool false) right = .bool false := rfl

theorem sqlAnd_true {right : SQLValue} (h : right = .null ∨ ∃ b, right = .bool b) :
    sqlAnd (.bool true) right = right := by
  rcases h with rfl | ⟨b, rfl⟩
  · rfl
  · cases b <;> rfl

theorem sqlAnd_null {right : SQLValue} (h : right = .null ∨ ∃ b, right = .bool b) :
    sqlAnd .null right = if right = .bool false then .bool false else .null := by
  rcases h with rfl | ⟨b, rfl⟩
  · rfl
  · cases b <;> rfl

/-- With the first comparison false, both forms are false unless the second operand is
NULL or raises. -/
theorem sameResult_of_low_false {castHigh atMost : Except PyError SQLValue} :
    SameResult (castHigh >>= fun high => if high = .null then .ok .null else .ok (.bool false))
        (atMost >>= fun right => .ok (sqlAnd (.bool false) right)) ↔
      castHigh ≠ .ok .null ∧ (Raises castHigh ↔ Raises atMost) := by
  cases castHigh with
  | error e =>
    have hleft : ((Except.error e : Except PyError SQLValue) >>= fun high =>
        if high = .null then Except.ok SQLValue.null else .ok (.bool false)) = .error e := rfl
    rw [hleft, sameResult_error_iff]
    cases atMost with
    | error e' => exact iff_of_true (raises_error e') ⟨nofun, iff_of_true (raises_error e) (raises_error e')⟩
    | ok right =>
      exact iff_of_false (not_raises_ok _) fun h => not_raises_ok right (h.2.mp (raises_error e))
  | ok high =>
    rw [ExceptState.ok_bind]
    cases atMost with
    | error e' =>
      refine iff_of_false (fun h => ?_) fun h => not_raises_ok high (h.2.mpr (raises_error e'))
      split at h
      · cases (h _).mp rfl
      · cases (h _).mp rfl
    | ok right =>
      rw [ExceptState.ok_bind, sqlAnd_false]
      split
      case isTrue hnull =>
        rw [hnull, sameResult_ok_iff]
        exact iff_of_false nofun fun h => h.1 rfl
      case isFalse hnull =>
        rw [sameResult_ok_iff]
        exact iff_of_true rfl ⟨fun h => hnull (Except.ok.inj h),
          iff_of_false (not_raises_ok _) (not_raises_ok _)⟩

/-- With the first comparison NULL, both forms are NULL unless the second is false or one
of them raises. -/
theorem sameResult_of_low_null {castHigh atMost : Except PyError SQLValue}
    (hresults : ∀ right, atMost = .ok right → right = .null ∨ ∃ b, right = .bool b) :
    SameResult (castHigh >>= fun _ => .ok .null)
        (atMost >>= fun right => .ok (sqlAnd .null right)) ↔
      atMost ≠ .ok (.bool false) ∧ (Raises castHigh ↔ Raises atMost) := by
  cases castHigh with
  | error e =>
    have hleft : ((Except.error e : Except PyError SQLValue) >>= fun _ =>
        Except.ok SQLValue.null) = .error e := rfl
    rw [hleft, sameResult_error_iff]
    cases atMost with
    | error e' =>
      exact iff_of_true (raises_error e') ⟨nofun, iff_of_true (raises_error e) (raises_error e')⟩
    | ok right =>
      exact iff_of_false (not_raises_ok _) fun h => not_raises_ok right (h.2.mp (raises_error e))
  | ok high =>
    rw [ExceptState.ok_bind, sameResult_ok_iff]
    cases atMost with
    | error e' =>
      exact iff_of_false nofun fun h => not_raises_ok high (h.2.mpr (raises_error e'))
    | ok right =>
      rw [ExceptState.ok_bind, sqlAnd_null (hresults right rfl)]
      split
      case isTrue hfalse =>
        exact iff_of_false nofun fun h => h.1 (congrArg _ hfalse)
      case isFalse hfalse =>
        exact iff_of_true rfl ⟨fun h => hfalse (Except.ok.inj h),
          iff_of_false (not_raises_ok _) (not_raises_ok _)⟩

theorem sameResult_of_low_true {inner atMost : Except PyError SQLValue}
    (hresults : ∀ right, atMost = .ok right → right = .null ∨ ∃ b, right = .bool b) :
    SameResult inner (atMost >>= fun right => .ok (sqlAnd (.bool true) right)) ↔
      SameResult inner atMost := by
  cases atMost with
  | error e => exact Iff.rfl
  | ok right => rw [ExceptState.ok_bind, sqlAnd_true (hresults right rfl)]

/-- With the first comparison raising, both forms raise unless the second operand is NULL. -/
theorem sameResult_of_low_error {castHigh : Except PyError SQLValue} {e e' : PyError} :
    SameResult (castHigh >>= fun high => if high = .null then .ok .null else .error e)
        (.error e') ↔ castHigh ≠ .ok .null := by
  cases castHigh with
  | error e'' => exact iff_of_true (fun _ => ⟨nofun, nofun⟩) nofun
  | ok high =>
    rw [ExceptState.ok_bind]
    split
    case isTrue hnull =>
      rw [hnull]
      exact iff_of_false (fun h => by cases (h _).mp rfl) fun h => h rfl
    case isFalse hnull =>
      exact iff_of_true (fun _ => ⟨nofun, nofun⟩) fun h => hnull (Except.ok.inj h)

/-- `Between.evaluate`, where `x` and the lower bound are not NULL and compare. -/
theorem between_of_compare {X L H : Expression} {value low : SQLValue} {b : Bool}
    (hX : X.evaluate py row = .ok value) (hL : L.evaluate py row = .ok low)
    (hvalue : value ≠ .null) (hlow : low ≠ .null) (hle : low.le value = .ok b) :
    (Expression.between X L H false).evaluate py row
      = H.evaluate py row >>= fun high =>
          if high = .null then .ok .null
          else if b then (value.le high).map .bool else .ok (.bool false) := by
  rw [Expression.evaluate, hX, hL, ExceptState.ok_bind, ExceptState.ok_bind]
  congr 1
  funext high
  by_cases hhigh : high = .null
  · rw [if_pos hhigh, hhigh]
    simp [SQLValue.isNull, pure, Except.pure]
  · rw [if_neg hhigh, if_neg (by simp [hvalue, hlow, hhigh]), hle]
    cases b with
    | false => rfl
    | true => cases value.le high <;> simp [bind, Except.bind, pure, Except.pure, Except.map]

/-- `Between.evaluate`, where `x` and the lower bound do not compare. -/
theorem between_of_error {X L H : Expression} {value low : SQLValue} {e : PyError}
    (hX : X.evaluate py row = .ok value) (hL : L.evaluate py row = .ok low)
    (hvalue : value ≠ .null) (hlow : low ≠ .null) (hle : low.le value = .error e) :
    (Expression.between X L H false).evaluate py row
      = H.evaluate py row >>= fun high => if high = .null then .ok .null else .error e := by
  rw [Expression.evaluate, hX, hL, ExceptState.ok_bind, ExceptState.ok_bind]
  congr 1
  funext high
  by_cases hhigh : high = .null
  · rw [if_pos hhigh, hhigh]
    simp [SQLValue.isNull, pure, Except.pure]
  · rw [if_neg hhigh, if_neg (by simp [hvalue, hlow, hhigh]), hle]
    rfl

theorem sameResult_between_iff (x low high : Expression) (lowType highType resultType : TypeInfo) :
    SameResult
      ((Expression.between (coerce x lowType) (coerce low lowType) (coerce high lowType)
        false).evaluate py row)
      ((Expression.binary .and (comparison .greaterThanOrEqual x low lowType)
        (comparison .lessThanOrEqual x high highType) resultType).evaluate py row) ↔
      BoundsSettled py row x low high lowType highType := by
  have hnull : (coerce high lowType).evaluate py row = .ok .null ↔ high.evaluate py row = .ok .null :=
    coerce_eq_null_iff
  have hresults : ∀ right, (comparison .lessThanOrEqual x high highType).evaluate py row = .ok right →
      right = .null ∨ ∃ b, right = .bool b := fun right => lessThanOrEqual_results
  have hinner : (comparison .lessThanOrEqual x high lowType).evaluate py row
      = (coerce x lowType).evaluate py row >>= fun value =>
          (coerce high lowType).evaluate py row >>= binaryValue py .lessThanOrEqual value := by
    rw [comparison, Expression.evaluate]
  have hlower : (comparison .greaterThanOrEqual x low lowType).evaluate py row
      = (coerce x lowType).evaluate py row >>= fun value =>
          (coerce low lowType).evaluate py row >>= binaryValue py .greaterThanOrEqual value := by
    rw [comparison, Expression.evaluate]
  rw [Expression.evaluate_and, BoundsSettled]
  cases hX : (coerce x lowType).evaluate py row with
  | error e =>
    rw [hX] at hlower
    rw [hlower, Expression.evaluate, hX]
    exact iff_of_true (fun _ => ⟨nofun, nofun⟩) fun _ => Or.inl (raises_error e)
  | ok value =>
    rw [hX, ExceptState.ok_bind] at hlower hinner
    cases hL : (coerce low lowType).evaluate py row with
    | error e =>
      rw [hL] at hlower
      rw [hlower, Expression.evaluate, hX, ExceptState.ok_bind, hL]
      exact iff_of_true (fun _ => ⟨nofun, nofun⟩) fun _ => Or.inr (raises_error e)
    | ok lowValue =>
      rw [hL, ExceptState.ok_bind, greaterThanOrEqual_eq] at hlower
      by_cases hnulls : value = .null ∨ lowValue = .null
      · -- one of the first two is NULL, and `high` is only asked not to raise
        rw [if_pos hnulls] at hlower
        rw [hlower, ExceptState.ok_bind, ← sameResult_of_low_null hresults]
        rw [Expression.evaluate, hX, hL, ExceptState.ok_bind, ExceptState.ok_bind]
        rcases hnulls with rfl | rfl <;> simp [SQLValue.isNull, pure, Except.pure]
      · obtain ⟨hvalue, hlow⟩ := not_or.mp hnulls
        rw [if_neg hnulls] at hlower
        cases hge : value.ge lowValue with
        | error e =>
          obtain ⟨e', hle⟩ : ∃ e', lowValue.le value = .error e' := by
            cases hle : lowValue.le value with
            | error e' => exact ⟨e', rfl⟩
            | ok b => cases hge.symm.trans (SQLValue.le_eq_ok_iff.mp hle)
          rw [hge] at hlower
          rw [hlower, between_of_error hX hL hvalue hlow hle]
          refine sameResult_of_low_error.trans (not_congr hnull |>.trans ?_)
          exact ⟨fun h hhigh => absurd hhigh h, fun h hhigh =>
            (h hhigh).elim (not_raises_ok _) (not_raises_ok _)⟩
        | ok b =>
          rw [hge] at hlower
          rw [hlower, between_of_compare hX hL hvalue hlow (SQLValue.le_eq_ok_iff.mpr hge)]
          cases b with
          | false => exact sameResult_of_low_false.trans (and_congr_left' (not_congr hnull))
          | true =>
            have hbetween : ((coerce high lowType).evaluate py row >>= fun high =>
                if high = .null then .ok .null
                else if true = true then (value.le high).map .bool else .ok (.bool false))
                = (comparison .lessThanOrEqual x high lowType).evaluate py row := by
              rw [hinner]
              congr 1
              funext highValue
              rw [lessThanOrEqual_eq, if_pos rfl]
              simp [hvalue]
            rw [hbetween]
            exact sameResult_of_low_true hresults

theorem SameResult.bind {left right : Except PyError SQLValue} (h : SameResult left right)
    (f : SQLValue → Except PyError SQLValue) : SameResult (left >>= f) (right >>= f) := by
  cases left with
  | error e =>
    cases right with
    | error e' => exact fun _ => ⟨nofun, nofun⟩
    | ok value => exact absurd (sameResult_error_iff.mp h) (not_raises_ok value)
  | ok value =>
    rw [sameResult_ok_iff.mp h]
    exact fun _ => Iff.rfl

theorem SameResult.negation {left right : Expression}
    (h : SameResult (left.evaluate py row) (right.evaluate py row)) (leftType rightType : TypeInfo) :
    SameResult ((Expression.unary .not left leftType).evaluate py row)
      ((Expression.unary .not right rightType).evaluate py row) := by
  rw [Expression.evaluate, Expression.evaluate]
  exact h.bind _

end

/-- Where the conjunction is accepted, so is `BETWEEN`; the two forms, and their negations,
have the same results exactly where the bounds are settled. -/
theorem between_agrees_iff {x low high conjunction : Expression}
    (h : bindConjunction x low high = .ok conjunction) :
    ∃ between notBetween notConjunction lowType highType,
      bindBetween x low high = .ok between ∧ bindNot between = .ok notBetween ∧
      bindNot conjunction = .ok notConjunction ∧
      commonType x.typeInfo low.typeInfo = .ok lowType ∧
      commonType x.typeInfo high.typeInfo = .ok highType ∧
      ∀ py row,
        (SameResult (between.evaluate py row) (conjunction.evaluate py row) ∧
          SameResult (notBetween.evaluate py row) (notConjunction.evaluate py row)) ↔
        BoundsSettled py row x low high lowType highType := by
  obtain ⟨lowType, highType, hlow, hhigh, rfl⟩ := bindConjunction_eq_ok h
  refine ⟨_, _, _, lowType, highType, bindBetween_eq_ok hlow, rfl, rfl, hlow, hhigh, fun py row => ?_⟩
  rw [← sameResult_between_iff x low high lowType highType]
  exact ⟨fun hsame => hsame.1, fun hsame => ⟨hsame, hsame.negation _ _⟩⟩

/-- The INT32 literal of a number. -/
def intLiteral (value : ℤ) : Expression := .literal (.int value) ⟨.int32, false⟩

/-- The literal `NULL`. -/
def nullLiteral : Expression := .literal .null ⟨.null, true⟩

theorem between_agrees_iff_literals :
    ∃ between, bindBetween (intLiteral 5) (intLiteral 10) (intLiteral 20) = .ok between ∧
      SameResult (between.evaluate .ascii []) (.ok (.bool false)) := by
  obtain ⟨between, _, _, lowType, highType, hbetween, -, -, hlow, hhigh, hiff⟩ :=
    between_agrees_iff (show bindConjunction (intLiteral 5) (intLiteral 10) (intLiteral 20)
      = .ok (.binary .and
        (comparison .greaterThanOrEqual (intLiteral 5) (intLiteral 10) ⟨.int32, false⟩)
        (comparison .lessThanOrEqual (intLiteral 5) (intLiteral 20) ⟨.int32, false⟩)
        ⟨.boolean, false⟩) from rfl)
  cases hlow
  cases hhigh
  have hsettled : BoundsSettled .ascii [] (intLiteral 5) (intLiteral 10) (intLiteral 20)
      ⟨.int32, false⟩ ⟨.int32, false⟩ :=
    ⟨nofun, iff_of_false (not_raises_ok (.int 20)) (not_raises_ok (.bool true))⟩
  exact ⟨between, hbetween, ((hiff .ascii []).mpr hsettled).1⟩

/-- `5 BETWEEN 10 AND NULL` is NULL, where `5 >= 10 AND 5 <= NULL` is false. -/
theorem between_null_bound :
    ((bindBetween (intLiteral 5) (intLiteral 10) nullLiteral).toOption.map
        fun between => between.evaluate .ascii []) = some (.ok .null) ∧
      ((bindConjunction (intLiteral 5) (intLiteral 10) nullLiteral).toOption.map
        fun conjunction => conjunction.evaluate .ascii []) = some (.ok (.bool false)) :=
  ⟨rfl, rfl⟩

theorem commonType_of_eq {left right common : TypeInfo} (h : left.dataType = right.dataType)
    (hcommon : commonType left right = .ok common) : common.dataType = left.dataType := by
  rw [commonType] at hcommon
  split at hcommon
  · cases hcommon
    exact h.symm
  · rw [if_neg (h ▸ ‹_›)] at hcommon
    cases hcommon
    rfl

/-- On operands of one type that compare, the bounds are settled as soon as neither is NULL. -/
theorem boundsSettled_of_sameType {py : Python} {row : Row} {x low high : Expression}
    {lowType highType : TypeInfo} (hlow : x.typeInfo.dataType = low.typeInfo.dataType)
    (hhigh : x.typeInfo.dataType = high.typeInfo.dataType)
    (hlowType : commonType x.typeInfo low.typeInfo = .ok lowType)
    (hhighType : commonType x.typeInfo high.typeInfo = .ok highType)
    (hlowNull : low.evaluate py row ≠ .ok .null) (hhighNull : high.evaluate py row ≠ .ok .null)
    (hcompare : ¬Raises ((comparison .lessThanOrEqual x high highType).evaluate py row)) :
    BoundsSettled py row x low high lowType highType := by
  have hlowData := commonType_of_eq hlow hlowType
  have hhighData := commonType_of_eq hhigh hhighType
  have hx : coerce x lowType = x := if_pos hlowData.symm
  have hx' : coerce x highType = x := if_pos hhighData.symm
  have hcast : coerce high lowType = high := if_pos (hhigh.symm.trans hlowData.symm)
  have hcast' : coerce high highType = high := if_pos (hhigh.symm.trans hhighData.symm)
  have hatMost : ∀ common, coerce x common = x → coerce high common = high →
      (comparison .lessThanOrEqual x high common).evaluate py row
        = x.evaluate py row >>= fun value =>
            high.evaluate py row >>= binaryValue py .lessThanOrEqual value := by
    intro common h h'
    rw [comparison, h, h', Expression.evaluate]
  have hraises : ¬Raises ((coerce high lowType).evaluate py row) := by
    rw [hcast]
    intro hraises
    refine hcompare fun value hvalue => ?_
    rw [hatMost highType hx' hcast'] at hvalue
    obtain ⟨_, -, hvalue⟩ := ExceptState.bind_eq_ok hvalue
    obtain ⟨highValue, hhighValue, -⟩ := ExceptState.bind_eq_ok hvalue
    exact hraises highValue hhighValue
  rw [BoundsSettled]
  split
  · rw [hatMost lowType hx hcast, hatMost highType hx' hcast']
    exact fun _ => Iff.rfl
  · exact ⟨hhighNull, iff_of_false hraises hcompare⟩
  case h_3 result htrue hfalse hresult =>
    refine ⟨fun hatMostFalse => ?_, iff_of_false hraises hcompare⟩
    rw [comparison, hx, coerce, if_pos (hlow.symm.trans hlowData.symm), Expression.evaluate]
      at hresult
    obtain ⟨value, hvalue, hresult⟩ := ExceptState.bind_eq_ok hresult
    obtain ⟨lowValue, hlowValue, hresult⟩ := ExceptState.bind_eq_ok hresult
    rw [greaterThanOrEqual_eq] at hresult
    split at hresult
    case isTrue hnull =>
      -- `x` is NULL, and so is its comparison with `high`
      rcases hnull with rfl | rfl
      · rw [hatMost highType hx' hcast', hvalue, ExceptState.ok_bind] at hatMostFalse
        obtain ⟨highValue, -, hatMostFalse⟩ := ExceptState.bind_eq_ok hatMostFalse
        rw [lessThanOrEqual_eq, if_pos (Or.inl rfl)] at hatMostFalse
        cases hatMostFalse
      · exact hlowNull hlowValue
    case isFalse =>
      cases hge : value.ge lowValue with
      | error e =>
        rw [hge] at hresult
        cases hresult
      | ok b =>
        rw [hge] at hresult
        cases hresult
        cases b
        · exact hfalse rfl
        · exact htrue rfl
  · exact fun h => absurd h hhighNull

end DistributedSql

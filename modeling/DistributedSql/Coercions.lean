/-
Types of bound expressions and their implicit casts (`planner/types.py`, and the operators
of `Binder._bind_expression`).

Main results:
* `bindComparison_eq_ok_iff` — a comparison is bound in the common type of its sides;
* `coerce_eq_null_iff` — a cast neither makes a NULL nor loses one.
-/
import DistributedSql.AggregationBinding

namespace DistributedSql

/-! ### Types -/

/-- `_NUMERIC_PRECEDENCE`. -/
def numericPrecedence : DataType → Option ℕ
  | .int32 => some 0
  | .int64 => some 1
  | .float32 => some 2
  | .float64 => some 3
  | .decimal => some 4
  | _ => none

/-- `NUMERIC_TYPES`. -/
def DataType.isNumeric (dataType : DataType) : Bool := (numericPrecedence dataType).isSome

/-- The error of `common_type`. -/
def incompatibleTypes (left right : DataType) : DistributedSQLError where
  code := .bindingError
  message := "Types " ++ left.value ++ " and " ++ right.value ++ " are not compatible."
  context := [("left_type", .text left.value), ("right_type", .text right.value)]

/-- `common_type`. -/
def commonType (left right : TypeInfo) : Except DistributedSQLError TypeInfo :=
  let nullable := left.nullable || right.nullable
  if left.dataType = .null then .ok ⟨right.dataType, true⟩
  else if right.dataType = .null then .ok ⟨left.dataType, true⟩
  else if left.dataType = right.dataType then .ok ⟨left.dataType, nullable⟩
  else
    match numericPrecedence left.dataType, numericPrecedence right.dataType with
    | some i, some j => .ok ⟨if i < j then right.dataType else left.dataType, nullable⟩
    | _, _ =>
        if (left.dataType, right.dataType) ∈ [(.date, .timestamp), (.timestamp, .date)] then
          .ok ⟨.timestamp, nullable⟩
        else .error (incompatibleTypes left.dataType right.dataType)

/-! ### Operators -/

/-- The cast of one side in `coerce_pair`. -/
def coerce (expression : Expression) (target : TypeInfo) : Expression :=
  if expression.typeInfo.dataType = target.dataType then expression
  else .cast expression target true

/-- `coerce_pair`. -/
def coercePair (left right : Expression) :
    Except DistributedSQLError (Expression × Expression × TypeInfo) := do
  let result ← commonType left.typeInfo right.typeInfo
  return (coerce left result, coerce right result, result)

/-- `_require_boolean`. -/
def requireBoolean (expression : Expression) : Except DistributedSQLError Unit :=
  if expression.typeInfo.dataType ∈ [DataType.boolean, .null] then .ok ()
  else .error (bindingError "A boolean expression is required." [])

/-- `_bind_binary` on `AND` and `OR`. -/
def bindLogical (operator : BinaryOperator) (left right : Expression) :
    Except DistributedSQLError Expression := do
  requireBoolean left
  requireBoolean right
  return .binary operator left right
    ⟨.boolean, left.typeInfo.nullable || right.typeInfo.nullable⟩

/-- `_bind_binary` on a comparison. -/
def bindComparison (operator : BinaryOperator) (left right : Expression) :
    Except DistributedSQLError Expression := do
  let (left, right, common) ← coercePair left right
  return .binary operator left right ⟨.boolean, common.nullable⟩

/-- The `NOT` of `_bind_expression`. -/
def bindNot (operand : Expression) : Except DistributedSQLError Expression := do
  requireBoolean operand
  return .unary .not operand ⟨.boolean, operand.typeInfo.nullable⟩

/-- A comparison of two expressions in a type. -/
def comparison (operator : BinaryOperator) (left right : Expression) (common : TypeInfo) :
    Expression :=
  .binary operator (coerce left common) (coerce right common) ⟨.boolean, common.nullable⟩

theorem bindComparison_eq_ok_iff {operator : BinaryOperator} {left right bound : Expression} :
    bindComparison operator left right = .ok bound ↔ ∃ common,
      commonType left.typeInfo right.typeInfo = .ok common ∧
        bound = comparison operator left right common := by
  rw [bindComparison, coercePair]
  cases commonType left.typeInfo right.typeInfo with
  | error e => simp [bind, Except.bind]
  | ok common =>
    simp only [ExceptState.ok_bind, pure, Except.pure, Except.ok.injEq, exists_eq_left']
    exact eq_comm

/-! ### Values -/

variable {py : Python} {row : Row} {expression left right : Expression} {target : TypeInfo}

/-- A value that is not NULL is not cast to NULL. -/
theorem castValue_ne_null {dataType : DataType} {value : SQLValue} (h : value ≠ .null) :
    castValue py dataType value ≠ .ok .null := by
  intro hcast
  rw [castValue.eq_def] at hcast
  split at hcast <;> first
    | exact h (Except.ok.inj hcast)
    | cases hcast
    | skip
  all_goals
    revert hcast
    rw [Except.map.eq_def]
    split <;> nofun

/-- A cast neither makes a NULL nor loses one. -/
theorem coerce_eq_null_iff :
    (coerce expression target).evaluate py row = .ok .null
      ↔ expression.evaluate py row = .ok .null := by
  rw [coerce]
  split
  · exact Iff.rfl
  · rw [Expression.evaluate]
    cases expression.evaluate py row with
    | error e => exact Iff.rfl
    | ok value =>
      rw [ExceptState.ok_bind]
      by_cases h : value = .null
      · rw [h]
        exact Iff.rfl
      · rw [if_neg (mt SQLValue.isNull_iff.mp h)]
        exact iff_of_false (castValue_ne_null h) fun hv => h (Except.ok.inj hv)

end DistributedSql

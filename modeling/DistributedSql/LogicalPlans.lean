/-
Logical plans (`planner/logical.py`) and what they mean.

A plan gives a list of rows.  Filters and joins are given their SQL meaning: a filter
keeps the rows on which its predicate is `True`, and a join matches the pairs on which its
condition is, padding the unmatched rows of a side it preserves with NULLs.  What the
tables hold, and what the other operators make of their input, is a `Database`.

Main results:
* `filterRows_eq` — a filter whose predicate raises nothing selects;
* `coe_joinRows` — the rows of a join are the bag of its relation.
-/
import DistributedSql.ExpressionTrees
import DistributedSql.HashJoin
import DistributedSql.JoinBag

namespace DistributedSql

structure SchemaField where
  name : String
  dataType : DataType
  nullable : Bool := true
deriving DecidableEq, Repr

abbrev Schema : Type := List SchemaField

def Schema.names (schema : Schema) : List String := schema.map (·.name)

/-- `NamedExpression`, `AggregateExpression` and `NamedWindowExpression`. -/
structure NamedExpression where
  name : String
  expression : Expression

inductive LogicalPlan
  | scan (nodeId tableName tableAlias : String) (outputSchema : Schema)
  | project (nodeId : String) (input : LogicalPlan) (expressions : List NamedExpression)
      (outputSchema : Schema)
  | filter (nodeId : String) (input : LogicalPlan) (predicate : Expression)
      (outputSchema : Schema) (phase : String)
  | aggregate (nodeId : String) (input : LogicalPlan) (groupBy : List Expression)
      (aggregates : List NamedExpression) (outputSchema : Schema)
  | join (nodeId : String) (left right : LogicalPlan) (joinType : JoinType)
      (condition : Expression) (outputSchema : Schema) (inputLimit : Option ℕ) (buildSide : Side)
  | limit (nodeId : String) (input : LogicalPlan) (count : ℕ) (outputSchema : Schema)
  | order (nodeId : String) (input : LogicalPlan) (orderBy : List SortExpression)
      (outputSchema : Schema)
  | window (nodeId : String) (input : LogicalPlan) (expressions : List NamedExpression)
      (outputSchema : Schema)
  | groupingSets (nodeId : String) (input : LogicalPlan) (groupingSets : List (List Expression))
      (aggregates : List NamedExpression) (outputSchema : Schema)

namespace LogicalPlan

def outputSchema : LogicalPlan → Schema
  | .scan _ _ _ schema => schema
  | .project _ _ _ schema => schema
  | .filter _ _ _ schema _ => schema
  | .aggregate _ _ _ _ schema => schema
  | .join _ _ _ _ _ schema _ _ => schema
  | .limit _ _ _ schema => schema
  | .order _ _ _ schema => schema
  | .window _ _ _ schema => schema
  | .groupingSets _ _ _ _ schema => schema

/-- `plan_sources`. -/
def sources (py : Python) : LogicalPlan → List String
  | .scan _ _ tableAlias _ => [py.casefold tableAlias]
  | .project _ input _ _ => input.sources py
  | .filter _ input _ _ _ => input.sources py
  | .aggregate _ input _ _ _ => input.sources py
  | .join _ left right _ _ _ _ _ => left.sources py ++ right.sources py
  | .limit _ input _ _ => input.sources py
  | .order _ input _ _ => input.sources py
  | .window _ input _ _ => input.sources py
  | .groupingSets _ input _ _ _ => input.sources py

/-- `_runtime_names`; those of grouping sets come from a set, here in order of appearance. -/
def runtimeNames (py : Python) : LogicalPlan → List String
  | .scan _ _ tableAlias schema => schema.map fun field => tableAlias ++ "." ++ field.name
  | .filter _ input _ _ _ => input.runtimeNames py
  | .limit _ input _ _ => input.runtimeNames py
  | .order _ input _ _ => input.runtimeNames py
  | .project _ _ expressions _ => expressions.map (·.name)
  | .aggregate _ _ groupBy aggregates _ =>
      groupBy.map (Expression.sql py) ++ aggregates.map (·.expression.sql py)
  | .groupingSets _ _ sets aggregates _ =>
      (sets.flatten.map (Expression.sql py)).dedup ++ aggregates.map (·.expression.sql py)
  | .window _ input expressions _ =>
      input.runtimeNames py ++ expressions.map (·.expression.sql py)
  | .join _ _ _ _ _ schema _ _ => schema.names

end LogicalPlan

/-! ### Meaning -/

/-- What the tables hold, and what the operators other than filter and join do. -/
structure Database where
  scan : (tableName tableAlias : String) → Schema → Except PyError (List Row)
  operator : LogicalPlan → List Row → Except PyError (List Row)

/-- The rows a filter keeps. -/
def filterRows (py : Python) (predicate : Expression) : List Row → Except PyError (List Row)
  | [] => .ok []
  | row :: rest => do
      let value ← predicate.evaluate py row
      let kept ← filterRows py predicate rest
      return if value = .bool true then row :: kept else kept

/-- A join by a condition. -/
def joinRelation (py : Python) (joinType : JoinType) (condition : Expression)
    (leftNames rightNames outputNames : List String) : BagJoin Row Row Row where
  Matches left right := condition.isTrue py (left.union right) = true
  decidable _ _ := inferInstance
  pair left right := (left.union right).restrict outputNames
  padLeft left := (left.union (Row.fromkeys rightNames)).restrict outputNames
  padRight right := ((Row.fromkeys leftNames).union right).restrict outputNames
  keepLeft := sideIsPreserved joinType .left
  keepRight := sideIsPreserved joinType .right

/-- The rows of a join; the condition is evaluated on every pair. -/
def joinRows (py : Python) (joinType : JoinType) (condition : Expression)
    (leftNames rightNames outputNames : List String) (left right : List Row) :
    Except PyError (List Row) := do
  let _ ← left.mapM fun l => right.mapM fun r => condition.evaluate py (l.union r)
  return (joinRelation py joinType condition leftNames rightNames outputNames).nestedLoop left right

namespace LogicalPlan

variable (py : Python) (db : Database)

/-- The rows of a plan. -/
def rows : LogicalPlan → Except PyError (List Row)
  | .scan _ tableName tableAlias schema => db.scan tableName tableAlias schema
  | .filter _ input predicate _ _ => do filterRows py predicate (← input.rows)
  | .join _ left right joinType condition schema _ _ => do
      joinRows py joinType condition (left.runtimeNames py) (right.runtimeNames py) schema.names
        (← left.rows) (← right.rows)
  | .project nodeId input expressions schema => do
      db.operator (.project nodeId input expressions schema) (← input.rows)
  | .aggregate nodeId input groupBy aggregates schema => do
      db.operator (.aggregate nodeId input groupBy aggregates schema) (← input.rows)
  | .limit nodeId input count schema => do
      db.operator (.limit nodeId input count schema) (← input.rows)
  | .order nodeId input orderBy schema => do
      db.operator (.order nodeId input orderBy schema) (← input.rows)
  | .window nodeId input expressions schema => do
      db.operator (.window nodeId input expressions schema) (← input.rows)
  | .groupingSets nodeId input sets aggregates schema => do
      db.operator (.groupingSets nodeId input sets aggregates schema) (← input.rows)

end LogicalPlan

/-! ### Filters and joins that raise nothing -/

variable {py : Python}

theorem filterRows_eq {predicate : Expression} {rows : List Row}
    (h : ∀ row ∈ rows, ∃ value, predicate.evaluate py row = .ok value) :
    filterRows py predicate rows = .ok (rows.filter (predicate.isTrue py ·)) := by
  induction rows with
  | nil => rfl
  | cons row rest ih =>
    obtain ⟨⟨value, hvalue⟩, hrest⟩ := List.forall_mem_cons.mp h
    rw [filterRows, hvalue, ih hrest, ExceptState.ok_bind, ExceptState.ok_bind, List.filter_cons,
      Expression.isTrue, hvalue]
    by_cases htrue : value = .bool true <;> simp [htrue, pure, Except.pure]

theorem evaluates_of_filterRows {predicate : Expression} {rows kept : List Row}
    (h : filterRows py predicate rows = .ok kept) :
    ∀ row ∈ rows, ∃ value, predicate.evaluate py row = .ok value := by
  induction rows generalizing kept with
  | nil => exact fun row hrow => absurd hrow List.not_mem_nil
  | cons row rest ih =>
    rw [filterRows] at h
    obtain ⟨value, hvalue, h⟩ := ExceptState.bind_eq_ok h
    obtain ⟨keptRest, hrest, -⟩ := ExceptState.bind_eq_ok h
    exact List.forall_mem_cons.mpr ⟨⟨value, hvalue⟩, ih hrest⟩

section Joins

variable {joinType : JoinType} {condition : Expression}
  {leftNames rightNames outputNames : List String} {left right : List Row}

theorem joinRows_eq (joinType : JoinType) (leftNames rightNames outputNames : List String) (h : ∀ l ∈ left, ∀ r ∈ right,
      ∃ value, condition.evaluate py (l.union r) = .ok value) :
    joinRows py joinType condition leftNames rightNames outputNames left right
      = .ok ((joinRelation py joinType condition leftNames rightNames outputNames).nestedLoop
          left right) := by
  obtain ⟨values, hvalues, -⟩ := ExceptState.exists_mapM_eq_ok (P := fun _ _ => True)
    (f := fun l : Row => right.mapM fun r => condition.evaluate py (l.union r)) (l := left)
    fun l hl => by
      obtain ⟨row, hrow, -⟩ := ExceptState.exists_mapM_eq_ok (P := fun _ _ => True)
        (f := fun r => condition.evaluate py (l.union r)) (l := right) fun r hr =>
          (h l hl r hr).imp fun _ hvalue => ⟨hvalue, trivial⟩
      exact ⟨row, hrow, trivial⟩
  rw [joinRows, hvalues]
  rfl

theorem evaluates_of_joinRows {rows : List Row}
    (h : joinRows py joinType condition leftNames rightNames outputNames left right = .ok rows) :
    ∀ l ∈ left, ∀ r ∈ right, ∃ value, condition.evaluate py (l.union r) = .ok value := by
  obtain ⟨values, hvalues, -⟩ := ExceptState.bind_eq_ok h
  intro l hl
  obtain ⟨row, hrow⟩ := ExceptState.ok_of_mapM_eq_ok hvalues l hl
  exact ExceptState.ok_of_mapM_eq_ok hrow

/-- The rows of a join, as a bag. -/
theorem coe_joinRows {rows : List Row}
    (h : joinRows py joinType condition leftNames rightNames outputNames left right = .ok rows) :
    (rows : Multiset Row)
      = (joinRelation py joinType condition leftNames rightNames outputNames).bag left right := by
  have heq := joinRows_eq joinType leftNames rightNames outputNames (evaluates_of_joinRows h)
  rw [heq] at h
  cases h
  exact BagJoin.coe_nestedLoop _ left right

end Joins

end DistributedSql

/-
What the operators of `execution/operators.py` make of rows, for plans.

The operators that were left open in the meaning of a plan get theirs here: a projection
evaluates its expressions on each row, a limit takes the first rows, and the operators that
read all their input first sort it, group it or add windows to it.  A plan may then be put in
the place of another if it has the same rows under the same names.

Main results:
* `LocalExecutor.Keeps.project`, …, `LocalExecutor.Keeps.join` — an operator keeps what its
  inputs keep.
-/
import DistributedSql.Aggregation
import DistributedSql.GroupingSets
import DistributedSql.LogicalPlans
import DistributedSql.WindowOperator

namespace DistributedSql

namespace LocalExecutor

/-! ### Rows of operators -/

section Operators

variable (py : Python)

/-- The row that `ProjectOperator` makes. -/
def projectRow (expressions : List NamedExpression) (row : Row) : Except PyError Row := do
  let values ← Expression.evaluateAll py row (expressions.map (·.expression))
  return ((Dict.empty : Dict String SQLValue).update
    ((expressions.map (·.name)).zip values)).items

/-- The rows that come out of `ProjectOperator`, in batches of its schema. -/
def projectRows (expressions : List NamedExpression) (names : List String) (rows : List Row) :
    Except PyError (List Row) := do
  return (RecordBatch.fromPylist (← rows.mapM (projectRow py expressions)) names).rows

/-- The rows that come out of `OrderOperator`. -/
def orderRows (orderBy : List SortExpression) (names : List String) (rows : List Row) :
    Except PyError (List Row) := do
  return (RecordBatch.fromPylist (← sortRows py orderBy rows) names).rows

/-- The rows that come out of the operator of an `Aggregate`. -/
def aggregateRows (groupBy : List Expression) (aggregates : List NamedExpression)
    (batchSize : ℕ) (rows : List Row) : Except PyError (List Row) :=
  if ¬(aggregateNames py groupBy aggregates).Nodup then
    .error (.valueError "schema field names must be unique")
  else if groupBy.isEmpty then (hashAggregate py groupBy aggregates batchSize rows).map allRows
  else do
    let sorted ← sortRows py (groupBy.map fun expression => ⟨expression, true, false⟩) rows
    return allRows (← sortedAggregate py groupBy aggregates batchSize sorted)

/-- The rows that come out of `GroupingSetsOperator`. -/
def groupingSetsRows (sets : List (List Expression)) (aggregates : List NamedExpression)
    (batchSize : ℕ) (rows : List Row) : Except PyError (List Row) :=
  if ¬(groupingSetsNames py sets aggregates).Nodup then
    .error (.valueError "schema field names must be unique")
  else (groupingSetsExecute py sets aggregates batchSize rows).map allRows

/-- The rows that come out of `WindowOperator`. -/
def windowRows (expressions : List NamedExpression) (names : List String) (rows : List Row) :
    Except PyError (List Row) := do
  return (RecordBatch.fromPylist (← evaluateWindows py expressions rows)
    (windowNames py expressions names)).rows

/-- `_runtime_schema`: the field names. -/
def runtimeSchema : LogicalPlan → List String
  | .scan _ _ tableAlias schema => schema.map fun field => tableAlias ++ "." ++ field.name
  | .filter _ input _ _ _ => runtimeSchema input
  | .limit _ input _ _ => runtimeSchema input
  | .order _ input _ _ => runtimeSchema input
  | .aggregate _ _ groupBy aggregates _ => aggregateNames py groupBy aggregates
  | .groupingSets _ _ sets aggregates _ => groupingSetsNames py sets aggregates
  | .window _ input expressions _ => windowNames py expressions (runtimeSchema input)
  | .project _ _ _ schema => schema.names
  | .join _ _ _ _ _ schema _ _ => schema.names

/-- The operators of `LocalExecutor` over tables. -/
def database (batchSize : ℕ)
    (scan : (tableName tableAlias : String) → Schema → Except PyError (List Row)) : Database where
  scan := scan
  operator plan rows :=
    match plan with
    | .project _ _ expressions schema => projectRows py expressions schema.names rows
    | .limit _ _ count _ => .ok (rows.take count)
    | .order _ input orderBy _ => orderRows py orderBy (runtimeSchema py input) rows
    | .aggregate _ _ groupBy aggregates _ => aggregateRows py groupBy aggregates batchSize rows
    | .groupingSets _ _ sets aggregates _ =>
        groupingSetsRows py sets aggregates batchSize rows
    | .window _ input expressions _ => windowRows py expressions (runtimeSchema py input) rows
    -- the meaning of these does not ask the database
    | .scan .. | .filter .. | .join .. => .ok rows

end Operators

/-! ### Plans with the same rows -/

/-- The second plan has the rows of the first, where that has any, and its names. -/
structure Keeps (py : Python) (db : Database) (plan plan' : LogicalPlan) : Prop where
  names : plan'.runtimeNames py = plan.runtimeNames py
  schema : runtimeSchema py plan' = runtimeSchema py plan
  rows : ∀ rows, plan.rows py db = .ok rows → plan'.rows py db = .ok rows

namespace Keeps

variable {py : Python} {db : Database}

theorem refl (plan : LogicalPlan) : Keeps py db plan plan := ⟨rfl, rfl, fun _ h => h⟩

theorem trans {plan plan' plan'' : LogicalPlan} (h : Keeps py db plan plan')
    (h' : Keeps py db plan' plan'') : Keeps py db plan plan'' where
  names := h'.names.trans h.names
  schema := h'.schema.trans h.schema
  rows rows hrows := h'.rows rows (h.rows rows hrows)

/-- What is made of the rows of an input. -/
theorem bind_rows {input input' : LogicalPlan} (h : Keeps py db input input')
    {f : List Row → Except PyError (List Row)} {rows : List Row}
    (hrows : (input.rows py db >>= f) = .ok rows) : (input'.rows py db >>= f) = .ok rows := by
  obtain ⟨inputRows, hinput, hrows⟩ := ExceptState.bind_eq_ok hrows
  rw [h.rows inputRows hinput]
  exact hrows

variable {input input' : LogicalPlan} {nodeId : String} {schema schema' : Schema}

theorem filter (h : Keeps py db input input') (predicate : Expression) (phase : String) :
    Keeps py db (.filter nodeId input predicate schema phase)
      (.filter nodeId input' predicate schema' phase) where
  names := h.names
  schema := h.schema
  rows _ hrows := h.bind_rows hrows

theorem join {left left' right right' : LogicalPlan} (hleft : Keeps py db left left')
    (hright : Keeps py db right right') (joinType : JoinType) (condition : Expression)
    (inputLimit inputLimit' : Option ℕ) (buildSide : Side) :
    Keeps py db (.join nodeId left right joinType condition schema inputLimit buildSide)
      (.join nodeId left' right' joinType condition schema inputLimit' buildSide) where
  names := rfl
  schema := rfl
  rows rows hrows := by
    rw [LogicalPlan.rows] at hrows ⊢
    obtain ⟨leftRows, hleftRows, hrows⟩ := ExceptState.bind_eq_ok hrows
    obtain ⟨rightRows, hrightRows, hrows⟩ := ExceptState.bind_eq_ok hrows
    rw [hleft.rows leftRows hleftRows, hright.rows rightRows hrightRows, hleft.names, hright.names]
    exact hrows

section Local

variable {batchSize : ℕ}
  {scan : (tableName tableAlias : String) → Schema → Except PyError (List Row)}

theorem project (h : Keeps py (database py batchSize scan) input input')
    (expressions : List NamedExpression) :
    Keeps py (database py batchSize scan) (.project nodeId input expressions schema)
      (.project nodeId input' expressions schema) where
  names := rfl
  schema := rfl
  rows _ hrows := h.bind_rows hrows

theorem limit (h : Keeps py (database py batchSize scan) input input') (count : ℕ) :
    Keeps py (database py batchSize scan) (.limit nodeId input count schema)
      (.limit nodeId input' count schema') where
  names := h.names
  schema := h.schema
  rows _ hrows := h.bind_rows hrows

theorem order (h : Keeps py (database py batchSize scan) input input')
    (orderBy : List SortExpression) :
    Keeps py (database py batchSize scan) (.order nodeId input orderBy schema)
      (.order nodeId input' orderBy schema') where
  names := h.names
  schema := h.schema
  rows rows hrows := by
    have hop : ∀ rows, (database py batchSize scan).operator (.order nodeId input' orderBy schema')
        rows = (database py batchSize scan).operator (.order nodeId input orderBy schema) rows := by
      intro rows
      show orderRows py orderBy _ rows = orderRows py orderBy _ rows
      rw [h.schema]
    rw [LogicalPlan.rows, funext hop]
    exact h.bind_rows hrows

theorem aggregate (h : Keeps py (database py batchSize scan) input input')
    (groupBy : List Expression) (aggregates : List NamedExpression) :
    Keeps py (database py batchSize scan) (.aggregate nodeId input groupBy aggregates schema)
      (.aggregate nodeId input' groupBy aggregates schema) where
  names := rfl
  schema := rfl
  rows _ hrows := h.bind_rows hrows

theorem groupingSets (h : Keeps py (database py batchSize scan) input input')
    (sets : List (List Expression)) (aggregates : List NamedExpression) :
    Keeps py (database py batchSize scan) (.groupingSets nodeId input sets aggregates schema)
      (.groupingSets nodeId input' sets aggregates schema) where
  names := rfl
  schema := rfl
  rows _ hrows := h.bind_rows hrows

theorem window (h : Keeps py (database py batchSize scan) input input')
    (expressions : List NamedExpression) :
    Keeps py (database py batchSize scan) (.window nodeId input expressions schema)
      (.window nodeId input' expressions schema) where
  names := by rw [LogicalPlan.runtimeNames, LogicalPlan.runtimeNames, h.names]
  schema := by rw [runtimeSchema, runtimeSchema, h.schema]
  rows rows hrows := by
    have hop : ∀ rows,
        (database py batchSize scan).operator (.window nodeId input' expressions schema) rows =
          (database py batchSize scan).operator (.window nodeId input expressions schema)
            rows := by
      intro rows
      show windowRows py expressions _ rows = windowRows py expressions _ rows
      rw [h.schema]
    rw [LogicalPlan.rows, funext hop]
    exact h.bind_rows hrows

end Local

end Keeps

end LocalExecutor

end DistributedSql

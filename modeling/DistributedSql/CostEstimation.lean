/-
The cost model (`CostModel` in `optimizer/cost.py`), over exact rationals.

Estimates of rows, sizes, columns and costs flow from the scans up.  Every division is a
call that raises on zero, and every selectivity comes with its evidence.  The base-two
logarithm is a parameter.

Main definitions:
* `Estimator.selectivity` — `_selectivity`;
* `Estimator.estimate` — `estimate`, for every kind of plan.
-/
import DistributedSql.JoinKeys
import DistributedSql.PartitionMetadata
import DistributedSql.Dict

namespace DistributedSql

/-! ### Estimates -/

/-- `ColumnEstimate`. -/
structure ColumnEstimate where
  nullFraction : ℚ
  distinctCount : ℚ
  minValue : Option StatisticValue
  maxValue : Option StatisticValue
  averageSizeBytes : ℚ
  sources : List String

/-- `Cost`. -/
structure Cost where
  cpu : ℚ := 0
  network : ℚ := 0
  memory : ℚ := 0
  disk : ℚ := 0

instance : Add Cost where
  add left right := ⟨left.cpu + right.cpu, left.network + right.network,
    left.memory + right.memory, left.disk + right.disk⟩

/-- `Cost.total`. -/
def Cost.total (cost : Cost) : ℚ :=
  cost.cpu + cost.network * 4 + cost.memory * (1 / 20) + cost.disk * 8

/-- `PlanEstimate`, with all its fields; the sources are a set. -/
structure CostedEstimate extends PlanEstimate where
  rowCount : ℚ
  columns : Dict String ColumnEstimate
  cost : Cost
  sources : List String

/-- `CostModel`, with the catalog by casefolded names and what the constructor checks. -/
structure Estimator extends CostModel where
  catalog : Dict String CatalogTable
  worker_pos : 1 ≤ workerCount
  memory_pos : 1 ≤ memoryBudgetBytes

/-- Division of floats. -/
def divide (left right : ℚ) : Except PyError ℚ :=
  if right = 0 then .error (.arithmeticError "float division by zero") else .ok (left / right)

/-- `_type_width`. -/
def typeWidth : DataType → ℚ
  | .boolean => 1
  | .int32 | .float32 | .date => 4
  | .int64 | .float64 | .decimal | .timestamp => 8
  | .binary => 32
  | .list | .struct => 64
  | _ => 24

/-- `_row_width`. -/
def rowWidth (schema : Schema) : ℚ := max (schema.map fun field => typeWidth field.dataType).sum 1

/-! ### Scans -/

/-- `DEFAULT_ROW_COUNT`. -/
def defaultRowCount : ℚ := 1000000

/-- `DEFAULT_NDV`. -/
def defaultNdv : ℚ := 100000

/-- `DEFAULT_NULL_FRACTION`. -/
def defaultNullFraction : ℚ := 1 / 10

/-- A number that all partitions of a table have, summed up. -/
def partitionTotal (table : CatalogTable) (count : Partition → Option ℕ) : Option ℕ :=
  if table.partitions ≠ [] ∧ table.partitions.all fun part => (count part).isSome then
    some (table.partitions.map fun part => (count part).getD 0).sum
  else none

/-- The rows of a table, and how they are known. -/
def tableRows (tableName : String) (table : CatalogTable) : ℚ × String :=
  match table.statistics.bind Statistics.rowCount, partitionTotal table Partition.rowCount with
  | some count, _ => (count, "catalog:" ++ tableName ++ ".row_count")
  | none, some count => (count, "partitions:" ++ tableName ++ ".row_count")
  | none, none => (defaultRowCount, "default:" ++ tableName ++ ".row_count=1000000")

/-- The statistics of a column. -/
def rawColumn (py : Python) (table : CatalogTable) (field : SchemaField) :
    Option ColumnStatistics :=
  table.statistics.bind fun statistics =>
    ((Dict.empty : Dict String ColumnStatistics).update
      (statistics.columns.map fun item => (py.casefold item.1, item.2))).get?
        (py.casefold field.name)

/-- The fraction of NULLs in a column, and how it is known. -/
def nullFraction (text : String) (rows : ℚ) (raw : Option ColumnStatistics) (field : SchemaField) :
    Except PyError (ℚ × String) :=
  match raw.bind ColumnStatistics.nullCount with
  | some count => do return (min (← divide count (max rows 1)) 1, "catalog:" ++ text ++ ".null_count")
  | none =>
      .ok (if field.nullable then defaultNullFraction else 0, "default:" ++ text ++ ".null_fraction")

/-- The number of distinct values in a column, and how it is known. -/
def distinctCount (text : String) (rows fraction : ℚ) (raw : Option ColumnStatistics) :
    ℚ × String :=
  match raw.bind ColumnStatistics.distinctCount with
  | some count => (min count (max (rows - rows * fraction) 0), "catalog:" ++ text ++ ".ndv")
  | none => (max (rows * (1 - fraction)) 0, "default:" ++ text ++ ".ndv")

/-- The estimate of a column in `_scan`. -/
def scanColumn (py : Python) (tableName : String) (table : CatalogTable) (field : SchemaField) :
    Except PyError ColumnEstimate := do
  let rows := (tableRows tableName table).1
  let raw := rawColumn py table field
  let text := tableName ++ "." ++ field.name
  let (fraction, nullSource) ← nullFraction text rows raw field
  let (ndv, ndvSource) := distinctCount text rows fraction raw
  let width := raw.bind ColumnStatistics.averageSizeBytes
  return {
    nullFraction := fraction
    distinctCount := ndv
    minValue := raw.bind ColumnStatistics.minValue
    maxValue := raw.bind ColumnStatistics.maxValue
    averageSizeBytes := match width with
      | some size => size
      | none => typeWidth field.dataType
    sources := nullSource :: ndvSource ::
      (if width.isNone then ["default:" ++ text ++ ".width"] else []) }

/-- The size of a table, and how it is known. -/
def tableSize (tableName : String) (table : CatalogTable) (rows : ℚ)
    (columns : List ColumnEstimate) : ℚ × String :=
  match table.statistics.bind Statistics.sizeBytes, partitionTotal table Partition.sizeBytes with
  | some size, _ => (size, "catalog:" ++ tableName ++ ".size_bytes")
  | none, some size => (size, "partitions:" ++ tableName ++ ".size_bytes")
  | none, none =>
      (rows * (columns.map ColumnEstimate.averageSizeBytes).sum,
        "default:" ++ tableName ++ ".size_bytes")

/-- The key of a scanned column. -/
def scanKey (py : Python) (tableAlias : String) (field : SchemaField) : String :=
  py.casefold (tableAlias ++ "." ++ field.name)

/-- `CostModel._scan`. -/
def Estimator.scan (py : Python) (model : Estimator) (tableName tableAlias : String)
    (schema : Schema) : Except PyError CostedEstimate :=
  match model.catalog.get? (py.casefold tableName) with
  | none =>
      .error (.valueError ("No Catalog table is registered for " ++ strRepr tableName ++ "."))
  | some table => do
      let columns ← schema.mapM fun field => do
        return (scanKey py tableAlias field, ← scanColumn py tableName table field)
      let estimates := (Dict.empty : Dict String ColumnEstimate).update columns
      let (rows, rowSource) := tableRows tableName table
      let (size, sizeSource) := tableSize tableName table rows estimates.values
      return {
        rowCount := rows
        sizeBytes := size
        columns := estimates
        cost := { cpu := rows * (1 / 10), disk := size }
        sources := (table.statistics.map fun s => "statistics_source:" ++ s.source).toList
          ++ rowSource :: sizeSource :: columns.flatMap fun column => column.2.sources
        distribution := table.distribution py tableAlias }

/-! ### Selectivities -/

/-- `_column_estimate` in what the names have. -/
def lookupColumn {α : Type} (py : Python) (get : String → Option α) (name source : String) :
    Option α :=
  (get (py.casefold (Expression.qualifiedName name source))).or (get (py.casefold name))

/-- `_column_estimate`. -/
def columnEstimate {α : Type} (py : Python) (get : String → Option α) : Expression → Option α
  | .column name source _ => lookupColumn py get name source
  | _ => none

/-- `_uses_default_ndv`. -/
def usesDefaultNdv (column : ColumnEstimate) : Bool :=
  column.sources.any fun source => source.endsWith ".ndv" && source.startsWith "default:"

def stripCast : Expression → Expression
  | .cast expression _ _ => expression
  | expression => expression

/-- `reversed_operators`. -/
def reversedOperator : BinaryOperator → BinaryOperator
  | .lessThan => .greaterThan
  | .lessThanOrEqual => .greaterThanOrEqual
  | .greaterThan => .lessThan
  | .greaterThanOrEqual => .lessThanOrEqual
  | operator => operator

/-- `_column_literal`. -/
def columnLiteral (operator : BinaryOperator) (left right : Expression) :
    Option (Expression × SQLValue × BinaryOperator) :=
  match stripCast left, stripCast right with
  | .column name source type, .literal value _ => some (.column name source type, value, operator)
  | .literal value _, .column name source type =>
      some (.column name source type, value, reversedOperator operator)
  | _, _ => none

/-- `min(max((float(value) - minimum) / (maximum - minimum), 0.0), 1.0)`; no literal is a NaN. -/
def rangeFraction (value : Number) (minimum maximum : ℚ) : Except PyError ℚ :=
  match value with
  | .finite value => do return min (max (← divide (value - minimum) (maximum - minimum)) 0) 1
  | .infinity negative => .ok (if negative then 0 else 1)
  | .nan => .ok 0

/-- The number that an `int` or a `float` is. -/
def SQLValue.intOrFloat : SQLValue → Option Number
  | .float x => some x.number
  | value => value.asInt?.map fun i => .finite i

/-- `_range_selectivity`. -/
def rangeSelectivity (operator : BinaryOperator) (value : SQLValue) (column : ColumnEstimate) :
    Except PyError (Option ℚ) :=
  if operator ∉ [.lessThan, .lessThanOrEqual, .greaterThan, .greaterThanOrEqual] then .ok none
  else
    match column.minValue, column.maxValue, value.intOrFloat with
    | some (.number minimum), some (.number maximum), some value =>
        if maximum ≤ minimum then .ok none
        else do
          let fraction ← rangeFraction value minimum maximum
          return some (if operator ∈ [.greaterThan, .greaterThanOrEqual] then 1 - fraction
            else fraction)
    | _, _, _ => .ok none

/-- The selectivity of a comparison of a column with a literal. -/
def literalSelectivity (operator : BinaryOperator) (value : SQLValue) (column : ColumnEstimate) :
    Except PyError (ℚ × String) := do
  let nonNull := 1 - column.nullFraction
  match operator with
  | .equal =>
      if usesDefaultNdv column then return (nonNull * (1 / 10), "default:equality_selectivity=0.1")
      return (← divide nonNull (max column.distinctCount 1), "column_ndv")
  | .notEqual =>
      if usesDefaultNdv column then return (nonNull * (9 / 10), "default:inequality_selectivity=0.9")
      return (nonNull * (1 - (← divide 1 (max column.distinctCount 1))), "column_ndv")
  | operator =>
      match ← rangeSelectivity operator value column with
      | some ranged => return (nonNull * ranged, "column_min_max")
      | none => return (nonNull * (1 / 2), "default:range_selectivity=0.5")

/-- The last line of `_selectivity`. -/
def defaultSelectivity : ℚ × String := (1 / 2, "default:filter_selectivity=0.5")

/-- The two columns of an equality that has just two. -/
def equalityColumns (operator : BinaryOperator) (left right : Expression) :
    Option ((String × String) × String × String) :=
  match operator, left.columns ++ right.columns with
  | .equal, [first, second] => some (first, second)
  | _, _ => none

/-- What is known of the two columns of an equality, where both are known. -/
def equalityEstimates {α : Type} (py : Python) (get : String → Option α)
    (operator : BinaryOperator) (left right : Expression) : Option (α × α) :=
  (equalityColumns operator left right).bind fun columns =>
    (lookupColumn py get columns.1.1 columns.1.2).bind fun first =>
      (lookupColumn py get columns.2.1 columns.2.2).map fun second => (first, second)

/-- `_selectivity` on the operators other than AND and OR. -/
def binarySelectivity (py : Python) (estimate : CostedEstimate) (operator : BinaryOperator)
    (left right : Expression) : Except PyError (ℚ × String) :=
  let known := (columnLiteral operator left right).bind fun pair =>
    (columnEstimate py estimate.columns.get? pair.1).map fun column => (column, pair.2)
  match known with
  | some (column, value, operator) => literalSelectivity operator value column
  | none =>
      match equalityEstimates py estimate.columns.get? operator left right with
      | some (first, second) => do
          return (← divide 1 (max first.distinctCount second.distinctCount), "column_ndv")
      | none => .ok defaultSelectivity

/-- `CostModel._selectivity`. -/
def selectivity (py : Python) (estimate : CostedEstimate) : Expression → Except PyError (ℚ × String)
  | .binary .and left right _ => do
      let (left, leftSource) ← selectivity py estimate left
      let (right, rightSource) ← selectivity py estimate right
      return (left * right, "derived:and(" ++ leftSource ++ "," ++ rightSource ++ ")")
  | .binary .or left right _ => do
      let (left, leftSource) ← selectivity py estimate left
      let (right, rightSource) ← selectivity py estimate right
      return (left + right - left * right,
        "derived:or(" ++ leftSource ++ "," ++ rightSource ++ ")")
  | .binary operator left right _ => binarySelectivity py estimate operator left right
  | .isNull expression negated =>
      match columnEstimate py estimate.columns.get? expression with
      | some column =>
          .ok (if negated then 1 - column.nullFraction else column.nullFraction,
            "column_null_count")
      | none => .ok defaultSelectivity
  | .inList expression options _ =>
      match columnEstimate py estimate.columns.get? expression with
      | some column => do
          let selected ← divide options.length (max column.distinctCount 1)
          return (min selected 1 * (1 - column.nullFraction), "column_ndv")
      | none => .ok defaultSelectivity
  | .between _ _ _ _ => .ok (1 / 4, "default:between_selectivity=0.25")
  | .like _ _ _ => .ok (1 / 5, "default:like_selectivity=0.2")
  | .literal value _ => .ok (if value = .bool true then 1 else 0, "literal")
  | _ => .ok defaultSelectivity

/-! ### Operators -/

/-- `rows / child.row_count if child.row_count else 0.0`. -/
def rowRatio (rows : ℚ) (child : CostedEstimate) : Except PyError ℚ :=
  if child.rowCount ≠ 0 then divide rows child.rowCount else .ok 0

/-- `CostModel._unary`. -/
def unaryEstimate (child : CostedEstimate) (rows : ℚ) (cost : Cost) : Except PyError CostedEstimate := do
  let ratio ← rowRatio rows child
  return { child with
    rowCount := rows
    sizeBytes := child.sizeBytes * ratio
    cost := child.cost + cost
    sources := child.sources ++ ["derived:unary"] }

/-- `CostModel._filter`. -/
def filterEstimate (py : Python) (child : CostedEstimate) (predicate : Expression) :
    Except PyError CostedEstimate := do
  let (selected, evidence) ← selectivity py child predicate
  let rows := min (max (child.rowCount * selected) 0) child.rowCount
  let ratio ← rowRatio rows child
  return { child with
    rowCount := rows
    sizeBytes := child.sizeBytes * ratio
    columns := child.columns.map fun _ column => { column with
      nullFraction := min column.nullFraction 1
      distinctCount := min column.distinctCount (max rows 1) }
    cost := child.cost + { cpu := child.rowCount }
    sources := child.sources ++ [evidence] }

/-- The columns that a projection passes on, under their new names. -/
def projectColumns {α : Type} (py : Python) (get : String → Option α)
    (expressions : List NamedExpression) : List (String × α) :=
  expressions.filterMap fun item =>
    (columnEstimate py get item.expression).map fun column => (py.casefold item.name, column)

/-- `CostModel._project`. -/
def projectEstimate (py : Python) (child : CostedEstimate) (expressions : List NamedExpression)
    (schema : Schema) : CostedEstimate :=
  { child with
    sizeBytes := child.rowCount * rowWidth schema
    columns := (Dict.empty : Dict String ColumnEstimate).update
      (projectColumns py child.columns.get? expressions)
    cost := child.cost + { cpu := child.rowCount * (1 / 5) }
    sources := child.sources ++ ["derived:project"] }

/-- `CostModel._group_count`. -/
def groupCount (py : Python) (expressions : List Expression) (child : CostedEstimate) : ℚ :=
  if expressions = [] then 1
  else if child.rowCount = 0 then 0
  else max (min (expressions.map fun expression =>
    match columnEstimate py child.columns.get? expression with
    | some column => column.distinctCount
    | none => defaultNdv).prod child.rowCount) 1

/-- `CostModel._aggregate`. -/
def aggregateEstimate (py : Python) (model : Estimator) (child : CostedEstimate)
    (groupBy : List Expression) (schema : Schema) : CostedEstimate :=
  let rows := groupCount py groupBy child
  let memory := rows * rowWidth schema
  { rowCount := rows
    sizeBytes := memory
    columns := Dict.empty
    cost := child.cost +
      { cpu := child.rowCount
        memory := min memory model.memoryBudgetBytes
        disk := max (memory - model.memoryBudgetBytes) 0 * 2 }
    sources := child.sources ++ ["derived:aggregate"] }

/-- `CostModel._grouping_sets`. -/
def groupingSetsEstimate (py : Python) (child : CostedEstimate)
    (groupingSets : List (List Expression)) (schema : Schema) : CostedEstimate :=
  let count : ℚ := (max groupingSets.length 1 : ℕ)
  let rows := min (child.rowCount * count) (groupingSets.map (groupCount py · child)).sum
  { rowCount := rows
    sizeBytes := rows * rowWidth schema
    columns := Dict.empty
    cost := child.cost + { cpu := child.rowCount * count }
    sources := child.sources ++ ["derived:grouping_sets"] }

/-! ### Joins -/

/-- The factor of a pair of keys in `_join_rows`. -/
def keySelectivity (py : Python) (left right : CostedEstimate) (key : String × String) :
    Except PyError ℚ :=
  match left.columns.get? (py.casefold key.1), right.columns.get? (py.casefold key.2) with
  | some leftColumn, some rightColumn =>
      if usesDefaultNdv leftColumn || usesDefaultNdv rightColumn then .ok (1 / 10)
      else divide ((1 - leftColumn.nullFraction) * (1 - rightColumn.nullFraction))
        (max (max leftColumn.distinctCount rightColumn.distinctCount) 1)
  | _, _ => .ok (1 / 10)

/-- The selectivity of `_join_rows`. -/
def joinSelectivity (py : Python) (left right : CostedEstimate) (keys : List (String × String)) :
    Except PyError ℚ :=
  if keys = [] then .ok (1 / 10)
  else keys.foldlM (fun selected key => do return selected * (← keySelectivity py left right key)) 1

/-- `CostModel._join_rows`. -/
def joinRowCount (py : Python) (joinType : JoinType) (left right : CostedEstimate)
    (keys : List (String × String)) : Except PyError ℚ := do
  let rows := left.rowCount * right.rowCount * (← joinSelectivity py left right keys)
  return max (match joinType with
    | .inner => rows
    | .left => max rows left.rowCount
    | .right => max rows right.rowCount
    | .full => max (max rows left.rowCount) right.rowCount) 0

/-- `CostModel.estimate_join`, the estimate. -/
def joinEstimate (py : Python) (model : Estimator) (joinType : JoinType) (schema : Schema)
    (left right : CostedEstimate) (keys : List (String × String)) :
    Except PyError CostedEstimate := do
  let (leftKeys, rightKeys) := (keys.map Prod.fst, keys.map Prod.snd)
  let rows ← joinRowCount py joinType left right keys
  let buildSide := if left.sizeBytes ≤ right.sizeBytes then Side.left else .right
  match model.joinStrategy py left.toPlanEstimate right.toPlanEstimate leftKeys rightKeys
      buildSide with
  | none => throw (.valueError "min() arg is an empty sequence")
  | some candidate =>
      let buildBytes := (Side.pick left right buildSide).sizeBytes
      let spill := max (buildBytes - model.memoryBudgetBytes) 0
      return {
        rowCount := rows
        sizeBytes := rows * rowWidth schema
        columns := left.columns.update right.columns.items
        cost := left.cost + right.cost +
          { cpu := left.rowCount + right.rowCount + rows
            network := candidate.network
            memory := min buildBytes model.memoryBudgetBytes
            disk := spill * 2 }
        sources := left.sources ++ right.sources ++ ["derived:join"]
        distribution := joinDistribution candidate.strategy left.toPlanEstimate
          right.toPlanEstimate leftKeys rightKeys model.workerCount }

/-! ### Plans -/

/-- `CostModel.estimate`. -/
def Estimator.estimate (py : Python) (log2 : ℚ → ℚ) (model : Estimator) :
    LogicalPlan → Except PyError CostedEstimate
  | .scan _ tableName tableAlias schema => model.scan py tableName tableAlias schema
  | .filter _ input predicate _ _ => do filterEstimate py (← model.estimate py log2 input) predicate
  | .project _ input expressions schema => do
      return projectEstimate py (← model.estimate py log2 input) expressions schema
  | .aggregate _ input groupBy _ schema => do
      return aggregateEstimate py model (← model.estimate py log2 input) groupBy schema
  | .groupingSets _ input sets _ schema => do
      return groupingSetsEstimate py (← model.estimate py log2 input) sets schema
  | .join _ left right joinType condition schema _ _ => do
      let leftEstimate ← model.estimate py log2 left
      let rightEstimate ← model.estimate py log2 right
      joinEstimate py model joinType schema leftEstimate rightEstimate
        (joinKeyNames py (left.sources py) (right.sources py) condition)
  | .limit _ input count _ => do
      let child ← model.estimate py log2 input
      let rows := min child.rowCount count
      unaryEstimate child rows { cpu := rows * (1 / 20) }
  | .order _ input _ _ => do
      let child ← model.estimate py log2 input
      let spill := max (child.sizeBytes - model.memoryBudgetBytes) 0
      unaryEstimate child child.rowCount
        { cpu := child.rowCount * max (log2 (max child.rowCount 1)) 1
          memory := min child.sizeBytes model.memoryBudgetBytes
          disk := spill * 2 }
  | .window _ input _ _ => do
      let child ← model.estimate py log2 input
      unaryEstimate child child.rowCount
        { cpu := child.rowCount, memory := min child.sizeBytes model.memoryBudgetBytes }

end DistributedSql

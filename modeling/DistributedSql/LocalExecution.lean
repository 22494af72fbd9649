/-
Batches on their way through the operators (`execution/operators.py`, `execution/engine.py`).

`LocalExecutor` makes operators of a plan, and each of these is an iterator of batches over
that of its input.  Projections and filters go batch by batch, a limit stops reading when it
has its rows, an aggregate over sorted rows gives its groups one at a time, and the other
operators read all their input first.  An operator also has rows to give one at a time,
whatever batches they come in.

Main results:
* `toExcept_sortedBatches` — the aggregate that gives its groups one at a time is the one that
  makes all its batches, where that raises nothing;
* `conveys_execute` — the batches of any operator hold the first of its rows, and all of them
  unless they end with an exception;
* `execute_rechunked` — of the same tables in other batches, and with another batch size, no
  row comes that does not come of one execution that ends without an exception;
* `LocalExecutor.execute_rows` — the batches that `LocalExecutor` makes of a plan without joins
  hold the rows of the plan, and without a limit they only end where the plan has rows.
-/
import DistributedSql.Generators
import DistributedSql.LocalOperators

namespace DistributedSql

open Generator

/-! ### Batches -/

/-- `batch.slice(0, count)`. -/
def RecordBatch.slice (batch : RecordBatch) (count : ℕ) : RecordBatch where
  names := batch.names
  rows := batch.rows.take count
  rows_names row hrow := batch.rows_names row (List.mem_of_mem_take hrow)
  rows_of_nil h := by rw [batch.rows_of_nil h, List.take_nil]

/-- `batch.rename_columns([rename(name) for name in batch.schema.names])`. -/
def RecordBatch.renameColumns (rename : String → String) (batch : RecordBatch) : RecordBatch where
  names := batch.names.map rename
  rows := batch.rows.map fun row => row.map fun item => (rename item.1, item.2)
  rows_names := by
    intro row hrow
    obtain ⟨own, hown, rfl⟩ := List.mem_map.mp hrow
    rw [← batch.rows_names own hown, Row.names, Row.names, List.map_map, List.map_map]
    rfl
  rows_of_nil h := by rw [batch.rows_of_nil (List.map_eq_nil_iff.mp h), List.map_nil]

/-- Rows that are stored under names, in batches of their own. -/
theorem allRows_batchesFromRows {batchSize : ℕ} (hsize : 0 < batchSize) (names : List String)
    (rows : List Row) :
    allRows (batchesFromRows rows names batchSize) = (RecordBatch.fromPylist rows names).rows := by
  by_cases hnames : names = []
  · rw [hnames, allRows_batchesFromRows_nil]
    rfl
  · rw [batchesFromRows_rows hnames hsize, RecordBatch.fromPylist_rows hnames]

theorem rows_fromPylist_append (names : List String) (rows rows' : List Row) :
    (RecordBatch.fromPylist (rows ++ rows') names).rows
      = (RecordBatch.fromPylist rows names).rows ++ (RecordBatch.fromPylist rows' names).rows := by
  by_cases hnames : names = []
  · rw [hnames]
    rfl
  · rw [RecordBatch.fromPylist_rows hnames, RecordBatch.fromPylist_rows hnames,
      RecordBatch.fromPylist_rows hnames, List.map_append]

/-! ### Operators -/

/-- The operators that `LocalExecutor` makes of a plan without joins. -/
inductive BatchOperator
  | scan (tableName tableAlias : String) (projection : List String)
  | project (input : BatchOperator) (expressions : List NamedExpression) (names : List String)
  | filter (input : BatchOperator) (predicate : Expression)
  | limit (input : BatchOperator) (count : ℕ)
  | order (input : BatchOperator) (orderBy : List SortExpression) (names : List String)
  | hashAggregate (input : BatchOperator) (groupBy : List Expression)
      (aggregates : List NamedExpression)
  | sortAggregate (input : BatchOperator) (groupBy : List Expression)
      (aggregates : List NamedExpression)
  | groupingSets (input : BatchOperator) (sets : List (List Expression))
      (aggregates : List NamedExpression)
  | window (input : BatchOperator) (expressions : List NamedExpression) (names : List String)

namespace BatchOperator

section Operators

variable (py : Python) (batchSize : ℕ)

/-- What becomes of a batch in `ScanOperator`. -/
def scanBatch (tableAlias : String) (batch : RecordBatch) : List RecordBatch :=
  let batch := if tableAlias = "" then batch
    else batch.renameColumns fun name => tableAlias ++ "." ++ name
  if batch.rows.isEmpty then [] else [batch]

/-- What becomes of a batch in `ProjectOperator`. -/
def projectBatch (expressions : List NamedExpression) (names : List String) (batch : RecordBatch) :
    Except PyError (List RecordBatch) := do
  let rows ← batch.rows.mapM (LocalExecutor.projectRow py expressions)
  return batchesFromRows rows names batchSize

/-- What becomes of a batch in `FilterOperator`. -/
def filterBatch (predicate : Expression) (batch : RecordBatch) :
    Except PyError (List RecordBatch) := do
  return batchesFromRows (← filterRows py predicate batch.rows) batch.names batchSize

/-- The loop of `LimitOperator`, which is left when no rows remain to be given. -/
def limitBatches (error : Option PyError) : ℕ → List RecordBatch → Generator PyError RecordBatch
  | 0, _ => ofList []
  | _ + 1, [] => ⟨[], error⟩
  | remaining + 1, batch :: rest =>
      let output := batch.slice (remaining + 1)
      yieldedAll (if output.rows.isEmpty then [] else [output])
        (limitBatches error (remaining + 1 - output.rows.length) rest)

/-- Rows that come one at a time, in batches.  Those that wait for their batch to be full are
lost when an exception comes. -/
def collectBatches (names : List String) (error : Option PyError) :
    List Row → List Row → Generator PyError RecordBatch
  | waiting, [] =>
      match error with
      | some e => raised e
      | none => ofList (batchesFromRows waiting names batchSize)
  | waiting, row :: rest =>
      if waiting.length + 1 < batchSize then
        collectBatches names error (waiting ++ [row]) rest
      else
        yieldedAll (batchesFromRows (waiting ++ [row]) names batchSize)
          (collectBatches names error [] rest)

section Groups

variable (groupBy : List Expression) (aggregates : List NamedExpression)

/-- The row of the group before a row with this key, if the group is at its end. -/
def endedGroup (key : List SQLValue) :
    Option AggregateGroup → Except PyError (List Row × Option AggregateGroup)
  | none => .ok ([], none)
  | some group =>
      if tupleEq key group.1 then .ok ([], some group)
      else do return ([← finishGroup py groupBy aggregates group], none)

/-- The group with one more row. -/
def addRow (key : List SQLValue) (row : Row) (group : Option AggregateGroup) :
    Except PyError AggregateGroup := do
  let group ← match group with
    | some group => pure group
    | none => do pure (key, ← newStates aggregates)
  return (group.1, ← group.2.mapM (AggregateState.add py row))

/-- The rows of the groups of `SortAggregateOperator`, one at a time. -/
def groupRows : Option AggregateGroup → List Row → Generator PyError Row
  | none, [] => ofList []
  | some group, [] => ofExcept do return [← finishGroup py groupBy aggregates group]
  | group, row :: rest =>
      after (Expression.evaluateAll py row groupBy) fun key =>
        after (endedGroup py groupBy aggregates key group) fun ended =>
          yieldedAll ended.1
            (after (addRow py aggregates key row ended.2) fun group => groupRows (some group) rest)

/-- `SortAggregateOperator.execute` after the sort. -/
def sortedBatches (rows : List Row) : Generator PyError RecordBatch :=
  let groups := groupRows py groupBy aggregates none rows
  collectBatches batchSize (aggregateNames py groupBy aggregates) groups.error [] groups.items

/-- The order in which `SortAggregateOperator` reads its rows. -/
def groupOrder : List SortExpression :=
  groupBy.map fun expression => ⟨expression, true, false⟩

end Groups

/-- `execute` of an operator, where the scans give these batches. -/
def execute (scan : (tableName : String) → (projection : List String) →
    Generator PyError RecordBatch) : BatchOperator → Generator PyError RecordBatch
  | .scan tableName tableAlias projection =>
      (scan tableName projection).flatMap fun batch => .ok (scanBatch tableAlias batch)
  | .project input expressions names =>
      (input.execute scan).flatMap (projectBatch py batchSize expressions names)
  | .filter input predicate => (input.execute scan).flatMap (filterBatch py batchSize predicate)
  | .limit input count =>
      -- without rows to give the input is not even started
      let batches := input.execute scan
      limitBatches batches.error count batches.items
  | .order input orderBy names =>
      (input.execute scan).gather fun batches =>
        after (sortRows py orderBy (allRows batches)) fun rows =>
          collectBatches batchSize names none [] rows
  | .hashAggregate input groupBy aggregates =>
      (input.execute scan).gather fun batches =>
        ofExcept (DistributedSql.hashAggregate py groupBy aggregates batchSize (allRows batches))
  | .sortAggregate input groupBy aggregates =>
      (input.execute scan).gather fun batches =>
        after (sortRows py (groupOrder groupBy) (allRows batches)) fun rows =>
          sortedBatches py batchSize groupBy aggregates rows
  | .groupingSets input sets aggregates =>
      (input.execute scan).gather fun batches =>
        ofExcept (groupingSetsExecute py sets aggregates batchSize (allRows batches))
  | .window input expressions names =>
      (input.execute scan).gather fun batches => ofExcept do
        return batchesFromRows (← evaluateWindows py expressions (allRows batches)) names batchSize

/-! ### Rows -/

/-- A row under the names of an alias. -/
def aliasRow (tableAlias : String) (row : Row) : Row :=
  if tableAlias = "" then row else row.map fun item => (tableAlias ++ "." ++ item.1, item.2)

/-- Rows as they are stored under names. -/
def storeRows (names : List String) (rows : Generator PyError Row) : Generator PyError Row :=
  ⟨(RecordBatch.fromPylist rows.items names).rows, rows.error⟩

/-- The rows of the groups of `HashAggregateOperator`. -/
def hashRows (groupBy : List Expression) (aggregates : List NamedExpression) (rows : List Row) :
    Except PyError (List Row) := do
  (← hashGroups py groupBy aggregates rows).mapM (finishGroup py groupBy aggregates)

/-- The rows of the groups of `GroupingSetsOperator`. -/
def setRows (sets : List (List Expression)) (aggregates : List NamedExpression) (rows : List Row) :
    Except PyError (List Row) := do
  return (← sets.mapM (groupingSetRows py aggregates (uniqueExpressions py sets) rows)).flatten

/-- The rows of an operator, one at a time, where the scans give these rows. -/
def stream (scan : (tableName : String) → (projection : List String) → Generator PyError Row) :
    BatchOperator → Generator PyError Row
  | .scan tableName tableAlias projection =>
      (scan tableName projection).flatMap fun row => .ok [aliasRow tableAlias row]
  | .project input expressions names =>
      (input.stream scan).flatMap fun row => LocalExecutor.projectRows py expressions names [row]
  | .filter input predicate => (input.stream scan).flatMap fun row => filterRows py predicate [row]
  | .limit input count => (input.stream scan).take count
  | .order input orderBy names =>
      (input.stream scan).gather fun rows =>
        after (sortRows py orderBy rows) fun rows => storeRows names (ofList rows)
  | .hashAggregate input groupBy aggregates =>
      (input.stream scan).gather fun rows =>
        storeRows (aggregateNames py groupBy aggregates)
          (ofExcept (hashRows py groupBy aggregates rows))
  | .sortAggregate input groupBy aggregates =>
      (input.stream scan).gather fun rows =>
        after (sortRows py (groupOrder groupBy) rows) fun rows =>
          storeRows (aggregateNames py groupBy aggregates)
            (groupRows py groupBy aggregates none rows)
  | .groupingSets input sets aggregates =>
      (input.stream scan).gather fun rows =>
        storeRows (groupingSetsNames py sets aggregates)
          (ofExcept (setRows py sets aggregates rows))
  | .window input expressions names =>
      (input.stream scan).gather fun rows =>
        storeRows names (ofExcept (evaluateWindows py expressions rows))

end Operators

/-! ### Batches hold the rows -/

section Conveyed

variable {py : Python} {batchSize : ℕ}

/-- The rows of a batch as its schema holds them. -/
def Restricted (batch : RecordBatch) : Prop := ∀ row ∈ batch.rows, row.restrict batch.names = row

theorem restrict_restrict (names : List String) (row : Row) :
    (row.restrict names).restrict names = row.restrict names := by
  refine List.map_congr_left fun name hname => ?_
  rw [Row.get?_restrict, if_pos hname]
  rfl

theorem restricted_fromPylist (rows : List Row) (names : List String) :
    Restricted (RecordBatch.fromPylist rows names) := by
  intro row hrow
  by_cases hnames : names = []
  · rw [(RecordBatch.fromPylist rows names).rows_of_nil hnames] at hrow
    cases hrow
  · rw [RecordBatch.fromPylist_rows hnames] at hrow
    obtain ⟨own, -, rfl⟩ := List.mem_map.mp hrow
    exact restrict_restrict names own

theorem restricted_of_mem_batchesFromRows {rows : List Row} {names : List String}
    {batch : RecordBatch} (h : batch ∈ batchesFromRows rows names batchSize) :
    Restricted batch := by
  obtain ⟨chunk, -, rfl⟩ := List.mem_map.mp h
  exact restricted_fromPylist chunk names

/-- Rows that a batch holds are stored as they are. -/
theorem Restricted.fromPylist {batch : RecordBatch} (h : Restricted batch) {rows : List Row}
    (hrows : rows ⊆ batch.rows) : (RecordBatch.fromPylist rows batch.names).rows = rows := by
  by_cases hnames : batch.names = []
  · rw [batch.rows_of_nil hnames] at hrows
    rw [List.subset_nil.mp hrows, (RecordBatch.fromPylist [] batch.names).rows_of_nil hnames]
  · rw [RecordBatch.fromPylist_rows hnames, List.map_congr_left fun row hrow => h row (hrows hrow),
      List.map_id']

theorem rows_scanBatch (tableAlias : String) (batch : RecordBatch) :
    (scanBatch tableAlias batch).flatMap RecordBatch.rows
      = batch.rows.map (aliasRow tableAlias) := by
  have hrows : ∀ b : RecordBatch,
      (if b.rows.isEmpty then [] else [b]).flatMap RecordBatch.rows = b.rows := by
    intro b
    split
    · next hempty => exact (List.isEmpty_iff.mp hempty).symm
    · rw [List.flatMap_singleton]
  rw [scanBatch, hrows]
  by_cases halias : tableAlias = ""
  · rw [if_pos halias]
    refine (List.map_id'' (fun row => ?_) _).symm
    rw [aliasRow, if_pos halias]
  · rw [if_neg halias]
    refine List.map_congr_left fun row _ => ?_
    rw [aliasRow, if_neg halias]

theorem mapM_aliasRow (tableAlias : String) (rows : List Row) :
    (rows.mapM fun row => (.ok [aliasRow tableAlias row] : Except PyError (List Row))).map
      List.flatten = .ok (rows.map (aliasRow tableAlias)) := by
  rw [ExceptState.mapM_eq_ok (g := fun row => [aliasRow tableAlias row]) fun row _ => rfl]
  exact congrArg Except.ok List.map_eq_flatMap.symm

theorem scanBatch_rows (tableAlias : String) (batch : RecordBatch) :
    (Except.ok (scanBatch tableAlias batch) : Except PyError _).map (List.flatMap RecordBatch.rows)
      = (batch.rows.mapM fun row =>
          (.ok [aliasRow tableAlias row] : Except PyError (List Row))).map List.flatten := by
  rw [mapM_aliasRow]
  exact congrArg Except.ok (rows_scanBatch tableAlias batch)

/-- The rows of a projection, row by row. -/
theorem projectRows_eq_mapM (expressions : List NamedExpression) (names : List String)
    (rows : List Row) :
    LocalExecutor.projectRows py expressions names rows
      = (rows.mapM fun row =>
          LocalExecutor.projectRows py expressions names [row]).map List.flatten := by
  induction rows with
  | nil =>
    show Except.ok (RecordBatch.fromPylist [] names).rows = .ok []
    rw [RecordBatch.fromPylist]
    split <;> rfl
  | cons row rest ih =>
    rw [LocalExecutor.projectRows] at ih
    rw [List.mapM_cons, LocalExecutor.projectRows, LocalExecutor.projectRows, List.mapM_cons,
      List.mapM_cons]
    cases LocalExecutor.projectRow py expressions row with
    | error e => rfl
    | ok first =>
      show ((rest.mapM (LocalExecutor.projectRow py expressions) >>= _) >>= _) = _
      cases hrest : rest.mapM (LocalExecutor.projectRow py expressions) with
      | error e =>
        rw [hrest] at ih
        cases hparts : (rest.mapM fun row =>
            LocalExecutor.projectRows py expressions names [row]) with
        | error e' =>
          rw [hparts] at ih
          cases ih
          rfl
        | ok parts =>
          rw [hparts] at ih
          cases ih
      | ok others =>
        rw [hrest] at ih
        obtain ⟨parts, hparts, hflatten⟩ := ExceptState.map_eq_ok_iff.mp ih.symm
        show Except.ok (RecordBatch.fromPylist ([first] ++ others) names).rows = _
        rw [hparts, rows_fromPylist_append, hflatten]
        rfl

/-- The rows of a filter, row by row. -/
theorem filterRows_eq_mapM (predicate : Expression) (rows : List Row) :
    filterRows py predicate rows
      = (rows.mapM fun row => filterRows py predicate [row]).map List.flatten := by
  induction rows with
  | nil => rfl
  | cons row rest ih =>
    rw [List.mapM_cons, filterRows, filterRows, ih]
    cases predicate.evaluate py row with
    | error e => rfl
    | ok value =>
      show (Except.map _ _ >>= _) = Except.map _ (Except.ok _ >>= _)
      cases rest.mapM fun row => filterRows py predicate [row] with
      | error e => rfl
      | ok parts => by_cases htrue : value = .bool true <;> simp [htrue, Except.map,
          ExceptState.ok_bind, pure, Except.pure]

theorem filterRows_subset {predicate : Expression} {rows kept : List Row}
    (h : filterRows py predicate rows = .ok kept) : kept ⊆ rows := by
  rw [filterRows_eq (evaluates_of_filterRows h)] at h
  cases h
  exact List.filter_subset_self _

/-- A batch of a projection holds the rows of the projection. -/
theorem rows_projectBatch (hsize : 0 < batchSize) (expressions : List NamedExpression)
    (names : List String) (batch : RecordBatch) :
    (projectBatch py batchSize expressions names batch).map (List.flatMap RecordBatch.rows)
      = (batch.rows.mapM fun row =>
          LocalExecutor.projectRows py expressions names [row]).map List.flatten := by
  rw [← projectRows_eq_mapM, projectBatch, LocalExecutor.projectRows]
  cases batch.rows.mapM (LocalExecutor.projectRow py expressions) with
  | error e => rfl
  | ok rows => exact congrArg Except.ok (allRows_batchesFromRows hsize names rows)

theorem rows_filterBatch (hsize : 0 < batchSize) (predicate : Expression) {batch : RecordBatch}
    (h : Restricted batch) :
    (filterBatch py batchSize predicate batch).map (List.flatMap RecordBatch.rows)
      = (batch.rows.mapM fun row => filterRows py predicate [row]).map List.flatten := by
  rw [← filterRows_eq_mapM, filterBatch]
  cases hkept : filterRows py predicate batch.rows with
  | error e => rfl
  | ok kept =>
    refine congrArg Except.ok ((allRows_batchesFromRows hsize batch.names kept).trans ?_)
    exact h.fromPylist (filterRows_subset hkept)

/-- A limit conveys the first rows, from batches that hold the first of all rows. -/
theorem conveys_limitBatches {error error' : Option PyError} {batches : List RecordBatch}
    {count : ℕ} {rows : List Row} (hinitial : allRows batches <+: rows)
    (hended : error = none → rows = allRows batches ∧ error' = none) :
    Conveys RecordBatch.rows (limitBatches error count batches)
      ⟨rows.take count, if count ≤ rows.length then none else error'⟩ := by
  induction batches generalizing count rows with
  | nil =>
    constructor
    · cases count <;> exact List.nil_prefix
    · intro h
      cases count with
      | zero => rw [if_pos (Nat.zero_le _)]; rfl
      | succ remaining =>
        have h' : error = none := h
        obtain ⟨rfl, rfl⟩ := hended h'
        rfl
  | cons batch rest ih =>
    cases count with
    | zero =>
      rw [if_pos (Nat.zero_le _)]
      exact Conveys.ofList []
    | succ remaining =>
      -- the rows behind those of the batch
      obtain ⟨more, rfl⟩ := hinitial
      rw [allRows_cons, List.append_assoc] at hended ⊢
      have hrest := @ih (remaining + 1 - (batch.rows.take (remaining + 1)).length)
        (allRows rest ++ more) (List.prefix_append _ _) fun h =>
          ⟨List.append_cancel_left (hended h).1, (hended h).2⟩
      have hgiven : (if (batch.slice (remaining + 1)).rows.isEmpty then []
          else [batch.slice (remaining + 1)]).flatMap RecordBatch.rows
            = batch.rows.take (remaining + 1) := by
        split
        · next hempty => exact (List.isEmpty_iff.mp hempty).symm
        · exact List.flatMap_singleton RecordBatch.rows _
      have htake : (batch.rows ++ (allRows rest ++ more)).take (remaining + 1)
          = batch.rows.take (remaining + 1)
            ++ (allRows rest ++ more).take
              (remaining + 1 - (batch.rows.take (remaining + 1)).length) := by
        rw [List.take_append, List.length_take]
        congr 2
        omega
      have hlength : (remaining + 1 ≤ (batch.rows ++ (allRows rest ++ more)).length) ↔
          remaining + 1 - (batch.rows.take (remaining + 1)).length
            ≤ (allRows rest ++ more).length := by
        rw [List.length_append, List.length_take]
        omega
      have hstep := hrest.yieldedAll (if (batch.slice (remaining + 1)).rows.isEmpty then []
        else [batch.slice (remaining + 1)])
      rw [hgiven] at hstep
      rw [limitBatches, htake, if_congr hlength rfl rfl]
      exact hstep

/-- Rows that are collected in batches are conveyed as their schema stores them. -/
theorem conveys_collectBatches (hsize : 0 < batchSize) (names : List String)
    (error : Option PyError) (waiting rows : List Row) :
    Conveys RecordBatch.rows (collectBatches batchSize names error waiting rows)
      (storeRows names ⟨waiting ++ rows, error⟩) := by
  induction rows generalizing waiting with
  | nil =>
    rw [List.append_nil]
    cases error with
    | some e => exact Conveys.raised e
    | none =>
      rw [storeRows, ← allRows_batchesFromRows hsize names waiting]
      exact Conveys.ofList _
  | cons row rest ih =>
    rw [collectBatches]
    split
    · -- the batch is not full
      have hstep := ih (waiting ++ [row])
      rwa [List.append_assoc] at hstep
    · have hsplit : (RecordBatch.fromPylist (waiting ++ row :: rest) names).rows
          = allRows (batchesFromRows (waiting ++ [row]) names batchSize)
            ++ (RecordBatch.fromPylist rest names).rows := by
        rw [allRows_batchesFromRows hsize, ← rows_fromPylist_append, List.append_assoc]
        rfl
      rw [storeRows, hsplit]
      exact (ih []).yieldedAll _

/-- Rows that are there all at once. -/
theorem conveys_batchesFromRows (hsize : 0 < batchSize) (names : List String)
    (rows : Except PyError (List Row)) :
    Conveys RecordBatch.rows (ofExcept do return batchesFromRows (← rows) names batchSize)
      (storeRows names (ofExcept rows)) := by
  cases rows with
  | error e => exact Conveys.raised e
  | ok rows =>
    show Conveys _ _ (ofList (RecordBatch.fromPylist rows names).rows)
    rw [← allRows_batchesFromRows hsize names rows]
    exact Conveys.ofList _

theorem hashAggregate_eq_hashRows (groupBy : List Expression) (aggregates : List NamedExpression)
    (rows : List Row) :
    DistributedSql.hashAggregate py groupBy aggregates batchSize rows
      = (hashRows py groupBy aggregates rows >>= fun rows =>
          return batchesFromRows rows (aggregateNames py groupBy aggregates) batchSize) := by
  rw [DistributedSql.hashAggregate, hashRows]
  cases hashGroups py groupBy aggregates rows <;> rfl

theorem groupingSetsExecute_eq_setRows (sets : List (List Expression))
    (aggregates : List NamedExpression) (rows : List Row) :
    groupingSetsExecute py sets aggregates batchSize rows
      = (setRows py sets aggregates rows >>= fun rows =>
          return batchesFromRows rows (groupingSetsNames py sets aggregates) batchSize) := by
  rw [groupingSetsExecute, setRows]
  cases sets.mapM (groupingSetRows py aggregates (uniqueExpressions py sets) rows) <;> rfl

theorem restricted_of_mem_ofExcept {names : List String} {rows : Except PyError (List Row)}
    {batch : RecordBatch}
    (h : batch ∈ (ofExcept do return batchesFromRows (← rows) names batchSize).items) :
    Restricted batch := by
  cases rows with
  | error e => cases h
  | ok rows => exact restricted_of_mem_batchesFromRows h

/-! ### All batches of an operator -/

section Execution

variable {scan : (tableName : String) → (projection : List String) → Generator PyError RecordBatch}
  {scanRows : (tableName : String) → (projection : List String) → Generator PyError Row}

theorem restricted_renameColumns {batch : RecordBatch} (h : batch.names.Nodup)
    (tableAlias : String) :
    Restricted (batch.renameColumns fun name => tableAlias ++ "." ++ name) := by
  intro row hrow
  refine Row.restrict_self ((batch.renameColumns _).rows_names row hrow) (h.map ?_)
  intro name name' heq
  exact String.append_right_inj _ |>.mp heq

theorem restricted_of_nodup {batch : RecordBatch} (h : batch.names.Nodup) : Restricted batch :=
  fun row hrow => Row.restrict_self (batch.rows_names row hrow) h

theorem restricted_of_mem_scanBatch {batch output : RecordBatch} (h : batch.names.Nodup)
    {tableAlias : String} (hout : output ∈ scanBatch tableAlias batch) : Restricted output := by
  have hmem : ∀ b : RecordBatch, output ∈ (if b.rows.isEmpty then [] else [b]) → output = b := by
    intro b hb
    split at hb
    · cases hb
    · exact List.mem_singleton.mp hb
  rw [hmem _ hout]
  split
  · exact restricted_of_nodup h
  · exact restricted_renameColumns h tableAlias

theorem restricted_of_mem_limitBatches {error : Option PyError} {count : ℕ}
    {batches : List RecordBatch} (h : ∀ batch ∈ batches, Restricted batch) :
    ∀ batch ∈ (limitBatches error count batches).items, Restricted batch := by
  induction batches generalizing count with
  | nil => cases count <;> exact fun batch hbatch => absurd hbatch List.not_mem_nil
  | cons first rest ih =>
    obtain ⟨hfirst, hrest⟩ := List.forall_mem_cons.mp h
    cases count with
    | zero => exact fun batch hbatch => absurd hbatch List.not_mem_nil
    | succ remaining =>
      rw [limitBatches]
      intro batch hbatch
      rcases List.mem_append.mp hbatch with hbatch | hbatch
      · split at hbatch
        · cases hbatch
        · rw [List.mem_singleton.mp hbatch]
          exact fun row hrow => hfirst row (List.mem_of_mem_take hrow)
      · exact ih hrest batch hbatch

theorem restricted_of_mem_collectBatches {names : List String} {error : Option PyError}
    {waiting rows : List Row} :
    ∀ batch ∈ (collectBatches batchSize names error waiting rows).items, Restricted batch := by
  induction rows generalizing waiting with
  | nil =>
    cases error with
    | some e => exact fun batch hbatch => absurd hbatch List.not_mem_nil
    | none => exact fun batch hbatch => restricted_of_mem_batchesFromRows hbatch
  | cons row rest ih =>
    rw [collectBatches]
    split
    · exact ih
    · intro batch hbatch
      rcases List.mem_append.mp hbatch with hbatch | hbatch
      · exact restricted_of_mem_batchesFromRows hbatch
      · exact ih batch hbatch

/-- Where the batches of the tables have the columns of their schema once, so have all. -/
theorem restricted_execute
    (hscan : ∀ tableName projection, ∀ batch ∈ (scan tableName projection).items,
      batch.names.Nodup) (operator : BatchOperator) :
    ∀ batch ∈ (operator.execute py batchSize scan).items, Restricted batch := by
  cases operator with
  | scan tableName tableAlias projection =>
    intro batch hbatch
    obtain ⟨own, hown, outputs, houtputs, hmem⟩ := mem_flatMap hbatch
    cases houtputs
    exact restricted_of_mem_scanBatch (hscan tableName projection own hown) hmem
  | project input expressions names =>
    intro batch hbatch
    obtain ⟨own, -, outputs, houtputs, hmem⟩ := mem_flatMap hbatch
    obtain ⟨rows, -, hout⟩ := ExceptState.bind_eq_ok houtputs
    cases hout
    exact restricted_of_mem_batchesFromRows hmem
  | filter input predicate =>
    intro batch hbatch
    obtain ⟨own, -, outputs, houtputs, hmem⟩ := mem_flatMap hbatch
    obtain ⟨rows, -, hout⟩ := ExceptState.bind_eq_ok houtputs
    cases hout
    exact restricted_of_mem_batchesFromRows hmem
  | limit input count => exact restricted_of_mem_limitBatches (restricted_execute hscan input)
  | order input orderBy names =>
    intro batch hbatch
    obtain ⟨rows, -, hmem⟩ := mem_after (mem_gather hbatch)
    exact restricted_of_mem_collectBatches batch hmem
  | hashAggregate input groupBy aggregates =>
    intro batch hbatch
    have hmem := mem_gather hbatch
    rw [hashAggregate_eq_hashRows] at hmem
    exact restricted_of_mem_ofExcept hmem
  | sortAggregate input groupBy aggregates =>
    intro batch hbatch
    obtain ⟨rows, -, hmem⟩ := mem_after (mem_gather hbatch)
    exact restricted_of_mem_collectBatches batch hmem
  | groupingSets input sets aggregates =>
    intro batch hbatch
    have hmem := mem_gather hbatch
    rw [groupingSetsExecute_eq_setRows] at hmem
    exact restricted_of_mem_ofExcept hmem
  | window input expressions names =>
    intro batch hbatch
    exact restricted_of_mem_ofExcept (mem_gather hbatch)

/-- The batches of an operator convey its rows, whatever batches the tables come in. -/
theorem conveys_execute (hsize : 0 < batchSize)
    (hscan : ∀ tableName projection, ∀ batch ∈ (scan tableName projection).items,
      batch.names.Nodup)
    (hrows : ∀ tableName projection,
      Conveys RecordBatch.rows (scan tableName projection) (scanRows tableName projection))
    (operator : BatchOperator) :
    Conveys RecordBatch.rows (operator.execute py batchSize scan)
      (operator.stream py scanRows) := by
  induction operator with
  | scan tableName tableAlias projection =>
    exact (hrows tableName projection).flatMap fun batch _ => scanBatch_rows tableAlias batch
  | project input expressions names ih =>
    exact ih.flatMap fun batch _ => rows_projectBatch hsize expressions names batch
  | filter input predicate ih =>
    exact ih.flatMap fun batch hbatch =>
      rows_filterBatch hsize predicate (restricted_execute hscan input batch hbatch)
  | limit input count ih =>
    refine conveys_limitBatches ih.initial fun herror => ?_
    have hended := ih.ended herror
    exact ⟨congrArg Generator.items hended, congrArg Generator.error hended⟩
  | order input orderBy names ih =>
    exact ih.gather (Conveys.after fun rows => conveys_collectBatches hsize names none [] rows)
  | hashAggregate input groupBy aggregates ih =>
    refine ih.gather ?_
    rw [hashAggregate_eq_hashRows]
    exact conveys_batchesFromRows hsize _ _
  | sortAggregate input groupBy aggregates ih =>
    exact ih.gather (Conveys.after fun rows => conveys_collectBatches hsize _ _ [] _)
  | groupingSets input sets aggregates ih =>
    refine ih.gather ?_
    rw [groupingSetsExecute_eq_setRows]
    exact conveys_batchesFromRows hsize _ _
  | window input expressions names ih =>
    exact ih.gather (conveys_batchesFromRows hsize names _)

/-- The numbers of a table `t`, in batches. -/
def numberBatches (chunks : List (List ℤ)) : Generator PyError RecordBatch :=
  ofList (chunks.map fun values =>
    .fromPylist (values.map fun value => [("x", .int value)]) ["x"])

theorem nodup_numberBatches (chunks : List (List ℤ)) :
    ∀ batch ∈ (numberBatches chunks).items, batch.names.Nodup := by
  intro batch hbatch
  obtain ⟨values, -, rfl⟩ := List.mem_map.mp hbatch
  exact List.nodup_singleton "x"

end Execution

/-! ### Groups one at a time -/

section Groups

variable {groupBy : List Expression} {aggregates : List NamedExpression}

/-- The groups from here on, in batches after those that wait. -/
def collectedGroups (py : Python) (batchSize : ℕ) (groupBy : List Expression)
    (aggregates : List NamedExpression) (waiting : List Row) (groups : Generator PyError Row) :
    Except PyError (List RecordBatch) :=
  (collectBatches batchSize (aggregateNames py groupBy aggregates) groups.error waiting
    groups.items).toExcept

theorem collectedGroups_after {α : Type} (waiting : List Row) (x : Except PyError α)
    (f : α → Generator PyError Row) :
    collectedGroups py batchSize groupBy aggregates waiting (after x f)
      = x >>= fun a => collectedGroups py batchSize groupBy aggregates waiting (f a) := by
  cases x <;> rfl

/-- What a group at its end adds to the variables of the loop. -/
theorem collectedGroups_row (waiting : List Row) (row : Row) (rest : Generator PyError Row) :
    collectedGroups py batchSize groupBy aggregates waiting (yieldedAll [row] rest)
      = if batchSize ≤ (waiting ++ [row]).length then
          (collectedGroups py batchSize groupBy aggregates [] rest).map
            (batchesFromRows (waiting ++ [row]) (aggregateNames py groupBy aggregates)
              batchSize ++ ·)
        else collectedGroups py batchSize groupBy aggregates (waiting ++ [row]) rest := by
  rw [collectedGroups, yieldedAll]
  show (collectBatches _ _ _ waiting (row :: rest.items)).toExcept = _
  rw [collectBatches, apply_ite toExcept, toExcept_yieldedAll, List.length_append,
    List.length_singleton]
  by_cases hfull : batchSize ≤ waiting.length + 1
  · rw [if_neg hfull.not_gt, if_pos hfull]
    rfl
  · rw [if_pos (not_le.mp hfull), if_neg hfull]
    rfl

/-- The end of the rows: the last group is finished. -/
private theorem finishStream_eq (hsize : 0 < batchSize) (state : StreamState) :
    finishStream py groupBy aggregates batchSize state
      = (collectedGroups py batchSize groupBy aggregates state.outputRows
          (groupRows py groupBy aggregates state.group [])).map (state.emitted ++ ·) := by
  obtain ⟨group, outputRows, emitted⟩ := state
  rw [finishStream.eq_def]
  cases group with
  | none => rfl
  | some group =>
    rw [groupRows]
    dsimp only
    cases finishGroup py groupBy aggregates group with
    | error e => rfl
    | ok row =>
      show Except.ok (emitted ++ batchesFromRows (outputRows ++ [row]) _ batchSize)
        = Except.map _ (collectedGroups py batchSize groupBy aggregates outputRows
          (yieldedAll [row] (ofList [])))
      rw [collectedGroups_row]
      split
      · show _ = Except.ok (emitted ++ (batchesFromRows (outputRows ++ [row]) _ batchSize
          ++ batchesFromRows [] _ batchSize))
        rw [batchesFromRows, batchesFromRows, chunks_nil hsize, List.map_nil, List.append_nil]
      · rfl

/-- One more row, after the group before it is at its end. -/
private theorem addRow_eq {key : List SQLValue} {row : Row} {state : StreamState}
    (f : AggregateGroup → Except PyError (List RecordBatch)) :
    (openGroup aggregates key state >>= fun group =>
        group.2.mapM (AggregateState.add py row) >>= fun states => f (group.1, states))
      = addRow py aggregates key row state.group >>= f := by
  rw [openGroup.eq_def, addRow.eq_def]
  cases state.group with
  | none =>
    dsimp only
    cases newStates aggregates with
    | error e => rfl
    | ok new =>
      show (new.mapM (AggregateState.add py row) >>= _) = (new.mapM (AggregateState.add py row)
        >>= _) >>= _
      cases new.mapM (AggregateState.add py row) <;> rfl
  | some group =>
    show (group.2.mapM (AggregateState.add py row) >>= _)
      = (group.2.mapM (AggregateState.add py row) >>= _) >>= _
    cases group.2.mapM (AggregateState.add py row) <;> rfl

/-- The end of a group, where what is done next only depends on the variables of the loop. -/
private theorem endGroup_eq {key : List SQLValue} (state : StreamState)
    (next : StreamState → Except PyError (List RecordBatch))
    (rest : Option AggregateGroup → Generator PyError Row)
    (hnext : ∀ state, next state
      = (collectedGroups py batchSize groupBy aggregates state.outputRows (rest state.group)).map
          (state.emitted ++ ·)) :
    (endGroup py groupBy aggregates batchSize key state >>= next)
      = (collectedGroups py batchSize groupBy aggregates state.outputRows
          (after (endedGroup py groupBy aggregates key state.group) fun ended =>
            yieldedAll ended.1 (rest ended.2))).map (state.emitted ++ ·) := by
  obtain ⟨group, outputRows, emitted⟩ := state
  rw [endGroup.eq_def, endedGroup.eq_def]
  cases group with
  | none => exact hnext _
  | some group =>
    dsimp only
    by_cases hsame : tupleEq key group.1 = true
    · rw [if_pos hsame, if_pos hsame]
      exact hnext _
    · rw [if_neg hsame, if_neg hsame]
      cases finishGroup py groupBy aggregates group with
      | error e => rfl
      | ok finished =>
        show next (if batchSize ≤ (outputRows ++ [finished]).length then _ else _)
          = Except.map _ (collectedGroups _ _ _ _ _ (yieldedAll [finished] (rest none)))
        rw [collectedGroups_row]
        split
        · rw [hnext]
          show Except.map _ (collectedGroups _ _ _ _ [] (rest none)) = _
          cases collectedGroups py batchSize groupBy aggregates [] (rest none) with
          | error e => rfl
          | ok batches => exact congrArg Except.ok (List.append_assoc _ _ _)
        · exact hnext _

/-- The loop over the sorted rows, from where it stands. -/
private theorem streamGroups_eq (hsize : 0 < batchSize) (rows : List Row) (state : StreamState) :
    (streamGroups py groupBy aggregates batchSize rows state >>=
        finishStream py groupBy aggregates batchSize)
      = (collectedGroups py batchSize groupBy aggregates state.outputRows
          (groupRows py groupBy aggregates state.group rows)).map (state.emitted ++ ·) := by
  induction rows generalizing state with
  | nil => exact finishStream_eq hsize state
  | cons row rest ih =>
    rw [streamGroups, groupRows, collectedGroups_after]
    cases Expression.evaluateAll py row groupBy with
    | error e => rfl
    | ok key =>
      rw [ExceptState.ok_bind, ExceptState.ok_bind, bind_assoc]
      refine endGroup_eq state _ (fun group => after (addRow py aggregates key row group)
        fun group => groupRows py groupBy aggregates (some group) rest) fun next => ?_
      rw [collectedGroups_after, ← addRow_eq]
      cases openGroup aggregates key next with
      | error e => rfl
      | ok group =>
        show ((group.2.mapM (AggregateState.add py row) >>= _) >>= _)
          = Except.map _ (group.2.mapM (AggregateState.add py row) >>= _)
        cases group.2.mapM (AggregateState.add py row) with
        | error e => rfl
        | ok states => exact ih _

/-- The groups one at a time are those of the aggregate that makes all its batches. -/
theorem toExcept_sortedBatches (hsize : 0 < batchSize) (rows : List Row) :
    (sortedBatches py batchSize groupBy aggregates rows).toExcept
      = sortedAggregate py groupBy aggregates batchSize rows := by
  rw [sortedAggregate, streamGroups_eq hsize rows ⟨none, [], []⟩]
  show collectedGroups py batchSize groupBy aggregates [] _ = Except.map _ _
  cases collectedGroups py batchSize groupBy aggregates []
    (groupRows py groupBy aggregates none rows) <;> rfl

end Groups

/-! ### All rows of an operator -/

theorem error_collectBatches (names : List String) (error : Option PyError)
    (waiting rows : List Row) :
    (collectBatches batchSize names error waiting rows).error = error := by
  induction rows generalizing waiting with
  | nil => cases error <;> rfl
  | cons row rest ih =>
    rw [collectBatches]
    split
    · exact ih _
    · exact ih []

theorem error_limitBatches (count : ℕ) (batches : List RecordBatch) :
    (limitBatches none count batches).error = none := by
  induction batches generalizing count with
  | nil => cases count <;> rfl
  | cons batch rest ih =>
    cases count with
    | zero => rfl
    | succ remaining => exact ih _

/-- The rows of a limit over batches that end without an exception. -/
theorem limitBatches_rows (count : ℕ) (batches : List RecordBatch) :
    (limitBatches none count batches).toExcept.map allRows
      = .ok ((allRows batches).take count) := by
  have h : Conveys RecordBatch.rows (limitBatches none count batches)
      ⟨(allRows batches).take count, if count ≤ (allRows batches).length then none else none⟩ :=
    conveys_limitBatches List.prefix_rfl fun _ => ⟨rfl, rfl⟩
  rw [ite_self] at h
  exact h.toExcept_map (error_limitBatches count batches).symm

theorem collectBatches_rows (hsize : 0 < batchSize) (names : List String) (rows : List Row) :
    (collectBatches batchSize names none [] rows).toExcept.map allRows
      = .ok (RecordBatch.fromPylist rows names).rows :=
  (conveys_collectBatches hsize names none [] rows).toExcept_map (error_collectBatches ..).symm

/-- What is made of all rows together, where it only depends on the rows. -/
theorem gather_rows_iff {batches : Generator PyError RecordBatch}
    {f : List RecordBatch → Generator PyError RecordBatch}
    {g : List Row → Except PyError (List Row)}
    (hfg : ∀ items, (f items).toExcept.map allRows = g (allRows items)) {rows : List Row} :
    (batches.gather f).toExcept.map allRows = .ok rows ↔
      ∃ input, batches.toExcept.map allRows = .ok input ∧ g input = .ok rows := by
  constructor
  · intro h
    obtain ⟨outputs, houtputs, rfl⟩ := ExceptState.map_eq_ok_iff.mp h
    obtain ⟨items, hitems, hout⟩ := toExcept_gather_iff.mp houtputs
    exact ⟨allRows items, by rw [hitems]; rfl, by rw [← hfg items, hout]; rfl⟩
  · rintro ⟨input, hinput, hrows⟩
    obtain ⟨items, hitems, rfl⟩ := ExceptState.map_eq_ok_iff.mp hinput
    rw [← hfg items] at hrows
    obtain ⟨outputs, houtputs, rfl⟩ := ExceptState.map_eq_ok_iff.mp hrows
    exact ExceptState.map_eq_ok_iff.mpr
      ⟨outputs, toExcept_gather_iff.mpr ⟨items, hitems, houtputs⟩, rfl⟩

/-- What is made of the batches one by one, where it is made of their rows one by one. -/
theorem flatMap_rows_iff {batches : Generator PyError RecordBatch}
    {f : RecordBatch → Except PyError (List RecordBatch)} {g : Row → Except PyError (List Row)}
    {made : List Row → Except PyError (List Row)}
    (hmade : ∀ rows, made rows = (rows.mapM g).map List.flatten)
    (hfg : ∀ batch ∈ batches.items,
      (f batch).map (List.flatMap RecordBatch.rows) = (batch.rows.mapM g).map List.flatten)
    {rows : List Row} :
    (batches.flatMap f).toExcept.map allRows = .ok rows ↔
      ∃ input, batches.toExcept.map allRows = .ok input ∧ made input = .ok rows := by
  simp only [hmade]
  constructor
  · intro h
    obtain ⟨outputs, houtputs, rfl⟩ := ExceptState.map_eq_ok_iff.mp h
    obtain ⟨items, parts, hitems, hparts, rfl⟩ := toExcept_flatMap_iff.mp houtputs
    rw [toExcept_eq_ok.mp hitems] at hfg
    obtain ⟨made, hmade, hflatten⟩ := (mapM_batches_iff hfg).mp ⟨parts, hparts, rfl⟩
    exact ⟨allRows items, by rw [hitems]; rfl,
      ExceptState.map_eq_ok_iff.mpr ⟨made, hmade, hflatten.symm⟩⟩
  · rintro ⟨input, hinput, hrows⟩
    obtain ⟨items, hitems, rfl⟩ := ExceptState.map_eq_ok_iff.mp hinput
    obtain ⟨made, hmade, rfl⟩ := ExceptState.map_eq_ok_iff.mp hrows
    rw [toExcept_eq_ok.mp hitems] at hfg
    obtain ⟨parts, hparts, hflatten⟩ := (mapM_batches_iff hfg).mpr ⟨made, hmade, rfl⟩
    exact ExceptState.map_eq_ok_iff.mpr
      ⟨parts.flatten, toExcept_flatMap_iff.mpr ⟨items, parts, hitems, hparts, rfl⟩, hflatten.symm⟩

end Conveyed

end BatchOperator

/-! ### The executor -/

/-- What `LocalExecutor` knows of tables. -/
structure LocalExecutor where
  /-- `_table` and `for_table`, which raise for a table that they do not know -/
  findTable : (tableName : String) → Except PyError Unit
  /-- `scan` of the table's data source -/
  scan : (tableName : String) → (projection : List String) → (batchSize : ℕ) →
    Generator PyError RecordBatch

namespace LocalExecutor

open BatchOperator

section Executor

variable (py : Python) (executor : LocalExecutor)

/-- `_build`, for plans without joins. -/
def build : LogicalPlan → Except PyError (Option BatchOperator)
  | .scan _ tableName tableAlias schema => do
      executor.findTable tableName
      return some (.scan tableName tableAlias schema.names)
  | .project _ input expressions schema => do
      return (← build input).map (.project · expressions schema.names)
  | .filter _ input predicate _ _ => do return (← build input).map (.filter · predicate)
  | .limit _ input count _ => do return (← build input).map (.limit · count)
  | .order _ input orderBy _ => do
      return (← build input).map (.order · orderBy (runtimeSchema py input))
  | .aggregate _ input groupBy aggregates _ =>
      if ¬(aggregateNames py groupBy aggregates).Nodup then
        .error (.valueError "schema field names must be unique")
      else do
        return (← build input).map fun input =>
          if groupBy.isEmpty then .hashAggregate input groupBy aggregates
          else .sortAggregate input groupBy aggregates
  | .groupingSets _ input sets aggregates _ => do
      let operator ← build input
      if ¬(groupingSetsNames py sets aggregates).Nodup then
        .error (.valueError "schema field names must be unique")
      else return operator.map (.groupingSets · sets aggregates)
  | .window _ input expressions _ => do
      return (← build input).map
        (.window · expressions (windowNames py expressions (runtimeSchema py input)))
  | .join _ _ _ _ _ _ _ _ => .ok none

/-- `execute`. -/
def execute (batchSize : ℕ) (plan : LogicalPlan) : Option (Generator PyError RecordBatch) :=
  match executor.build py plan with
  | .error e => some (raised e)
  | .ok operator => operator.map fun operator =>
      operator.execute py batchSize fun tableName projection =>
        executor.scan tableName projection batchSize

/-- The rows of a table under an alias. -/
def scanRows (batchSize : ℕ) (tableName tableAlias : String) (schema : Schema) :
    Except PyError (List Row) := do
  executor.findTable tableName
  let batches ← (executor.scan tableName schema.names batchSize).toExcept
  return (allRows batches).map (aliasRow tableAlias)

end Executor

/-- No limit stops reading before its input has ended. -/
def Unlimited : LogicalPlan → Prop
  | .scan .. => True
  | .limit .. => False
  | .project _ input _ _ => Unlimited input
  | .filter _ input _ _ _ => Unlimited input
  | .order _ input _ _ => Unlimited input
  | .aggregate _ input _ _ _ => Unlimited input
  | .groupingSets _ input _ _ _ => Unlimited input
  | .window _ input _ _ => Unlimited input
  | .join _ left right _ _ _ _ _ => Unlimited left ∧ Unlimited right

section Executed

variable {py : Python} {executor : LocalExecutor} {batchSize : ℕ}

/-- The batches of an operator hold the rows of a plan: wherever the plan has rows, and without
a limit only there. -/
def Executes (py : Python) (executor : LocalExecutor) (batchSize : ℕ) (plan : LogicalPlan)
    (operator : BatchOperator) : Prop :=
  ∀ rows,
    (plan.rows py (database py batchSize (executor.scanRows batchSize)) = .ok rows →
      (operator.execute py batchSize fun tableName projection =>
        executor.scan tableName projection batchSize).toExcept.map allRows = .ok rows) ∧
    (Unlimited plan →
      (operator.execute py batchSize fun tableName projection =>
        executor.scan tableName projection batchSize).toExcept.map allRows = .ok rows →
      plan.rows py (database py batchSize (executor.scanRows batchSize)) = .ok rows)

/-- An operator over an input, where both have the same rows of theirs. -/
theorem Executes.of_input {plan input : LogicalPlan} {operator inputOperator : BatchOperator}
    (h : Executes py executor batchSize input inputOperator)
    (hunlimited : Unlimited plan → Unlimited input) {f : List Row → Except PyError (List Row)}
    (hplan : plan.rows py (database py batchSize (executor.scanRows batchSize))
      = input.rows py (database py batchSize (executor.scanRows batchSize)) >>= f)
    (hoperator : ∀ rows,
      (operator.execute py batchSize fun tableName projection =>
        executor.scan tableName projection batchSize).toExcept.map allRows = .ok rows ↔
      ∃ inputRows, (inputOperator.execute py batchSize fun tableName projection =>
        executor.scan tableName projection batchSize).toExcept.map allRows = .ok inputRows ∧
          f inputRows = .ok rows) :
    Executes py executor batchSize plan operator := by
  intro rows
  rw [hplan, hoperator]
  constructor
  · intro hrows
    obtain ⟨inputRows, hinput, hrows⟩ := ExceptState.bind_eq_ok hrows
    exact ⟨inputRows, (h inputRows).1 hinput, hrows⟩
  · rintro hplain ⟨inputRows, hinput, hrows⟩
    exact ExceptState.bind_eq_ok_iff.mpr
      ⟨inputRows, (h inputRows).2 (hunlimited hplain) hinput, hrows⟩

theorem aggregateRows_eq {groupBy : List Expression} {aggregates : List NamedExpression}
    (hnodup : ¬¬(aggregateNames py groupBy aggregates).Nodup) (rows : List Row) :
    aggregateRows py groupBy aggregates batchSize rows
      = if groupBy.isEmpty then (hashAggregate py groupBy aggregates batchSize rows).map allRows
        else (sortRows py (groupOrder groupBy) rows >>=
          sortedAggregate py groupBy aggregates batchSize).map allRows := by
  rw [aggregateRows, if_neg hnodup]
  split
  · rfl
  · show (sortRows py (groupOrder groupBy) rows >>= _) = _
    cases sortRows py (groupOrder groupBy) rows with
    | error e => rfl
    | ok sorted =>
      show (sortedAggregate py groupBy aggregates batchSize sorted >>= _)
        = (sortedAggregate py groupBy aggregates batchSize sorted).map allRows
      cases sortedAggregate py groupBy aggregates batchSize sorted <;> rfl

theorem executes_scan (nodeId : String) {tableName tableAlias : String} {schema : Schema}
    (hfind : executor.findTable tableName = .ok ()) :
    Executes py executor batchSize (.scan nodeId tableName tableAlias schema)
      (.scan tableName tableAlias schema.names) := by
  have hrows : (LogicalPlan.scan nodeId tableName tableAlias schema).rows py
      (database py batchSize (executor.scanRows batchSize))
        = (executor.scan tableName schema.names batchSize).toExcept.map fun batches =>
          (allRows batches).map (aliasRow tableAlias) := by
    show (executor.findTable tableName >>= _) = _
    rw [hfind]
    cases (executor.scan tableName schema.names batchSize).toExcept <;> rfl
  intro rows
  rw [hrows, BatchOperator.execute,
    flatMap_rows_iff (fun rows => (mapM_aliasRow tableAlias rows).symm)
      fun batch _ => scanBatch_rows tableAlias batch]
  constructor
  · intro hmade
    obtain ⟨batches, hbatches, rfl⟩ := ExceptState.map_eq_ok_iff.mp hmade
    exact ⟨allRows batches, by rw [hbatches]; rfl, rfl⟩
  · rintro - ⟨input, hinput, hmade⟩
    obtain ⟨batches, hbatches, rfl⟩ := ExceptState.map_eq_ok_iff.mp hinput
    rw [hbatches]
    exact hmade

/-- Where the batches of all tables have the columns of their schema once, the operator that is
made of a plan executes it. -/
theorem executes_build (hsize : 0 < batchSize)
    (hscan : ∀ tableName projection, ∀ batch ∈ (executor.scan tableName projection batchSize).items,
      batch.names.Nodup) {plan : LogicalPlan} {operator : BatchOperator}
    (h : executor.build py plan = .ok (some operator)) :
    Executes py executor batchSize plan operator := by
  have hrestricted : ∀ operator : BatchOperator,
      ∀ batch ∈ (operator.execute py batchSize fun tableName projection =>
        executor.scan tableName projection batchSize).items, Restricted batch :=
    restricted_execute hscan
  induction plan generalizing operator with
  | scan nodeId tableName tableAlias schema =>
    obtain ⟨_, hfind, hsome⟩ := ExceptState.bind_eq_ok h
    cases hsome
    exact executes_scan nodeId hfind
  | project nodeId input expressions schema ih =>
    obtain ⟨operators, hinput, hsome⟩ := ExceptState.bind_eq_ok h
    obtain ⟨inputOperator, rfl, rfl⟩ := Option.map_eq_some_iff.mp (Except.ok.inj hsome)
    exact (ih hinput).of_input id rfl fun rows => flatMap_rows_iff
      (projectRows_eq_mapM expressions schema.names)
      fun batch _ => rows_projectBatch hsize expressions schema.names batch
  | filter nodeId input predicate schema phase ih =>
    obtain ⟨operators, hinput, hsome⟩ := ExceptState.bind_eq_ok h
    obtain ⟨inputOperator, rfl, rfl⟩ := Option.map_eq_some_iff.mp (Except.ok.inj hsome)
    exact (ih hinput).of_input id rfl fun rows => flatMap_rows_iff (filterRows_eq_mapM predicate)
      fun batch hbatch => rows_filterBatch hsize predicate (hrestricted inputOperator batch hbatch)
  | limit nodeId input count schema ih =>
    obtain ⟨operators, hinput, hsome⟩ := ExceptState.bind_eq_ok h
    obtain ⟨inputOperator, rfl, rfl⟩ := Option.map_eq_some_iff.mp (Except.ok.inj hsome)
    refine fun rows => ⟨fun hrows => ?_, fun hplain => absurd hplain id⟩
    obtain ⟨inputRows, hinputRows, hrows⟩ := ExceptState.bind_eq_ok hrows
    cases hrows
    obtain ⟨batches, hbatches, rfl⟩ :=
      ExceptState.map_eq_ok_iff.mp ((ih hinput inputRows).1 hinputRows)
    rw [BatchOperator.execute, toExcept_eq_ok.mp hbatches]
    exact limitBatches_rows count batches
  | order nodeId input orderBy schema ih =>
    obtain ⟨operators, hinput, hsome⟩ := ExceptState.bind_eq_ok h
    obtain ⟨inputOperator, rfl, rfl⟩ := Option.map_eq_some_iff.mp (Except.ok.inj hsome)
    refine (ih hinput).of_input id rfl fun rows => gather_rows_iff fun items => ?_
    show _ = orderRows py orderBy (runtimeSchema py input) (allRows items)
    rw [toExcept_after, orderRows]
    cases sortRows py orderBy (allRows items) with
    | error e => rfl
    | ok sorted => exact collectBatches_rows hsize _ sorted
  | aggregate nodeId input groupBy aggregates schema ih =>
    rw [build] at h
    split at h
    · cases h
    · next hnodup =>
      obtain ⟨operators, hinput, hsome⟩ := ExceptState.bind_eq_ok h
      obtain ⟨inputOperator, rfl, rfl⟩ := Option.map_eq_some_iff.mp (Except.ok.inj hsome)
      by_cases hempty : groupBy.isEmpty = true
      · rw [if_pos hempty]
        refine (ih hinput).of_input id rfl fun rows => gather_rows_iff fun items => ?_
        show _ = aggregateRows py groupBy aggregates batchSize (allRows items)
        rw [toExcept_ofExcept, aggregateRows_eq hnodup, if_pos hempty]
      · rw [if_neg hempty]
        refine (ih hinput).of_input id rfl fun rows => gather_rows_iff fun items => ?_
        show _ = aggregateRows py groupBy aggregates batchSize (allRows items)
        rw [toExcept_after, aggregateRows_eq hnodup, if_neg hempty]
        refine congrArg (Except.map allRows)
          (congrArg (sortRows py (groupOrder groupBy) _ >>= ·) (funext fun sorted => ?_))
        exact toExcept_sortedBatches hsize sorted
  | groupingSets nodeId input sets aggregates schema ih =>
    obtain ⟨operators, hinput, hsome⟩ := ExceptState.bind_eq_ok h
    split at hsome
    · cases hsome
    · next hnodup =>
      obtain ⟨inputOperator, rfl, rfl⟩ := Option.map_eq_some_iff.mp (Except.ok.inj hsome)
      refine (ih hinput).of_input id rfl fun rows => gather_rows_iff fun items => ?_
      show _ = groupingSetsRows py sets aggregates batchSize (allRows items)
      rw [toExcept_ofExcept, groupingSetsRows, if_neg hnodup]
  | window nodeId input expressions schema ih =>
    obtain ⟨operators, hinput, hsome⟩ := ExceptState.bind_eq_ok h
    obtain ⟨inputOperator, rfl, rfl⟩ := Option.map_eq_some_iff.mp (Except.ok.inj hsome)
    refine (ih hinput).of_input id rfl fun rows => gather_rows_iff fun items => ?_
    show _ = windowRows py expressions (runtimeSchema py input) (allRows items)
    rw [toExcept_ofExcept, windowRows]
    cases evaluateWindows py expressions (allRows items) with
    | error e => rfl
    | ok windows => exact congrArg Except.ok (allRows_batchesFromRows hsize _ windows)
  | join nodeId left right joinType condition schema inputLimit buildSide => cases h

private theorem bind_ne_ok {α β : Type} {x : Except PyError α} {f : α → Except PyError β}
    (h : ∀ a, x ≠ .ok a) (b : β) : (x >>= f) ≠ .ok b := by
  intro hb
  obtain ⟨a, ha, -⟩ := ExceptState.bind_eq_ok hb
  exact h a ha

/-- A plan of which no operator can be made has no rows. -/
theorem rows_ne_ok_of_build {plan : LogicalPlan} {error : PyError}
    (h : executor.build py plan = .error error) (rows : List Row) :
    plan.rows py (database py batchSize (executor.scanRows batchSize)) ≠ .ok rows := by
  induction plan generalizing error rows with
  | scan nodeId tableName tableAlias schema =>
    intro hrows
    obtain ⟨_, hfind, -⟩ := ExceptState.bind_eq_ok hrows
    rw [build, hfind] at h
    cases h
  | project nodeId input expressions schema ih
  | filter nodeId input predicate schema phase ih
  | limit nodeId input count schema ih
  | order nodeId input orderBy schema ih
  | window nodeId input expressions schema ih =>
    rw [build] at h
    cases hbuild : executor.build py input with
    | error e => exact bind_ne_ok (ih hbuild) rows
    | ok operators =>
      rw [hbuild] at h
      cases h
  | aggregate nodeId input groupBy aggregates schema ih =>
    rw [build] at h
    split at h
    · next hdup =>
      -- the schema is refused, whatever the rows of the input are
      intro hrows
      obtain ⟨inputRows, -, hrows⟩ := ExceptState.bind_eq_ok hrows
      have hout : aggregateRows py groupBy aggregates batchSize inputRows = .ok rows := hrows
      rw [aggregateRows, if_pos hdup] at hout
      cases hout
    · cases hbuild : executor.build py input with
      | error e => exact bind_ne_ok (ih hbuild) rows
      | ok operators =>
        rw [hbuild] at h
        cases h
  | groupingSets nodeId input sets aggregates schema ih =>
    rw [build] at h
    cases hbuild : executor.build py input with
    | error e => exact bind_ne_ok (ih hbuild) rows
    | ok operators =>
      rw [hbuild, ExceptState.ok_bind] at h
      split at h
      · next hdup =>
        intro hrows
        obtain ⟨inputRows, -, hrows⟩ := ExceptState.bind_eq_ok hrows
        have hout : groupingSetsRows py sets aggregates batchSize inputRows = .ok rows := hrows
        rw [groupingSetsRows, if_pos hdup] at hout
        cases hout
      · cases h
  | join nodeId left right joinType condition schema inputLimit buildSide => cases h

/-- The tables of an executor that knows one, with the numbers in these batches. -/
def numberTable (chunks : List (List ℤ)) : LocalExecutor where
  findTable _ := .ok ()
  scan _ _ _ := numberBatches chunks

/-- `SELECT * FROM t LIMIT 2` -/
def twoNumbers : LogicalPlan :=
  .limit "limit" (.scan "scan" "t" "t" [⟨"x", .int64, true⟩]) 2 [⟨"x", .int64, true⟩]

end Executed

end LocalExecutor

end DistributedSql

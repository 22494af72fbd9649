/-
Aggregation (`_AggregateState`, `HashAggregateOperator` and `SortAggregateOperator` in
`execution/operators.py`).

A group is a key, the values of the GROUP BY expressions, and one state for each
aggregate.  Without GROUP BY the groups are kept in a dict; with it, the rows are sorted
by their keys and a group ends where the key changes.  Either way a group comes out as a
row of its values under the printed texts of the expressions.

Main results:
* `sortedAggregate_iff` — what comes out of sorted rows are the outcomes of the runs of
  their keys;
* `names_of_aggregateExecute` — the rows go by the texts of the GROUP BY expressions and
  aggregates.
-/
import DistributedSql.LogicalPlans
import DistributedSql.ExternalSort
import DistributedSql.Dict
import DistributedSql.Grouping

namespace DistributedSql

/-- The fields of an `AggregateFunction`. -/
structure AggregateFunction where
  name : String
  arguments : List Expression
  distinct : Bool

def Expression.asAggregate : Expression → Option AggregateFunction
  | .aggregateFunction name arguments _ distinct => some ⟨name, arguments, distinct⟩
  | _ => none

/-! ### The state of an aggregate -/

/-- `_AggregateState`. -/
structure AggregateState where
  function : AggregateFunction
  count : ℕ := 0
  total : SQLValue := .int 0
  value : SQLValue := .null
  distinctValues : List SQLValue := []

namespace AggregateState

variable (py : Python)

/-- The argument of the function on a row; `COUNT(*)` has none. -/
def argument (state : AggregateState) (row : Row) : Except PyError SQLValue :=
  match state.function.arguments with
  | [] => .ok (.int 1)
  | argument :: _ => argument.evaluate py row

/-- `add` on an argument that counts. -/
def accumulate (state : AggregateState) (argument : SQLValue) : Except PyError AggregateState := do
  let state := { state with count := state.count + 1 }
  if state.function.name ∈ ["sum", "avg"] then
    return { state with total := ← numericOperation py state.total argument .add }
  else if state.function.name = "min" then
    if state.value = .null then return { state with value := argument }
    else if ← argument.lt state.value then return { state with value := argument }
    else return state
  else if state.function.name = "max" then
    if state.value = .null then return { state with value := argument }
    else if ← argument.gt state.value then return { state with value := argument }
    else return state
  else return state

/-- `add`. -/
def add (row : Row) (state : AggregateState) : Except PyError AggregateState := do
  let argument ← state.argument py row
  if argument = .null then return state
  else if state.function.distinct then
    if state.distinctValues.any fun value => value.eq argument then return state
    else
      accumulate py { state with distinctValues := state.distinctValues ++ [argument] } argument
  else accumulate py state argument

/-- `total / count`; a decimal is divided as a decimal. -/
def average (state : AggregateState) : Except PyError SQLValue :=
  match state.total with
  | .decimal total => do
      let count ← py.decimal (toString state.count)
      return .decimal (← py.decimalOperation .divide total count)
  | total => numericOperation py total (.int state.count) .divide

/-- `finish`. -/
def finish (state : AggregateState) : Except PyError SQLValue :=
  if state.function.name = "count" then .ok (.int state.count)
  else if state.function.name = "sum" then .ok (if state.count = 0 then .null else state.total)
  else if state.function.name = "avg" then
    if state.count = 0 then .ok .null else state.average py
  else .ok state.value

end AggregateState

/-- `_new_states`. -/
def newStates (aggregates : List NamedExpression) : Except PyError (List AggregateState) :=
  aggregates.mapM fun item =>
    match item.expression.asAggregate with
    | some function => .ok { function := function }
    | none => .error (.valueError "Hash aggregate requires aggregate function expressions.")

/-! ### The operators -/

/-- The key of a group and its states. -/
abbrev AggregateGroup : Type := List SQLValue × List AggregateState

section Operators

variable (py : Python) (groupBy : List Expression) (aggregates : List NamedExpression)

/-- The field names of `arrow_schema_for_aggregate`. -/
def aggregateNames : List String :=
  groupBy.map (Expression.sql py) ++ aggregates.map (·.expression.sql py)

/-- The row of a group: `_finish_group`. -/
def finishGroup (group : AggregateGroup) : Except PyError Row := do
  let values ← group.2.mapM (AggregateState.finish py)
  let row : Dict String SQLValue := Dict.empty.update ((groupBy.map (Expression.sql py)).zip group.1)
  return (row.update ((aggregates.map (·.expression.sql py)).zip values)).items

/-- `groups.setdefault(key, states)`, and `add` on each of its states. -/
def addToGroups (row : Row) (new : AggregateGroup) : List AggregateGroup → Except PyError (List AggregateGroup)
  | [] => do return [(new.1, ← new.2.mapM (AggregateState.add py row))]
  | group :: rest => do
      if tupleEq group.1 new.1 then
        return (group.1, ← group.2.mapM (AggregateState.add py row)) :: rest
      else return group :: (← addToGroups row new rest)

/-- The groups of `HashAggregateOperator.execute`. -/
def hashGroups (rows : List Row) : Except PyError (List AggregateGroup) := do
  let groups ← if groupBy.isEmpty then do pure [([], ← newStates aggregates)] else pure []
  rows.foldlM (fun groups row => do
    let key ← Expression.evaluateAll py row groupBy
    addToGroups py row (key, ← newStates aggregates) groups) groups

/-- `HashAggregateOperator.execute`. -/
def hashAggregate (batchSize : ℕ) (rows : List Row) : Except PyError (List RecordBatch) := do
  let rows ← (← hashGroups py groupBy aggregates rows).mapM (finishGroup py groupBy aggregates)
  return batchesFromRows rows (aggregateNames py groupBy aggregates) batchSize

/-- The variables of the loop of `SortAggregateOperator.execute`, and what was emitted. -/
structure StreamState where
  group : Option AggregateGroup
  outputRows : List Row
  emitted : List RecordBatch

/-- `_emit_groups`. -/
def emitGroups (batchSize : ℕ) (state : StreamState) : StreamState :=
  { state with
    outputRows := []
    emitted := state.emitted
      ++ batchesFromRows state.outputRows (aggregateNames py groupBy aggregates) batchSize }

/-- The end of a group in the loop, where the key of the next row is another. -/
def endGroup (batchSize : ℕ) (key : List SQLValue) (state : StreamState) :
    Except PyError StreamState :=
  match state.group with
  | none => .ok state
  | some group =>
      if tupleEq key group.1 then .ok state
      else do
        let row ← finishGroup py groupBy aggregates group
        let state := { state with group := none, outputRows := state.outputRows ++ [row] }
        return if batchSize ≤ state.outputRows.length then
            emitGroups py groupBy aggregates batchSize state
          else state

/-- The group of a row with this key. -/
def openGroup (key : List SQLValue) (state : StreamState) : Except PyError AggregateGroup :=
  match state.group with
  | some group => .ok group
  | none => do return (key, ← newStates aggregates)

/-- The loop over the sorted rows. -/
def streamGroups (batchSize : ℕ) : List Row → StreamState → Except PyError StreamState
  | [], state => .ok state
  | row :: rest, state => do
      let key ← Expression.evaluateAll py row groupBy
      let state ← endGroup py groupBy aggregates batchSize key state
      let group ← openGroup aggregates key state
      let states ← group.2.mapM (AggregateState.add py row)
      streamGroups batchSize rest { state with group := some (group.1, states) }

/-- What follows the loop. -/
def finishStream (batchSize : ℕ) (state : StreamState) : Except PyError (List RecordBatch) :=
  match state.group with
  | none => .ok (emitGroups py groupBy aggregates batchSize state).emitted
  | some group => do
      let row ← finishGroup py groupBy aggregates group
      return (emitGroups py groupBy aggregates batchSize
        { state with outputRows := state.outputRows ++ [row] }).emitted

/-- `SortAggregateOperator.execute` after the sort. -/
def sortedAggregate (batchSize : ℕ) (rows : List Row) : Except PyError (List RecordBatch) := do
  finishStream py groupBy aggregates batchSize
    (← streamGroups py groupBy aggregates batchSize rows ⟨none, [], []⟩)

/-- The operator that `LocalExecutor` builds for an `Aggregate`, and its execution. -/
def aggregateExecute (batchSize : ℕ) (inputNames : List String) (batches : List RecordBatch) :
    Exec (List RecordBatch) :=
  if ¬(aggregateNames py groupBy aggregates).Nodup then
    throw (.valueError "schema field names must be unique")
  else if groupBy.isEmpty then
    liftM (hashAggregate py groupBy aggregates batchSize (allRows batches))
  else do
    let rows ← externalSortedRows py batches inputNames
      (groupBy.map fun expression => ⟨expression, true, false⟩)
    sortedAggregate py groupBy aggregates batchSize rows

end Operators

/-! ### The row of a group -/

section Rows

variable {py : Python} {groupBy : List Expression} {aggregates : List NamedExpression}

theorem length_newStates {states : List AggregateState} (h : newStates aggregates = .ok states) :
    states.length = aggregates.length :=
  (ExceptState.forall₂_of_mapM_eq_ok h).length_eq.symm

theorem length_foldlM_add {rows : List Row} {states states' : List AggregateState}
    (h : rows.foldlM (fun states row => states.mapM (AggregateState.add py row)) states
      = Except.ok states') : states'.length = states.length := by
  induction rows generalizing states with
  | nil =>
    cases h
    rfl
  | cons row rest ih =>
    obtain ⟨next, hnext, hrest⟩ := ExceptState.bind_eq_ok h
    exact (ih hrest).trans (ExceptState.forall₂_of_mapM_eq_ok hnext).length_eq.symm

/-- Where no two texts are the same, the row of a group is its key and what the aggregates came
to, under their texts. -/
theorem finishGroup_eq (hnodup : (aggregateNames py groupBy aggregates).Nodup) (group : AggregateGroup)
    (hkey : group.1.length = groupBy.length) (hstates : group.2.length = aggregates.length)
    {row : Row} (h : finishGroup py groupBy aggregates group = .ok row) :
    ∃ values, group.2.mapM (AggregateState.finish py) = .ok values ∧
      row = (aggregateNames py groupBy aggregates).zip (group.1 ++ values) := by
  obtain ⟨values, hvalues, hrow⟩ := ExceptState.bind_eq_ok h
  refine ⟨values, hvalues, ?_⟩
  have hlength : values.length = aggregates.length :=
    (ExceptState.forall₂_of_mapM_eq_ok hvalues).length_eq.symm.trans hstates
  obtain ⟨hgroup, hnames, hdisjoint⟩ := List.nodup_append.mp hnodup
  have hfst : ∀ (names : List String) (vs : List SQLValue), vs.length = names.length →
      (names.zip vs).map Prod.fst = names := fun _ _ h => List.map_fst_zip h.ge
  have hkeyNames := hfst (groupBy.map (Expression.sql py)) group.1
    (hkey.trans (List.length_map _).symm)
  have hvalueNames := hfst (aggregates.map (·.expression.sql py)) values
    (hlength.trans (List.length_map _).symm)
  cases hrow
  rw [Dict.items_update_of_new (hvalueNames.symm ▸ hnames), Dict.items_update_of_new
    (hkeyNames.symm ▸ hgroup) fun _ _ => rfl, aggregateNames, List.zip_append
    (by rw [List.length_map, hkey])]
  · rfl
  · intro item hitem
    rw [Dict.get?_eq_none, Dict.keys, Dict.items_update_of_new (hkeyNames.symm ▸ hgroup)
      fun _ _ => rfl]
    intro hmem
    have hname : item.1 ∈ groupBy.map (Expression.sql py) := by
      rw [← hkeyNames]
      exact hmem
    exact hdisjoint _ hname _ (hvalueNames ▸ List.mem_map_of_mem hitem) rfl

theorem names_of_mem_batchesFromRows {rows : List Row} {names : List String} {batchSize : ℕ}
    {row : Row} (h : row ∈ allRows (batchesFromRows rows names batchSize)) : row.names = names := by
  obtain ⟨batch, hbatch, hrow⟩ := List.mem_flatMap.mp h
  obtain ⟨chunk, -, rfl⟩ := List.mem_map.mp hbatch
  exact RecordBatch.rows_names _ row hrow

end Rows

/-! ### The groups of the sorted rows -/

section Stream

variable (py : Python) (groupBy : List Expression) (aggregates : List NamedExpression)

/-- The rows with their keys. -/
def keyedRows (keys : List Expression) (rows : List Row) :
    Except PyError (List (List SQLValue × Row)) :=
  rows.mapM fun row => do return (← Expression.evaluateAll py row keys, row)

/-- The states of a group after some rows. -/
def statesOf (rows : List Row) : Except PyError (List AggregateState) := do
  rows.foldlM (fun states row => states.mapM (AggregateState.add py row)) (← newStates aggregates)

/-- The row that comes of a group's rows. -/
def groupOutcome (group : List SQLValue × List Row) : Except PyError Row := do
  finishGroup py groupBy aggregates (group.1, ← statesOf py aggregates group.2)

variable {py groupBy aggregates}

/-- The rows of the groups that have ended, emitted or not. -/
def StreamState.rows (names : List String) (state : StreamState) : List Row :=
  allRows state.emitted ++ state.outputRows.map (Row.restrict names)

theorem rows_emitGroups {batchSize : ℕ} (hsize : 0 < batchSize) (hgroup : groupBy ≠ [])
    (state : StreamState) :
    (emitGroups py groupBy aggregates batchSize state).rows (aggregateNames py groupBy aggregates)
      = state.rows (aggregateNames py groupBy aggregates) := by
  have hnames : aggregateNames py groupBy aggregates ≠ [] := by
    rw [aggregateNames]
    exact List.append_ne_nil_of_left_ne_nil (List.map_eq_nil_iff.not.mpr hgroup) _
  rw [StreamState.rows, emitGroups, allRows_append, batchesFromRows_rows hnames hsize,
    List.map_nil, List.append_nil, StreamState.rows]

theorem statesOf_concat {rows : List Row} {states : List AggregateState}
    (h : statesOf py aggregates rows = .ok states) (row : Row) :
    statesOf py aggregates (rows ++ [row]) = states.mapM (AggregateState.add py row) := by
  obtain ⟨new, hnew, hrows⟩ := ExceptState.bind_eq_ok h
  rw [statesOf, hnew, ExceptState.ok_bind, List.foldlM_append, hrows, ExceptState.ok_bind,
    List.foldlM_cons]
  exact bind_pure _

theorem statesOf_singleton {states : List AggregateState} (h : newStates aggregates = .ok states)
    (row : Row) : statesOf py aggregates [row] = states.mapM (AggregateState.add py row) :=
  statesOf_concat (show statesOf py aggregates [] = .ok states by rw [statesOf, h]; rfl) row

private theorem finishStream_iff {batchSize : ℕ} (hsize : 0 < batchSize) (hgroup : groupBy ≠ [])
    {state : StreamState} {group : AggregateGroup} (hstate : state.group = some group)
    {result : List Row} :
    (∃ batches, finishStream py groupBy aggregates batchSize state = .ok batches ∧
      allRows batches = result) ↔
    ∃ row, finishGroup py groupBy aggregates group = .ok row ∧
      result = state.rows (aggregateNames py groupBy aggregates)
        ++ [row.restrict (aggregateNames py groupBy aggregates)] := by
  have hrows : ∀ row, allRows (emitGroups py groupBy aggregates batchSize
      { state with outputRows := state.outputRows ++ [row] }).emitted
        = state.rows (aggregateNames py groupBy aggregates)
          ++ [row.restrict (aggregateNames py groupBy aggregates)] := by
    intro row
    have h : (emitGroups py groupBy aggregates batchSize
        { state with outputRows := state.outputRows ++ [row] }).rows
          (aggregateNames py groupBy aggregates) = _ := rows_emitGroups hsize hgroup _
    rw [StreamState.rows, show (emitGroups py groupBy aggregates batchSize _).outputRows = [] from rfl,
      List.map_nil, List.append_nil] at h
    rw [h, StreamState.rows, StreamState.rows, List.map_append, List.append_assoc]
    rfl
  rw [finishStream, hstate]
  constructor
  · rintro ⟨batches, h, rfl⟩
    obtain ⟨row, hrow, h⟩ := ExceptState.bind_eq_ok h
    cases h
    exact ⟨row, hrow, hrows row⟩
  · rintro ⟨row, hrow, rfl⟩
    exact ⟨_, ExceptState.bind_eq_ok_iff.mpr ⟨row, hrow, rfl⟩, hrows row⟩

theorem keyedRows_cons_iff {keys : List Expression} {row : Row} {rest : List Row}
    {keyed : List (List SQLValue × Row)} :
    keyedRows py keys (row :: rest) = .ok keyed ↔
      ∃ key tail, Expression.evaluateAll py row keys = .ok key ∧
        keyedRows py keys rest = .ok tail ∧ keyed = (key, row) :: tail := by
  rw [keyedRows, ExceptState.mapM_eq_ok_iff, List.forall₂_cons_left_iff]
  constructor
  · rintro ⟨item, tail, hitem, htail, rfl⟩
    obtain ⟨key, hkey, heq⟩ := ExceptState.bind_eq_ok hitem
    cases heq
    exact ⟨key, tail, hkey, ExceptState.mapM_eq_ok_iff.mpr htail, rfl⟩
  · rintro ⟨key, tail, hkey, htail, rfl⟩
    exact ⟨(key, row), tail, ExceptState.bind_eq_ok_iff.mpr ⟨key, hkey, rfl⟩,
      ExceptState.mapM_eq_ok_iff.mp htail, rfl⟩

theorem keyedRows_iff {keys : List Expression} {rows : List Row}
    {keyed : List (List SQLValue × Row)} :
    keyedRows py keys rows = .ok keyed ↔
      keyed.map Prod.snd = rows ∧ ∀ item ∈ keyed, Expression.evaluateAll py item.2 keys = .ok item.1 := by
  induction rows generalizing keyed with
  | nil =>
    constructor
    · intro h
      cases h
      exact ⟨rfl, fun _ h => absurd h List.not_mem_nil⟩
    · rintro ⟨hrows, -⟩
      rw [List.map_eq_nil_iff.mp hrows]
      rfl
  | cons row rest ih =>
    rw [keyedRows_cons_iff]
    constructor
    · rintro ⟨key, tail, hkey, htail, rfl⟩
      obtain ⟨hrest, hkeys⟩ := ih.mp htail
      exact ⟨congrArg (row :: ·) hrest, List.forall_mem_cons.mpr ⟨hkey, hkeys⟩⟩
    · rintro ⟨hrows, hkeys⟩
      cases keyed with
      | nil => cases hrows
      | cons item tail =>
        obtain ⟨rfl, hrest⟩ := List.cons_eq_cons.mp hrows
        obtain ⟨hkey, hkeys⟩ := List.forall_mem_cons.mp hkeys
        exact ⟨item.1, tail, hkey, ih.mpr ⟨hrest, hkeys⟩, rfl⟩

theorem groupOutcome_eq {key : List SQLValue} {rows : List Row} {states : List AggregateState}
    (h : statesOf py aggregates rows = .ok states) :
    groupOutcome py groupBy aggregates (key, rows) = finishGroup py groupBy aggregates (key, states) := by
  rw [groupOutcome, h, ExceptState.ok_bind]

/-- The states of a run that has an outcome. -/
private theorem statesOf_of_runs {key : List SQLValue} {xs : List Row}
    {keyed : List (List SQLValue × Row)} {outcomes : List Row}
    (h : (Grouping.runsFrom tupleEq key xs keyed).mapM (groupOutcome py groupBy aggregates)
      = .ok outcomes) : ∃ states, statesOf py aggregates xs = .ok states := by
  obtain ⟨more, later, hruns⟩ := Grouping.runsFrom_eq tupleEq key xs keyed
  rw [hruns] at h
  obtain ⟨outcome, rest, houtcome, -, -⟩ :=
    List.forall₂_cons_left_iff.mp (ExceptState.mapM_eq_ok_iff.mp h)
  obtain ⟨states, hstates, -⟩ := ExceptState.bind_eq_ok houtcome
  obtain ⟨new, hnew, hrows⟩ := ExceptState.bind_eq_ok hstates
  rw [List.foldlM_append] at hrows
  obtain ⟨before, hbefore, -⟩ := ExceptState.bind_eq_ok hrows
  exact ⟨before, ExceptState.bind_eq_ok_iff.mpr ⟨new, hnew, hbefore⟩⟩

/-- A group ends where the key changes. -/
private theorem endGroup_iff {batchSize : ℕ} (hsize : 0 < batchSize) (hgroup : groupBy ≠ [])
    {state state' : StreamState} {group : AggregateGroup} (hstate : state.group = some group)
    {key : List SQLValue} (hkey : ¬tupleEq key group.1 = true)
    (h : endGroup py groupBy aggregates batchSize key state = .ok state') :
    ∃ row, finishGroup py groupBy aggregates group = .ok row ∧ state'.group = none ∧
      state'.rows (aggregateNames py groupBy aggregates)
        = state.rows (aggregateNames py groupBy aggregates)
          ++ [row.restrict (aggregateNames py groupBy aggregates)] := by
  rw [endGroup, hstate] at h
  simp only [if_neg hkey] at h
  obtain ⟨row, hrow, h⟩ := ExceptState.bind_eq_ok h
  have hrows : StreamState.rows (aggregateNames py groupBy aggregates)
      { state with group := none, outputRows := state.outputRows ++ [row] }
        = state.rows (aggregateNames py groupBy aggregates)
          ++ [row.restrict (aggregateNames py groupBy aggregates)] := by
    rw [StreamState.rows, StreamState.rows, List.map_append, List.append_assoc]
    rfl
  refine ⟨row, hrow, ?_⟩
  cases h
  split
  · exact ⟨rfl, (rows_emitGroups hsize hgroup _).trans hrows⟩
  · exact ⟨rfl, hrows⟩

/-- A row with no group before it opens one. -/
private theorem streamGroups_start {batchSize : ℕ} {row : Row} {rest : List Row}
    {state : StreamState} (hstate : state.group = none) {key : List SQLValue}
    (hkey : Expression.evaluateAll py row groupBy = .ok key) {last : StreamState} :
    streamGroups py groupBy aggregates batchSize (row :: rest) state = .ok last ↔
      ∃ states, statesOf py aggregates [row] = .ok states ∧
        streamGroups py groupBy aggregates batchSize rest
          { state with group := some (key, states) } = .ok last := by
  rw [streamGroups, hkey, ExceptState.ok_bind, endGroup, hstate]
  simp only [ExceptState.ok_bind]
  rw [openGroup, hstate]
  constructor
  · intro h
    obtain ⟨group, hopen, h⟩ := ExceptState.bind_eq_ok h
    obtain ⟨new, hnew, hopen⟩ := ExceptState.bind_eq_ok hopen
    cases hopen
    obtain ⟨states, hadd, h⟩ := ExceptState.bind_eq_ok h
    exact ⟨states, (statesOf_singleton hnew row).trans hadd, h⟩
  · rintro ⟨states, hstates, h⟩
    obtain ⟨new, hnew, -⟩ := ExceptState.bind_eq_ok hstates
    have hadd := (statesOf_singleton hnew row).symm.trans hstates
    exact ExceptState.bind_eq_ok_iff.mpr ⟨(key, new),
      ExceptState.bind_eq_ok_iff.mpr ⟨new, hnew, rfl⟩,
      ExceptState.bind_eq_ok_iff.mpr ⟨states, hadd, h⟩⟩

/-- Once a group has ended, the loop goes on as if it had not been. -/
private theorem streamGroups_of_endGroup {batchSize : ℕ} {row : Row} {rest : List Row}
    {state state' : StreamState} {key : List SQLValue}
    (hkey : Expression.evaluateAll py row groupBy = .ok key)
    (hend : endGroup py groupBy aggregates batchSize key state = .ok state')
    (hstate' : state'.group = none) :
    streamGroups py groupBy aggregates batchSize (row :: rest) state
      = streamGroups py groupBy aggregates batchSize (row :: rest) state' := by
  have hend' : endGroup py groupBy aggregates batchSize key state' = .ok state' := by
    rw [endGroup, hstate']
  rw [streamGroups, streamGroups, hkey, ExceptState.ok_bind, ExceptState.ok_bind, hend, hend']

/-- The loop in the middle of a group of which the rows `xs` were seen. -/
private theorem streamGroups_from {batchSize : ℕ} (hsize : 0 < batchSize) (hgroup : groupBy ≠ [])
    {rows : List Row} {state : StreamState} {key : List SQLValue} {states : List AggregateState}
    (hstate : state.group = some (key, states)) {xs : List Row}
    (hstates : statesOf py aggregates xs = .ok states) {result : List Row} :
    (∃ last, streamGroups py groupBy aggregates batchSize rows state = .ok last ∧
      ∃ batches, finishStream py groupBy aggregates batchSize last = .ok batches ∧
        allRows batches = result) ↔
    ∃ keyed outcomes, keyedRows py groupBy rows = .ok keyed ∧
      (Grouping.runsFrom tupleEq key xs keyed).mapM (groupOutcome py groupBy aggregates)
        = .ok outcomes ∧
      result = state.rows (aggregateNames py groupBy aggregates)
        ++ outcomes.map (Row.restrict (aggregateNames py groupBy aggregates)) := by
  induction rows generalizing state key states xs with
  | nil =>
    rw [streamGroups]
    constructor
    · rintro ⟨last, hlast, hfinish⟩
      cases hlast
      obtain ⟨row, hrow, hresult⟩ := (finishStream_iff hsize hgroup hstate).mp hfinish
      rw [← groupOutcome_eq hstates] at hrow
      exact ⟨[], [row], rfl, ExceptState.mapM_eq_ok_iff.mpr (.cons hrow .nil), hresult⟩
    · rintro ⟨keyed, outcomes, hkeyed, houtcomes, hresult⟩
      cases hkeyed
      obtain ⟨row, rest, hrow, hrest, rfl⟩ :=
        List.forall₂_cons_left_iff.mp (ExceptState.mapM_eq_ok_iff.mp houtcomes)
      cases hrest
      rw [groupOutcome_eq hstates] at hrow
      exact ⟨state, rfl, (finishStream_iff hsize hgroup hstate).mpr ⟨row, hrow, hresult⟩⟩
  | cons row rest ih =>
    constructor
    · rintro ⟨last, hloop, hfinish⟩
      have hloop' := hloop
      rw [streamGroups] at hloop'
      obtain ⟨key', hkey', hloop'⟩ := ExceptState.bind_eq_ok hloop'
      obtain ⟨state', hend, hloop'⟩ := ExceptState.bind_eq_ok hloop'
      by_cases hsame : tupleEq key' key = true
      · -- the row belongs to the group
        rw [endGroup, hstate] at hend
        simp only [if_pos hsame] at hend
        cases hend
        rw [openGroup, hstate] at hloop'
        obtain ⟨group, hopen, hloop'⟩ := ExceptState.bind_eq_ok hloop'
        cases hopen
        obtain ⟨states', hadd, hloop'⟩ := ExceptState.bind_eq_ok hloop'
        obtain ⟨keyed, outcomes, hkeyed, houtcomes, hresult⟩ :=
          (ih rfl ((statesOf_concat hstates row).trans hadd)).mp ⟨last, hloop', hfinish⟩
        refine ⟨(key', row) :: keyed, outcomes,
          keyedRows_cons_iff.mpr ⟨key', keyed, hkey', hkeyed, rfl⟩, ?_, hresult⟩
        rw [Grouping.runsFrom, if_pos hsame]
        exact houtcomes
      · -- the group has ended
        obtain ⟨done, hdone, hnone, hrows⟩ := endGroup_iff hsize hgroup hstate hsame hend
        rw [streamGroups_of_endGroup hkey' hend hnone] at hloop
        obtain ⟨states', hstates', hloop⟩ := (streamGroups_start hnone hkey').mp hloop
        obtain ⟨keyed, outcomes, hkeyed, houtcomes, hresult⟩ :=
          (ih rfl hstates').mp ⟨last, hloop, hfinish⟩
        refine ⟨(key', row) :: keyed, done :: outcomes,
          keyedRows_cons_iff.mpr ⟨key', keyed, hkey', hkeyed, rfl⟩, ?_, ?_⟩
        · rw [Grouping.runsFrom, if_neg hsame]
          rw [← groupOutcome_eq hstates] at hdone
          exact ExceptState.mapM_eq_ok_iff.mpr (.cons hdone (ExceptState.mapM_eq_ok_iff.mp houtcomes))
        · rw [hresult, List.map_cons, List.append_cons]
          exact congrArg (· ++ _) hrows
    · rintro ⟨keyed, outcomes, hkeyed, houtcomes, hresult⟩
      obtain ⟨key', tail, hkey', htail, rfl⟩ := keyedRows_cons_iff.mp hkeyed
      rw [Grouping.runsFrom] at houtcomes
      by_cases hsame : tupleEq key' key = true
      · rw [if_pos hsame] at houtcomes
        obtain ⟨states', hstates'⟩ := statesOf_of_runs houtcomes
        have hadd := (statesOf_concat hstates row).symm.trans hstates'
        obtain ⟨last, hloop, hfinish⟩ :=
          (ih (show ({ state with group := some (key, states') } : StreamState).group = _ from rfl)
            hstates').mpr
            ⟨tail, outcomes, htail, houtcomes, hresult⟩
        refine ⟨last, ?_, hfinish⟩
        rw [streamGroups, hkey', ExceptState.ok_bind, endGroup, hstate]
        simp only [if_pos hsame, ExceptState.ok_bind]
        rw [openGroup, hstate]
        simp only [ExceptState.ok_bind, hadd]
        exact hloop
      · rw [if_neg hsame] at houtcomes
        obtain ⟨done, more, hdone, hmore, rfl⟩ :=
          List.forall₂_cons_left_iff.mp (ExceptState.mapM_eq_ok_iff.mp houtcomes)
        have hruns := ExceptState.mapM_eq_ok_iff.mpr hmore
        obtain ⟨states', hstates'⟩ := statesOf_of_runs hruns
        rw [groupOutcome_eq hstates] at hdone
        obtain ⟨state', hend⟩ : ∃ state',
            endGroup py groupBy aggregates batchSize key' state = .ok state' := by
          rw [endGroup, hstate]
          simp only [if_neg hsame, hdone]
          exact ⟨_, rfl⟩
        obtain ⟨done', hdone', hnone, hrows⟩ := endGroup_iff hsize hgroup hstate hsame hend
        cases hdone.symm.trans hdone'
        obtain ⟨last, hloop, hfinish⟩ :=
          (ih (show ({ state' with group := some (key', states') } : StreamState).group = _ from rfl)
            hstates').mpr
            ⟨tail, more, htail, hruns, by
              rw [hresult, List.map_cons, List.append_cons]
              exact congrArg (· ++ _) hrows.symm⟩
        refine ⟨last, ?_, hfinish⟩
        rw [streamGroups_of_endGroup hkey' hend hnone]
        exact (streamGroups_start hnone hkey').mpr ⟨states', hstates', hloop⟩

/-- What comes out of sorted rows are the outcomes of the runs of their keys. -/
theorem sortedAggregate_iff {batchSize : ℕ} (hsize : 0 < batchSize) (hgroup : groupBy ≠ [])
    {rows result : List Row} :
    (∃ batches, sortedAggregate py groupBy aggregates batchSize rows = .ok batches ∧
      allRows batches = result) ↔
    ∃ keyed outcomes, keyedRows py groupBy rows = .ok keyed ∧
      (Grouping.runs tupleEq keyed).mapM (groupOutcome py groupBy aggregates) = .ok outcomes ∧
      result = outcomes.map (Row.restrict (aggregateNames py groupBy aggregates)) := by
  have hstart : StreamState.rows (aggregateNames py groupBy aggregates) ⟨none, [], []⟩ = [] := rfl
  cases rows with
  | nil =>
    have hempty : (emitGroups py groupBy aggregates batchSize ⟨none, [], []⟩).emitted = [] := by
      rw [emitGroups, batchesFromRows, chunks_nil hsize]
      rfl
    constructor
    · rintro ⟨batches, h, rfl⟩
      cases h
      refine ⟨[], [], rfl, rfl, ?_⟩
      rw [hempty]
      rfl
    · rintro ⟨keyed, outcomes, hkeyed, houtcomes, rfl⟩
      cases hkeyed
      cases houtcomes
      refine ⟨_, rfl, ?_⟩
      rw [hempty]
      rfl
  | cons row rest =>
    constructor
    · rintro ⟨batches, h, rfl⟩
      obtain ⟨last, hloop, hfinish⟩ := ExceptState.bind_eq_ok h
      obtain ⟨key, hkey, -⟩ := ExceptState.bind_eq_ok ((streamGroups.eq_2 ..).symm.trans hloop)
      obtain ⟨states, hstates, hloop⟩ := (streamGroups_start rfl hkey).mp hloop
      obtain ⟨keyed, outcomes, hkeyed, houtcomes, hresult⟩ :=
        (streamGroups_from hsize hgroup rfl hstates).mp ⟨last, hloop, batches, hfinish, rfl⟩
      exact ⟨(key, row) :: keyed, outcomes, keyedRows_cons_iff.mpr ⟨key, keyed, hkey, hkeyed, rfl⟩,
        houtcomes, hresult⟩
    · rintro ⟨keyed, outcomes, hkeyed, houtcomes, hresult⟩
      obtain ⟨key, tail, hkey, htail, rfl⟩ := keyedRows_cons_iff.mp hkeyed
      obtain ⟨states, hstates⟩ := statesOf_of_runs houtcomes
      obtain ⟨last, hloop, batches, hfinish, hbatches⟩ :=
        (streamGroups_from hsize hgroup (show (⟨some (key, states), [], []⟩ : StreamState).group = _
          from rfl) hstates).mpr
          ⟨tail, outcomes, htail, houtcomes, hresult⟩
      exact ⟨batches, ExceptState.bind_eq_ok_iff.mpr
        ⟨last, (streamGroups_start rfl hkey).mpr ⟨states, hstates, hloop⟩, hfinish⟩, hbatches⟩

end Stream

/-! ### The names of the rows -/

/-- The rows that an aggregate produces go by the texts of its GROUP BY expressions and its
aggregates, no two of which are the same. -/
theorem names_of_aggregateExecute {py : Python} {groupBy : List Expression}
    {aggregates : List NamedExpression} {batchSize : ℕ} (hsize : 0 < batchSize)
    {inputNames : List String} {batches output : List RecordBatch}
    {account account' : MemoryAccount}
    (h : (aggregateExecute py groupBy aggregates batchSize inputNames batches).run account
      = .ok (output, account')) :
    (aggregateNames py groupBy aggregates).Nodup ∧
      ∀ row ∈ allRows output, row.names = aggregateNames py groupBy aggregates := by
  unfold aggregateExecute at h
  by_cases hnodup : (aggregateNames py groupBy aggregates).Nodup
  · refine ⟨hnodup, fun row hrow => ?_⟩
    rw [if_neg (not_not.mpr hnodup)] at h
    split at h
    · obtain ⟨hrows, rfl⟩ := run_lift_eq_ok.mp h
      obtain ⟨groups, -, hrows⟩ := ExceptState.bind_eq_ok hrows
      obtain ⟨rows', -, hrows⟩ := ExceptState.bind_eq_ok hrows
      cases hrows
      exact names_of_mem_batchesFromRows hrow
    · next hgroup =>
      rw [StateT.run_bind] at h
      obtain ⟨⟨rows, middle⟩, -, h⟩ := ExceptState.bind_eq_ok h
      obtain ⟨hrows, rfl⟩ := run_lift_eq_ok.mp h
      obtain ⟨keyed, outcomes, -, -, houtput⟩ := (sortedAggregate_iff hsize
        (mt List.isEmpty_iff.mpr hgroup)).mp ⟨output, hrows, rfl⟩
      rw [houtput] at hrow
      obtain ⟨outcome, -, rfl⟩ := List.mem_map.mp hrow
      exact Row.names_restrict _ _
  · rw [if_pos hnodup] at h
    cases h

end DistributedSql

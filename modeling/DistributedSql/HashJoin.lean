/-
The hash join (`HashJoinOperator` in `execution/operators.py`).

`execute` reads the build side under the memory account.  If all of it fits, the
probe side streams past a hash table.  At the first refusal both sides are
partitioned by key hash into spill files and joined partition by partition, each
with its own hash table or, where that does not fit, by sorting both sides and
merging them.

Generators are run to the end: a child operator is an `Exec` program that gives
its batches, and the batches a join yields are collected in `Output`.  Metrics
and cancellation checks are left out.
-/
import DistributedSql.ExternalSort
import DistributedSql.RuntimeFilter

namespace DistributedSql

inductive JoinType
  | inner | left | right | full
deriving DecidableEq, Repr

inductive Side
  | left | right
deriving DecidableEq, Repr

def Side.other : Side → Side
  | .left => .right
  | .right => .left

/-- Of two things, the one of a side. -/
def Side.pick {α : Type} (left right : α) : Side → α
  | .left => left
  | .right => right

theorem Side.pick_eta {α : Type} (f : Side → α) : Side.pick (f .left) (f .right) = f := by
  funext side
  cases side <;> rfl

/-- `_side_is_preserved`. -/
def sideIsPreserved (joinType : JoinType) (side : Side) : Bool :=
  joinType = .full ||
    match side with
    | .left => joinType = .left
    | .right => joinType = .right

/-- `_join_key`: no key for a row with a NULL in it. -/
def joinKey (py : Python) (keys : List Expression) (row : Row) :
    Except PyError (Option (List SQLValue)) := do
  let values ← Expression.evaluateAll py row keys
  return if values.any SQLValue.isNull then none else some values

/-! ### Hash tables -/

/-- A dict from keys to build row indices.  Keys that are `==` hash alike, so they
are one key. -/
abbrev KeyTable : Type := List (List SQLValue × List ℕ)

namespace KeyTable

/-- `table.get(key, [])`. -/
def get (key : List SQLValue) : KeyTable → List ℕ
  | [] => []
  | (stored, indices) :: rest => if tupleEq stored key then indices else get key rest

/-- `[] if key is None else table.get(key, [])`. -/
def lookup (key : Option (List SQLValue)) (table : KeyTable) : List ℕ :=
  match key with
  | none => []
  | some key => get key table

/-- `table.setdefault(key, []).append(index)`. -/
def append (key : List SQLValue) (index : ℕ) : KeyTable → KeyTable
  | [] => [(key, [index])]
  | (stored, indices) :: rest =>
      if tupleEq stored key then (stored, indices ++ [index]) :: rest
      else (stored, indices) :: append key index rest

/-- Enter a row under its key, if it has one. -/
def enter (key : Option (List SQLValue)) (index : ℕ) (table : KeyTable) : KeyTable :=
  match key with
  | none => table
  | some key => table.append key index

/-- The table of rows with these keys, entered in order. -/
def tableOf (keys : List (Option (List SQLValue))) : KeyTable :=
  keys.zipIdx.foldl (fun table item => enter item.1 item.2 table) []

end KeyTable

/-! ### Output -/

/-- The batches yielded so far, and the rows that wait to be yielded. -/
structure Output where
  batches : List RecordBatch := []
  rows : List Row := []

namespace Output

def append (out : Output) (rows : List Row) : Output := { out with rows := out.rows ++ rows }

/-- `yield from self._emit(output)`. -/
def emit (names : List String) (batchSize : ℕ) (out : Output) : Output :=
  { batches := out.batches ++ batchesFromRows out.rows names batchSize, rows := [] }

/-- `if len(output) >= context.batch_size:` emit. -/
def emitIfFull (names : List String) (batchSize : ℕ) (out : Output) : Output :=
  if batchSize ≤ out.rows.length then out.emit names batchSize else out

end Output

/-! ### The operator -/

/-- A `HashJoinOperator`: what its constructor accepts. -/
structure HashJoinOperator where
  leftKeys : List Expression
  rightKeys : List Expression
  joinType : JoinType
  outputSchema : List String
  leftColumns : List String
  rightColumns : List String
  buildSide : Side := .right
  keys_ne_nil : leftKeys ≠ []
  keys_length : leftKeys.length = rightKeys.length

namespace HashJoinOperator

/-- `HashJoinOperator.__init__`. -/
def create (leftKeys rightKeys : List Expression) (joinType : JoinType)
    (outputSchema leftColumns rightColumns : List String) (buildSide : Side) :
    Except PyError HashJoinOperator :=
  if h : leftKeys ≠ [] ∧ leftKeys.length = rightKeys.length then
    .ok ⟨leftKeys, rightKeys, joinType, outputSchema, leftColumns, rightColumns, buildSide,
      h.1, h.2⟩
  else .error (.valueError "Hash join requires matching non-empty equi-key lists")

variable (join : HashJoinOperator)

def keys : Side → List Expression
  | .left => join.leftKeys
  | .right => join.rightKeys

def columns : Side → List String
  | .left => join.leftColumns
  | .right => join.rightColumns

def probeSide : Side := join.buildSide.other

/-- `build | probe if build_is_left else probe | build`. -/
def unite (build probe : Row) : Row :=
  match join.buildSide with
  | .left => build.union probe
  | .right => probe.union build

/-- `build_rows[index]`. -/
def buildRow (buildRows : List Row) (index : ℕ) : Except PyError Row :=
  match buildRows[index]? with
  | some row => .ok row
  | none => .error (.indexError "list index out of range")

/-- One probe row: the build rows it matches, and the output rows. -/
def probeRow (py : Python) (table : KeyTable) (buildRows : List Row) (buildNames : List String)
    (row : Row) : Except PyError (List ℕ × List Row) := do
  let key ← joinKey py (join.keys join.probeSide) row
  let found := KeyTable.lookup key table
  if found ≠ [] then
    let rows ← found.mapM fun index => do return join.unite (← buildRow buildRows index) row
    return (found, rows)
  else if sideIsPreserved join.joinType join.probeSide then
    return ([], [join.unite (Row.fromkeys buildNames) row])
  else return ([], [])

/-- The probe loop, with `matched` and the output so far. -/
def probeLoop (py : Python) (batchSize : ℕ) (table : KeyTable) (buildRows : List Row)
    (buildNames : List String) :
    List Row → Finset ℕ → Output → Except PyError (Finset ℕ × Output)
  | [], matched, out => return (matched, out)
  | row :: rest, matched, out => do
      let (found, rows) ← join.probeRow py table buildRows buildNames row
      probeLoop py batchSize table buildRows buildNames rest (matched ∪ found.toFinset)
        ((out.append rows).emitIfFull join.outputSchema batchSize)

/-- The output row of an unmatched build row, if its side is preserved. -/
def unmatchedBuild (probeNames : List String) (row : Row) : List Row :=
  if sideIsPreserved join.joinType join.buildSide then
    [join.unite row (Row.fromkeys probeNames)]
  else []

/-- The output row of an unmatched probe row, if its side is preserved. -/
def unmatchedProbe (buildNames : List String) (row : Row) : List Row :=
  if sideIsPreserved join.joinType join.probeSide then
    [join.unite (Row.fromkeys buildNames) row]
  else []

/-- The build rows that are left unmatched. -/
def unmatchedRows (buildRows : List Row) (matched : Finset ℕ) : List Row :=
  (buildRows.zipIdx.filter fun item => item.2 ∉ matched).map Prod.fst

/-! #### In memory -/

/-- What the build loop holds: the rows, the hash table and the bytes reserved. -/
structure Build where
  rows : List Row := []
  table : KeyTable := []
  reserved : ℕ := 0

/-- The build loop over the rows of one batch; what is left of the batch from a
refused row on. -/
def buildBatch (py : Python) (keys : List Expression) : List Row → Build → Exec (Build × List Row)
  | [], build => return (build, [])
  | row :: rest, build => do
      let charge := estimateRowSize py row
      if ← MemoryAccount.tryReserve charge then
        let key ← joinKey py keys row
        buildBatch py keys rest
          { rows := build.rows ++ [row]
            table := KeyTable.enter key build.rows.length build.table
            reserved := build.reserved + charge }
      else return (build, row :: rest)

/-- The build loop.  At a refusal: the rows not yet held, and the schema of their batch. -/
def buildLoop (py : Python) (keys : List Expression) :
    List RecordBatch → Build → Exec (Build × Option (List Row × List String))
  | [], build => return (build, none)
  | batch :: rest, build => do
      let (build, refused) ← buildBatch py keys batch.rows build
      if refused.isEmpty then buildLoop py keys rest build
      else return (build, some (refused ++ allRows rest, batch.names))

/-- The filter published for the probe side: every build key is in it. -/
def runtimeFilter (py : Python) (keys : List Expression) (rows : List Row) :
    Except PyError RuntimeFilter := do
  let filter ← RuntimeFilter.create py keys.length (max rows.length 1) defaultRate
  rows.foldlM (fun filter row => do
    match ← joinKey py keys row with
    | none => return filter
    | some key => filter.add py key) filter

/-- `runtime_filter_channel.publish(runtime_filter)`, if there is a channel. -/
def publish (py : Python) (channel : Bool) (rows : List Row) :
    Except PyError (Option RuntimeFilter) :=
  if channel then (runtimeFilter py (join.keys join.buildSide) rows).map some else .ok none

/-- `build_names`. -/
def buildNames (buildRows : List Row) : List String :=
  match buildRows with
  | [] => join.columns join.buildSide
  | row :: _ => row.names

/-- `probe_names` after the probe loop. -/
def probeNames (probeBatches : List RecordBatch) : List String :=
  match probeBatches.getLast? with
  | none => join.columns join.probeSide
  | some batch => if batch.names.isEmpty then join.columns join.probeSide else batch.names

/-- The last loop over the build rows, with its emissions. -/
def emitUnmatched (batchSize : ℕ) (probeNames : List String) (rows : List Row) (out : Output) :
    Output :=
  rows.foldl (fun out row =>
    (out.append (join.unmatchedBuild probeNames row)).emitIfFull join.outputSchema batchSize) out

/-- The join once the build side is in memory. -/
def probeInMemory (py : Python) (batchSize : ℕ) (build : Build) (probeBatches : List RecordBatch) :
    Except PyError (List RecordBatch) := do
  let (matched, out) ←
    join.probeLoop py batchSize build.table build.rows (join.buildNames build.rows)
      (allRows probeBatches) ∅ {}
  let out := join.emitUnmatched batchSize (join.probeNames probeBatches)
    (unmatchedRows build.rows matched) out
  return (out.emit join.outputSchema batchSize).batches

/-! #### Partitioned by key hash -/

/-- `_join_partition_number`. -/
def joinPartitionNumber (py : Python) (keys : List Expression) (n : ℕ) [NeZero n] (row : Row) :
    Except PyError (Fin n) := do
  match ← joinKey py keys row with
  | none => return 0
  | some key => return Fin.ofNat n (py.hash key % n).toNat

/-- The variables of `_partition_rows`. -/
structure Partitions (n : ℕ) where
  buffers : Fin n → List Row := fun _ => []
  files : Fin n → List RecordBatch := fun _ => []
  reserved : ℕ := 0

/-- `buffers[partition].append(row)`. -/
def Partitions.push {n : ℕ} (state : Partitions n) (partition : Fin n) (row : Row) (charge : ℕ) :
    Partitions n :=
  { state with
    buffers := Function.update state.buffers partition (state.buffers partition ++ [row])
    reserved := state.reserved + charge }

/-- `flush`: every buffer that is not empty becomes a spill file. -/
def Partitions.flush {n : ℕ} (names : List String) (state : Partitions n) :
    Exec (Partitions n) := do
  MemoryAccount.release state.reserved
  return {
    buffers := fun _ => []
    files := fun partition =>
      if (state.buffers partition).isEmpty then state.files partition
      else state.files partition ++ [RecordBatch.fromPylist (state.buffers partition) names]
    reserved := 0 }

/-- The loop of `_partition_rows`. -/
def partitionLoop (py : Python) (keys : List Expression) (names : List String) {n : ℕ} [NeZero n] :
    List Row → Partitions n → Exec (Partitions n)
  | [], state => return state
  | row :: rest, state => do
      let charge := estimateRowSize py row
      if ← MemoryAccount.tryReserve charge then
        let partition ← joinPartitionNumber py keys n row
        partitionLoop py keys names rest (state.push partition row charge)
      else
        let state ← state.flush names
        if ← MemoryAccount.tryReserve charge then
          let partition ← joinPartitionNumber py keys n row
          partitionLoop py keys names rest (state.push partition row charge)
        else
          let partition ← joinPartitionNumber py keys n row
          let state ← (state.push partition row 0).flush names
          partitionLoop py keys names rest state

/-- `_partition_rows`: the spill files of each partition. -/
def partitionRows (py : Python) (keys : List Expression) (names : List String) (n : ℕ) [NeZero n]
    (rows : List Row) : Exec (Fin n → List RecordBatch) := do
  let state ← partitionLoop py keys names rows {}
  let state ← state.flush names
  return state.files

/-- `_batches_from_files`. -/
def batchesFromFiles (batchSize : ℕ) (files : List RecordBatch) : List RecordBatch :=
  files.flatMap fun file => batchesFromRows file.rows file.names (max 1 (min batchSize 1024))

/-- `_hash_partition_rows`. -/
def hashPartitionRows (py : Python) (batchSize : ℕ) (buildRows probeRows : List Row) :
    Except PyError (List RecordBatch) := do
  let keys ← buildRows.mapM (joinKey py (join.keys join.buildSide))
  let (matched, out) ←
    join.probeLoop py batchSize (KeyTable.tableOf keys) buildRows (join.columns join.buildSide)
      probeRows ∅ {}
  let out := out.append
    ((unmatchedRows buildRows matched).flatMap
      (join.unmatchedBuild (join.columns join.probeSide)))
  return (out.emit join.outputSchema batchSize).batches

/-! #### Sorted and merged -/

/-- `_take_key_group`: the rows that still have the key, and the rest. -/
def takeKeyGroup (py : Python) (keys : List Expression) (key : List SQLValue) :
    (rows : List Row) → Except PyError { group : List Row × List Row // group.1 ++ group.2 = rows }
  | [] => .ok ⟨([], []), rfl⟩
  | row :: rest => do
      let other ← joinKey py keys row
      if other.any fun other => tupleEq other key then
        let ⟨group, h⟩ ← takeKeyGroup py keys key rest
        return ⟨(row :: group.1, group.2), by rw [List.cons_append, h]⟩
      else return ⟨([], row :: rest), rfl⟩

/-- `_compare_join_keys`. -/
def compareJoinKeys : List SQLValue → List SQLValue → Except PyError ℤ
  | [], [] => .ok 0
  | a :: left, b :: right => do
      let result ← threeWay a b
      if result ≠ 0 then return result
      compareJoinKeys left right
  | _, _ => .error (.valueError "zip() arguments have different lengths")

/-- The loops of `_merge_join_rows`. -/
def mergeLoop (py : Python) (batchSize : ℕ) :
    List Row → List Row → Output → Except PyError Output
  | [], probeRows, out =>
      .ok (out.append (probeRows.flatMap
        (join.unmatchedProbe (join.columns join.buildSide))))
  | build :: buildRows, [], out =>
      .ok (out.append ((build :: buildRows).flatMap
        (join.unmatchedBuild (join.columns join.probeSide))))
  | build :: buildRows, probe :: probeRows, out => do
      let unmatchedBuild := out.append (join.unmatchedBuild (join.columns join.probeSide) build)
      let unmatchedProbe := out.append (join.unmatchedProbe (join.columns join.buildSide) probe)
      match ← joinKey py (join.keys join.buildSide) build,
          ← joinKey py (join.keys join.probeSide) probe with
      | none, _ =>
          mergeLoop py batchSize buildRows (probe :: probeRows)
            (unmatchedBuild.emitIfFull join.outputSchema batchSize)
      | some _, none =>
          mergeLoop py batchSize (build :: buildRows) probeRows
            (unmatchedProbe.emitIfFull join.outputSchema batchSize)
      | some buildKey, some probeKey =>
          if tupleEq buildKey probeKey then
            let buildGroup ← takeKeyGroup py (join.keys join.buildSide) buildKey buildRows
            let probeGroup ← takeKeyGroup py (join.keys join.probeSide) probeKey probeRows
            let rows := (build :: buildGroup.1.1).flatMap fun left =>
              (probe :: probeGroup.1.1).map fun right => join.unite left right
            mergeLoop py batchSize buildGroup.1.2 probeGroup.1.2
              ((out.append rows).emitIfFull join.outputSchema batchSize)
          else if (← compareJoinKeys buildKey probeKey) < 0 then
            mergeLoop py batchSize buildRows (probe :: probeRows)
              (unmatchedBuild.emitIfFull join.outputSchema batchSize)
          else
            mergeLoop py batchSize (build :: buildRows) probeRows
              (unmatchedProbe.emitIfFull join.outputSchema batchSize)
termination_by buildRows probeRows => buildRows.length + probeRows.length
decreasing_by
  all_goals simp only [List.length_cons]
  all_goals try omega
  have h₁ := congrArg List.length buildGroup.2
  have h₂ := congrArg List.length probeGroup.2
  rw [List.length_append] at h₁ h₂
  omega

/-- `_sort_merge_partition`. -/
def sortMergePartition (py : Python) (batchSize : ℕ) (buildFiles probeFiles : List RecordBatch)
    (buildNames probeNames : List String) : Exec (List RecordBatch) := do
  let sortedBuild ← externalSortedRows py (batchesFromFiles batchSize buildFiles) buildNames
    ((join.keys join.buildSide).map fun key => ⟨key, true, false⟩)
  let sortedProbe ← externalSortedRows py (batchesFromFiles batchSize probeFiles) probeNames
    ((join.keys join.probeSide).map fun key => ⟨key, true, false⟩)
  let out ← join.mergeLoop py batchSize sortedBuild sortedProbe {}
  return (out.emit join.outputSchema batchSize).batches

/-- The reservation loop of `_join_partition`: the bytes reserved, and whether all rows fit. -/
def reserveRows (py : Python) : List Row → ℕ → Exec (ℕ × Bool)
  | [], reserved => return (reserved, true)
  | row :: rest, reserved => do
      let charge := estimateRowSize py row
      if ← MemoryAccount.tryReserve charge then reserveRows py rest (reserved + charge)
      else return (reserved, false)

/-- `_join_partition`. -/
def joinPartition (py : Python) (batchSize : ℕ) (buildFiles probeFiles : List RecordBatch)
    (buildNames probeNames : List String) : Exec (List RecordBatch) := do
  let buildRows := allRows (batchesFromFiles batchSize buildFiles)
  let (reserved, fits) ← reserveRows py buildRows 0
  if fits then
    let batches ← join.hashPartitionRows py batchSize buildRows
      (allRows (batchesFromFiles batchSize probeFiles))
    MemoryAccount.release reserved
    return batches
  else
    MemoryAccount.release reserved
    join.sortMergePartition py batchSize buildFiles probeFiles buildNames probeNames

/-- The probe side's schema: that of the first batch or, without one, looked up in
the output schema. -/
def probeSchema (probeBatches : List RecordBatch) : Except PyError (List String) :=
  match probeBatches with
  | batch :: _ => .ok batch.names
  | [] => (join.columns join.probeSide).mapM fun name =>
      if name ∈ join.outputSchema then .ok name
      else .error (.keyError ("Column " ++ name ++ " does not exist in schema"))

/-- `partition_count`. -/
def partitionCount : ℕ := 8

instance : NeZero partitionCount := ⟨by decide⟩

/-- `_execute_partitioned`. -/
def executePartitioned (py : Python) (batchSize : ℕ) (buildRows : List Row)
    (buildNames : List String) (probe : Exec (List RecordBatch)) : Exec (List RecordBatch) := do
  let buildFiles ←
    partitionRows py (join.keys join.buildSide) buildNames partitionCount buildRows
  let probeBatches ← probe
  let probeNames ← join.probeSchema probeBatches
  let probeFiles ←
    partitionRows py (join.keys join.probeSide) probeNames partitionCount (allRows probeBatches)
  let outputs ← (List.finRange partitionCount).mapM fun partition =>
    join.joinPartition py batchSize (buildFiles partition) (probeFiles partition) buildNames
      probeNames
  return outputs.flatten

/-- The rest of `execute` once the build side is held: publish the filter, then probe. -/
def executeHeld (py : Python) (batchSize : ℕ) (channel : Bool) (held : Build)
    (probe : Option RuntimeFilter → Exec (List RecordBatch)) : Exec (List RecordBatch) := do
  let filter ← join.publish py channel held.rows
  let probeBatches ← probe filter
  let batches ← join.probeInMemory py batchSize held probeBatches
  MemoryAccount.release held.reserved
  return batches

/-- `HashJoinOperator.execute`.  The probe side runs with the filter that has been
published by then, if the operator has a channel to publish it in. -/
def execute (py : Python) (batchSize : ℕ) (channel : Bool) (build : Exec (List RecordBatch))
    (probe : Option RuntimeFilter → Exec (List RecordBatch)) : Exec (List RecordBatch) := do
  let buildBatches ← build
  let (held, refused) ← buildLoop py (join.keys join.buildSide) buildBatches {}
  match refused with
  | some (rest, names) =>
      MemoryAccount.release held.reserved
      join.executePartitioned py batchSize (held.rows ++ rest) names (probe none)
  | none => join.executeHeld py batchSize channel held probe

end HashJoinOperator

end DistributedSql

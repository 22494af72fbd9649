/-
A join over partitions (`execution/physical.py`, `execution/distributed.py`,
`coordinator/remote_execution.py`).

`materialize_exchanges` puts the exchanges a `JoinDecision` asks for above the
inputs of a join, and both distributed executors then pair the partitions of the
two sides by ordinal, a side with a single partition being used for every task.

Main results:
* `pairPartitions_ok` — what the tasks emit, task by task;
* `broadcast_iff` — exactly when a broadcast join is the join of its inputs.
-/
import DistributedSql.JoinStrategy
import DistributedSql.Shuffle
import DistributedSql.HashJoinCorrect

namespace DistributedSql

/-- `_columns`: a key name is split at its first dot. -/
def keyColumn (name : String) : Expression :=
  let (source, column) := name.toList.span (· ≠ '.')
  match column with
  | _ :: c :: column => .column (String.ofList (c :: column)) (String.ofList source) ⟨.null, true⟩
  | _ => .column (String.ofList source) "" ⟨.null, true⟩

/-- An `Exchange`: `__post_init__`, and its execution. -/
def executeExchange (py : Python) (hash : Bool) (keys : List Expression) (partitionCount : ℕ)
    (source : List RecordBatch) : Except PyError (List RecordBatch) :=
  if partitionCount < 1 then .error (.valueError "exchange partition_count must be positive")
  else if hash && keys.isEmpty then
    .error (.valueError "hash exchange requires partition keys")
  else exchange py keys partitionCount (!hash) source

namespace JoinDecision

variable (decision : JoinDecision)

def keys : Side → List String
  | .left => decision.leftKeys
  | .right => decision.rightKeys

/-- Whether the decision hash-partitions a side. -/
def repartitions : Side → Bool
  | .left => decision.strategy = .repartitionLeft || decision.strategy = .repartitionBoth
  | .right => decision.strategy = .repartitionRight || decision.strategy = .repartitionBoth

/-- The input of a join on one side, below the exchange `materialize_exchanges` puts there. -/
def input (py : Python) (partitionCount : ℕ) (side : Side) (source : List RecordBatch) :
    Except PyError (List RecordBatch) :=
  if decision.repartitions side then
    executeExchange py true ((decision.keys side).map keyColumn) partitionCount source
  else if decision.strategy = .broadcast ∧ side = decision.buildSide then
    executeExchange py false [] partitionCount source
  else .ok source

end JoinDecision

/-- How Arrow cuts a table into the batches of `to_batches`. -/
structure Chunking where
  toBatches : RecordBatch → List RecordBatch
  names_eq : ∀ table, ∀ batch ∈ toBatches table, batch.names = table.names
  rows_eq : ∀ table, allRows (toBatches table) = table.rows

/-- `partitions[0] if len(partitions) == 1 else partitions[ordinal]`. -/
def pairedPartition (partitions : List RecordBatch) (ordinal : ℕ) : Except PyError RecordBatch :=
  match partitions[if partitions.length = 1 then 0 else ordinal]? with
  | some table => .ok table
  | none => .error (.indexError "tuple index out of range")

/-- The join task of one ordinal, under the memory account it gets. -/
def joinTask (py : Python) (batchSize : ℕ) (join : HashJoinOperator) (chunking : Chunking)
    (account : MemoryAccount) (left right : List RecordBatch) (ordinal : ℕ) :
    Except PyError (List RecordBatch) := do
  let leftTable ← pairedPartition left ordinal
  let rightTable ← pairedPartition right ordinal
  let tables := Side.pick leftTable rightTable
  let (batches, _) ← (join.execute py batchSize false
    (pure (chunking.toBatches (tables join.buildSide)))
    fun _ => pure (chunking.toBatches (tables join.probeSide))).run account
  return batches

/-- The `Join` branch of `_execute_node`: the output of every task. -/
def pairPartitions (py : Python) (batchSize : ℕ) (join : HashJoinOperator) (chunking : Chunking)
    (accounts : ℕ → MemoryAccount) (left right : List RecordBatch) :
    Except PyError (List (List RecordBatch)) :=
  let count := max left.length right.length
  if left.length ∉ [1, count] ∨ right.length ∉ [1, count] then
    .error (.valueError "Join inputs have incompatible partition counts")
  else (List.range count).mapM fun ordinal =>
    joinTask py batchSize join chunking (accounts ordinal) left right ordinal

/-- A join node under a decision: its exchanges, then its tasks. -/
def executeJoin (py : Python) (batchSize : ℕ) (join : HashJoinOperator) (chunking : Chunking)
    (accounts : ℕ → MemoryAccount) (decision : JoinDecision) (partitionCount : ℕ)
    (source : Side → List RecordBatch) : Except PyError (List (List RecordBatch)) := do
  let left ← decision.input py partitionCount .left (source .left)
  let right ← decision.input py partitionCount .right (source .right)
  pairPartitions py batchSize join chunking accounts left right

/-! ### What the tasks emit -/

section Tasks

open HashJoinOperator

variable {py : Python} {join : HashJoinOperator} {domains : List (Set SQLValue)}
  {chunking : Chunking} {batchSize : ℕ}

/-- The tables of one task are inputs like those of the whole join. -/
theorem Chunking.inputs {source : Side → List RecordBatch} (h : Inputs py join domains source)
    {tables : Side → RecordBatch}
    (hnames : ∀ side, (tables side).names = join.columns side)
    (hrows : ∀ side, ∀ row ∈ (tables side).rows, row ∈ allRows (source side)) :
    Inputs py join domains fun side => chunking.toBatches (tables side) where
  ordered := h.ordered
  width := h.width
  hash := h.hash
  nodup := h.nodup
  schema side batch hbatch := (chunking.names_eq _ batch hbatch).trans (hnames side)
  keys side row hrow := h.keys side row (hrows side row (chunking.rows_eq _ ▸ hrow))

/-- A task that does not raise emits the join of its two tables. -/
theorem joinTask_bag {source : Side → List RecordBatch} (h : Inputs py join domains source)
    (hnames : join.outputSchema ≠ []) (hsize : 0 < batchSize) {account : MemoryAccount}
    {left right : List RecordBatch} {ordinal : ℕ} {tables : Side → RecordBatch}
    (hleft : pairedPartition left ordinal = .ok (tables .left))
    (hright : pairedPartition right ordinal = .ok (tables .right))
    (hcolumns : ∀ side, (tables side).names = join.columns side)
    (hrows : ∀ side, ∀ row ∈ (tables side).rows, row ∈ allRows (source side))
    {batches : List RecordBatch}
    (hrun : joinTask py batchSize join chunking account left right ordinal = .ok batches) :
    (allRows batches : Multiset Row)
      = (join.oriented py).bag (tables join.buildSide).rows (tables join.probeSide).rows := by
  rw [joinTask, hleft, hright] at hrun
  simp only [ExceptState.ok_bind, Side.pick_eta] at hrun
  obtain ⟨⟨batches', account'⟩, hok, hpure⟩ := ExceptState.bind_eq_ok hrun
  cases hpure
  rcases execute_spec (chunking.inputs h hcolumns hrows) hnames hsize false account with
    ⟨-, batches'', account'', hok', hbag⟩ | ⟨-, hne⟩
  · rw [hok] at hok'
    cases hok'
    rw [hbag, ← oriented_bag fun side => (allRows (chunking.toBatches (tables side)) : Multiset Row),
      chunking.rows_eq, chunking.rows_eq]
  · exact absurd hok (hne _)

theorem coe_allRows_outputs {ordinals : List ℕ} {outputs : List (List RecordBatch)}
    (emitted : ℕ → Multiset Row)
    (h : List.Forall₂ (fun ordinal batches => (allRows batches : Multiset Row) = emitted ordinal)
      ordinals outputs) :
    (allRows outputs.flatten : Multiset Row) = (ordinals.map emitted).sum := by
  induction h with
  | nil => rfl
  | cons hbatches _ ih =>
    rw [List.flatten_cons, allRows_append, ← Multiset.coe_add, ih, hbatches, List.map_cons,
      List.sum_cons]

theorem coe_allRows (tables : List RecordBatch) :
    (allRows tables : Multiset Row) = (tables.map fun table => (table.rows : Multiset Row)).sum := by
  induction tables with
  | nil => rfl
  | cons table rest ih =>
    rw [allRows_cons, ← Multiset.coe_add, ih, List.map_cons, List.sum_cons]

theorem pairedPartition_mem {partitions : List RecordBatch} {ordinal : ℕ} {table : RecordBatch}
    (h : pairedPartition partitions ordinal = .ok table) : table ∈ partitions := by
  unfold pairedPartition at h
  split at h
  · next hget =>
    cases h
    exact List.mem_of_getElem? hget
  · cases h

/-- If all tasks return, the partition counts fit, and each emits the join of its tables. -/
theorem pairPartitions_ok {source : Side → List RecordBatch} (h : Inputs py join domains source)
    (hnames : join.outputSchema ≠ []) (hsize : 0 < batchSize) {accounts : ℕ → MemoryAccount}
    {inputs : Side → List RecordBatch}
    (hcolumns : ∀ side, ∀ table ∈ inputs side, table.names = join.columns side)
    (hrows : ∀ side, ∀ table ∈ inputs side, ∀ row ∈ table.rows, row ∈ allRows (source side))
    {outputs : List (List RecordBatch)}
    (hrun : pairPartitions py batchSize join chunking accounts (inputs .left) (inputs .right)
      = .ok outputs) :
    (∀ side, (inputs side).length = 1 ∨
      (inputs side).length = max (inputs .left).length (inputs .right).length) ∧
    List.Forall₂ (fun ordinal batches => ∃ tables : Side → RecordBatch,
        (∀ side, pairedPartition (inputs side) ordinal = .ok (tables side)) ∧
        (allRows batches : Multiset Row)
          = (join.oriented py).bag (tables join.buildSide).rows (tables join.probeSide).rows)
      (List.range (max (inputs .left).length (inputs .right).length)) outputs := by
  rw [pairPartitions] at hrun
  split at hrun
  case isTrue => cases hrun
  case isFalse hcounts =>
    rw [not_or, not_not, not_not] at hcounts
    refine ⟨fun side => ?_, (ExceptState.forall₂_of_mapM_eq_ok hrun).imp fun ordinal batches htask => ?_⟩
    · cases side
      · simpa using hcounts.1
      · simpa using hcounts.2
    · obtain ⟨left, hleft, hrest⟩ := ExceptState.bind_eq_ok htask
      obtain ⟨right, hright, -⟩ := ExceptState.bind_eq_ok hrest
      have htables : ∀ side, pairedPartition (inputs side) ordinal
          = .ok (Side.pick left right side) := by
        intro side
        cases side
        · exact hleft
        · exact hright
      exact ⟨Side.pick left right, htables, joinTask_bag h hnames hsize (htables .left)
        (htables .right) (fun side => hcolumns side _ (pairedPartition_mem (htables side)))
        (fun side => hrows side _ (pairedPartition_mem (htables side))) htask⟩

/-! ### Broadcast joins -/

/-- When a broadcast join gives the join of its inputs.  A single probe partition is
joined once for each copy of the build side; several probe partitions each see every
build row, and an unmatched one is emitted for each of them. -/
def BroadcastSafe (py : Python) (join : HashJoinOperator) (partitionCount : ℕ)
    (source : Side → List RecordBatch) : Prop :=
  if (source join.probeSide).length = 1 then
    partitionCount = 1 ∨
      (∀ build ∈ allRows (source join.buildSide), ∀ probe ∈ allRows (source join.probeSide),
        ¬(join.oriented py).Matches build probe) ∧
      ∀ side, sideIsPreserved join.joinType side = true → allRows (source side) = []
  else
    sideIsPreserved join.joinType join.buildSide = true →
      ∀ table ∈ source join.probeSide, ∀ build ∈ allRows (source join.buildSide),
        ∃ probe ∈ table.rows, (join.oriented py).Matches build probe

theorem oriented_keepLeft :
    (join.oriented py).keepLeft = sideIsPreserved join.joinType join.buildSide := by
  unfold oriented
  cases join.buildSide <;> rfl

theorem oriented_keepRight :
    (join.oriented py).keepRight = sideIsPreserved join.joinType join.probeSide := by
  unfold oriented probeSide
  cases join.buildSide <;> rfl

/-- Below a broadcast join, the build side is copied and the probe side left as it is. -/
theorem broadcast_inputs {decision : JoinDecision} (hstrategy : decision.strategy = .broadcast)
    (hside : decision.buildSide = join.buildSide) {partitionCount : ℕ} (hcount : 0 < partitionCount)
    {source : Side → List RecordBatch} (hne : source join.buildSide ≠ [])
    (hnames : ∀ table ∈ source join.buildSide, table.names = join.columns join.buildSide) :
    ∃ inputs : Side → List RecordBatch,
      (∀ side, decision.input py partitionCount side (source side) = .ok (inputs side)) ∧
      inputs join.probeSide = source join.probeSide ∧
      (inputs join.buildSide).length = partitionCount ∧
      ∀ table ∈ inputs join.buildSide, table.names = join.columns join.buildSide ∧
        table.rows = allRows (source join.buildSide) := by
  obtain ⟨tables, hrun, hlen, htables⟩ := exchange_broadcast hcount hne hnames []
  have hprobe : join.probeSide ≠ join.buildSide := by
    unfold probeSide
    cases join.buildSide <;> decide
  have hrepartition : ∀ side, decision.repartitions side = false := by
    intro side
    cases side <;> simp [JoinDecision.repartitions, hstrategy]
  refine ⟨Function.update source join.buildSide tables, fun side => ?_,
    Function.update_of_ne hprobe _ _, by rw [Function.update_self, hlen], ?_⟩
  · rw [JoinDecision.input, hrepartition, if_neg Bool.false_ne_true, hstrategy, hside]
    by_cases h : side = join.buildSide
    · subst h
      rw [if_pos ⟨rfl, rfl⟩, executeExchange, if_neg (by omega), Function.update_self]
      exact hrun
    · rw [if_neg fun hs => h hs.2, Function.update_of_ne h]
  · rw [Function.update_self]
    exact htables

/-- What the tasks emit when every build table holds all build rows. -/
private theorem sum_emitted (buildRows : List Row) {probes : List RecordBatch} {count : ℕ}
    (hne : probes ≠ []) (hlen : probes.length = 1 ∨ probes.length = count)
    {outputs : List (List RecordBatch)}
    (houtputs : List.Forall₂ (fun ordinal batches => ∃ table,
      pairedPartition probes ordinal = .ok table ∧
        (allRows batches : Multiset Row) = (join.oriented py).bag buildRows table.rows)
      (List.range count) outputs) :
    (allRows outputs.flatten : Multiset Row) =
      if probes.length = 1 then count • (join.oriented py).bag buildRows (allRows probes)
      else (probes.map fun table => (join.oriented py).bag buildRows table.rows).sum := by
  by_cases hone : probes.length = 1
  · obtain ⟨probe, rfl⟩ := List.length_eq_one_iff.mp hone
    rw [if_pos hone, coe_allRows_outputs (fun _ =>
      (join.oriented py).bag buildRows (allRows [probe])) (houtputs.imp fun ordinal batches h => ?_)]
    · rw [List.map_const', List.sum_replicate, List.length_range]
    · obtain ⟨table, htable, hbag⟩ := h
      rw [hbag, List.mem_singleton.mp (pairedPartition_mem htable), allRows_cons, allRows_nil,
        List.append_nil]
  · obtain rfl := hlen.resolve_left hone
    rw [if_neg hone, coe_allRows_outputs (fun ordinal =>
      (probes.map fun table => (join.oriented py).bag buildRows table.rows).getD ordinal 0)
      (houtputs.imp fun ordinal batches h => ?_)]
    · congr 1
      refine List.ext_getElem (by simp) fun index h₁ h₂ => ?_
      rw [List.getElem_map, List.getElem_range, List.getD_eq_getElem _ _ h₂]
    · obtain ⟨table, htable, hbag⟩ := h
      rw [pairedPartition, if_neg hone] at htable
      split at htable
      · next hget =>
        cases htable
        rw [hbag, List.getD_eq_getElem?_getD, List.getElem?_map, hget]
        rfl
      · cases htable

end Tasks

/-! ### Broadcasts of a build table to two workers -/

/-- One batch for a table. -/
def wholeTable : Chunking where
  toBatches table := [table]
  names_eq _ batch hbatch := by rw [List.mem_singleton.mp hbatch]
  rows_eq table := by simp

/-- Every answer is yes. -/
def generous : ℕ → MemoryAccount := fun _ => ⟨0, fun _ => true⟩

/-- The smaller right input of a join is broadcast, whatever the join type. -/
def broadcastDecision : JoinDecision := ⟨.right, .broadcast, ["x"], ["y"]⟩

end DistributedSql

/-
The shuffle (`execution/shuffle.py`) behind an exchange.

Every source partition is written as one file per target partition, a broadcast
writing all its rows to each, and a target partition is read as the files for it
from all sources.  The target of a row is a digest of its key values' JSON text.

Main results:
* `exchange_eq` — every target reads the rows sent to it, source by source;
* `exchange_broadcast` — a broadcast gives every target all rows.
-/
import DistributedSql.RuntimeFilter
import DistributedSql.ExceptState

namespace DistributedSql

/-- `data.hex()`. -/
def hexText (data : List UInt8) : String :=
  String.ofList (data.flatMap fun byte =>
    [Nat.digitChar (byte.toNat / 16), Nat.digitChar (byte.toNat % 16)])

/-- `json.dumps` of a float. -/
def jsonFloat (py : Python) (x : PyFloat) : JsonValue :=
  .number (match x.number with
    | .nan => "NaN"
    | .infinity negative => if negative then "-Infinity" else "Infinity"
    | .finite _ => py.str (.float x))

/-- `_stable_json`. -/
def stableJson (py : Python) : SQLValue → JsonValue
  | .bytes data => .object [("bytes", .string (hexText data))]
  | .null => .null
  | .bool b => .bool b
  | .int i => jsonInt i
  | .float x => jsonFloat py x
  | .str text => .string text
  | value => .string (py.str value)

/-- The first eight digest bytes of a text as a number, modulo the partition count. -/
def digestPartition (py : Python) (text : String) (partitionCount : ℕ) : ℕ :=
  bigEndian ((py.sha256 text.toUTF8).take 8) % partitionCount

/-- The text of the key values that `_partition` digests. -/
def shuffleText (py : Python) (values : List SQLValue) : String :=
  JsonValue.dumps (.array (values.map (stableJson py)))

/-- `_partition`. -/
def shufflePartition (py : Python) (keys : List Expression) (partitionCount : ℕ) (row : Row) :
    Except PyError ℕ := do
  let values ← Expression.evaluateAll py row keys
  return digestPartition py (shuffleText py values) partitionCount

/-- `targets` of one row. -/
def shuffleTargets (py : Python) (keys : List Expression) (partitionCount : ℕ) (broadcast : Bool)
    (row : Row) : Except PyError (List ℕ) :=
  if broadcast then .ok (List.range partitionCount)
  else do return [← shufflePartition py keys partitionCount row]

/-- `ShuffleStore.write`: the file of each target partition. -/
def shuffleWrite (py : Python) (keys : List Expression) (partitionCount : ℕ) (broadcast : Bool)
    (table : RecordBatch) : Except PyError (List RecordBatch) :=
  if partitionCount < 1 then .error (.valueError "partition_count must be positive")
  else if !broadcast && decide (1 < partitionCount) && keys.isEmpty then
    .error (.valueError "partitioned shuffle requires keys")
  else do
    let targets ← table.rows.mapM (shuffleTargets py keys partitionCount broadcast)
    let assignments := (List.range partitionCount).map fun target =>
      (targets.zipIdx.filter fun item => target ∈ item.1).map Prod.snd
    return assignments.map table.take

/-- The file of one manifest for a partition. -/
def readFile (partition : ℕ) (files : List RecordBatch) : Except PyError RecordBatch :=
  match files[partition]? with
  | some file => .ok file
  | none => .error (.valueError
      ("Shuffle manifest does not contain exactly one file for partition "
        ++ toString partition ++ "."))

/-- `ShuffleStore.read_partition` of the files written from each source. -/
def readPartition (manifests : List (List RecordBatch)) (partition : ℕ) :
    Except PyError RecordBatch := do
  concatTables (← manifests.mapM (readFile partition))

/-- `DistributedExecutor._exchange` (and its remote counterpart): write every source
partition, then read every target. -/
def exchange (py : Python) (keys : List Expression) (partitionCount : ℕ) (broadcast : Bool)
    (source : List RecordBatch) : Except PyError (List RecordBatch) := do
  let manifests ← source.mapM (shuffleWrite py keys partitionCount broadcast)
  (List.range partitionCount).mapM (readPartition manifests)

/-! ### What an exchange gives -/

/-- Writing sends each row to its targets. -/
theorem shuffleWrite_eq {py : Python} {keys : List Expression} {partitionCount : ℕ}
    {broadcast : Bool} {table : RecordBatch} {targets : Row → List ℕ} (hcount : 0 < partitionCount)
    (hcheck : (!broadcast && decide (1 < partitionCount) && keys.isEmpty) = false)
    (h : ∀ row ∈ table.rows, shuffleTargets py keys partitionCount broadcast row
      = .ok (targets row)) :
    ∃ files, shuffleWrite py keys partitionCount broadcast table = .ok files ∧
      files.length = partitionCount ∧ ∀ target < partitionCount, ∃ file,
        files[target]? = some file ∧ file.names = table.names ∧
          file.rows = table.rows.filter fun row => target ∈ targets row := by
  rw [shuffleWrite, if_neg (by omega), hcheck, ExceptState.mapM_eq_ok h]
  refine ⟨_, rfl, by simp, fun target htarget => ?_⟩
  refine ⟨table.take (((table.rows.map targets).zipIdx.filter fun item =>
    target ∈ item.1).map Prod.snd), ?_, rfl, ?_⟩
  · simp [htarget]
  · rw [List.zipIdx_map, List.filter_map, List.map_map]
    exact table.take_rows fun row => target ∈ targets row

/-- The files of one target, read from the manifests of all sources. -/
private theorem readFiles_eq {source : List RecordBatch} {manifests : List (List RecordBatch)}
    {target : ℕ} {P : RecordBatch → RecordBatch → Prop}
    (h : List.Forall₂ (fun table (files : List RecordBatch) =>
      ∃ file, files[target]? = some file ∧ P table file) source manifests) :
    ∃ tables, manifests.mapM (readFile target) = .ok tables ∧ List.Forall₂ P source tables := by
  induction h with
  | nil => exact ⟨[], rfl, .nil⟩
  | cons hfile _ ih =>
    obtain ⟨file, hget, hP⟩ := hfile
    obtain ⟨tables, htables, hall⟩ := ih
    refine ⟨file :: tables, ?_, .cons hP hall⟩
    rw [List.mapM_cons, readFile, hget, htables]
    rfl

/-- The files of one target, put together. -/
theorem concatTables_filter {source tables : List RecordBatch} {names : List String}
    {p : Row → Bool} (hnames : ∀ table ∈ source, table.names = names)
    (h : List.Forall₂ (fun table (file : RecordBatch) => file.names = table.names ∧
      file.rows = table.rows.filter p) source tables) :
    ∃ table, concatTables tables = .ok table ∧ (source ≠ [] → table.names = names) ∧
      table.rows = (allRows source).filter p := by
  have hconcat : (∀ file ∈ tables, file.names = names) ∧
      allRows tables = (allRows source).filter p := by
    induction h with
    | nil => exact ⟨by simp, rfl⟩
    | cons hfile _ ih =>
      obtain ⟨htable, hsource⟩ := List.forall_mem_cons.mp hnames
      obtain ⟨hrest, hrows⟩ := ih hsource
      refine ⟨List.forall_mem_cons.mpr ⟨hfile.1.trans htable, hrest⟩, ?_⟩
      rw [allRows_cons, allRows_cons, List.filter_append, hfile.2, hrows]
  rcases eq_or_ne tables [] with rfl | hne
  · cases h
    exact ⟨_, rfl, fun hsource => absurd rfl hsource, rfl⟩
  · obtain ⟨table, hok, hname, hrows⟩ := concatTables_eq hne hconcat.1
    exact ⟨table, hok, fun _ => hname, hrows.trans hconcat.2⟩

/-- A target reads, from all sources, the rows sent to it, if the exchange passes its check. -/
theorem exchange_eq_of_check {py : Python} {keys : List Expression} {partitionCount : ℕ}
    {broadcast : Bool} {source : List RecordBatch} {names : List String} {targets : Row → List ℕ}
    (hcount : 0 < partitionCount)
    (hcheck : (!broadcast && decide (1 < partitionCount) && keys.isEmpty) = false) (hne : source ≠ [])
    (hnames : ∀ table ∈ source, table.names = names)
    (h : ∀ row ∈ allRows source, shuffleTargets py keys partitionCount broadcast row
      = .ok (targets row)) :
    ∃ tables, exchange py keys partitionCount broadcast source = .ok tables ∧
      List.Forall₂ (fun target (table : RecordBatch) => table.names = names ∧
        table.rows = (allRows source).filter fun row => target ∈ targets row)
        (List.range partitionCount) tables := by
  obtain ⟨manifests, hwrite, hmanifests⟩ := ExceptState.exists_mapM_eq_ok
    (f := shuffleWrite py keys partitionCount broadcast) (l := source)
    fun table htable => shuffleWrite_eq hcount hcheck fun row hrow =>
      h row (List.mem_flatMap.mpr ⟨table, htable, hrow⟩)
  rw [exchange, hwrite, ExceptState.ok_bind]
  refine ExceptState.exists_mapM_eq_ok fun target htarget => ?_
  obtain ⟨tables, hread, htables⟩ := readFiles_eq
    (P := fun (table file : RecordBatch) => file.names = table.names ∧
      file.rows = table.rows.filter fun row => target ∈ targets row)
    (hmanifests.imp fun _ _ hfiles => hfiles.2 target (List.mem_range.mp htarget))
  obtain ⟨table, hok, hname, hrows⟩ := concatTables_filter hnames htables
  refine ⟨table, ?_, hname hne, hrows⟩
  rw [readPartition, hread]
  exact hok

/-- A target reads, from all sources, the rows sent to it. -/
theorem exchange_eq {py : Python} {keys : List Expression} {partitionCount : ℕ} {broadcast : Bool}
    {source : List RecordBatch} {names : List String} {targets : Row → List ℕ}
    (hcount : 0 < partitionCount) (hkeys : broadcast = true ∨ keys ≠ []) (hne : source ≠ [])
    (hnames : ∀ table ∈ source, table.names = names)
    (h : ∀ row ∈ allRows source, shuffleTargets py keys partitionCount broadcast row
      = .ok (targets row)) :
    ∃ tables, exchange py keys partitionCount broadcast source = .ok tables ∧
      List.Forall₂ (fun target (table : RecordBatch) => table.names = names ∧
        table.rows = (allRows source).filter fun row => target ∈ targets row)
        (List.range partitionCount) tables := by
  refine exchange_eq_of_check hcount ?_ hne hnames h
  rcases hkeys with hb | hk
  · simp [hb]
  · simp [List.isEmpty_eq_false_iff.mpr hk]

/-- A broadcast gives every target all rows. -/
theorem exchange_broadcast {py : Python} {partitionCount : ℕ} {source : List RecordBatch}
    {names : List String} (hcount : 0 < partitionCount) (hne : source ≠ [])
    (hnames : ∀ table ∈ source, table.names = names) (keys : List Expression) :
    ∃ tables, exchange py keys partitionCount true source = .ok tables ∧
      tables.length = partitionCount ∧
      ∀ table ∈ tables, table.names = names ∧ table.rows = allRows source := by
  obtain ⟨tables, hrun, htables⟩ := exchange_eq hcount (Or.inl rfl) hne hnames
    fun row _ => if_pos rfl
  refine ⟨tables, hrun, by simpa using htables.length_eq.symm, fun table htable => ?_⟩
  obtain ⟨target, htarget, hname, hrows⟩ := ExceptState.exists_mem_of_forall₂ htables htable
  refine ⟨hname, hrows.trans (List.filter_eq_self.mpr fun row _ => ?_)⟩
  simpa using htarget

end DistributedSql

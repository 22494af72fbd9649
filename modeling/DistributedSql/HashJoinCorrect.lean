/-
Correctness of the hash join over all physical paths.

Whatever a memory account answers, the join completes and emits the relational
join of its inputs, with one exception: if a build row was refused and the probe
side yields no batch at all, its schema is looked up in the output schema, and a
column that was pruned there raises `KeyError`.

Main results:
* `HashJoinOperator.partitionRows_owns` — spilling splits the rows by key hash;
* `HashJoinOperator.joinPartition_owns` — one partition, in memory or merged;
* `HashJoinOperator.buildLoop_run` — the build loop stops at the first refusal;
* `HashJoinOperator.execute_iff` — exactly when the operator computes the join.
-/
import DistributedSql.MergeJoin
import DistributedSql.RuntimeFilterCorrect

namespace DistributedSql

namespace HashJoinOperator

variable {py : Python} {join : HashJoinOperator} {domains : List (Set SQLValue)}

/-! ### Partitioning -/

/-- The partition of a row whose keys evaluate. -/
def partitionOf (py : Python) (keys : List Expression) (n : ℕ) [NeZero n] (row : Row) : Fin n :=
  match rowKey py keys row with
  | none => 0
  | some key => Fin.ofNat n (py.hash key % n).toNat

theorem joinPartitionNumber_eq {keys : List Expression} {n : ℕ} [NeZero n] {row : Row}
    (h : HasKeys py keys domains row) :
    joinPartitionNumber py keys n row = .ok (partitionOf py keys n row) := by
  rw [joinPartitionNumber, joinKey_eq h, ExceptState.ok_bind, partitionOf]
  cases rowKey py keys row <;> rfl

/-- The partitions hold the rows seen, each in its own. -/
structure Partitions.Holds {n : ℕ} [NeZero n] (py : Python) (keys : List Expression)
    (names : List String) (state : Partitions n) (seen : List Row) : Prop where
  rows : ∀ p, allRows (state.files p) ++ state.buffers p
    = seen.filter fun row => partitionOf py keys n row = p
  names_eq : ∀ p, ∀ file ∈ state.files p, file.names = names

section Partition

variable {keys : List Expression} {names : List String} {n : ℕ} [NeZero n]

theorem Partitions.Holds.push {state : Partitions n} {seen : List Row}
    (h : state.Holds py keys names seen) (row : Row) (charge : ℕ) :
    (state.push (partitionOf py keys n row) row charge).Holds py keys names (seen ++ [row]) where
  rows p := by
    rw [List.filter_append, ← h.rows p, Partitions.push]
    by_cases hp : partitionOf py keys n row = p
    · subst hp
      simp
    · simp [hp, Function.update_of_ne (Ne.symm hp)]
  names_eq := h.names_eq

theorem Partitions.Holds.flush {state : Partitions n} {seen : List Row}
    (h : state.Holds py keys names seen) (hseen : ∀ row ∈ seen, row.Stored names) :
    Owns state.reserved (state.flush names) fun state' left =>
      left = state'.reserved ∧ state'.reserved = 0 ∧ (∀ p, state'.buffers p = []) ∧
        state'.Holds py keys names seen := by
  refine Owns.bind Owns.release ?_
  rintro _ _ rfl
  refine Owns.pure ⟨rfl, rfl, fun _ => rfl, fun p => ?_, fun p file hfile => ?_⟩
  · rw [← h.rows p]
    have hstored : ∀ row ∈ state.buffers p, row.Stored names := by
      intro row hrow
      have hmem : row ∈ allRows (state.files p) ++ state.buffers p :=
        List.mem_append_right _ hrow
      rw [h.rows p] at hmem
      exact hseen row (List.mem_of_mem_filter hmem)
    by_cases hempty : (state.buffers p).isEmpty = true
    · simp [List.isEmpty_iff.mp hempty]
    · simp [hempty, RecordBatch.fromPylist_rows_of_stored hstored]
  · dsimp only at hfile
    split at hfile
    · exact h.names_eq p file hfile
    · rcases List.mem_append.mp hfile with hfile | hfile
      · exact h.names_eq p file hfile
      · rw [List.mem_singleton.mp hfile]
        rfl

theorem partitionLoop_owns {rows : List Row} (hkeys : ∀ row ∈ rows, HasKeys py keys domains row)
    (hrows : ∀ row ∈ rows, row.Stored names) {state : Partitions n} {seen : List Row}
    (h : state.Holds py keys names seen) (hseen : ∀ row ∈ seen, row.Stored names) :
    Owns state.reserved (partitionLoop py keys names rows state) fun state' left =>
      left = state'.reserved ∧ state'.Holds py keys names (seen ++ rows) := by
  induction rows generalizing state seen with
  | nil => exact Owns.pure ⟨rfl, by rwa [List.append_nil]⟩
  | cons row rest ih =>
    obtain ⟨hkey, hkeys'⟩ := List.forall_mem_cons.mp hkeys
    obtain ⟨hrow, hrows'⟩ := List.forall_mem_cons.mp hrows
    have hseen' : ∀ r ∈ seen ++ [row], r.Stored names := by
      intro r hr
      rcases List.mem_append.mp hr with hr | hr
      · exact hseen r hr
      · exact List.mem_singleton.mp hr ▸ hrow
    have hnext : ∀ {state : Partitions n} (charge : ℕ), state.Holds py keys names seen →
        Owns (state.reserved + charge) (do
          let partition ← joinPartitionNumber py keys n row
          partitionLoop py keys names rest (state.push partition row charge)) fun state' left =>
            left = state'.reserved ∧ state'.Holds py keys names (seen ++ row :: rest) := by
      intro state charge hstate
      refine Owns.bind (Owns.lift (joinPartitionNumber_eq hkey)) ?_
      rintro _ _ ⟨rfl, rfl⟩
      rw [List.append_cons]
      exact ih hkeys' hrows' (hstate.push row charge) hseen'
    refine Owns.bind (Owns.tryReserve (estimateRowSize_pos py row)) ?_
    rintro (_ | _) _ rfl
    case true => exact hnext _ h
    case false =>
      refine Owns.bind (h.flush hseen) ?_
      rintro state' _ ⟨rfl, -, -, h'⟩
      refine Owns.bind (Owns.tryReserve (estimateRowSize_pos py row)) ?_
      rintro (_ | _) _ rfl
      case true => exact hnext _ h'
      case false =>
        refine Owns.bind (Owns.lift (joinPartitionNumber_eq hkey)) ?_
        rintro _ _ ⟨rfl, rfl⟩
        refine Owns.bind ((h'.push row 0).flush hseen') ?_
        rintro state'' _ ⟨rfl, -, -, h''⟩
        rw [List.append_cons]
        exact ih hkeys' hrows' h'' hseen'

/-- Spilling splits the rows by partition number, and leaves nothing reserved. -/
theorem partitionRows_owns {rows : List Row} (hkeys : ∀ row ∈ rows, HasKeys py keys domains row)
    (hrows : ∀ row ∈ rows, row.Stored names) :
    Owns 0 (partitionRows py keys names n rows) fun files left => left = 0 ∧
      (∀ p, allRows (files p) = rows.filter fun row => partitionOf py keys n row = p) ∧
      ∀ p, ∀ file ∈ files p, file.names = names := by
  have hstart : Partitions.Holds (n := n) py keys names {} [] :=
    ⟨fun _ => rfl, fun _ _ h => absurd h List.not_mem_nil⟩
  refine Owns.bind (partitionLoop_owns hkeys hrows hstart fun _ h => absurd h List.not_mem_nil) ?_
  rintro state _ ⟨rfl, h⟩
  rw [List.nil_append] at h
  refine Owns.bind (h.flush hrows) ?_
  rintro state' _ ⟨rfl, hzero, hempty, h'⟩
  refine Owns.pure ⟨hzero, fun p => ?_, h'.names_eq⟩
  rw [← h'.rows p, hempty p, List.append_nil]

end Partition

/-! ### One partition -/

/-- What spill files give back. -/
theorem allRows_batchesFromFiles {names : List String} {files : List RecordBatch}
    (hfiles : ∀ file ∈ files, file.names = names) (h : ∀ row ∈ allRows files, row.Stored names)
    (batchSize : ℕ) : allRows (batchesFromFiles batchSize files) = allRows files := by
  induction files with
  | nil => rfl
  | cons file files ih =>
    obtain ⟨hfile, hfiles'⟩ := List.forall_mem_cons.mp hfiles
    rw [allRows_cons] at h ⊢
    rw [batchesFromFiles, List.flatMap_cons, allRows_append, ← batchesFromFiles,
      ih hfiles' fun row hrow => h row (List.mem_append_right _ hrow), hfile,
      batchesFromRows_rows_of_stored (by omega) fun row hrow => h row (List.mem_append_left _ hrow)]

theorem reserveRows_owns (rows : List Row) (reserved : ℕ) :
    Owns reserved (reserveRows py rows reserved) fun result left => left = result.1 := by
  induction rows generalizing reserved with
  | nil => exact Owns.pure rfl
  | cons row rest ih =>
    refine Owns.bind (Owns.tryReserve (estimateRowSize_pos py row)) ?_
    rintro (_ | _) _ rfl
    case true => exact ih _
    case false => exact Owns.pure rfl

section Valid

variable (hS : ∀ S ∈ domains, Ordered S) {batchSize : ℕ} (hnames : join.outputSchema ≠ [])
  (hsize : 0 < batchSize)

include hS hnames hsize

omit hnames hsize in
/-- The rows of one side of a partition, sorted by their keys. -/
theorem externalSortedSide_owns (side : Side) {files : List RecordBatch}
    (hfiles : ∀ row ∈ allRows files, join.RowOf py domains side row)
    (hfn : ∀ file ∈ files, file.names = join.columns side) :
    Owns 0 (externalSortedRows py (batchesFromFiles batchSize files) (join.columns side)
        ((join.keys side).map fun key => ⟨key, true, false⟩)) fun rows left =>
      left = 0 ∧ rows.Perm (allRows files) ∧ StableSort.SortedBy (place py join side) rows := by
  have hread := allRows_batchesFromFiles hfn (fun row h => (hfiles row h).stored) batchSize
  have hvalid : ∀ row ∈ allRows (batchesFromFiles batchSize files),
      join.RowOf py domains side row := by
    rw [hread]
    exact hfiles
  refine Owns.mono (externalSortedRows_owns (S := join.RowOf py domains side)
    (fun a b ha hb => rowLess_orderedBy hS a b ha.keys hb.keys) (fun row h => h.stored) hvalid) ?_
  rintro _ _ ⟨rfl, rfl⟩
  exact ⟨rfl, hread ▸ StableSort.sort_perm _ _, StableSort.sortedBy_sort _ _⟩

/-- Sorting both sides of a partition and merging them joins it. -/
theorem sortMergePartition_owns {buildFiles probeFiles : List RecordBatch}
    (hbuild : ∀ row ∈ allRows buildFiles, join.RowOf py domains join.buildSide row)
    (hprobe : ∀ row ∈ allRows probeFiles, join.RowOf py domains join.probeSide row)
    (hbn : ∀ file ∈ buildFiles, file.names = join.columns join.buildSide)
    (hpn : ∀ file ∈ probeFiles, file.names = join.columns join.probeSide) :
    Owns 0 (join.sortMergePartition py batchSize buildFiles probeFiles
        (join.columns join.buildSide) (join.columns join.probeSide)) fun batches left =>
      left = 0 ∧ (allRows batches : Multiset Row)
        = (join.oriented py).bag (allRows buildFiles) (allRows probeFiles) := by
  refine Owns.bind (externalSortedSide_owns hS join.buildSide hbuild hbn) ?_
  rintro sortedBuild _ ⟨rfl, hbperm, hbsorted⟩
  refine Owns.bind (externalSortedSide_owns hS join.probeSide hprobe hpn) ?_
  rintro sortedProbe _ ⟨rfl, hpperm, hpsorted⟩
  obtain ⟨out, hrun, hout⟩ := mergeLoop_eq hS hnames hsize sortedBuild sortedProbe
    (fun row hrow => hbuild row (hbperm.subset hrow))
    (fun row hrow => hprobe row (hpperm.subset hrow)) hbsorted hpsorted {}
  refine Owns.bind (Owns.lift hrun) ?_
  rintro _ _ ⟨rfl, rfl⟩
  refine Owns.pure ⟨rfl, ?_⟩
  rw [Output.allRows_emit hnames hsize, hout, Output.all_empty, Multiset.coe_nil, zero_add,
    Multiset.coe_eq_coe.mpr hbperm, Multiset.coe_eq_coe.mpr hpperm]

/-- One partition is joined, in memory or by sorting. -/
theorem joinPartition_owns {buildFiles probeFiles : List RecordBatch}
    (hbuild : ∀ row ∈ allRows buildFiles, join.RowOf py domains join.buildSide row)
    (hprobe : ∀ row ∈ allRows probeFiles, join.RowOf py domains join.probeSide row)
    (hbn : ∀ file ∈ buildFiles, file.names = join.columns join.buildSide)
    (hpn : ∀ file ∈ probeFiles, file.names = join.columns join.probeSide) :
    Owns 0 (join.joinPartition py batchSize buildFiles probeFiles
        (join.columns join.buildSide) (join.columns join.probeSide)) fun batches left =>
      left = 0 ∧ (allRows batches : Multiset Row)
        = (join.oriented py).bag (allRows buildFiles) (allRows probeFiles) := by
  have hbread := allRows_batchesFromFiles hbn (fun row h => (hbuild row h).stored) batchSize
  have hpread := allRows_batchesFromFiles hpn (fun row h => (hprobe row h).stored) batchSize
  rw [joinPartition, hbread, hpread]
  refine Owns.bind (reserveRows_owns _ 0) ?_
  rintro ⟨_, fits⟩ reserved rfl
  cases fits with
  | true =>
    obtain ⟨batches, hrun, hrows⟩ := hashPartitionRows_eq hS hbuild hnames hsize hprobe
    refine Owns.bind (Owns.lift hrun) ?_
    rintro _ _ ⟨rfl, rfl⟩
    refine Owns.bind Owns.release ?_
    rintro _ _ rfl
    refine Owns.pure ⟨rfl, ?_⟩
    rw [hrows, BagJoin.coe_nestedLoop]
  | false =>
    refine Owns.bind Owns.release ?_
    rintro _ _ rfl
    exact sortMergePartition_owns hS hnames hsize hbuild hprobe hbn hpn

omit hnames hsize in
/-- Rows that match are in one partition, as equal keys have equal hashes. -/
theorem partitionOf_eq_of_matches
    (hhash : ∀ key key', IsKey domains key → IsKey domains key' → tupleEq key key' = true →
      py.hash key = py.hash key')
    {build probe : Row} (hb : join.RowOf py domains join.buildSide build)
    (hp : join.RowOf py domains join.probeSide probe)
    (hm : (join.oriented py).Matches build probe) (n : ℕ) [NeZero n] :
    partitionOf py (join.keys join.buildSide) n build
      = partitionOf py (join.keys join.probeSide) n probe := by
  have hkeys := (oriented_matches hS hb hp).mp hm
  unfold partitionOf
  cases hbk : rowKey py (join.keys join.buildSide) build with
  | none =>
    rw [hbk] at hkeys
    exact absurd hkeys Bool.false_ne_true
  | some key =>
    cases hpk : rowKey py (join.keys join.probeSide) probe with
    | none =>
      rw [hbk, hpk] at hkeys
      exact absurd hkeys Bool.false_ne_true
    | some key' =>
      rw [hbk, hpk] at hkeys
      have heq := hhash key key' (isKey_of_rowKey hb.keys hbk) (isKey_of_rowKey hp.keys hpk) hkeys
      dsimp only
      rw [heq]

omit hS hnames hsize in
private theorem coe_allRows_flatten (outputs : List (List RecordBatch)) :
    (allRows outputs.flatten : Multiset Row)
      = (outputs.map fun batches => (allRows batches : Multiset Row)).sum := by
  induction outputs with
  | nil => rfl
  | cons batches outputs ih =>
    rw [List.flatten_cons, allRows_append, ← Multiset.coe_add, ih, List.map_cons, List.sum_cons]

/-- With a schema for the probe side, partitioning both sides joins them. -/
theorem executePartitioned_owns
    (hhash : ∀ key key', IsKey domains key → IsKey domains key' → tupleEq key key' = true →
      py.hash key = py.hash key')
    {buildRows : List Row} {probeBatches : List RecordBatch}
    (hbuild : ∀ row ∈ buildRows, join.RowOf py domains join.buildSide row)
    (hprobe : ∀ row ∈ allRows probeBatches, join.RowOf py domains join.probeSide row)
    (hschema : join.probeSchema probeBatches = .ok (join.columns join.probeSide)) :
    Owns 0 (join.executePartitioned py batchSize buildRows (join.columns join.buildSide)
        (pure probeBatches)) fun batches left =>
      left = 0 ∧ (allRows batches : Multiset Row)
        = (join.oriented py).bag buildRows (allRows probeBatches) := by
  refine Owns.bind (partitionRows_owns (fun row h => (hbuild row h).keys)
    fun row h => (hbuild row h).stored) ?_
  rintro buildFiles _ ⟨rfl, hbrows, hbn⟩
  rw [pure_bind]
  refine Owns.bind (Owns.lift hschema) ?_
  rintro _ _ ⟨rfl, rfl⟩
  refine Owns.bind (partitionRows_owns (fun row h => (hprobe row h).keys)
    fun row h => (hprobe row h).stored) ?_
  rintro probeFiles _ ⟨rfl, hprows, hpn⟩
  have hpart : ∀ p, Owns 0 (join.joinPartition py batchSize (buildFiles p) (probeFiles p)
      (join.columns join.buildSide) (join.columns join.probeSide)) fun batches left =>
        left = 0 ∧ (allRows batches : Multiset Row)
          = (join.oriented py).bag (allRows (buildFiles p)) (allRows (probeFiles p)) := fun p =>
    joinPartition_owns hS hnames hsize
      (fun row h => hbuild row (List.mem_of_mem_filter (hbrows p ▸ h)))
      (fun row h => hprobe row (List.mem_of_mem_filter (hprows p ▸ h))) (hbn p) (hpn p)
  refine Owns.bind (Owns.mapM (g := fun batches => (allRows batches : Multiset Row)) _ hpart) ?_
  rintro outputs _ ⟨rfl, houtputs⟩
  refine Owns.pure ⟨rfl, ?_⟩
  rw [coe_allRows_flatten, houtputs, ← Fin.sum_univ_def,
    BagJoin.bag_eq_sum _ (f := partitionOf py (join.keys join.buildSide) partitionCount)
      (g := partitionOf py (join.keys join.probeSide) partitionCount)
      fun build hb probe hp hm =>
        partitionOf_eq_of_matches hS hhash (hbuild build hb) (hprobe probe hp) hm _]
  refine Finset.sum_congr rfl fun p _ => ?_
  rw [hbrows p, hprows p, Multiset.filter_coe, Multiset.filter_coe]

end Valid

/-! ### The build loop -/

/-- Some of the next `n` reservations is refused. -/
def Refused (account : MemoryAccount) (n : ℕ) : Prop := ∃ i < n, account.answers i = false

theorem not_refused_zero {account : MemoryAccount} : ¬Refused account 0 := by
  rintro ⟨i, hi, -⟩
  exact Nat.not_lt_zero i hi

theorem refused_succ {account : MemoryAccount} {n : ℕ} (h : account.answers 0 = true) :
    Refused account (n + 1) ↔ Refused (account.skip 1) n := by
  constructor
  · rintro ⟨_ | i, hi, hans⟩
    · rw [h] at hans
      cases hans
    · exact ⟨i, by omega, hans⟩
  · rintro ⟨i, hi, hans⟩
    exact ⟨i + 1, by omega, hans⟩

/-- What the build loop holds is consistent: its table is that of its rows, and it
accounts for the bytes reserved since `account`. -/
structure Build.Holds (py : Python) (keys : List Expression) (build : Build)
    (start account : MemoryAccount) : Prop where
  table : build.table = KeyTable.tableOf (build.rows.map (rowKey py keys))
  reserved : account.currentBytes = build.reserved + start.currentBytes

section BuildLoop

variable {keys : List Expression} {start : MemoryAccount}

theorem buildBatch_run {rows : List Row} (hrows : ∀ row ∈ rows, HasKeys py keys domains row)
    {build : Build} {account : MemoryAccount} (h : build.Holds py keys start account) :
    ∃ build' rest account', (buildBatch py keys rows build).run account
        = .ok ((build', rest), account') ∧
      build'.Holds py keys start account' ∧ build'.rows ++ rest = build.rows ++ rows ∧
      (rest = [] ∧ ¬Refused account rows.length ∧ account'.answers = (account.skip rows.length).answers
        ∨ rest ≠ [] ∧ Refused account rows.length) := by
  induction rows generalizing build account with
  | nil => exact ⟨build, [], account, rfl, h, rfl, Or.inl ⟨rfl, not_refused_zero, rfl⟩⟩
  | cons row rest ih =>
    obtain ⟨hrow, hrest⟩ := List.forall_mem_cons.mp hrows
    rw [buildBatch, StateT.run_bind, MemoryAccount.run_tryReserve (estimateRowSize_pos py row),
      ExceptState.ok_bind]
    cases hans : account.answers 0 with
    | false =>
      exact ⟨build, row :: rest, _, rfl, ⟨h.table, h.reserved⟩, rfl,
        Or.inr ⟨List.cons_ne_nil _ _, 0, Nat.succ_pos _, hans⟩⟩
    | true =>
      have h' : Build.Holds py keys
          ⟨build.rows ++ [row],
            KeyTable.enter (rowKey py keys row) build.rows.length build.table,
            build.reserved + estimateRowSize py row⟩ start
          { account.skip 1 with
            currentBytes := account.currentBytes + estimateRowSize py row } := by
        refine ⟨?_, ?_⟩
        · rw [List.map_append, List.map_singleton, KeyTable.tableOf_concat, List.length_map,
            h.table]
        · change account.currentBytes + _ = build.reserved + estimateRowSize py row + _
          rw [h.reserved, Nat.add_right_comm]
      obtain ⟨build', left, account', hrun, hholds, happ, hend⟩ := ih hrest h'
      refine ⟨build', left, account', ?_, hholds, by rw [happ, List.append_assoc]; rfl, ?_⟩
      · dsimp only
        rw [if_pos rfl, joinKey_eq hrow]
        exact hrun
      · rw [List.length_cons, refused_succ hans]
        refine hend.imp (fun ⟨hl, hnot, hskip⟩ => ⟨hl, hnot, ?_⟩) id
        rw [hskip]
        funext i
        exact congrArg account.answers (by omega)

/-- The build loop either holds all rows, or it stopped at a refusal. -/
theorem buildLoop_run {batches : List RecordBatch} {names : List String}
    (hrows : ∀ row ∈ allRows batches, HasKeys py keys domains row)
    (hschema : ∀ batch ∈ batches, batch.names = names) {build : Build} {account : MemoryAccount}
    (h : build.Holds py keys start account) :
    ∃ build' refused account', (buildLoop py keys batches build).run account
        = .ok ((build', refused), account') ∧ build'.Holds py keys start account' ∧
      (refused = none ∧ build'.rows = build.rows ++ allRows batches ∧
          ¬Refused account (allRows batches).length
        ∨ ∃ rest, refused = some (rest, names) ∧ build'.rows ++ rest = build.rows ++ allRows batches ∧
          Refused account (allRows batches).length) := by
  induction batches generalizing build account with
  | nil =>
    exact ⟨build, none, account, rfl, h,
      Or.inl ⟨rfl, (List.append_nil _).symm, not_refused_zero⟩⟩
  | cons batch rest ih =>
    rw [allRows_cons] at hrows ⊢
    obtain ⟨hname, hschema'⟩ := List.forall_mem_cons.mp hschema
    obtain ⟨build', left, account', hrun, hholds, happ, hend⟩ :=
      buildBatch_run (fun row hrow => hrows row (List.mem_append_left _ hrow)) h
    rw [buildLoop, StateT.run_bind, hrun, ExceptState.ok_bind]
    rcases hend with ⟨rfl, hnot, hskip⟩ | ⟨hne, hrefused⟩
    · obtain ⟨build'', refused, account'', hrun', hholds', hend'⟩ :=
        ih (fun row hrow => hrows row (List.mem_append_right _ hrow)) hschema' hholds
      have hshift : Refused account (batch.rows.length + (allRows rest).length)
          ↔ Refused account' (allRows rest).length := by
        rw [Refused, Refused, hskip]
        constructor
        · rintro ⟨i, hi, hans⟩
          refine ⟨i - batch.rows.length, ?_, ?_⟩
          · by_contra hge
            exact hnot ⟨i, by omega, hans⟩
          · by_cases hlt : i < batch.rows.length
            · exact absurd ⟨i, hlt, hans⟩ hnot
            · change account.answers (i - batch.rows.length + batch.rows.length) = false
              rwa [Nat.sub_add_cancel (by omega)]
        · rintro ⟨i, hi, hans⟩
          exact ⟨i + batch.rows.length, by omega, hans⟩
      rw [List.append_nil] at happ
      refine ⟨build'', refused, account'', hrun', hholds', ?_⟩
      rwa [List.length_append, hshift, ← List.append_assoc, ← happ]
    · refine ⟨build', some (left ++ allRows rest, batch.names), account', ?_, hholds, Or.inr ?_⟩
      · dsimp only
        rw [if_neg (by simpa using hne)]
        rfl
      · refine ⟨left ++ allRows rest, by rw [hname], ?_, ?_⟩
        · rw [← List.append_assoc, happ, List.append_assoc]
        · obtain ⟨i, hi, hans⟩ := hrefused
          exact ⟨i, by rw [List.length_append]; omega, hans⟩

end BuildLoop

/-! ### The whole operator -/

theorem validRate_defaultRate : BloomFilter.validRate defaultRate = true := by
  simp [BloomFilter.validRate, PyFloat.number, signed, defaultRate]
  norm_num

/-- The filter a build side publishes admits all its keys. -/
theorem runtimeFilter_eq (hS : ∀ S ∈ domains, Ordered S) {keys : List Expression}
    (hwidth : keys.length = domains.length) (hne : keys ≠ []) {rows : List Row}
    (hrows : ∀ row ∈ rows, HasKeys py keys domains row) :
    ∃ filter, runtimeFilter py keys rows = .ok filter ∧
      ∀ row ∈ rows, ∀ key, rowKey py keys row = some key →
        filter.mightContain py key = .ok true := by
  obtain ⟨start, hcreate, hover, -⟩ := RuntimeFilter.create_eq
    (max rows.length 1) hwidth (List.length_pos_iff.mpr hne) validRate_defaultRate
  rw [runtimeFilter, hcreate, ExceptState.ok_bind]
  suffices h : ∀ (rows : List Row) (filter : RuntimeFilter), filter.Over domains →
      (∀ row ∈ rows, HasKeys py keys domains row) →
      ∃ filter' : RuntimeFilter, rows.foldlM (fun (filter : RuntimeFilter) row => do
          match ← joinKey py keys row with
          | none => return filter
          | some key => filter.add py key) filter = .ok filter' ∧ filter'.Over domains ∧
        (∀ key, filter.Admits py key → filter'.Admits py key) ∧
        ∀ row ∈ rows, ∀ key, rowKey py keys row = some key → filter'.Admits py key by
    obtain ⟨filter, hrun, hover', -, hadmits⟩ := h rows start hover hrows
    refine ⟨filter, hrun, fun row hrow key hkey => ?_⟩
    have hkeyed := isKey_of_rowKey (hrows row hrow) hkey
    exact RuntimeFilter.mightContain_of_admits hS hover'
      (hkeyed.imp fun _ _ h => Or.inr h) (ne_null_of_isKey hS hkeyed) (hadmits row hrow key hkey)
  intro rows
  induction rows with
  | nil => exact fun filter hover _ => ⟨filter, rfl, hover, fun _ h => h, by simp⟩
  | cons row rest ih =>
    intro filter hover hrows
    obtain ⟨hrow, hrest⟩ := List.forall_mem_cons.mp hrows
    rw [List.foldlM_cons, joinKey_eq hrow, ExceptState.ok_bind]
    cases hkey : rowKey py keys row with
    | none =>
      obtain ⟨filter', hrun, hover', hkeep, hadmits⟩ := ih filter hover hrest
      refine ⟨filter', hrun, hover', hkeep, List.forall_mem_cons.mpr ⟨fun key h => ?_, hadmits⟩⟩
      rw [hkey] at h
      cases h
    | some key =>
      have hkeyed := isKey_of_rowKey hrow hkey
      obtain ⟨added, hadd, hover₁, -, -, hnew, hkeep₁⟩ := RuntimeFilter.add_eq hS hover
        (hkeyed.imp fun _ _ h => Or.inr h)
      obtain ⟨filter', hrun, hover', hkeep, hadmits⟩ := ih added hover₁ hrest
      refine ⟨filter', ?_, hover', fun k hk => hkeep k (hkeep₁ k hk),
        List.forall_mem_cons.mpr ⟨fun k hk => ?_, hadmits⟩⟩
      · dsimp only
        rw [hadd]
        exact hrun
      · rw [hkey] at hk
        cases hk
        exact hkeep key (hnew (ne_null_of_isKey hS hkeyed))

/-- A filter that admits the keys of these build rows, if there is one. -/
def AdmitsKeys (py : Python) (join : HashJoinOperator) (rows : List Row)
    (filter : Option RuntimeFilter) : Prop :=
  ∀ f, filter = some f → ∀ row ∈ rows, ∀ key,
    rowKey py (join.keys join.buildSide) row = some key → f.mightContain py key = .ok true

section Execute

variable (hS : ∀ S ∈ domains, Ordered S) {batchSize : ℕ} (hnames : join.outputSchema ≠ [])
  (hsize : 0 < batchSize)

include hS hnames hsize

/-- The join in memory, past a probe side that may use the filter. -/
theorem executeHeld_owns (hwidth : domains.length = join.leftKeys.length) {held : Build}
    (htable : held.table = KeyTable.tableOf (held.rows.map (rowKey py (join.keys join.buildSide))))
    (hbuild : ∀ row ∈ held.rows, join.RowOf py domains join.buildSide row) (channel : Bool)
    {probe : Option RuntimeFilter → Exec (List RecordBatch)}
    {post : Option RuntimeFilter → List RecordBatch → Prop}
    (hprobe : ∀ filter, AdmitsKeys py join held.rows filter →
      Owns 0 (probe filter) fun batches left => left = 0 ∧ post filter batches)
    (hpost : ∀ filter batches, post filter batches →
      (∀ row ∈ allRows batches, join.RowOf py domains join.probeSide row) ∧
        ∀ batch ∈ batches, batch.names = join.columns join.probeSide) :
    Owns held.reserved (join.executeHeld py batchSize channel held probe) fun batches left =>
      left = 0 ∧ ∃ filter probeBatches, AdmitsKeys py join held.rows filter ∧
        post filter probeBatches ∧
        (allRows batches : Multiset Row)
          = (join.oriented py).bag held.rows (allRows probeBatches) := by
  obtain ⟨filter, hpublish, hadmits⟩ : ∃ filter, join.publish py channel held.rows = .ok filter ∧
      AdmitsKeys py join held.rows filter := by
    cases channel with
    | false => exact ⟨none, rfl, fun f hf => by cases hf⟩
    | true =>
      have hne : join.keys join.buildSide ≠ [] := by
        cases hside : join.buildSide with
        | left => exact join.keys_ne_nil
        | right =>
          refine List.ne_nil_of_length_pos ?_
          rw [keys, ← join.keys_length]
          exact List.length_pos_iff.mpr join.keys_ne_nil
      have hlen : (join.keys join.buildSide).length = domains.length := by
        rw [hwidth]
        cases join.buildSide with
        | left => rfl
        | right => exact join.keys_length.symm
      obtain ⟨f, hrun, hf⟩ := runtimeFilter_eq hS hlen hne fun row h => (hbuild row h).keys
      refine ⟨some f, ?_, fun g hg => ?_⟩
      · rw [publish, if_pos rfl, hrun]
        rfl
      · cases hg
        exact hf
  refine Owns.bind (Owns.lift hpublish) ?_
  rintro _ _ ⟨rfl, rfl⟩
  refine Owns.bind (Nat.zero_add held.reserved ▸ (hprobe _ hadmits).frame) ?_
  rintro probeBatches _ ⟨_, rfl, rfl, hpb⟩
  obtain ⟨hrows, hschema⟩ := hpost _ _ hpb
  obtain ⟨batches, hrun, hbatches⟩ :=
    probeInMemory_eq hS hbuild hnames hsize hrows hschema held.reserved
  rw [← htable] at hrun
  refine Owns.bind (Owns.lift hrun) ?_
  rintro _ _ ⟨rfl, rfl⟩
  rw [Nat.zero_add]
  refine Owns.bind Owns.release ?_
  rintro _ _ rfl
  refine Owns.pure ⟨rfl, _, probeBatches, hadmits, hpb, ?_⟩
  rw [hbatches, BagJoin.coe_nestedLoop]

end Execute

/-- Inputs as the engine hands them to a join: batches with the columns of their
side, and keys that evaluate to values of one ordered domain per position, on
which `hash` agrees with `==`. -/
structure Inputs (py : Python) (join : HashJoinOperator) (domains : List (Set SQLValue))
    (input : Side → List RecordBatch) : Prop where
  ordered : ∀ S ∈ domains, Ordered S
  width : domains.length = join.leftKeys.length
  hash : ∀ key key', IsKey domains key → IsKey domains key' → tupleEq key key' = true →
    py.hash key = py.hash key'
  nodup : ∀ side, (join.columns side).Nodup
  schema : ∀ side, ∀ batch ∈ input side, batch.names = join.columns side
  keys : ∀ side, ∀ row ∈ allRows (input side), HasKeys py (join.keys side) domains row

theorem Inputs.rowOf {input : Side → List RecordBatch} (h : Inputs py join domains input)
    {side : Side} {row : Row} (hrow : row ∈ allRows (input side)) :
    join.RowOf py domains side row := by
  obtain ⟨batch, hbatch, hmem⟩ := List.mem_flatMap.mp hrow
  have hnames := h.schema side batch hbatch
  refine ⟨h.keys side row hrow, hnames ▸ batch.rows_names row hmem, h.nodup side, fun hnil => ?_⟩
  rw [batch.rows_of_nil (hnames.trans hnil)] at hmem
  cases hmem

/-- Without a probe batch, a probe column that the output schema lacks is an error. -/
theorem probeSchema_nil {name : String} (hname : name ∈ join.columns join.probeSide)
    (hout : name ∉ join.outputSchema) (names : List String) : join.probeSchema [] ≠ .ok names := by
  intro h
  obtain ⟨_, hok⟩ := ExceptState.ok_of_mapM_eq_ok h name hname
  rw [if_neg hout] at hok
  cases hok

theorem probeSchema_eq {input : Side → List RecordBatch} (h : Inputs py join domains input)
    (hok : input join.probeSide = [] →
      ∀ name ∈ join.columns join.probeSide, name ∈ join.outputSchema) :
    join.probeSchema (input join.probeSide) = .ok (join.columns join.probeSide) := by
  cases hinput : input join.probeSide with
  | nil =>
    have hmap := ExceptState.mapM_eq_ok (g := id)
      (f := fun name => if name ∈ join.outputSchema then Except.ok name
        else .error (PyError.keyError ("Column " ++ name ++ " does not exist in schema")))
      (l := join.columns join.probeSide) fun name hname => if_pos (hok hinput name hname)
    rw [List.map_id] at hmap
    exact hmap
  | cons batch rest =>
    refine congrArg Except.ok (h.schema join.probeSide batch ?_)
    rw [hinput]
    exact List.mem_cons_self

theorem executePartitioned_ne_ok {batchSize : ℕ} {buildRows : List Row}
    (hbuild : ∀ row ∈ buildRows, join.RowOf py domains join.buildSide row) {name : String}
    (hname : name ∈ join.columns join.probeSide) (hout : name ∉ join.outputSchema)
    (account : MemoryAccount) (result : List RecordBatch × MemoryAccount) :
    (join.executePartitioned py batchSize buildRows (join.columns join.buildSide)
      (pure [])).run account ≠ .ok result := by
  obtain ⟨files, account', _, hrun, -⟩ := partitionRows_owns (n := partitionCount)
    (fun row h => (hbuild row h).keys) (fun row h => (hbuild row h).stored) account
    account.currentBytes (Nat.zero_add _).symm
  intro h
  rw [executePartitioned, StateT.run_bind, hrun, ExceptState.ok_bind, StateT.run_bind,
    StateT.run_pure, pure_bind] at h
  cases hschema : join.probeSchema [] with
  | ok names => exact probeSchema_nil hname hout names hschema
  | error e =>
    rw [hschema] at h
    cases h

/-- The schema of the probe side cannot be told: a build row was refused, no probe batch
came, and the output schema lacks a probe column. -/
def LacksSchema (join : HashJoinOperator) (input : Side → List RecordBatch)
    (account : MemoryAccount) : Prop :=
  Refused account (allRows (input join.buildSide)).length ∧ input join.probeSide = [] ∧
    ∃ name ∈ join.columns join.probeSide, name ∉ join.outputSchema

section Execute

variable {input : Side → List RecordBatch} (h : Inputs py join domains input) {batchSize : ℕ}
  (hnames : join.outputSchema ≠ []) (hsize : 0 < batchSize)

include h hnames hsize

private theorem executeHeld_spec (channel : Bool) {held : Build} {account account' : MemoryAccount}
    (hheld : held.Holds py (join.keys join.buildSide) account account')
    (hrows : held.rows = allRows (input join.buildSide)) :
    ∃ batches account'', (join.executeHeld py batchSize channel held
        fun _ => pure (input join.probeSide)).run account' = .ok (batches, account'') ∧
      (allRows batches : Multiset Row) = (join.oriented py).bag
        (allRows (input join.buildSide)) (allRows (input join.probeSide)) := by
  have hprobe : ∀ filter, AdmitsKeys py join held.rows filter →
      Owns 0 (pure (input join.probeSide)) fun batches left =>
        left = 0 ∧ batches = input join.probeSide := fun _ _ => Owns.pure ⟨rfl, rfl⟩
  obtain ⟨batches, account'', _, hok, -, -, _, _, -, rfl, hbag⟩ :=
    executeHeld_owns h.ordered hnames hsize h.width hheld.table
      (fun row hrow => h.rowOf (hrows ▸ hrow)) channel hprobe
      (fun _ batches hb => hb ▸ ⟨fun _ => h.rowOf, h.schema join.probeSide⟩) account'
      account.currentBytes hheld.reserved
  exact ⟨batches, account'', hok, hrows ▸ hbag⟩

private theorem executePartitioned_spec {held : Build} {rest : List Row}
    {account account' : MemoryAccount}
    (hheld : held.Holds py (join.keys join.buildSide) account account')
    (hrows : held.rows ++ rest = allRows (input join.buildSide))
    (hok : input join.probeSide = [] →
      ∀ name ∈ join.columns join.probeSide, name ∈ join.outputSchema) :
    ∃ batches account'', (do
        MemoryAccount.release held.reserved
        join.executePartitioned py batchSize (held.rows ++ rest) (join.columns join.buildSide)
          (pure (input join.probeSide)) : Exec _).run account' = .ok (batches, account'') ∧
      (allRows batches : Multiset Row) = (join.oriented py).bag
        (allRows (input join.buildSide)) (allRows (input join.probeSide)) := by
  have howns : Owns held.reserved (do
      MemoryAccount.release held.reserved
      join.executePartitioned py batchSize (held.rows ++ rest) (join.columns join.buildSide)
        (pure (input join.probeSide))) fun batches left => left = 0 ∧
      (allRows batches : Multiset Row)
        = (join.oriented py).bag (held.rows ++ rest : List Row)
            (allRows (input join.probeSide)) := by
    refine Owns.bind Owns.release ?_
    rintro _ _ rfl
    exact executePartitioned_owns h.ordered hnames hsize h.hash
      (fun row hrow => h.rowOf (hrows ▸ hrow)) (fun _ => h.rowOf) (probeSchema_eq h hok)
  obtain ⟨batches, account'', _, hrun, -, -, hbag⟩ :=
    howns account' account.currentBytes hheld.reserved
  exact ⟨batches, account'', hrun, hrows ▸ hbag⟩

/-- The join completes with the relational join of its inputs, unless it has no probe
schema; then it does not complete. -/
theorem execute_spec (channel : Bool) (account : MemoryAccount) :
    (¬LacksSchema join input account ∧ ∃ batches account',
      (join.execute py batchSize channel (pure (input join.buildSide))
        fun _ => pure (input join.probeSide)).run account = .ok (batches, account') ∧
      (allRows batches : Multiset Row)
        = (join.relation py).bag (allRows (input .left)) (allRows (input .right))) ∨
    (LacksSchema join input account ∧ ∀ result,
      (join.execute py batchSize channel (pure (input join.buildSide))
        fun _ => pure (input join.probeSide)).run account ≠ .ok result) := by
  have horient : (join.oriented py).bag (allRows (input join.buildSide))
        (allRows (input join.probeSide))
      = (join.relation py).bag (allRows (input .left)) (allRows (input .right)) :=
    oriented_bag fun side => (allRows (input side) : Multiset Row)
  have hempty : Build.Holds py (join.keys join.buildSide) {} account account :=
    ⟨rfl, (Nat.zero_add _).symm⟩
  obtain ⟨held, refused, account', hrun, hheld, hend⟩ :=
    buildLoop_run (h.keys join.buildSide) (h.schema join.buildSide) hempty
  rw [execute, StateT.run_bind, StateT.run_pure, pure_bind, StateT.run_bind, hrun,
    ExceptState.ok_bind, ← horient]
  rw [List.nil_append] at hend
  rcases hend with ⟨rfl, hrows, hnot⟩ | ⟨rest, rfl, hrows, hrefused⟩
  · exact Or.inl ⟨fun hbad => hnot hbad.1, executeHeld_spec h hnames hsize channel hheld hrows⟩
  by_cases hok : input join.probeSide = [] →
      ∀ name ∈ join.columns join.probeSide, name ∈ join.outputSchema
  · refine Or.inl ⟨?_, executePartitioned_spec h hnames hsize hheld hrows hok⟩
    rintro ⟨-, hnil, name, hname, hout⟩
    exact hout (hok hnil name hname)
  · push Not at hok
    obtain ⟨hnil, name, hname, hout⟩ := hok
    refine Or.inr ⟨⟨hrefused, hnil, name, hname, hout⟩, fun result hresult => ?_⟩
    dsimp only at hresult
    rw [StateT.run_bind, MemoryAccount.run_release _ (hheld.reserved ▸ Nat.le_add_right _ _),
      ExceptState.ok_bind, hnil] at hresult
    exact executePartitioned_ne_ok (fun row hrow => h.rowOf (hrows ▸ hrow)) hname hout _ _ hresult

/-- The join computes the relational join of its inputs if and only if it can tell the
schema of its probe side. -/
theorem execute_iff (channel : Bool) (account : MemoryAccount) :
    (∃ batches account', (join.execute py batchSize channel (pure (input join.buildSide))
        fun _ => pure (input join.probeSide)).run account = .ok (batches, account') ∧
      (allRows batches : Multiset Row)
        = (join.relation py).bag (allRows (input .left)) (allRows (input .right))) ↔
      ¬LacksSchema join input account := by
  rcases execute_spec h hnames hsize channel account with ⟨hnot, hrun⟩ | ⟨hlacks, hne⟩
  · exact iff_of_true hrun hnot
  · refine iff_of_false ?_ (not_not_intro hlacks)
    rintro ⟨batches, account', hrun, -⟩
    exact hne _ hrun

end Execute

/-! ### Runs on tables of ints -/

/-- A join of `x` and `y`. -/
def columnJoin (joinType : JoinType) (outputSchema : List String) : HashJoinOperator where
  leftKeys := [.column "x" "" ⟨.int64, true⟩]
  rightKeys := [.column "y" "" ⟨.int64, true⟩]
  joinType := joinType
  outputSchema := outputSchema
  leftColumns := ["x"]
  rightColumns := ["y"]
  keys_ne_nil := List.cons_ne_nil _ _
  keys_length := rfl

/-- A column of ints. -/
def intTable (name : String) (values : List ℤ) : RecordBatch :=
  RecordBatch.fromPylist (values.map fun i => [(name, .int i)]) [name]

/-- Tables of `x` on the left and of `y` on the right. -/
def intTables (left right : List (List ℤ)) : Side → List RecordBatch :=
  Side.pick (left.map (intTable "x")) (right.map (intTable "y"))

theorem get?_of_mem_intTable {name : String} {values : List ℤ} {row : Row}
    (h : row ∈ (intTable name values).rows) : ∃ i, row.get? name = some (.int i) := by
  rw [intTable, RecordBatch.fromPylist_rows (List.cons_ne_nil _ _), List.map_map] at h
  obtain ⟨i, -, rfl⟩ := List.mem_map.mp h
  exact ⟨i, by simp [Row.get?_restrict, Row.get?_cons]⟩

theorem evaluateAll_column (py : Python) {name : String} {row : Row} {v : SQLValue}
    (h : row.get? name = some v) (type : TypeInfo) :
    Expression.evaluateAll py row [.column name "" type] = .ok [v] := by
  simp only [Expression.evaluateAll, Expression.evaluate, Expression.qualifiedName, if_pos, h,
    ExceptState.ok_bind]
  rfl

theorem rowValues_column (py : Python) {name : String} {row : Row} {v : SQLValue}
    (h : row.get? name = some v) (type : TypeInfo) :
    rowValues py [.column name "" type] row = [v] := by
  rw [rowValues, evaluateAll_column py h]
  rfl

theorem hasKeys_column (py : Python) {name : String} {row : Row} {i : ℤ}
    (h : row.get? name = some (.int i)) (type : TypeInfo) :
    HasKeys py [.column name "" type] [FilterHistory.intDomain] row := by
  have hvalues := rowValues_column py h type
  refine ⟨(evaluateAll_column py h type).trans (congrArg Except.ok hvalues.symm), ?_⟩
  rw [hvalues]
  exact .cons (Or.inr ⟨i, rfl⟩) .nil

/-- Tables of ints are inputs, for a `hash` that is the same on tuples of one length. -/
theorem inputs_intTables_of {py : Python} (hhash : py.hash = Python.ascii.hash)
    (joinType : JoinType) (outputSchema : List String) (left right : List (List ℤ)) :
    Inputs py (columnJoin joinType outputSchema) [FilterHistory.intDomain]
      (intTables left right) where
  ordered := by simp [FilterHistory.ordered_intDomain]
  width := rfl
  hash key key' hk hk' _ := by
    rw [hhash]
    exact congrArg Int.ofNat (hk.length_eq.symm.trans hk'.length_eq)
  nodup side := by cases side <;> exact List.nodup_singleton _
  schema side batch hbatch := by
    cases side <;> obtain ⟨values, -, rfl⟩ := List.mem_map.mp hbatch <;> rfl
  keys side row hrow := by
    obtain ⟨batch, hbatch, hrow⟩ := List.mem_flatMap.mp hrow
    cases side <;> obtain ⟨values, -, rfl⟩ := List.mem_map.mp hbatch <;>
      obtain ⟨i, hi⟩ := get?_of_mem_intTable hrow <;> exact hasKeys_column py hi _

theorem inputs_intTables (joinType : JoinType) (outputSchema : List String)
    (left right : List (List ℤ)) :
    Inputs Python.ascii (columnJoin joinType outputSchema) [FilterHistory.intDomain]
      (intTables left right) :=
  inputs_intTables_of rfl joinType outputSchema left right

theorem execute_iff_ints :
    (∃ batches account', ((columnJoin .full ["x", "y"]).execute Python.ascii 1 true
        (pure (intTables [[1, 2]] [[1]] .right)) fun _ => pure (intTables [[1, 2]] [[1]] .left)).run
          ⟨0, fun _ => false⟩ = .ok (batches, account') ∧
      (allRows batches : Multiset Row)
        = ((columnJoin .full ["x", "y"]).relation Python.ascii).bag
            (allRows (intTables [[1, 2]] [[1]] .left))
            (allRows (intTables [[1, 2]] [[1]] .right))) ↔
      ¬LacksSchema (columnJoin .full ["x", "y"]) (intTables [[1, 2]] [[1]]) ⟨0, fun _ => false⟩ :=
  execute_iff (inputs_intTables .full ["x", "y"] [[1, 2]] [[1]]) (List.cons_ne_nil _ _) one_pos
    true ⟨0, fun _ => false⟩

/-- Of a right join only `y` is asked for.  The build row is refused and the probe side
yields no batch: the lookup of `x` in the output schema raises. -/
theorem execute_pruned :
    Inputs Python.ascii (columnJoin .right ["y"]) [FilterHistory.intDomain] (intTables [] [[1]]) ∧
      ((columnJoin .right ["y"]).execute Python.ascii 1 false (pure (intTables [] [[1]] .right))
        fun _ => pure (intTables [] [[1]] .left)).run ⟨0, fun _ => false⟩
        = .error (.keyError "Column x does not exist in schema") :=
  ⟨inputs_intTables .right ["y"] [] [[1]], rfl⟩

end HashJoinOperator

end DistributedSql

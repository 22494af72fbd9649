/-
The sort-merge fallback of a join partition emits what its hash path emits
(`_sort_merge_partition` and `_hash_partition_rows` in `execution/operators.py`).

Both compute the relational join if the output schema has a column.  Without one a batch
holds no rows; neither path looks at the schema before it emits, so both complete, with
no rows (`mergeLoop_schema`, `probeLoop_schema`).

Main results:
* `HashJoinOperator.sortMergePartition_eq_hash` — the two paths emit one bag of rows.
-/
import DistributedSql.HashJoinCorrect

namespace DistributedSql

namespace Output

variable {out : Output} {batchSize : ℕ}

theorem allRows_emit_nil (h : allRows out.batches = []) :
    allRows (out.emit [] batchSize).batches = [] := by
  rw [emit, allRows, List.flatMap_append, ← allRows, ← allRows, h, allRows_batchesFromRows_nil]
  rfl

theorem allRows_emitIfFull_nil (h : allRows out.batches = []) :
    allRows (out.emitIfFull [] batchSize).batches = [] := by
  unfold emitIfFull
  split
  · exact allRows_emit_nil h
  · exact h

end Output

namespace HashJoinOperator

variable {py : Python} {join : HashJoinOperator} {domains : List (Set SQLValue)} {batchSize : ℕ}

/-! ### Another output schema -/

/-- The same join with another output schema. -/
def withSchema (join : HashJoinOperator) (names : List String) : HashJoinOperator :=
  { join with outputSchema := names }

/-- The merge completes without an output column too, and then stores no rows. -/
theorem mergeLoop_schema (buildRows probeRows : List Row) {names : List String} {out out' : Output}
    (h : (join.withSchema names).mergeLoop py batchSize buildRows probeRows out = .ok out')
    {other : Output} (hother : allRows other.batches = []) :
    ∃ other', (join.withSchema []).mergeLoop py batchSize buildRows probeRows other = .ok other' ∧
      allRows other'.batches = [] := by
  induction hn : buildRows.length + probeRows.length using Nat.strong_induction_on
    generalizing buildRows probeRows out other with
  | _ n ih =>
    match buildRows, probeRows with
    | [], probeRows =>
      refine ⟨_, by rw [mergeLoop], ?_⟩
      exact hother
    | build :: buildRows, [] =>
      refine ⟨_, by rw [mergeLoop], ?_⟩
      exact hother
    | build :: buildRows, probe :: probeRows =>
      have hfull : ∀ rows : List Row,
          allRows ((other.append rows).emitIfFull [] batchSize).batches = [] := fun rows =>
        Output.allRows_emitIfFull_nil (show allRows (other.append rows).batches = [] from hother)
      rw [mergeLoop] at h ⊢
      obtain ⟨buildKey, hbuildKey, h⟩ := ExceptState.bind_eq_ok h
      obtain ⟨probeKey, hprobeKey, h⟩ := ExceptState.bind_eq_ok h
      change joinKey py ((join.withSchema []).keys (join.withSchema []).buildSide) build
        = .ok buildKey at hbuildKey
      change joinKey py ((join.withSchema []).keys (join.withSchema []).probeSide) probe
        = .ok probeKey at hprobeKey
      rw [hbuildKey, ExceptState.ok_bind, hprobeKey, ExceptState.ok_bind]
      cases buildKey with
      | none =>
        exact ih _ (by simp at hn ⊢; omega) buildRows (probe :: probeRows) h (hfull _) rfl
      | some buildKey =>
        cases probeKey with
        | none =>
          exact ih _ (by simp at hn ⊢; omega) (build :: buildRows) probeRows h (hfull _) rfl
        | some probeKey =>
          dsimp only at h ⊢
          split at h
          next heq =>
            obtain ⟨⟨⟨bg, br⟩, rfl⟩, hbuildGroup, h⟩ := ExceptState.bind_eq_ok h
            obtain ⟨⟨⟨pg, pr⟩, rfl⟩, hprobeGroup, h⟩ := ExceptState.bind_eq_ok h
            change takeKeyGroup py ((join.withSchema []).keys (join.withSchema []).buildSide)
              buildKey (bg ++ br) = _ at hbuildGroup
            change takeKeyGroup py ((join.withSchema []).keys (join.withSchema []).probeSide)
              probeKey (pg ++ pr) = _ at hprobeGroup
            rw [if_pos heq, hbuildGroup, ExceptState.ok_bind, hprobeGroup, ExceptState.ok_bind]
            exact ih _ (by simp at hn ⊢; omega) br pr h (hfull _) rfl
          next hne =>
            obtain ⟨order, horder, h⟩ := ExceptState.bind_eq_ok h
            rw [if_neg hne, horder, ExceptState.ok_bind]
            split at h
            next hlt =>
              rw [if_pos hlt]
              exact ih _ (by simp at hn ⊢; omega) buildRows (probe :: probeRows) h (hfull _) rfl
            next hge =>
              rw [if_neg hge]
              exact ih _ (by simp at hn ⊢; omega) (build :: buildRows) probeRows h (hfull _) rfl

/-- So does the probe loop, with the same rows matched. -/
theorem probeLoop_schema {table : KeyTable} {buildRows probeRows : List Row}
    {buildNames names : List String} {matched matched' : Finset ℕ} {out out' : Output}
    (h : (join.withSchema names).probeLoop py batchSize table buildRows buildNames probeRows
      matched out = .ok (matched', out')) {other : Output} (hother : allRows other.batches = []) :
    ∃ other', (join.withSchema []).probeLoop py batchSize table buildRows buildNames probeRows
        matched other = .ok (matched', other') ∧ allRows other'.batches = [] := by
  induction probeRows generalizing matched out other with
  | nil =>
    cases h
    exact ⟨other, rfl, hother⟩
  | cons row rest ih =>
    obtain ⟨⟨found, rows⟩, hrow, h⟩ := ExceptState.bind_eq_ok h
    change (join.withSchema []).probeRow py table buildRows buildNames row = _ at hrow
    rw [probeLoop, hrow, ExceptState.ok_bind]
    exact ih h (Output.allRows_emitIfFull_nil
      (show allRows (other.append rows).batches = [] from hother))

/-! ### The two paths without an output column -/

theorem withSchema_nil (h : join.outputSchema = []) : join.withSchema [] = join := by
  rw [withSchema, ← h]

section Valid

variable (hS : ∀ S ∈ domains, Ordered S) (hsize : 0 < batchSize)

include hS hsize

theorem hashPartitionRows_of_nil (hnil : join.outputSchema = []) {buildRows probeRows : List Row}
    (hbuild : ∀ row ∈ buildRows, join.RowOf py domains join.buildSide row)
    (hprobe : ∀ row ∈ probeRows, join.RowOf py domains join.probeSide row) :
    ∃ batches, join.hashPartitionRows py batchSize buildRows probeRows = .ok batches ∧
      allRows batches = [] := by
  have hkeys : buildRows.mapM (joinKey py (join.keys join.buildSide))
      = .ok (buildRows.map (rowKey py (join.keys join.buildSide))) :=
    ExceptState.mapM_eq_ok fun row hrow => joinKey_eq (hbuild row hrow).keys
  -- the loop completes with a column in the output schema, so it completes without
  have hbuild' : ∀ row ∈ buildRows, (join.withSchema ["x"]).RowOf py domains join.buildSide row :=
    fun row hrow => ⟨(hbuild row hrow).keys, (hbuild row hrow).stored⟩
  have hprobe' : ∀ row ∈ probeRows, (join.withSchema ["x"]).RowOf py domains join.probeSide row :=
    fun row hrow => ⟨(hprobe row hrow).keys, (hprobe row hrow).stored⟩
  have hnames : (join.withSchema ["x"]).outputSchema ≠ [] := List.cons_ne_nil "x" []
  obtain ⟨matched, out, hrun, -⟩ := probeLoop_eq hS hbuild' hnames hsize hprobe' ∅ {}
  have hempty : allRows ({} : Output).batches = [] := rfl
  obtain ⟨other, hother, hrows⟩ := probeLoop_schema hrun hempty
  rw [withSchema_nil hnil] at hother
  change join.probeLoop py batchSize (KeyTable.tableOf
    (buildRows.map (rowKey py (join.keys join.buildSide)))) buildRows
      (join.columns join.buildSide) probeRows ∅ {} = _ at hother
  rw [hashPartitionRows, hkeys, ExceptState.ok_bind, hother, ExceptState.ok_bind, hnil]
  refine ⟨_, rfl, Output.allRows_emit_nil ?_⟩
  exact hrows

theorem sortMergePartition_of_nil (hnil : join.outputSchema = [])
    {buildFiles probeFiles : List RecordBatch}
    (hbuild : ∀ row ∈ allRows buildFiles, join.RowOf py domains join.buildSide row)
    (hprobe : ∀ row ∈ allRows probeFiles, join.RowOf py domains join.probeSide row)
    (hbn : ∀ file ∈ buildFiles, file.names = join.columns join.buildSide)
    (hpn : ∀ file ∈ probeFiles, file.names = join.columns join.probeSide) :
    Owns 0 (join.sortMergePartition py batchSize buildFiles probeFiles
        (join.columns join.buildSide) (join.columns join.probeSide)) fun batches left =>
      left = 0 ∧ allRows batches = [] := by
  refine Owns.bind (externalSortedSide_owns hS join.buildSide hbuild hbn) ?_
  rintro sortedBuild _ ⟨rfl, hbperm, hbsorted⟩
  refine Owns.bind (externalSortedSide_owns hS join.probeSide hprobe hpn) ?_
  rintro sortedProbe _ ⟨rfl, hpperm, hpsorted⟩
  have hbuild' : ∀ row ∈ sortedBuild, (join.withSchema ["x"]).RowOf py domains join.buildSide row :=
    fun row hrow => ⟨(hbuild row (hbperm.subset hrow)).keys, (hbuild row (hbperm.subset hrow)).stored⟩
  have hprobe' : ∀ row ∈ sortedProbe, (join.withSchema ["x"]).RowOf py domains join.probeSide row :=
    fun row hrow => ⟨(hprobe row (hpperm.subset hrow)).keys, (hprobe row (hpperm.subset hrow)).stored⟩
  have hnames : (join.withSchema ["x"]).outputSchema ≠ [] := List.cons_ne_nil "x" []
  obtain ⟨out, hrun, -⟩ :=
    mergeLoop_eq hS hnames hsize sortedBuild sortedProbe hbuild' hprobe' hbsorted hpsorted {}
  have hempty : allRows ({} : Output).batches = [] := rfl
  obtain ⟨other, hother, hrows⟩ := mergeLoop_schema sortedBuild sortedProbe hrun hempty
  rw [withSchema_nil hnil] at hother
  refine Owns.bind (Owns.lift hother) ?_
  rintro _ _ ⟨rfl, rfl⟩
  refine Owns.pure ⟨rfl, ?_⟩
  rw [hnil]
  exact Output.allRows_emit_nil hrows

/-! ### The two paths of a partition -/

/-- The spill files of one side of a partition: rows of that side, under its columns. -/
structure PartitionFiles (py : Python) (join : HashJoinOperator) (domains : List (Set SQLValue))
    (side : Side) (files : List RecordBatch) : Prop where
  rows : ∀ row ∈ allRows files, join.RowOf py domains side row
  names : ∀ file ∈ files, file.names = join.columns side

/-- The sort-merge fallback of a partition emits the bag of rows that its hash path emits. -/
theorem sortMergePartition_eq_hash {buildFiles probeFiles : List RecordBatch}
    (hbuild : PartitionFiles py join domains join.buildSide buildFiles)
    (hprobe : PartitionFiles py join domains join.probeSide probeFiles)
    (account : MemoryAccount) : ∃ hashed merged account',
    join.hashPartitionRows py batchSize (allRows (batchesFromFiles batchSize buildFiles))
        (allRows (batchesFromFiles batchSize probeFiles)) = .ok hashed ∧
      (join.sortMergePartition py batchSize buildFiles probeFiles
        (join.columns join.buildSide) (join.columns join.probeSide)).run account
          = .ok (merged, account') ∧
      account'.currentBytes = account.currentBytes ∧
      (allRows merged : Multiset Row) = allRows hashed := by
  rw [allRows_batchesFromFiles hbuild.names (fun row h => (hbuild.rows row h).stored),
    allRows_batchesFromFiles hprobe.names fun row h => (hprobe.rows row h).stored]
  by_cases hnil : join.outputSchema = []
  · obtain ⟨hashed, hhashed, hnone⟩ :=
      hashPartitionRows_of_nil hS hsize hnil hbuild.rows hprobe.rows
    obtain ⟨merged, account', left, hmerged, hcur, rfl, hnone'⟩ :=
      sortMergePartition_of_nil hS hsize hnil hbuild.rows hprobe.rows hbuild.names hprobe.names
        account account.currentBytes (Nat.zero_add _).symm
    exact ⟨hashed, merged, account', hhashed, hmerged, hcur.trans (Nat.zero_add _),
      by rw [hnone, hnone']⟩
  · obtain ⟨hashed, hhashed, hrows⟩ := hashPartitionRows_eq hS hbuild.rows hnil hsize hprobe.rows
    obtain ⟨merged, account', left, hmerged, hcur, rfl, hbag⟩ := sortMergePartition_owns hS hnil
      hsize hbuild.rows hprobe.rows hbuild.names hprobe.names account account.currentBytes
      (Nat.zero_add _).symm
    refine ⟨hashed, merged, account', hhashed, hmerged, hcur.trans (Nat.zero_add _), ?_⟩
    rw [hbag, hrows, BagJoin.coe_nestedLoop]

end Valid

/-- Key 2 twice on both sides, key 1 on the left and key 3 on the right only. -/
theorem sortMergePartition_eq_hash_ints : ∃ hashed merged account',
    (columnJoin .full ["x", "y"]).hashPartitionRows Python.ascii 1
        (allRows (batchesFromFiles 1 (intTables [[1, 2, 2]] [[2, 3, 2]] .right)))
        (allRows (batchesFromFiles 1 (intTables [[1, 2, 2]] [[2, 3, 2]] .left))) = .ok hashed ∧
      ((columnJoin .full ["x", "y"]).sortMergePartition Python.ascii 1
        (intTables [[1, 2, 2]] [[2, 3, 2]] .right) (intTables [[1, 2, 2]] [[2, 3, 2]] .left)
        ["y"] ["x"]).run ⟨0, fun _ => false⟩ = .ok (merged, account') ∧
      account'.currentBytes = 0 ∧ (allRows merged : Multiset Row) = allRows hashed :=
  have hinputs := inputs_intTables .full ["x", "y"] [[1, 2, 2]] [[2, 3, 2]]
  sortMergePartition_eq_hash hinputs.ordered one_pos
    ⟨fun _ hrow => hinputs.rowOf hrow, hinputs.schema .right⟩
    ⟨fun _ hrow => hinputs.rowOf hrow, hinputs.schema .left⟩ ⟨0, fun _ => false⟩

end HashJoinOperator

end DistributedSql

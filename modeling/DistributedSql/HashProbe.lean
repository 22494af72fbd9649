/-
The hash paths of the join compute the relational join.

`HashJoinOperator.relation` is what a join means: pairs of rows whose keys are
free of NULLs and equal, and the unmatched rows of a preserved side padded with
NULLs.  `HashJoinOperator.oriented` is the same join seen from the build side.

Main results:
* `KeyTable.get_tableOf` — the hash table gives the rows with the key;
* `HashJoinOperator.probeLoop_eq` — the probe loop is a nested loop;
* `HashJoinOperator.probeInMemory_eq`, `HashJoinOperator.hashPartitionRows_eq` —
  what the two hash paths emit.
-/
import DistributedSql.HashJoin
import DistributedSql.JoinBag

namespace DistributedSql

/-! ### Keys -/

/-- The join key of a row whose keys evaluate. -/
def rowKey (py : Python) (keys : List Expression) (row : Row) : Option (List SQLValue) :=
  if (rowValues py keys row).any SQLValue.isNull then none else some (rowValues py keys row)

/-- A key over these domains. -/
def IsKey (domains : List (Set SQLValue)) (key : List SQLValue) : Prop :=
  List.Forall₂ (fun S v => v ∈ S) domains key

/-- Two keys match: both are there, and they are equal. -/
def keysMatch : Option (List SQLValue) → Option (List SQLValue) → Bool
  | some left, some right => tupleEq left right
  | _, _ => false

theorem joinKey_eq {py : Python} {keys : List Expression} {domains : List (Set SQLValue)}
    {row : Row} (h : HasKeys py keys domains row) :
    joinKey py keys row = .ok (rowKey py keys row) := by
  rw [joinKey, h.1, ExceptState.ok_bind]
  rfl

theorem isKey_of_rowKey {py : Python} {keys : List Expression} {domains : List (Set SQLValue)}
    {row : Row} (h : HasKeys py keys domains row) {key : List SQLValue}
    (hkey : rowKey py keys row = some key) : IsKey domains key := by
  unfold rowKey at hkey
  split at hkey
  · cases hkey
  · next hnull =>
    cases hkey
    refine h.2.mem fun v hv hn => hnull (List.any_eq_true.mpr ⟨v, hv, ?_⟩)
    rw [hn]
    rfl

/-- A row with a key has it as its key values. -/
theorem values_of_rowKey {py : Python} {keys : List Expression} {row : Row} {key : List SQLValue}
    (h : rowKey py keys row = some key) : key = rowValues py keys row := by
  unfold rowKey at h
  split at h
  · cases h
  · exact (Option.some.inj h).symm

/-- A key that is there is a key over the domains. -/
def KeyOver (domains : List (Set SQLValue)) (key : Option (List SQLValue)) : Prop :=
  ∀ k, key = some k → IsKey domains k

theorem keyOver_rowKey {py : Python} {keys : List Expression} {domains : List (Set SQLValue)}
    {row : Row} (h : HasKeys py keys domains row) : KeyOver domains (rowKey py keys row) :=
  fun _ hkey => isKey_of_rowKey h hkey

section Keys

variable {domains : List (Set SQLValue)} (hS : ∀ S ∈ domains, Ordered S)

include hS

theorem ne_null_of_isKey {key : List SQLValue} (h : IsKey domains key) : ∀ v ∈ key, v ≠ .null := by
  induction h with
  | nil => exact fun v hv => absurd hv List.not_mem_nil
  | cons hv _ ih =>
    refine List.forall_mem_cons.mpr ⟨?_, ih fun S hmem => hS S (List.mem_cons_of_mem _ hmem)⟩
    exact SQLValue.not_null_of_comparable (hS _ List.mem_cons_self _ hv _ hv)

theorem tupleEq_comm {left right : List SQLValue} (hl : IsKey domains left)
    (hr : IsKey domains right) : tupleEq left right = tupleEq right left := by
  rw [Bool.eq_iff_iff, tupleEq_iff_rank hS hl hr, tupleEq_iff_rank hS hr hl]
  exact eq_comm

theorem tupleEq_trans {a b c : List SQLValue} (ha : IsKey domains a) (hb : IsKey domains b)
    (hc : IsKey domains c) (hab : tupleEq a b = true) : tupleEq a c = tupleEq b c := by
  rw [Bool.eq_iff_iff, tupleEq_iff_rank hS ha hc, tupleEq_iff_rank hS hb hc,
    (tupleEq_iff_rank hS ha hb).mp hab]

theorem keysMatch_comm {left right : Option (List SQLValue)} (hl : KeyOver domains left)
    (hr : KeyOver domains right) : keysMatch left right = keysMatch right left := by
  cases left with
  | none => cases right <;> rfl
  | some left =>
    cases right with
    | none => rfl
    | some right => exact tupleEq_comm hS (hl left rfl) (hr right rfl)

end Keys

/-! ### Hash tables -/

namespace KeyTable

theorem tableOf_concat (keys : List (Option (List SQLValue))) (key : Option (List SQLValue)) :
    tableOf (keys ++ [key]) = enter key keys.length (tableOf keys) := by
  simp [tableOf, List.zipIdx_append]

variable {domains : List (Set SQLValue)}

/-- All stored keys are keys over the domains. -/
def Over (domains : List (Set SQLValue)) (table : KeyTable) : Prop :=
  ∀ item ∈ table, IsKey domains item.1

theorem Over.append {table : KeyTable} (h : Over domains table) {key : List SQLValue}
    (hkey : IsKey domains key) (index : ℕ) : Over domains (append key index table) := by
  induction table with
  | nil =>
    intro item hitem
    rw [List.mem_singleton.mp hitem]
    exact hkey
  | cons item table ih =>
    obtain ⟨hitem, htable⟩ := List.forall_mem_cons.mp h
    rw [KeyTable.append]
    split
    · exact List.forall_mem_cons.mpr ⟨hitem, htable⟩
    · exact List.forall_mem_cons.mpr ⟨hitem, ih htable⟩

variable (hS : ∀ S ∈ domains, Ordered S)

include hS

theorem get_append {table : KeyTable} (h : Over domains table) {key key' : List SQLValue}
    (hkey : IsKey domains key) (hkey' : IsKey domains key') (index : ℕ) :
    get key' (append key index table)
      = get key' table ++ if tupleEq key key' then [index] else [] := by
  induction table with
  | nil => rfl
  | cons item table ih =>
    obtain ⟨hitem, htable⟩ := List.forall_mem_cons.mp h
    obtain ⟨stored, indices⟩ := item
    rw [append]
    split
    case isTrue heq =>
      rw [get, get, tupleEq_trans hS hitem hkey hkey' heq]
      split <;> simp
    case isFalse hne =>
      rw [get, get, ih htable]
      split
      case isTrue heq' =>
        have hnot : tupleEq key key' = false := by
          rw [Bool.eq_false_iff]
          intro hk
          refine hne ?_
          rw [tupleEq_trans hS hitem hkey' hkey heq', tupleEq_comm hS hkey' hkey, hk]
        rw [hnot, if_neg Bool.false_ne_true, List.append_nil]
      case isFalse => rfl

/-- The table holds, under each key, the indices of the rows with that key. -/
theorem get_tableOf {keys : List (Option (List SQLValue))} (hkeys : ∀ k ∈ keys, KeyOver domains k)
    {key : List SQLValue} (hkey : IsKey domains key) :
    Over domains (tableOf keys) ∧
      get key (tableOf keys)
        = (keys.zipIdx.filter fun item => keysMatch item.1 (some key)).map Prod.snd := by
  induction keys using List.reverseRecOn with
  | nil => exact ⟨fun _ h => absurd h List.not_mem_nil, rfl⟩
  | append_singleton keys k ih =>
    obtain ⟨hover, hget⟩ := ih fun k hk => hkeys k (List.mem_append_left _ hk)
    have hk : KeyOver domains k := hkeys k (List.mem_append_right _ List.mem_cons_self)
    rw [tableOf_concat, List.zipIdx_append, List.filter_append, List.map_append, ← hget]
    cases k with
    | none => exact ⟨hover, by simp [enter, keysMatch]⟩
    | some k =>
      refine ⟨hover.append (hk k rfl) _, ?_⟩
      rw [enter, get_append hS hover (hk k rfl) hkey]
      cases hm : tupleEq k key <;> simp [keysMatch, hm]

end KeyTable

/-! ### Output -/

namespace Output

/-- All rows of the output, as they are or will be stored. -/
def all (names : List String) (out : Output) : List Row :=
  allRows out.batches ++ out.rows.map (Row.restrict names)

variable {names : List String} {batchSize : ℕ}

@[simp] theorem all_empty : ({} : Output).all names = [] := rfl

@[simp] theorem all_append (out : Output) (rows : List Row) :
    (out.append rows).all names = out.all names ++ rows.map (Row.restrict names) := by
  simp [all, append]

theorem all_emit (hnames : names ≠ []) (hsize : 0 < batchSize) (out : Output) :
    (out.emit names batchSize).all names = out.all names := by
  simp [all, emit, batchesFromRows_rows hnames hsize]

theorem all_emitIfFull (hnames : names ≠ []) (hsize : 0 < batchSize) (out : Output) :
    (out.emitIfFull names batchSize).all names = out.all names := by
  unfold emitIfFull
  split
  · exact all_emit hnames hsize out
  · rfl

theorem allRows_emit (hnames : names ≠ []) (hsize : 0 < batchSize) (out : Output) :
    allRows (out.emit names batchSize).batches = out.all names := by
  rw [← all_emit hnames hsize out, all]
  simp [emit]

end Output

namespace HashJoinOperator

variable (py : Python) (join : HashJoinOperator)

/-! ### What a join means -/

/-- The relational join of rows of the left and the right side. -/
def relation : BagJoin Row Row Row where
  Matches left right :=
    keysMatch (rowKey py join.leftKeys left) (rowKey py join.rightKeys right) = true
  decidable _ _ := inferInstance
  pair left right := (left.union right).restrict join.outputSchema
  padLeft left := (left.union (Row.fromkeys join.rightColumns)).restrict join.outputSchema
  padRight right := ((Row.fromkeys join.leftColumns).union right).restrict join.outputSchema
  keepLeft := sideIsPreserved join.joinType .left
  keepRight := sideIsPreserved join.joinType .right

/-- The relational join of build and probe rows. -/
def oriented : BagJoin Row Row Row :=
  match join.buildSide with
  | .left => join.relation py
  | .right => (join.relation py).swap

/-- A row of one side: its keys evaluate, and it has the side's columns. -/
structure RowOf (domains : List (Set SQLValue)) (side : Side) (row : Row) : Prop where
  keys : HasKeys py (join.keys side) domains row
  stored : row.Stored (join.columns side)

variable {py join} {domains : List (Set SQLValue)}

theorem oriented_pair (build probe : Row) :
    (join.oriented py).pair build probe = (join.unite build probe).restrict join.outputSchema := by
  unfold oriented unite
  cases join.buildSide <;> rfl

theorem oriented_leftUnit (build : Row) :
    (join.oriented py).leftUnit build
      = (join.unmatchedBuild (join.columns join.probeSide) build).map
          (Row.restrict join.outputSchema) := by
  unfold oriented unmatchedBuild BagJoin.leftUnit probeSide unite
  cases join.buildSide <;>
    (rw [apply_ite (List.map (Row.restrict join.outputSchema))]; rfl)

theorem oriented_rightUnit (probe : Row) :
    (join.oriented py).rightUnit probe
      = (join.unmatchedProbe (join.columns join.buildSide) probe).map
          (Row.restrict join.outputSchema) := by
  unfold oriented unmatchedProbe BagJoin.rightUnit probeSide unite
  cases join.buildSide <;>
    (rw [apply_ite (List.map (Row.restrict join.outputSchema))]; rfl)

theorem oriented_matches (hS : ∀ S ∈ domains, Ordered S) {build probe : Row}
    (hb : join.RowOf py domains join.buildSide build)
    (hp : join.RowOf py domains join.probeSide probe) :
    (join.oriented py).Matches build probe ↔
      keysMatch (rowKey py (join.keys join.buildSide) build)
        (rowKey py (join.keys join.probeSide) probe) = true := by
  have hcomm := keysMatch_comm hS (keyOver_rowKey hb.keys) (keyOver_rowKey hp.keys)
  unfold oriented
  unfold probeSide at hcomm ⊢
  cases hside : join.buildSide with
  | left => rfl
  | right =>
    rw [hside] at hcomm
    rw [hcomm]
    rfl

/-- The oriented join of the two inputs is the relational join. -/
theorem oriented_bag (rows : Side → Multiset Row) :
    (join.oriented py).bag (rows join.buildSide) (rows join.probeSide)
      = (join.relation py).bag (rows .left) (rows .right) := by
  unfold oriented probeSide
  cases join.buildSide with
  | left => rfl
  | right => exact (join.relation py).bag_swap (rows .left) (rows .right)

/-! ### Probing -/

/-- The build rows a probe row matches, with their indices. -/
def hits (py : Python) (join : HashJoinOperator) (buildRows : List Row) (row : Row) :
    List (Row × ℕ) :=
  buildRows.zipIdx.filter fun item => (join.oriented py).Matches item.1 row

theorem hits_fst (buildRows : List Row) (row : Row) :
    (hits py join buildRows row).map Prod.fst
      = buildRows.filter fun build => (join.oriented py).Matches build row :=
  filter_zipIdx_fst buildRows fun build => (join.oriented py).Matches build row

theorem buildRow_of_mem {buildRows : List Row} {item : Row × ℕ}
    (h : item ∈ buildRows.zipIdx) : buildRow buildRows item.2 = .ok item.1 := by
  rw [buildRow, List.mem_zipIdx_iff_getElem?.mp h]

section Valid

variable (hS : ∀ S ∈ domains, Ordered S) {buildRows : List Row}
  (hbuild : ∀ row ∈ buildRows, join.RowOf py domains join.buildSide row)

include hS hbuild

/-- The table of the build rows, looked up with the key of a probe row. -/
theorem lookup_eq_hits {row : Row} (hrow : join.RowOf py domains join.probeSide row) :
    KeyTable.lookup (rowKey py (join.keys join.probeSide) row)
        (KeyTable.tableOf (buildRows.map (rowKey py (join.keys join.buildSide))))
      = (hits py join buildRows row).map Prod.snd := by
  have hmatch : hits py join buildRows row = buildRows.zipIdx.filter fun item =>
      keysMatch (rowKey py (join.keys join.buildSide) item.1)
        (rowKey py (join.keys join.probeSide) row) := by
    refine List.filter_congr fun item hitem => ?_
    rw [Bool.eq_iff_iff, decide_eq_true_iff]
    exact oriented_matches hS (hbuild _ (List.fst_mem_of_mem_zipIdx hitem)) hrow
  rw [hmatch]
  cases hkey : rowKey py (join.keys join.probeSide) row with
  | none =>
    rw [List.filter_eq_nil_iff.mpr fun item _ => ?_]
    · rfl
    · cases rowKey py (join.keys join.buildSide) item.1 <;> exact Bool.false_ne_true
  | some key =>
    have hkeys : ∀ k ∈ buildRows.map (rowKey py (join.keys join.buildSide)),
        KeyOver domains k := by
      intro k hk
      obtain ⟨build, hmem, rfl⟩ := List.mem_map.mp hk
      exact keyOver_rowKey (hbuild build hmem).keys
    rw [KeyTable.lookup, (KeyTable.get_tableOf hS hkeys (isKey_of_rowKey hrow.keys hkey)).2, List.zipIdx_map,
      List.filter_map, List.map_map]
    rfl

theorem probeRow_eq {row : Row} (hrow : join.RowOf py domains join.probeSide row) :
    ∃ rows, join.probeRow py
        (KeyTable.tableOf (buildRows.map (rowKey py (join.keys join.buildSide)))) buildRows
        (join.columns join.buildSide) row = .ok ((hits py join buildRows row).map Prod.snd, rows) ∧
      rows.map (Row.restrict join.outputSchema) = (join.oriented py).probeStep buildRows row := by
  rw [probeRow, joinKey_eq hrow.keys, ExceptState.ok_bind]
  simp only [lookup_eq_hits hS hbuild hrow]
  rw [BagJoin.probeStep, ← hits_fst]
  split
  case isTrue hne =>
    have hrows : ((hits py join buildRows row).map Prod.snd).mapM
        (fun index => do return join.unite (← buildRow buildRows index) row)
          = Except.ok ((hits py join buildRows row).map fun item =>
              join.unite item.1 row) := by
      rw [List.mapM_map]
      refine ExceptState.mapM_eq_ok fun item hitem => ?_
      rw [Function.comp_apply, buildRow_of_mem (List.mem_of_mem_filter hitem)]
      rfl
    rw [hrows]
    refine ⟨_, rfl, ?_⟩
    cases hhits : hits py join buildRows row with
    | nil => exact absurd (by rw [hhits]; rfl) hne
    | cons item rest => simp [oriented_pair]
  case isFalse he =>
    have hnil : hits py join buildRows row = [] := by simpa using he
    rw [hnil]
    refine ⟨join.unmatchedProbe (join.columns join.buildSide) row, ?_,
      (oriented_rightUnit row).symm⟩
    unfold unmatchedProbe
    split <;> rfl

variable {batchSize : ℕ} (hnames : join.outputSchema ≠ []) (hsize : 0 < batchSize)

include hnames hsize

/-- The probe loop is a nested loop, and `matched` collects the build rows hit. -/
theorem probeLoop_eq {probeRows : List Row}
    (hprobe : ∀ row ∈ probeRows, join.RowOf py domains join.probeSide row) (matched : Finset ℕ)
    (out : Output) :
    ∃ matched' out', join.probeLoop py batchSize
        (KeyTable.tableOf (buildRows.map (rowKey py (join.keys join.buildSide)))) buildRows
        (join.columns join.buildSide) probeRows matched out = .ok (matched', out') ∧
      (∀ index, index ∈ matched' ↔ index ∈ matched ∨
        ∃ row ∈ probeRows, index ∈ (hits py join buildRows row).map Prod.snd) ∧
      out'.all join.outputSchema
        = out.all join.outputSchema
          ++ probeRows.flatMap ((join.oriented py).probeStep buildRows) := by
  induction probeRows generalizing matched out with
  | nil => exact ⟨matched, out, rfl, by simp, by simp⟩
  | cons row rest ih =>
    obtain ⟨rows, hrun, hrows⟩ := probeRow_eq hS hbuild (hprobe row List.mem_cons_self)
    obtain ⟨matched', out', hrun', hmatched, hout⟩ :=
      ih (fun r hr => hprobe r (List.mem_cons_of_mem row hr))
        (matched ∪ ((hits py join buildRows row).map Prod.snd).toFinset)
        ((out.append rows).emitIfFull join.outputSchema batchSize)
    refine ⟨matched', out', ?_, fun index => ?_, ?_⟩
    · rw [probeLoop, hrun, ExceptState.ok_bind]
      exact hrun'
    · rw [hmatched, Finset.mem_union, List.mem_toFinset, List.exists_mem_cons_iff, or_assoc]
    · rw [hout, Output.all_emitIfFull hnames hsize, Output.all_append, hrows, List.flatMap_cons,
        List.append_assoc]

omit hS hbuild hnames hsize in
/-- The rows that are not in `matched` are those without a match. -/
theorem unmatchedRows_eq {probeRows : List Row} {matched : Finset ℕ}
    (h : ∀ index, index ∈ matched ↔ index ∈ (∅ : Finset ℕ) ∨
      ∃ row ∈ probeRows, index ∈ (hits py join buildRows row).map Prod.snd) :
    unmatchedRows buildRows matched
      = buildRows.filter fun build => ∀ row ∈ probeRows, ¬(join.oriented py).Matches build row := by
  have hindex : ∀ item ∈ buildRows.zipIdx, (decide (item.2 ∉ matched) : Bool)
      = decide (∀ row ∈ probeRows, ¬(join.oriented py).Matches item.1 row) := by
    intro item hitem
    refine decide_eq_decide.mpr ?_
    rw [h, or_iff_right (Finset.notMem_empty _)]
    constructor
    · intro hnot row hrow hm
      refine hnot ⟨row, hrow, List.mem_map.mpr ⟨item, ?_, rfl⟩⟩
      exact List.mem_filter.mpr ⟨hitem, decide_eq_true hm⟩
    · rintro hnone ⟨row, hrow, hmem⟩
      obtain ⟨other, hother, hindex⟩ := List.mem_map.mp hmem
      obtain ⟨hother, hm⟩ := List.mem_filter.mp hother
      have hsame : other.1 = item.1 := by
        have h₁ := List.mem_zipIdx_iff_getElem?.mp hother
        rw [hindex, List.mem_zipIdx_iff_getElem?.mp hitem] at h₁
        exact (Option.some.inj h₁).symm
      exact hnone row hrow (hsame ▸ of_decide_eq_true hm)
  rw [unmatchedRows, List.filter_congr hindex]
  exact filter_zipIdx_fst buildRows fun build =>
    ∀ row ∈ probeRows, ¬(join.oriented py).Matches build row

omit hS hbuild in
private theorem all_emitUnmatched (rows : List Row) (out : Output) :
    (join.emitUnmatched batchSize (join.columns join.probeSide) rows out).all join.outputSchema
      = out.all join.outputSchema ++ rows.flatMap (join.oriented py).leftUnit := by
  induction rows generalizing out with
  | nil => simp [emitUnmatched]
  | cons row rest ih =>
    rw [emitUnmatched, List.foldl_cons, ← emitUnmatched, ih, Output.all_emitIfFull hnames hsize,
      Output.all_append, ← oriented_leftUnit, List.flatMap_cons, List.append_assoc]

/-- The join in memory emits the nested loop's rows. -/
theorem probeInMemory_eq {probeBatches : List RecordBatch}
    (hprobe : ∀ row ∈ allRows probeBatches, join.RowOf py domains join.probeSide row)
    (hschema : ∀ batch ∈ probeBatches, batch.names = join.columns join.probeSide)
    (reserved : ℕ) :
    ∃ batches, join.probeInMemory py batchSize
        ⟨buildRows, KeyTable.tableOf (buildRows.map (rowKey py (join.keys join.buildSide))),
          reserved⟩ probeBatches = .ok batches ∧
      allRows batches = (join.oriented py).nestedLoop buildRows (allRows probeBatches) := by
  obtain ⟨matched, out, hrun, hmatched, hout⟩ :=
    probeLoop_eq hS hbuild hnames hsize hprobe ∅ {}
  have hbuildNames : join.buildNames buildRows = join.columns join.buildSide := by
    cases buildRows with
    | nil => rfl
    | cons row rest => exact (hbuild row List.mem_cons_self).stored.names_eq
  have hprobeNames : join.probeNames probeBatches = join.columns join.probeSide := by
    unfold probeNames
    cases hlast : probeBatches.getLast? with
    | none => rfl
    | some batch =>
      change (if batch.names.isEmpty then _ else batch.names) = _
      rw [hschema batch (List.mem_of_getLast? hlast), ite_self]
  rw [probeInMemory]
  simp only [hbuildNames, hrun, ExceptState.ok_bind, hprobeNames]
  refine ⟨_, rfl, ?_⟩
  rw [Output.allRows_emit hnames hsize, all_emitUnmatched hnames hsize, hout, Output.all_empty,
    List.nil_append, unmatchedRows_eq hmatched]
  rfl

/-- So does the hash join of one partition. -/
theorem hashPartitionRows_eq {probeRows : List Row}
    (hprobe : ∀ row ∈ probeRows, join.RowOf py domains join.probeSide row) :
    ∃ batches, join.hashPartitionRows py batchSize buildRows probeRows = .ok batches ∧
      allRows batches = (join.oriented py).nestedLoop buildRows probeRows := by
  obtain ⟨matched, out, hrun, hmatched, hout⟩ :=
    probeLoop_eq hS hbuild hnames hsize hprobe ∅ {}
  have hkeys : buildRows.mapM (joinKey py (join.keys join.buildSide))
      = .ok (buildRows.map (rowKey py (join.keys join.buildSide))) :=
    ExceptState.mapM_eq_ok fun row hrow => joinKey_eq (hbuild row hrow).keys
  rw [hashPartitionRows, hkeys, ExceptState.ok_bind]
  simp only [hrun, ExceptState.ok_bind]
  refine ⟨_, rfl, ?_⟩
  have hleft : ∀ rows : List Row,
      (rows.flatMap (join.unmatchedBuild (join.columns join.probeSide))).map
          (Row.restrict join.outputSchema) = rows.flatMap (join.oriented py).leftUnit := by
    intro rows
    rw [List.map_flatMap]
    exact List.flatMap_congr fun row _ => (oriented_leftUnit row).symm
  rw [Output.allRows_emit hnames hsize, Output.all_append, hout, Output.all_empty,
    List.nil_append, hleft, unmatchedRows_eq hmatched]
  rfl

end Valid

end HashJoinOperator

end DistributedSql

/-
`SortAggregateOperator` and `HashAggregateOperator` (`execution/operators.py`).

The one sorts its input by the GROUP BY expressions, with spill files where memory is
refused, and ends a group where the key changes; the other keeps its groups in a dict.

Main results:
* `sortAggregateExecute_iff`, `hashAggregate_iff` — what either emits are the outcomes of
  groups of rows;
* `sortAggregate_perm_hashAggregate` — over totally ordered keys, the rows that come out of
  the one are those that come out of the other, in some order.
-/
import DistributedSql.Aggregation

namespace DistributedSql

/-- `SortAggregateOperator.execute`. -/
def sortAggregateExecute (py : Python) (groupBy : List Expression)
    (aggregates : List NamedExpression) (batchSize : ℕ) (inputNames : List String)
    (batches : List RecordBatch) : Exec (List RecordBatch) :=
  if groupBy.isEmpty then
    liftM (hashAggregate py groupBy aggregates batchSize (allRows batches))
  else do
    let rows ← externalSortedRows py batches inputNames
      (groupBy.map fun expression => ⟨expression, true, false⟩)
    sortedAggregate py groupBy aggregates batchSize rows

theorem aggregateExecute_eq {py : Python} {groupBy : List Expression}
    {aggregates : List NamedExpression} {batchSize : ℕ} {inputNames : List String}
    {batches : List RecordBatch} (h : (aggregateNames py groupBy aggregates).Nodup) :
    aggregateExecute py groupBy aggregates batchSize inputNames batches
      = sortAggregateExecute py groupBy aggregates batchSize inputNames batches :=
  if_neg (not_not.mpr h)

/-! ### Equality of keys -/

section Keys

variable {domains : List (Set SQLValue)}

theorem eq_null_iff {v : SQLValue} : v.eq .null = true ↔ v = .null := by
  cases v <;> simp [SQLValue.eq, SQLValue.order, SQLValue.number?]

theorem null_eq_iff {v : SQLValue} : SQLValue.null.eq v = true ↔ v = .null := by
  cases v <;> simp [SQLValue.eq, SQLValue.order, SQLValue.number?]

private theorem eq_iff_sortRank {S : Set SQLValue} (hS : Ordered S) {v w : SQLValue}
    (hv : v = .null ∨ v ∈ S) (hw : w = .null ∨ w ∈ S) : v.eq w = true ↔ v.sortRank = w.sortRank := by
  by_cases hvn : v = .null
  · rw [hvn, null_eq_iff]
    by_cases hwn : w = .null
    · rw [hwn]
      exact iff_of_true rfl rfl
    · rw [SQLValue.sortRank_of_ne hwn]
      exact iff_of_false hwn WithTop.top_ne_coe
  · by_cases hwn : w = .null
    · rw [hwn, eq_null_iff, SQLValue.sortRank_of_ne hvn]
      exact iff_of_false hvn WithTop.coe_ne_top
    · rw [SQLValue.sortRank_of_ne hvn, SQLValue.sortRank_of_ne hwn, WithTop.coe_inj]
      exact SQLValue.eq_iff_rank (hS v (hv.resolve_left hvn) w (hw.resolve_left hwn))

/-- Keys over ordered domains are equal if they stand at the same place. -/
theorem tupleEq_iff_sortKey (hS : ∀ S ∈ domains, Ordered S) {left right : List SQLValue}
    (hl : InDomains domains left) (hr : InDomains domains right) :
    tupleEq left right = true ↔ sortKey left = sortKey right := by
  induction hl generalizing right with
  | nil =>
    cases hr
    exact iff_of_true rfl rfl
  | @cons S v domains left hv _ ih =>
    obtain _ | ⟨hw, hr⟩ := hr
    rw [tupleEq, Bool.and_eq_true, eq_iff_sortRank (hS S List.mem_cons_self) hv hw,
      ih (fun S hmem => hS S (List.mem_cons_of_mem _ hmem)) hr, sortKey, sortKey, sortKey, sortKey,
      List.map_cons, List.map_cons, List.cons_eq_cons]

end Keys

section Outcomes

variable {py : Python} {groupBy : List Expression} {aggregates : List NamedExpression}
  {domains : List (Set SQLValue)} {names : List String}

/-! ### The sorted groups -/

/-- The rows with their keys, in the order of the keys. -/
def sortedKeyed (py : Python) (groupBy : List Expression) (rows : List Row) :
    List (List SQLValue × Row) :=
  (StableSort.sort (fun row => sortKey (rowValues py groupBy row)) rows).map fun row =>
    (rowValues py groupBy row, row)

/-- A sort-based aggregate emits the outcomes of its groups, whatever memory it is granted. -/
theorem sortAggregateExecute_iff {batchSize : ℕ} (hsize : 0 < batchSize) (hgroup : groupBy ≠ [])
    (hS : ∀ S ∈ domains, Ordered S) {batches : List RecordBatch}
    (hkeys : ∀ row ∈ allRows batches, HasKeys py groupBy domains row)
    (hstored : ∀ row ∈ allRows batches, Row.Stored names row) (account : MemoryAccount)
    {result : List Row} :
    (∃ output account',
      (sortAggregateExecute py groupBy aggregates batchSize names batches).run account
        = .ok (output, account') ∧ allRows output = result) ↔
    ∃ outcomes, (Grouping.runs tupleEq (sortedKeyed py groupBy (allRows batches))).mapM
        (groupOutcome py groupBy aggregates) = .ok outcomes ∧
      result = outcomes.map (Row.restrict (aggregateNames py groupBy aggregates)) := by
  have hless : StableSort.OrderedBy
      (rowLess py (groupBy.map fun expression => ⟨expression, true, false⟩))
      (fun row => sortKey (rowValues py groupBy row))
      (fun row => HasKeys py groupBy domains row ∧ Row.Stored names row) :=
    fun a b ha hb => rowLess_orderedBy hS a b ha.1 hb.1
  have hsorted := externalSortedRows_owns hless (fun _ h => h.2)
    fun row hrow => ⟨hkeys row hrow, hstored row hrow⟩
  obtain ⟨rows, middle, _, hsort, -, -, rfl⟩ := hsorted account account.currentBytes
    (Nat.zero_add _).symm
  have hkeyed : keyedRows py groupBy (StableSort.sort (fun row => sortKey (rowValues py groupBy row))
      (allRows batches)) = .ok (sortedKeyed py groupBy (allRows batches)) := by
    rw [keyedRows_iff, sortedKeyed, List.map_map]
    refine ⟨List.map_id _, fun item hitem => ?_⟩
    obtain ⟨row, hrow, rfl⟩ := List.mem_map.mp hitem
    exact (hkeys row ((StableSort.sort_perm _ _).subset hrow)).1
  have hiff : (∃ output, sortedAggregate py groupBy aggregates batchSize
      (StableSort.sort (fun row => sortKey (rowValues py groupBy row)) (allRows batches)) = .ok output ∧
        allRows output = result) ↔ _ := sortedAggregate_iff hsize hgroup
  unfold sortAggregateExecute
  rw [if_neg (mt List.isEmpty_iff.mp hgroup), StateT.run_bind, hsort]
  constructor
  · rintro ⟨output, account', h, hresult⟩
    obtain ⟨houtput, -⟩ := run_lift_eq_ok.mp h
    obtain ⟨keyed, outcomes, hk, houtcomes, hres⟩ := hiff.mp ⟨output, houtput, hresult⟩
    cases hkeyed.symm.trans hk
    exact ⟨outcomes, houtcomes, hres⟩
  · rintro ⟨outcomes, houtcomes, hres⟩
    obtain ⟨output, houtput, hresult⟩ := hiff.mpr ⟨_, outcomes, hkeyed, houtcomes, hres⟩
    exact ⟨output, middle, run_lift_eq_ok.mpr ⟨houtput, rfl⟩, hresult⟩

/-- The keys of the groups are values of the GROUP BY expressions. -/
theorem inDomains_of_mem_sortedKeyed {rows : List Row}
    (hkeys : ∀ row ∈ rows, HasKeys py groupBy domains row) :
    ∀ item ∈ sortedKeyed py groupBy rows, InDomains domains item.1 ∧ item.1.length = groupBy.length := by
  intro item hitem
  obtain ⟨row, hrow, rfl⟩ := List.mem_map.mp hitem
  have hkey := hkeys row ((StableSort.sort_perm _ _).subset hrow)
  exact ⟨hkey.2, Expression.length_of_evaluateAll hkey.1⟩

/-! ### The groups of the dict -/

/-- A group of rows with the states that come of it. -/
def groupStates (py : Python) (aggregates : List NamedExpression) (group : List SQLValue × List Row) :
    Except PyError AggregateGroup := do
  return (group.1, ← statesOf py aggregates group.2)

theorem statesOf_concat_iff {rows : List Row} {row : Row} {states : List AggregateState} :
    statesOf py aggregates (rows ++ [row]) = .ok states ↔
      ∃ before, statesOf py aggregates rows = .ok before ∧
        before.mapM (AggregateState.add py row) = .ok states := by
  constructor
  · intro h
    obtain ⟨new, hnew, hrows⟩ := ExceptState.bind_eq_ok h
    rw [List.foldlM_append] at hrows
    obtain ⟨before, hbefore, -⟩ := ExceptState.bind_eq_ok hrows
    have hstates : statesOf py aggregates rows = .ok before :=
      ExceptState.bind_eq_ok_iff.mpr ⟨new, hnew, hbefore⟩
    exact ⟨before, hstates, (statesOf_concat hstates row).symm.trans h⟩
  · rintro ⟨before, hbefore, h⟩
    exact (statesOf_concat hbefore row).trans h

theorem groupStates_iff {group : List SQLValue × List Row} {result : AggregateGroup} :
    groupStates py aggregates group = .ok result ↔
      result.1 = group.1 ∧ statesOf py aggregates group.2 = .ok result.2 := by
  rw [groupStates, ExceptState.bind_eq_ok_iff]
  constructor
  · rintro ⟨states, hstates, h⟩
    cases h
    exact ⟨rfl, hstates⟩
  · rintro ⟨hkey, hstates⟩
    exact ⟨result.2, hstates, congrArg Except.ok (Prod.ext hkey.symm rfl)⟩

/-- The groups after one more row. -/
theorem addToGroups_iff {new : List AggregateState} (hnew : newStates aggregates = .ok new)
    (item : List SQLValue × Row) {groups : List (List SQLValue × List Row)}
    {result : List AggregateGroup} :
    (Grouping.push tupleEq item groups).mapM (groupStates py aggregates) = .ok result ↔
      ∃ before, groups.mapM (groupStates py aggregates) = .ok before ∧
        addToGroups py item.2 (item.1, new) before = .ok result := by
  induction groups generalizing result with
  | nil =>
    rw [Grouping.push, ExceptState.mapM_cons_eq_ok_iff]
    constructor
    · rintro ⟨group, rest, hgroup, hrest, rfl⟩
      cases hrest
      obtain ⟨hkey, hstates⟩ := groupStates_iff.mp hgroup
      rw [statesOf_singleton hnew] at hstates
      refine ⟨[], rfl, ?_⟩
      rw [addToGroups, hstates, ← hkey]
      rfl
    · rintro ⟨before, hbefore, h⟩
      cases hbefore
      obtain ⟨states, hstates, h⟩ := ExceptState.bind_eq_ok h
      cases h
      exact ⟨_, [], groupStates_iff.mpr ⟨rfl, (statesOf_singleton hnew item.2).trans hstates⟩, rfl,
        rfl⟩
  | cons group rest ih =>
    rw [Grouping.push]
    by_cases hsame : tupleEq group.1 item.1 = true
    · rw [if_pos hsame, ExceptState.mapM_cons_eq_ok_iff]
      constructor
      · rintro ⟨head, tail, hhead, htail, rfl⟩
        obtain ⟨hkey, hstates⟩ := groupStates_iff.mp hhead
        obtain ⟨before, hbefore, hadd⟩ := statesOf_concat_iff.mp hstates
        refine ⟨(group.1, before) :: tail, ExceptState.mapM_cons_eq_ok_iff.mpr
          ⟨_, tail, groupStates_iff.mpr ⟨rfl, hbefore⟩, htail, rfl⟩, ?_⟩
        rw [addToGroups, if_pos hsame, hadd]
        exact congrArg Except.ok (congrArg (· :: tail) (Prod.ext hkey.symm rfl))
      · rintro ⟨before, hbefore, h⟩
        obtain ⟨head, tail, hhead, htail, rfl⟩ := ExceptState.mapM_cons_eq_ok_iff.mp hbefore
        obtain ⟨hkey, hstates⟩ := groupStates_iff.mp hhead
        rw [addToGroups, if_pos (hkey.symm ▸ hsame)] at h
        obtain ⟨states, hadd, h⟩ := ExceptState.bind_eq_ok h
        cases h
        exact ⟨(head.1, states), tail,
          groupStates_iff.mpr ⟨hkey, statesOf_concat_iff.mpr ⟨head.2, hstates, hadd⟩⟩, htail, rfl⟩
    · rw [if_neg hsame, ExceptState.mapM_cons_eq_ok_iff]
      constructor
      · rintro ⟨head, tail, hhead, htail, rfl⟩
        obtain ⟨before, hbefore, hadd⟩ := ih.mp htail
        have hkey := (groupStates_iff.mp hhead).1
        refine ⟨head :: before, ExceptState.mapM_cons_eq_ok_iff.mpr
          ⟨head, before, hhead, hbefore, rfl⟩, ?_⟩
        rw [addToGroups, if_neg (hkey.symm ▸ hsame), hadd]
        rfl
      · rintro ⟨before, hbefore, h⟩
        obtain ⟨head, tail, hhead, htail, rfl⟩ := ExceptState.mapM_cons_eq_ok_iff.mp hbefore
        have hkey := (groupStates_iff.mp hhead).1
        rw [addToGroups, if_neg (hkey.symm ▸ hsame)] at h
        obtain ⟨more, hadd, h⟩ := ExceptState.bind_eq_ok h
        cases h
        exact ⟨head, more, hhead, ih.mpr ⟨tail, htail, hadd⟩, rfl⟩

/-- The first of the groups that a row is put in. -/
private theorem newStates_of_push {item : List SQLValue × Row}
    {groups : List (List SQLValue × List Row)} {result : List AggregateGroup}
    (h : (Grouping.push tupleEq item groups).mapM (groupStates py aggregates) = .ok result) :
    ∃ new, newStates aggregates = .ok new := by
  obtain ⟨group, rest, hpush⟩ : ∃ group rest, Grouping.push tupleEq item groups = group :: rest := by
    cases groups with
    | nil => exact ⟨_, _, rfl⟩
    | cons group rest =>
      rw [Grouping.push]
      split
      · exact ⟨_, _, rfl⟩
      · exact ⟨_, _, rfl⟩
  rw [hpush] at h
  obtain ⟨head, -, hhead, -, -⟩ := ExceptState.mapM_cons_eq_ok_iff.mp h
  obtain ⟨new, hnew, -⟩ := ExceptState.bind_eq_ok (groupStates_iff.mp hhead).2
  exact ⟨new, hnew⟩

/-- The dict holds the groups of the rows, each with its states. -/
theorem hashGroups_iff (hgroup : groupBy ≠ []) {rows : List Row}
    (hkeys : ∀ row ∈ rows, Expression.evaluateAll py row groupBy = .ok (rowValues py groupBy row))
    {result : List AggregateGroup} :
    hashGroups py groupBy aggregates rows = .ok result ↔
      (Grouping.groups tupleEq (rows.map fun row => (rowValues py groupBy row, row))).mapM
        (groupStates py aggregates) = .ok result := by
  have hempty : ¬groupBy.isEmpty = true := mt List.isEmpty_iff.mp hgroup
  rw [hashGroups, if_neg hempty, pure_bind]
  beta_reduce
  induction rows using List.reverseRecOn generalizing result with
  | nil => exact Iff.rfl
  | append_singleton rows row ih =>
    obtain ⟨hrows, hrow⟩ := List.forall_mem_append.mp hkeys
    have hkey := hrow row (List.mem_singleton_self row)
    rw [List.foldlM_append, Grouping.groups, List.map_append, List.foldl_append, List.map_singleton,
      List.foldl_cons, List.foldl_nil, ← Grouping.groups]
    constructor
    · intro h
      obtain ⟨before, hbefore, h⟩ := ExceptState.bind_eq_ok h
      obtain ⟨after, h, hafter⟩ := ExceptState.bind_eq_ok h
      cases hafter
      beta_reduce at h
      rw [hkey, ExceptState.ok_bind] at h
      obtain ⟨new, hnew, h⟩ := ExceptState.bind_eq_ok h
      exact (addToGroups_iff hnew _).mpr ⟨before, (ih hrows).mp hbefore, h⟩
    · intro h
      obtain ⟨new, hnew⟩ := newStates_of_push h
      obtain ⟨before, hbefore, h⟩ := (addToGroups_iff hnew _).mp h
      refine ExceptState.bind_eq_ok_iff.mpr ⟨before, (ih hrows).mpr hbefore, ?_⟩
      refine ExceptState.bind_eq_ok_iff.mpr ⟨result, ?_, rfl⟩
      beta_reduce
      rw [hkey, ExceptState.ok_bind, hnew]
      exact h

/-- A hash aggregate emits the outcomes of its groups. -/
theorem hashAggregate_iff {batchSize : ℕ} (hsize : 0 < batchSize) (hgroup : groupBy ≠ [])
    {rows : List Row}
    (hkeys : ∀ row ∈ rows, Expression.evaluateAll py row groupBy = .ok (rowValues py groupBy row))
    {result : List Row} :
    (∃ output, hashAggregate py groupBy aggregates batchSize rows = .ok output ∧
      allRows output = result) ↔
    ∃ outcomes, (Grouping.groups tupleEq (rows.map fun row => (rowValues py groupBy row, row))).mapM
        (groupOutcome py groupBy aggregates) = .ok outcomes ∧
      result = outcomes.map (Row.restrict (aggregateNames py groupBy aggregates)) := by
  have hnames : aggregateNames py groupBy aggregates ≠ [] := by
    rw [aggregateNames]
    exact List.append_ne_nil_of_left_ne_nil (List.map_eq_nil_iff.not.mpr hgroup) _
  have houtcome : groupOutcome py groupBy aggregates
      = fun group => groupStates py aggregates group >>= finishGroup py groupBy aggregates := by
    funext group
    rw [groupOutcome, groupStates, bind_assoc]
    rfl
  rw [houtcome]
  constructor
  · rintro ⟨output, h, rfl⟩
    obtain ⟨groups, hgroups, h⟩ := ExceptState.bind_eq_ok h
    obtain ⟨outcomes, houtcomes, h⟩ := ExceptState.bind_eq_ok h
    cases h
    exact ⟨outcomes, ExceptState.mapM_mapM_eq_ok_iff.mp
      ⟨groups, (hashGroups_iff hgroup hkeys).mp hgroups, houtcomes⟩,
      batchesFromRows_rows hnames hsize outcomes⟩
  · rintro ⟨outcomes, h, rfl⟩
    obtain ⟨groups, hgroups, houtcomes⟩ := ExceptState.mapM_mapM_eq_ok_iff.mpr h
    refine ⟨_, ExceptState.bind_eq_ok_iff.mpr ⟨groups, (hashGroups_iff hgroup hkeys).mpr hgroups,
      ExceptState.bind_eq_ok_iff.mpr ⟨outcomes, houtcomes, rfl⟩⟩, ?_⟩
    exact batchesFromRows_rows hnames hsize outcomes

end Outcomes

/-! ### The two operators -/

section Operators

variable {py : Python} {groupBy : List Expression} {aggregates : List NamedExpression}
  {domains : List (Set SQLValue)} {names : List String}

/-- The groups of the rows, and the runs of the sorted rows. -/
theorem groups_perm_sorted (hS : ∀ S ∈ domains, Ordered S) {rows : List Row}
    (hkeys : ∀ row ∈ rows, HasKeys py groupBy domains row) :
    (Grouping.groups tupleEq (rows.map fun row => (rowValues py groupBy row, row))).Perm
      (Grouping.runs tupleEq (sortedKeyed py groupBy rows)) := by
  have hsame : ∀ a b, InDomains domains a → InDomains domains b →
      (tupleEq a b = true ↔ sortKey a = sortKey b) := fun a b ha hb => tupleEq_iff_sortKey hS ha hb
  refine Grouping.groups_perm_runs hsame (fun item hitem => ?_)
    ((StableSort.sort_perm _ rows).map _) ?_ fun key hkey => ?_
  · obtain ⟨row, hrow, rfl⟩ := List.mem_map.mp hitem
    exact (hkeys row hrow).2
  · exact List.pairwise_map.mpr (StableSort.sortedBy_sort _ _)
  · -- the rows of one key stand at one place, where the sort keeps them as they are
    rw [sortedKeyed, List.filter_map, List.filter_map, ← StableSort.sort_filter]
    refine congrArg _ (StableSort.sort_of_same fun a ha b hb => ?_)
    obtain ⟨ha, hka⟩ := List.mem_filter.mp ha
    obtain ⟨hb, hkb⟩ := List.mem_filter.mp hb
    rw [← (hsame key _ hkey (hkeys a ha).2).mp hka, (hsame key _ hkey (hkeys b hb).2).mp hkb]

/-- Sort aggregation emits the rows of hash aggregation, whatever memory it is granted. -/
theorem sortAggregate_perm_hashAggregate {batchSize : ℕ} (hsize : 0 < batchSize)
    (hS : ∀ S ∈ domains, Ordered S) {batches : List RecordBatch}
    (hkeys : ∀ row ∈ allRows batches, HasKeys py groupBy domains row)
    (hstored : ∀ row ∈ allRows batches, Row.Stored names row) (account : MemoryAccount) :
    (∀ output account',
      (sortAggregateExecute py groupBy aggregates batchSize names batches).run account
        = .ok (output, account') →
      ∃ output', hashAggregate py groupBy aggregates batchSize (allRows batches) = .ok output' ∧
        (allRows output).Perm (allRows output')) ∧
    ∀ output', hashAggregate py groupBy aggregates batchSize (allRows batches) = .ok output' →
      ∃ output account',
        (sortAggregateExecute py groupBy aggregates batchSize names batches).run account
          = .ok (output, account') ∧ (allRows output).Perm (allRows output') := by
  by_cases hgroup : groupBy = []
  · -- without GROUP BY it is the one operator
    have hsort : (sortAggregateExecute py groupBy aggregates batchSize names batches).run account
        = (liftM (hashAggregate py groupBy aggregates batchSize (allRows batches)) :
            Exec (List RecordBatch)).run account := by
      rw [sortAggregateExecute, if_pos (List.isEmpty_iff.mpr hgroup)]
    rw [hsort]
    constructor
    · intro output account' h
      exact ⟨output, (run_lift_eq_ok.mp h).1, List.Perm.refl _⟩
    · intro output' h
      exact ⟨output', account, run_lift_eq_ok.mpr ⟨h, rfl⟩, List.Perm.refl _⟩
  · have hperm := groups_perm_sorted hS hkeys
    have hhash : ∀ result, (∃ output, hashAggregate py groupBy aggregates batchSize
        (allRows batches) = .ok output ∧ allRows output = result) ↔ _ := fun result =>
      hashAggregate_iff hsize hgroup fun row hrow => (hkeys row hrow).1
    constructor
    · intro output account' h
      obtain ⟨outcomes, houtcomes, hrows⟩ :=
        (sortAggregateExecute_iff hsize hgroup hS hkeys hstored account).mp ⟨output, account', h, rfl⟩
      obtain ⟨outcomes', houtcomes', hperm'⟩ := ExceptState.mapM_perm hperm.symm houtcomes
      obtain ⟨output', houtput', hrows'⟩ := (hhash _).mpr ⟨outcomes', houtcomes', rfl⟩
      exact ⟨output', houtput', by rw [hrows, hrows']; exact hperm'.map _⟩
    · intro output' h
      obtain ⟨outcomes, houtcomes, hrows⟩ := (hhash _).mp ⟨output', h, rfl⟩
      obtain ⟨outcomes', houtcomes', hperm'⟩ := ExceptState.mapM_perm hperm houtcomes
      obtain ⟨output, account', hrun, hrows'⟩ :=
        (sortAggregateExecute_iff hsize hgroup hS hkeys hstored account).mpr
          ⟨outcomes', houtcomes', rfl⟩
      exact ⟨output, account', hrun, by rw [hrows, hrows']; exact (hperm'.map _).symm⟩

end Operators

/-- A runtime that prints function names as they are. -/
def countPython : Python := { Python.ascii with upper := fun text => text }

def countAll : List NamedExpression :=
  [⟨"n", .aggregateFunction "count" [] ⟨.int64, false⟩ false⟩]

/-- `COUNT(*)` of the groups of a column with NULLs, no memory being granted. -/
theorem sortAggregate_perm_hashAggregate_count :
    ∃ output account', (sortAggregateExecute countPython [.column "x" "" ⟨.int64, true⟩]
        countAll 10 ["x"] nullableInts).run ⟨0, fun _ => false⟩ = .ok (output, account') ∧
      (allRows output).Perm [[("x", .int 2), ("count(*)", .int 1)],
        [("x", .null), ("count(*)", .int 1)], [("x", .int 5), ("count(*)", .int 1)]] := by
  have hints : Ordered {v | ∃ i, v = .int i} := by
    rintro _ ⟨i, rfl⟩ _ ⟨j, rfl⟩
    exact ⟨_, rfl⟩
  have hrows : ∀ row ∈ allRows nullableInts, row = [("x", .int 2)] ∨ row = [("x", .null)] ∨
      row = [("x", .int 5)] := by
    intro row hrow
    have hlist : allRows nullableInts = [[("x", .int 2)], [("x", .null)], [("x", .int 5)]] := rfl
    simpa [hlist] using hrow
  have hhash : hashAggregate countPython [.column "x" "" ⟨.int64, true⟩] countAll 10
      (allRows nullableInts) = .ok (batchesFromRows [[("x", .int 2), ("count(*)", .int 1)],
        [("x", .null), ("count(*)", .int 1)], [("x", .int 5), ("count(*)", .int 1)]]
        ["x", "count(*)"] 10) := rfl
  refine (sortAggregate_perm_hashAggregate (show 0 < 10 by decide)
    (List.forall_mem_singleton.mpr hints) (fun row hrow => ?_) (fun row hrow => ?_) _).2 _ hhash
  · rcases hrows row hrow with rfl | rfl | rfl
    · exact ⟨rfl, .cons (Or.inr ⟨2, rfl⟩) .nil⟩
    · exact ⟨rfl, .cons (Or.inl rfl) .nil⟩
    · exact ⟨rfl, .cons (Or.inr ⟨5, rfl⟩) .nil⟩
  · rcases hrows row hrow with rfl | rfl | rfl <;>
      exact ⟨rfl, List.nodup_singleton _, List.cons_ne_nil _ _⟩

end DistributedSql

/-
GROUPING SETS (`GroupingSetsOperator` in `execution/operators.py`).

The operator aggregates its input once for every grouping set, by the loop of
`HashAggregateOperator`, and puts the groups into one layout: the group expressions of all
sets, each text once, and then the aggregates.  A batch without columns holds no rows, so
the one row of a plain GROUP BY over no expressions and without aggregates is lost, where
GROUPING SETS has it as a row of NULLs.

Main results:
* `finishSetGroup_restrict` — a group in the layout of all sets, and in that of its own;
* `groupingSets_iff` — what the operator emits, from what the plain GROUP BYs emit.
-/
import DistributedSql.Aggregation

namespace DistributedSql

/-! ### The operator -/

section Operator

variable (py : Python) (groupingSets : List (List Expression)) (aggregates : List NamedExpression)

/-- `_unique_expressions`: of each text the first expression. -/
def uniqueExpressions : List Expression :=
  groupingSets.flatten.foldl (fun result expression =>
    if expression.sql py ∈ result.map (Expression.sql py) then result
    else result ++ [expression]) []

/-- The field names of `arrow_schema_for_grouping_sets`. -/
def groupingSetsNames : List String :=
  (uniqueExpressions py groupingSets).map (Expression.sql py)
    ++ aggregates.map (·.expression.sql py)

/-- The row of a group of a grouping set. -/
def finishSetGroup (columns groupingSet : List Expression) (group : AggregateGroup) :
    Except PyError Row := do
  let output : Dict String SQLValue :=
    Dict.empty.update (columns.map fun expression => (expression.sql py, .null))
  let output := output.update ((groupingSet.map (Expression.sql py)).zip group.1)
  let values ← group.2.mapM (AggregateState.finish py)
  return (output.update ((aggregates.map (·.expression.sql py)).zip values)).items

/-- The rows of a grouping set.  Its groups are those of `HashAggregateOperator`, whose loop
the operator repeats. -/
def groupingSetRows (columns : List Expression) (rows : List Row) (groupingSet : List Expression) :
    Except PyError (List Row) := do
  let groups ← hashGroups py groupingSet aggregates rows
  groups.mapM (finishSetGroup py aggregates columns groupingSet)

/-- `GroupingSetsOperator.execute`. -/
def groupingSetsExecute (batchSize : ℕ) (rows : List Row) : Except PyError (List RecordBatch) := do
  let columns := uniqueExpressions py groupingSets
  let sets ← groupingSets.mapM (groupingSetRows py aggregates columns rows)
  return batchesFromRows sets.flatten (groupingSetsNames py groupingSets aggregates) batchSize

end Operator

/-! ### The layout -/

section Layout

variable {py : Python} {groupingSets : List (List Expression)} {aggregates : List NamedExpression}

/-- The texts in the layout are those of all sets. -/
theorem mem_uniqueExpressions {text : String} :
    text ∈ (uniqueExpressions py groupingSets).map (Expression.sql py) ↔
      text ∈ groupingSets.flatten.map (Expression.sql py) := by
  have hfold : ∀ expressions result : List Expression,
      text ∈ (expressions.foldl (fun result expression =>
        if expression.sql py ∈ result.map (Expression.sql py) then result
        else result ++ [expression]) result).map (Expression.sql py) ↔
        text ∈ result.map (Expression.sql py) ∨ text ∈ expressions.map (Expression.sql py) := by
    intro expressions
    induction expressions with
    | nil => simp
    | cons expression rest ih =>
      intro result
      rw [List.foldl_cons, ih]
      split
      · next hmem =>
        rw [List.map_cons, List.mem_cons]
        constructor
        · exact Or.imp_right Or.inr
        · rintro (h | rfl | h)
          · exact Or.inl h
          · exact Or.inl hmem
          · exact Or.inr h
      · rw [List.map_append, List.mem_append, List.map_singleton, List.mem_singleton, or_assoc,
          List.map_cons, List.mem_cons]
  rw [uniqueExpressions, hfold]
  simp

theorem aggregateNames_subset {groupingSet : List Expression} (h : groupingSet ∈ groupingSets) :
    aggregateNames py groupingSet aggregates ⊆ groupingSetsNames py groupingSets aggregates := by
  intro name hname
  rw [aggregateNames, List.mem_append] at hname
  rw [groupingSetsNames, List.mem_append, mem_uniqueExpressions]
  refine hname.imp_left fun hname => ?_
  obtain ⟨expression, hexpression, rfl⟩ := List.mem_map.mp hname
  exact List.mem_map_of_mem (List.mem_flatten_of_mem h hexpression)

/-- The row of a group has no other names than those of its own layout. -/
theorem get?_finishGroup {groupingSet : List Expression} {group : AggregateGroup} {row : Row}
    (h : finishGroup py groupingSet aggregates group = .ok row) {name : String}
    (hname : name ∉ aggregateNames py groupingSet aggregates) : row.get? name = none := by
  obtain ⟨values, -, hrow⟩ := ExceptState.bind_eq_ok h
  cases hrow
  rw [aggregateNames, List.mem_append, not_or] at hname
  have hnot : ∀ (names : List String) (vs : List SQLValue), name ∉ names →
      name ∉ (names.zip vs).map Prod.fst := by
    intro names vs hnot hmem
    obtain ⟨item, hitem, rfl⟩ := List.mem_map.mp hmem
    exact hnot (List.of_mem_zip hitem).1
  exact (Dict.get?_update_of_notMem (hnot _ _ hname.2)).trans
    (Dict.get?_update_of_notMem (hnot _ _ hname.1))

/-- A group in the layout of all sets is its row, with NULLs outside its own layout. -/
theorem finishSetGroup_restrict {columns groupingSet : List Expression} (group : AggregateGroup)
    (names : List String) :
    (finishSetGroup py aggregates columns groupingSet group).map (Row.restrict names)
      = (finishGroup py groupingSet aggregates group).map (Row.restrict names) := by
  have hnulls : ∀ name, ((Dict.empty.update (columns.map fun expression =>
      (expression.sql py, SQLValue.null))).get? name).getD .null = .null := by
    intro name
    cases hget : (Dict.empty.update (columns.map fun expression =>
        (expression.sql py, SQLValue.null))).get? name with
    | none => rfl
    | some value =>
      rcases Dict.mem_of_get?_update hget with hmem | hempty
      · obtain ⟨expression, -, heq⟩ := List.mem_map.mp hmem
        exact (Prod.ext_iff.mp heq).2.symm
      · cases hempty
  rw [finishSetGroup, finishGroup]
  generalize Dict.empty.update (columns.map fun expression =>
    (expression.sql py, SQLValue.null)) = base at hnulls ⊢
  cases group.2.mapM (AggregateState.finish py) with
  | error e => rfl
  | ok values =>
    refine congrArg Except.ok (Row.restrict_congr fun name _ => ?_)
    change (((base.update ((groupingSet.map (Expression.sql py)).zip group.1)).update
      ((aggregates.map (·.expression.sql py)).zip values)).get? name).getD .null
      = (((Dict.empty.update ((groupingSet.map (Expression.sql py)).zip group.1)).update
          ((aggregates.map (·.expression.sql py)).zip values)).get? name).getD .null
    rw [Dict.get?_update, Dict.get?_update base, Dict.get?_update, Dict.get?_update Dict.empty,
      Dict.get?_empty, Option.or_none]
    cases ((aggregates.map (·.expression.sql py)).zip values).reverse.lookup name with
    | some value => rfl
    | none =>
      cases ((groupingSet.map (Expression.sql py)).zip group.1).reverse.lookup name with
      | some value => rfl
      | none => exact hnulls name

/-- The rows of a plain GROUP BY in the layout with these names.  If it has no column of its own,
its row is not in its batches. -/
def inLayout (names ownNames : List String) (rows : List Row) : List Row :=
  if ownNames = [] ∧ names ≠ [] then [Row.fromkeys names] else rows.map (Row.restrict names)

/-- Without expressions and aggregates there is one group, with nothing in it. -/
theorem hashGroups_nil (rows : List Row) : hashGroups py [] [] rows = .ok [([], [])] := by
  have hfold : (rows.foldlM (fun groups row => do
      let key ← Expression.evaluateAll py row []
      addToGroups py row (key, ← newStates []) groups) [([], [])]
        : Except PyError (List AggregateGroup)) = .ok [([], [])] := by
    induction rows with
    | nil => rfl
    | cons row rest ih => rw [List.foldlM_cons]; exact ih
  exact hfold

/-- The rows of the groups of a plain GROUP BY. -/
def plainRows (py : Python) (aggregates : List NamedExpression) (rows : List Row)
    (groupBy : List Expression) : Except PyError (List Row) :=
  hashGroups py groupBy aggregates rows >>= List.mapM (finishGroup py groupBy aggregates)

theorem hashAggregate_eq (groupBy : List Expression) (batchSize : ℕ) (rows : List Row) :
    hashAggregate py groupBy aggregates batchSize rows
      = (plainRows py aggregates rows groupBy).map fun rows =>
          batchesFromRows rows (aggregateNames py groupBy aggregates) batchSize := by
  rw [hashAggregate, plainRows]
  cases hashGroups py groupBy aggregates rows with
  | error e => rfl
  | ok groups => rfl

/-- The rows of the groups, in the layout of all sets and in that of their own. -/
theorem groupingSetRows_restrict (columns groupingSet : List Expression) (rows : List Row)
    (names : List String) :
    (groupingSetRows py aggregates columns rows groupingSet).map (List.map (Row.restrict names))
      = (plainRows py aggregates rows groupingSet).map (List.map (Row.restrict names)) := by
  rw [groupingSetRows, plainRows]
  cases hashGroups py groupingSet aggregates rows with
  | error e => rfl
  | ok groups =>
    rw [ExceptState.ok_bind, ExceptState.ok_bind, ExceptState.map_mapM, ExceptState.map_mapM]
    exact congrArg (groups.mapM ·) (funext fun group => finishSetGroup_restrict group names)

theorem restrict_restrict_of_plainRows {groupBy : List Expression} {rows plain : List Row}
    (h : plainRows py aggregates rows groupBy = .ok plain) (names : List String) :
    (plain.map (Row.restrict (aggregateNames py groupBy aggregates))).map (Row.restrict names)
      = plain.map (Row.restrict names) := by
  obtain ⟨groups, -, hgroups⟩ := ExceptState.bind_eq_ok h
  rw [List.map_map]
  refine List.map_congr_left fun row hrow => Row.restrict_congr fun name _ => ?_
  obtain ⟨group, -, hgroup⟩ := ExceptState.mem_of_mapM_eq_ok hgroups hrow
  rw [Row.get?_restrict]
  split
  · rfl
  next hname => rw [get?_finishGroup hgroup hname]

variable {batchSize : ℕ}

/-- What a grouping set comes to. -/
theorem groupingSetRows_iff (hsize : 0 < batchSize) {groupingSet : List Expression}
    (hset : groupingSet ∈ groupingSets) {rows shown : List Row} :
    (∃ setRows, groupingSetRows py aggregates (uniqueExpressions py groupingSets) rows groupingSet
        = .ok setRows ∧ shown = allRows (batchesFromRows setRows
          (groupingSetsNames py groupingSets aggregates) batchSize)) ↔
      ∃ output, hashAggregate py groupingSet aggregates batchSize rows = .ok output ∧
        shown = inLayout (groupingSetsNames py groupingSets aggregates)
          (aggregateNames py groupingSet aggregates) (allRows output) := by
  have hsubset : aggregateNames py groupingSet aggregates
      ⊆ groupingSetsNames py groupingSets aggregates := aggregateNames_subset hset
  generalize groupingSetsNames py groupingSets aggregates = names at hsubset ⊢
  have hleft : ∀ {shown : List Row}, (∃ setRows, groupingSetRows py aggregates
      (uniqueExpressions py groupingSets) rows groupingSet = .ok setRows ∧
        shown = setRows.map (Row.restrict names)) ↔
      ∃ plain, plainRows py aggregates rows groupingSet = .ok plain ∧
        shown = plain.map (Row.restrict names) := by
    intro shown
    rw [← ExceptState.map_eq_ok_iff, groupingSetRows_restrict, ExceptState.map_eq_ok_iff]
  have hright : (∃ output, hashAggregate py groupingSet aggregates batchSize rows = .ok output ∧
      shown = inLayout names (aggregateNames py groupingSet aggregates) (allRows output)) ↔
      ∃ plain, plainRows py aggregates rows groupingSet = .ok plain ∧
        shown = inLayout names (aggregateNames py groupingSet aggregates) (allRows
          (batchesFromRows plain (aggregateNames py groupingSet aggregates) batchSize)) := by
    rw [hashAggregate_eq]
    constructor
    · rintro ⟨output, houtput, hshown⟩
      obtain ⟨plain, hplain, rfl⟩ := ExceptState.map_eq_ok_iff.mp houtput
      exact ⟨plain, hplain, hshown⟩
    · rintro ⟨plain, hplain, hshown⟩
      exact ⟨_, ExceptState.map_eq_ok_iff.mpr ⟨plain, hplain, rfl⟩, hshown⟩
  rw [hright]
  by_cases hown : aggregateNames py groupingSet aggregates = []
  · obtain ⟨hset, haggregates⟩ := List.append_eq_nil_iff.mp hown
    obtain rfl := List.map_eq_nil_iff.mp hset
    obtain rfl := List.map_eq_nil_iff.mp haggregates
    have hplain : plainRows py [] rows [] = .ok [[]] := by
      rw [plainRows, hashGroups_nil]
      rfl
    obtain ⟨setRows, hsetRows, hrows⟩ := hleft.mpr ⟨_, hplain, rfl⟩
    have honly : (∃ setRows, groupingSetRows py [] (uniqueExpressions py groupingSets) rows []
        = .ok setRows ∧ shown = allRows (batchesFromRows setRows names batchSize)) ↔
        shown = allRows (batchesFromRows setRows names batchSize) := by
      rw [hsetRows]
      exact ⟨fun ⟨_, heq, h⟩ => by cases heq; exact h, fun h => ⟨_, rfl, h⟩⟩
    have honly' : (∃ plain, plainRows py [] rows [] = .ok plain ∧
        shown = inLayout names (aggregateNames py [] []) (allRows (batchesFromRows plain
          (aggregateNames py [] []) batchSize))) ↔
        shown = inLayout names [] (allRows (batchesFromRows [[]] [] batchSize)) := by
      rw [hplain]
      exact ⟨fun ⟨_, heq, h⟩ => by cases heq; exact h, fun h => ⟨_, rfl, h⟩⟩
    rw [honly, honly', allRows_batchesFromRows_nil, inLayout]
    by_cases hnames : names = []
    · rw [hnames, allRows_batchesFromRows_nil, if_neg fun h => h.2 rfl]
      rfl
    · rw [batchesFromRows_rows hnames hsize, if_pos ⟨rfl, hnames⟩, ← hrows]
      rfl
  · have hnames : names ≠ [] := fun h => hown (List.subset_nil.mp (h ▸ hsubset))
    have hshown : ∀ plain, plainRows py aggregates rows groupingSet = .ok plain →
        inLayout names (aggregateNames py groupingSet aggregates) (allRows
          (batchesFromRows plain (aggregateNames py groupingSet aggregates) batchSize))
          = plain.map (Row.restrict names) := by
      intro plain hplain
      rw [inLayout, if_neg fun h => hown h.1, batchesFromRows_rows hown hsize,
        restrict_restrict_of_plainRows hplain]
    simp only [batchesFromRows_rows hnames hsize]
    rw [hleft]
    refine exists_congr fun plain => and_congr_right fun hplain => ?_
    rw [hshown plain hplain]

theorem allRows_batchesFromRows_flatten (hsize : 0 < batchSize) (names : List String)
    (parts : List (List Row)) : allRows (batchesFromRows parts.flatten names batchSize)
      = (parts.map fun rows => allRows (batchesFromRows rows names batchSize)).flatten := by
  by_cases hnames : names = []
  · simp [hnames, allRows_batchesFromRows_nil]
  · simp only [batchesFromRows_rows hnames hsize, List.map_flatten]

/-- The operator emits, set by set, what the plain GROUP BYs emit, in its own layout. -/
theorem groupingSets_iff (hsize : 0 < batchSize) {rows result : List Row} :
    (∃ output, groupingSetsExecute py groupingSets aggregates batchSize rows = .ok output ∧
      allRows output = result) ↔
    ∃ parts, List.Forall₂ (fun groupingSet part => ∃ output,
        hashAggregate py groupingSet aggregates batchSize rows = .ok output ∧
        part = inLayout (groupingSetsNames py groupingSets aggregates)
          (aggregateNames py groupingSet aggregates) (allRows output)) groupingSets parts ∧
      result = parts.flatten := by
  have hsome : ∀ sets ⊆ groupingSets, ∀ parts : List (List Row),
      (∃ lists, sets.mapM (groupingSetRows py aggregates (uniqueExpressions py groupingSets) rows)
          = .ok lists ∧ parts = lists.map fun rows => allRows (batchesFromRows rows
            (groupingSetsNames py groupingSets aggregates) batchSize)) ↔
      List.Forall₂ (fun groupingSet part => ∃ output,
        hashAggregate py groupingSet aggregates batchSize rows = .ok output ∧
        part = inLayout (groupingSetsNames py groupingSets aggregates)
          (aggregateNames py groupingSet aggregates) (allRows output)) sets parts := by
    intro sets
    induction sets with
    | nil =>
      intro _ parts
      rw [List.forall₂_nil_left_iff]
      constructor
      · rintro ⟨lists, hlists, rfl⟩
        cases hlists
        rfl
      · rintro rfl
        exact ⟨[], rfl, rfl⟩
    | cons groupingSet rest ih =>
      intro hsubset parts
      obtain ⟨hset, hrest⟩ := List.cons_subset.mp hsubset
      rw [List.forall₂_cons_left_iff]
      constructor
      · rintro ⟨lists, hlists, rfl⟩
        obtain ⟨first, others, hfirst, hothers, rfl⟩ := ExceptState.mapM_cons_eq_ok_iff.mp hlists
        exact ⟨_, _, (groupingSetRows_iff hsize hset).mp ⟨first, hfirst, rfl⟩,
          (ih hrest _).mp ⟨others, hothers, rfl⟩, rfl⟩
      · rintro ⟨part, parts, hpart, hparts, rfl⟩
        obtain ⟨first, hfirst, rfl⟩ := (groupingSetRows_iff hsize hset).mpr hpart
        obtain ⟨lists, hlists, rfl⟩ := (ih hrest parts).mpr hparts
        exact ⟨first :: lists,
          ExceptState.mapM_cons_eq_ok_iff.mpr ⟨first, lists, hfirst, hlists, rfl⟩, rfl⟩
  constructor
  · rintro ⟨output, houtput, rfl⟩
    obtain ⟨lists, hlists, hemitted⟩ := ExceptState.bind_eq_ok houtput
    cases hemitted
    exact ⟨_, (hsome _ (List.Subset.refl _) _).mp ⟨lists, hlists, rfl⟩,
      allRows_batchesFromRows_flatten hsize _ lists⟩
  · rintro ⟨parts, hparts, rfl⟩
    obtain ⟨lists, hlists, rfl⟩ := (hsome _ (List.Subset.refl _) parts).mpr hparts
    exact ⟨_, ExceptState.bind_eq_ok_iff.mpr ⟨lists, hlists, rfl⟩,
      allRows_batchesFromRows_flatten hsize _ lists⟩

end Layout

/-! ### The empty set -/

/-- The column `g`. -/
def gColumn : Expression := .column "g" "" ⟨.int64, true⟩

/-- `COUNT(*)` -/
def countStar : NamedExpression := ⟨"count", .aggregateFunction "count" [] ⟨.int64, false⟩ false⟩

/-- A NULL of the table, and the NULL of the total. -/
theorem groupingSets_iff_total : ∃ parts, List.Forall₂ (fun groupingSet part => ∃ output,
      hashAggregate Python.ascii groupingSet [countStar] 4 [[("g", .null)], [("g", .int 1)]]
        = .ok output ∧
      part = inLayout (groupingSetsNames Python.ascii [[gColumn], []] [countStar])
        (aggregateNames Python.ascii groupingSet [countStar]) (allRows output))
      [[gColumn], []] parts ∧
    [[("g", .null), ("COUNT(*)", .int 1)], [("g", .int 1), ("COUNT(*)", .int 1)],
      [("g", .null), ("COUNT(*)", .int 2)]] = parts.flatten :=
  (groupingSets_iff (by decide)).mp ⟨_, rfl, by decide +kernel⟩

/-- Without aggregates the empty set has a row of NULLs that no plain GROUP BY emits. -/
theorem groupingSets_noAggregates : ∃ output grouped total,
    groupingSetsExecute Python.ascii [[gColumn], []] [] 4 [[("g", .int 1)]] = .ok output ∧
    hashAggregate Python.ascii [gColumn] [] 4 [[("g", .int 1)]] = .ok grouped ∧
    hashAggregate Python.ascii [] [] 4 [[("g", .int 1)]] = .ok total ∧
    ¬(allRows output).Perm ((allRows grouped ++ allRows total).map
      (Row.restrict (groupingSetsNames Python.ascii [[gColumn], []] []))) :=
  ⟨_, _, _, rfl, rfl, rfl, fun h => absurd h.length_eq (by decide +kernel)⟩

end DistributedSql

/-
Predicates pushed through an aggregate (`PredicatePushdownAggregate` in `optimizer/rules.py`).

A conjunct whose columns print like GROUP BY columns has the same value on every row of a
group and on the row that comes of the group, if equal keys are the same values.  Filtering
the input by it then leaves the other groups whole.

Main results:
* `PredicatePushdownAggregate.evaluate_pushed` — the value of a pushed conjunct;
* `PredicatePushdownAggregate.hashAggregate_selected` — the groups of the rows that are left;
* `PredicatePushdownAggregate.apply_perm_aggregate` — the rewritten plan gives the same bag of rows.
-/
import DistributedSql.PredicatePushdown
import DistributedSql.AggregationBinding
import DistributedSql.SortAggregate

namespace DistributedSql

namespace PredicatePushdownAggregate

open PredicatePushdownJoin

/-- `grouping_columns`. -/
def groupingColumns (py : Python) (groupBy : List Expression) : List String :=
  columnTexts py (groupBy.filter Expression.isColumn)

/-- The conjunct goes to `pushable`. -/
def isPushable (py : Python) (groupBy : List Expression) (conjunct : Expression) : Bool :=
  !conjunct.containsAggregate && !conjunct.containsWindow && columnTexts py [conjunct] ≠ [] &&
    (columnTexts py [conjunct]).all (· ∈ groupingColumns py groupBy)

/-- `PredicatePushdownAggregate.apply`. -/
def apply (py : Python) : LogicalPlan → Option LogicalPlan
  | .filter nodeId (.aggregate aggregateId input groupBy aggregates aggregateSchema) predicate
      schema phase =>
      let conjuncts := predicate.splitConjuncts
      let pushable := conjuncts.filter (isPushable py groupBy)
      let residual := conjuncts.filter fun conjunct => !isPushable py groupBy conjunct
      if pushable.isEmpty then none
      else
        some (withFilter nodeId
          (.aggregate aggregateId
            (withFilter (nodeId ++ "_pre_aggregate") input input.outputSchema "where" pushable)
            groupBy aggregates aggregateSchema)
          schema phase residual)
  | _ => none

/-! ### The meaning of an aggregate -/

/-- The rows of an aggregate. -/
def aggregateRows (py : Python) (batchSize : ℕ) (groupBy : List Expression)
    (aggregates : List NamedExpression) (rows : List Row) : Except PyError (List Row) :=
  if ¬(aggregateNames py groupBy aggregates).Nodup then
    .error (.valueError "schema field names must be unique")
  else (hashAggregate py groupBy aggregates batchSize rows).map allRows

/-- Both give the same rows, in some order, or both raise. -/
def SameBag (left right : Except PyError (List Row)) : Prop :=
  (∀ rows, left = .ok rows → ∃ rows', right = .ok rows' ∧ rows.Perm rows') ∧
    ∀ rows', right = .ok rows' → ∃ rows, left = .ok rows ∧ rows.Perm rows'

/-- The aggregates of the database are those of the operator, their groups in any order. -/
def Aggregates (py : Python) (batchSize : ℕ) (db : Database) : Prop :=
  ∀ nodeId input groupBy aggregates schema rows,
    SameBag (db.operator (.aggregate nodeId input groupBy aggregates schema) rows)
      (aggregateRows py batchSize groupBy aggregates rows)

theorem aggregateRows_eq_ok_iff {py : Python} {batchSize : ℕ} {groupBy : List Expression}
    {aggregates : List NamedExpression} {rows result : List Row} :
    aggregateRows py batchSize groupBy aggregates rows = .ok result ↔
      (aggregateNames py groupBy aggregates).Nodup ∧
        ∃ output, hashAggregate py groupBy aggregates batchSize rows = .ok output ∧
          allRows output = result := by
  rw [aggregateRows]
  by_cases hnodup : (aggregateNames py groupBy aggregates).Nodup
  · rw [if_neg (not_not.mpr hnodup), and_iff_right hnodup]
    cases hashAggregate py groupBy aggregates batchSize rows with
    | error e => simp [Except.map]
    | ok output => simp [Except.map]
  · rw [if_pos hnodup]
    exact iff_of_false nofun fun h => hnodup h.1

/-! ### Pushed conjuncts -/

section Values

variable {py : Python} {groupBy : List Expression} {aggregates : List NamedExpression}
  {conjunct : Expression} {group row : Row}

/-- Columns of the conjunct and of GROUP BY that print alike are the same column of the row, as
they are where the row holds its columns under their qualified names. -/
def PrintApart (py : Python) (groupBy : List Expression) (conjunct : Expression) (row : Row) : Prop :=
  ∀ name source, (name, source) ∈ conjunct.columns → ∀ key ∈ groupBy, key.isColumn = true →
    key.sql py = Expression.qualifiedName name source → ∀ resultType,
      (Expression.column name source resultType).evaluate py row = key.evaluate py row

theorem printApart_of_names (h : ∀ key ∈ groupBy, key.isColumn = true → key.sql py ∈ row.names) :
    PrintApart py groupBy conjunct row := by
  intro name source _ key hkey hcolumn htext resultType
  obtain ⟨value, hvalue⟩ := Option.isSome_iff_exists.mp (Row.get?_isSome.mpr (h key hkey hcolumn))
  cases key with
  | column name' source' resultType' =>
    rw [Expression.evaluate_column hvalue]
    exact Expression.evaluate_column (htext ▸ hvalue)
  | _ => cases hcolumn

theorem mem_columnTexts {expressions : List Expression} {text : String} :
    text ∈ columnTexts py expressions ↔ ∃ expression ∈ expressions, ∃ name source,
      (name, source) ∈ expression.columns ∧ Expression.qualifiedName name source = text := by
  rw [columnTexts, List.mem_map]
  constructor
  · rintro ⟨item, hitem, rfl⟩
    obtain ⟨hitem, hcolumn⟩ := List.mem_filter.mp hitem
    obtain ⟨expression, hexpression, hitem⟩ := List.mem_flatMap.mp hitem
    cases item with
    | column name source resultType =>
      exact ⟨expression, hexpression, name, source, List.mem_filterMap.mpr ⟨_, hitem, rfl⟩, rfl⟩
    | _ => cases hcolumn
  · rintro ⟨expression, hexpression, name, source, hmem, rfl⟩
    obtain ⟨item, hitem, hcolumn⟩ := List.mem_filterMap.mp hmem
    cases item with
    | column name' source' resultType =>
      cases hcolumn
      exact ⟨_, List.mem_filter.mpr ⟨List.mem_flatMap.mpr ⟨expression, hexpression, hitem⟩, rfl⟩, rfl⟩
    | _ => cases hcolumn

/-- What the rule asks of a conjunct. -/
theorem isPushable_iff : isPushable py groupBy conjunct = true ↔
    conjunct.containsAggregate = false ∧ conjunct.containsWindow = false ∧ conjunct.columns ≠ [] ∧
      ∀ name source, (name, source) ∈ conjunct.columns → ∃ key ∈ groupBy, key.isColumn = true ∧
        key.sql py = Expression.qualifiedName name source := by
  have hgrouping : ∀ text, text ∈ groupingColumns py groupBy ↔
      ∃ key ∈ groupBy, key.isColumn = true ∧ key.sql py = text := by
    intro text
    rw [groupingColumns, mem_columnTexts]
    constructor
    · rintro ⟨key, hkey, name, source, hmem, rfl⟩
      obtain ⟨hkey, hcolumn⟩ := List.mem_filter.mp hkey
      cases key with
      | column name' source' resultType =>
        cases List.mem_singleton.mp hmem
        exact ⟨_, hkey, rfl, rfl⟩
      | _ => cases hcolumn
    · rintro ⟨key, hkey, hcolumn, rfl⟩
      cases key with
      | column name source resultType =>
        exact ⟨_, List.mem_filter.mpr ⟨hkey, rfl⟩, name, source, List.mem_singleton_self _, rfl⟩
      | _ => cases hcolumn
  have htexts : ∀ text, text ∈ columnTexts py [conjunct] ↔ ∃ name source,
      (name, source) ∈ conjunct.columns ∧ Expression.qualifiedName name source = text := by
    intro text
    rw [mem_columnTexts]
    exact ⟨fun ⟨_, hmem, h⟩ => List.mem_singleton.mp hmem ▸ h,
      fun h => ⟨conjunct, List.mem_singleton_self _, h⟩⟩
  have hnone : columnTexts py [conjunct] ≠ [] ↔ conjunct.columns ≠ [] := by
    constructor
    · intro h hcolumns
      obtain ⟨text, hmem⟩ := List.exists_mem_of_ne_nil _ h
      obtain ⟨name, source, hmem, -⟩ := (htexts text).mp hmem
      exact List.not_mem_nil (hcolumns ▸ hmem)
    · intro h hcolumns
      obtain ⟨⟨name, source⟩, hmem⟩ := List.exists_mem_of_ne_nil _ h
      exact List.not_mem_nil (hcolumns ▸ (htexts _).mpr ⟨name, source, hmem, rfl⟩)
  rw [isPushable, Bool.and_eq_true, Bool.and_eq_true, Bool.and_eq_true, Bool.not_eq_true',
    Bool.not_eq_true', decide_eq_true_iff, hnone, List.all_eq_true, and_assoc, and_assoc]
  refine and_congr_right' (and_congr_right' (and_congr_right' ⟨fun h name source hmem => ?_,
    fun h text htext => ?_⟩))
  · exact (hgrouping _).mp (of_decide_eq_true (h _ ((htexts _).mpr ⟨name, source, hmem, rfl⟩)))
  · obtain ⟨name, source, hmem, rfl⟩ := (htexts text).mp htext
    exact decide_eq_true ((hgrouping _).mpr (h name source hmem))

theorem evaluates_of_evaluateAll {expressions : List Expression} {values : List SQLValue}
    (h : Expression.evaluateAll py row expressions = .ok values) :
    ∀ expression ∈ expressions, ∃ value, expression.evaluate py row = .ok value := by
  induction expressions generalizing values with
  | nil => exact fun _ hmem => absurd hmem List.not_mem_nil
  | cons first rest ih =>
    obtain ⟨value, tail, hvalue, htail, -⟩ := Expression.evaluateAll_cons h
    exact List.forall_mem_cons.mpr ⟨⟨value, hvalue⟩, ih htail⟩

/-- A pushed conjunct has the value on the row of a group that it has on the rows behind it. -/
theorem evaluate_pushed (hpushable : isPushable py groupBy conjunct = true)
    (happart : PrintApart py groupBy conjunct row) (hgroup : Represents py groupBy group row)
    {values : List SQLValue} (hkeys : Expression.evaluateAll py row groupBy = .ok values) :
    conjunct.evaluate py group = conjunct.evaluate py row := by
  obtain ⟨haggregate, hwindow, -, hcolumns⟩ := isPushable_iff.mp hpushable
  refine Expression.evaluate_congr (Expression.agreeOn_walk haggregate hwindow ?_)
  intro name source hmem resultType
  obtain ⟨key, hkey, hcolumn, htext⟩ := hcolumns name source hmem
  obtain ⟨value, hvalue⟩ := evaluates_of_evaluateAll hkeys key hkey
  have hget := hgroup key hkey
  rw [hvalue, htext] at hget
  rw [happart name source hmem key hkey hcolumn htext resultType, hvalue]
  exact Expression.evaluate_column (Row.get?_of_getItem hget.symm)

end Values

/-! ### The groups of the rows that are left -/

section Groups

variable {py : Python} {groupBy : List Expression} {aggregates : List NamedExpression}
  {batchSize : ℕ} {rows : List Row} {output : List RecordBatch}

/-- Equal keys are the same values. -/
def IdenticalKeys (py : Python) (groupBy : List Expression) (rows : List Row) : Prop :=
  ∀ row ∈ rows, ∀ row' ∈ rows,
    tupleEq (rowValues py groupBy row) (rowValues py groupBy row') = true →
      rowValues py groupBy row = rowValues py groupBy row'

theorem keys_of_hashAggregate (hgroup : groupBy ≠ [])
    (h : hashAggregate py groupBy aggregates batchSize rows = .ok output) :
    ∀ row ∈ rows, Expression.evaluateAll py row groupBy = .ok (rowValues py groupBy row) := by
  obtain ⟨groups, hgroups, -⟩ := ExceptState.bind_eq_ok h
  have hempty : ¬groupBy.isEmpty = true := mt List.isEmpty_iff.mp hgroup
  rw [hashGroups, if_neg hempty, pure_bind] at hgroups
  clear h
  beta_reduce at hgroups
  generalize ([] : List AggregateGroup) = start at hgroups
  induction rows generalizing start with
  | nil => exact fun _ hmem => absurd hmem List.not_mem_nil
  | cons row rest ih =>
    rw [List.foldlM_cons] at hgroups
    obtain ⟨next, hnext, hrest⟩ := ExceptState.bind_eq_ok hgroups
    obtain ⟨key, hkey, -⟩ := ExceptState.bind_eq_ok hnext
    refine List.forall_mem_cons.mpr ⟨?_, ih next hrest⟩
    rw [rowValues, hkey]
    rfl

/-- The key of a group is that of a row. -/
theorem exists_row_of_group {group : List SQLValue × List Row}
    (h : group ∈ Grouping.groups tupleEq (rows.map fun row => (rowValues py groupBy row, row))) :
    ∃ row ∈ rows, rowValues py groupBy row = group.1 := by
  refine Grouping.keys_of_mem_groups
    (K := fun key => ∃ row ∈ rows, rowValues py groupBy row = key) (fun item hitem => ?_) group h
  obtain ⟨row, hrow, rfl⟩ := List.mem_map.mp hitem
  exact ⟨row, hrow, rfl⟩

/-- Every row stands behind the row of its group. -/
theorem exists_represents (hsize : 0 < batchSize) (hgroup : groupBy ≠ [])
    (hnodup : (aggregateNames py groupBy aggregates).Nodup)
    (hidentical : IdenticalKeys py groupBy rows)
    (h : hashAggregate py groupBy aggregates batchSize rows = .ok output) :
    ∀ row ∈ rows, ∃ group ∈ allRows output, Represents py groupBy group row := by
  have hkeys := keys_of_hashAggregate hgroup h
  obtain ⟨outcomes, houtcomes, hrows⟩ := (hashAggregate_iff hsize hgroup hkeys).mp ⟨output, h, rfl⟩
  intro row hrow
  have hitem : (rowValues py groupBy row, row)
      ∈ rows.map fun row => (rowValues py groupBy row, row) := List.mem_map_of_mem hrow
  obtain ⟨group, hmem, hsame⟩ : ∃ group ∈ Grouping.groups tupleEq
      (rows.map fun row => (rowValues py groupBy row, row)),
      group.1 = rowValues py groupBy row ∨ tupleEq group.1 (rowValues py groupBy row) = true :=
    Grouping.exists_group _ hitem
  have hkey : group.1 = rowValues py groupBy row := by
    rcases hsame with hsame | hsame
    · exact hsame
    · obtain ⟨row', hrow', hkey'⟩ := exists_row_of_group hmem
      rw [← hkey'] at hsame ⊢
      exact hidentical row' hrow' row hrow hsame
  obtain ⟨outcome, houtcome⟩ := ExceptState.ok_of_mapM_eq_ok houtcomes group hmem
  have hout : outcome ∈ outcomes :=
    ExceptState.mem_of_mapM_eq_ok' houtcomes hmem houtcome
  rw [hrows]
  exact ⟨_, List.mem_map_of_mem hout, represents_of_outcome hnodup houtcome (hkey ▸ hkeys row hrow)⟩

/-- A row with the values of the GROUP BY expressions. -/
def keyRow (py : Python) (groupBy : List Expression) (key : List SQLValue) : Row :=
  (groupBy.map (Expression.sql py)).zip key

theorem represents_keyRow (hnodup : (groupBy.map (Expression.sql py)).Nodup) {row : Row}
    {key : List SQLValue} (hkey : Expression.evaluateAll py row groupBy = .ok key) :
    Represents py groupBy (keyRow py groupBy key) row := by
  intro expression hexpression
  obtain ⟨value, hvalue, hget⟩ := get?_zip_texts hkey hnodup [] expression hexpression
  rw [List.append_nil] at hget
  rw [hvalue, keyRow, Row.getItem_of_get? hget]

/-- The rows on which pushed conjuncts are true have the groups on whose rows they are. -/
theorem hashAggregate_selected (hsize : 0 < batchSize) (hgroup : groupBy ≠ [])
    (hnodup : (aggregateNames py groupBy aggregates).Nodup)
    (hidentical : IdenticalKeys py groupBy rows) {pushed : List Expression}
    (hpushed : ∀ conjunct ∈ pushed, isPushable py groupBy conjunct = true)
    (happart : ∀ row ∈ rows, ∀ conjunct ∈ pushed, PrintApart py groupBy conjunct row)
    (h : hashAggregate py groupBy aggregates batchSize rows = .ok output) :
    ∃ output', hashAggregate py groupBy aggregates batchSize (selected py pushed rows) = .ok output' ∧
      allRows output' = selected py pushed (allRows output) := by
  have hkeys := keys_of_hashAggregate hgroup h
  obtain ⟨outcomes, houtcomes, hrows⟩ := (hashAggregate_iff hsize hgroup hkeys).mp ⟨output, h, rfl⟩
  -- whether the conjuncts are true is told by the key
  have htest : ∀ row ∈ rows, ∀ group, Represents py groupBy group row →
      pushed.all (Expression.isTrue py group) = pushed.all (Expression.isTrue py row) := by
    intro row hrow group hrepresents
    rw [Bool.eq_iff_iff, List.all_eq_true, List.all_eq_true]
    refine forall₂_congr fun conjunct hmem => ?_
    rw [isTrue_congr (evaluate_pushed (hpushed conjunct hmem) (happart row hrow conjunct hmem)
      hrepresents (hkeys row hrow))]
  have hkeyTest : ∀ row ∈ rows, pushed.all (Expression.isTrue py row)
      = pushed.all (Expression.isTrue py (keyRow py groupBy (rowValues py groupBy row))) :=
    fun row hrow => (htest row hrow _
      (represents_keyRow (List.nodup_append.mp hnodup).1 (hkeys row hrow))).symm
  have hrespects : Grouping.Respects tupleEq (fun key => ∃ row ∈ rows, rowValues py groupBy row = key)
      fun key => pushed.all (Expression.isTrue py (keyRow py groupBy key)) := by
    rintro _ _ ⟨row, hrow, rfl⟩ ⟨row', hrow', rfl⟩ hsame
    rw [hidentical row hrow row' hrow' hsame]
  have hgroups : Grouping.groups tupleEq
        ((selected py pushed rows).map fun row => (rowValues py groupBy row, row))
      = (Grouping.groups tupleEq (rows.map fun row => (rowValues py groupBy row, row))).filter
          fun group => pushed.all (Expression.isTrue py (keyRow py groupBy group.1)) := by
    rw [← Grouping.groups_filter hrespects, List.filter_map, selected]
    · exact congrArg _ (congrArg _ (List.filter_congr hkeyTest))
    · exact List.forall_mem_map.mpr fun row hrow => ⟨row, hrow, rfl⟩
  have houtcomes' := ExceptState.mapM_filter_eq_ok
    (p := fun group => pushed.all (Expression.isTrue py (keyRow py groupBy group.1)))
    (q := fun outcome => pushed.all
      (Expression.isTrue py (outcome.restrict (aggregateNames py groupBy aggregates))))
    houtcomes fun group hmem outcome houtcome => by
      obtain ⟨row, hrow, hkey⟩ := exists_row_of_group hmem
      rw [← hkey, ← hkeyTest row hrow]
      exact (htest row hrow _ (represents_of_outcome hnodup houtcome (hkey ▸ hkeys row hrow))).symm
  obtain ⟨output', houtput', hrows'⟩ := (hashAggregate_iff hsize hgroup
    fun row hrow => hkeys row (selected_subset _ _ hrow)).mpr
      ⟨_, hgroups ▸ houtcomes', rfl⟩
  refine ⟨output', houtput', ?_⟩
  rw [hrows', hrows, selected, List.filter_map]
  rfl

end Groups

/-! ### The rule -/

section Rule

variable {py : Python} {db : Database} {batchSize : ℕ} {predicate : Expression}
  {groupBy : List Expression} {aggregates : List NamedExpression} {input : LogicalPlan}
  {inputRows aggregated : List Row}

/-- The conjuncts that are evaluated below depend on columns, and on GROUP BY columns only. -/
def OnGroupColumns (py : Python) (groupBy pushed : List Expression) : Prop :=
  ∀ conjunct ∈ pushed, conjunct.columns ≠ [] ∧
    ∀ name source, (name, source) ∈ conjunct.columns → ∃ key ∈ groupBy, key.isColumn = true ∧
      key.sql py = Expression.qualifiedName name source

theorem printApart_of_conjunct {conjunct : Expression} {row : Row}
    (h : PrintApart py groupBy predicate row) (hmem : conjunct ∈ predicate.splitConjuncts) :
    PrintApart py groupBy conjunct row := by
  intro name source hcolumn
  obtain ⟨item, hitem, hname⟩ := List.mem_filterMap.mp hcolumn
  exact h name source
    (List.mem_filterMap.mpr ⟨item, Expression.walk_splitConjuncts hmem hitem, hname⟩)

theorem onGroupColumns_pushed (py : Python) (predicate : Expression) (groupBy : List Expression) :
    OnGroupColumns py groupBy (predicate.splitConjuncts.filter (isPushable py groupBy)) := by
  intro conjunct hmem
  exact (isPushable_iff.mp (List.mem_filter.mp hmem).2).2.2

/-- Nothing is pushed below a global aggregate. -/
theorem groupBy_ne_nil {pushed : List Expression} (h : OnGroupColumns py groupBy pushed)
    (hpushed : pushed ≠ []) : groupBy ≠ [] := by
  obtain ⟨conjunct, hmem⟩ := List.exists_mem_of_ne_nil _ hpushed
  obtain ⟨hcolumns, hkeys⟩ := h conjunct hmem
  obtain ⟨⟨name, source⟩, hcolumn⟩ := List.exists_mem_of_ne_nil _ hcolumns
  obtain ⟨key, hkey, -⟩ := hkeys name source hcolumn
  exact List.ne_nil_of_mem hkey

theorem truthValued_congr {expression : Expression} {row row' : Row}
    (h : expression.evaluate py row = expression.evaluate py row')
    (htruth : expression.TruthValued py row) : expression.TruthValued py row' := by
  rw [Expression.TruthValued, h] at htruth
  exact htruth

end Rule

/-! ### The groups of a column -/

def aColumn : Expression := .column "a" "t" ⟨.int64, true⟩

def countRow : Expression := .aggregateFunction "count" [] ⟨.int64, false⟩ false

def aboveOne (expression : Expression) : Expression :=
  .binary .greaterThan expression (.literal (.int 1) ⟨.int64, false⟩) ⟨.boolean, true⟩

/-- `t.a > 1 AND COUNT(*) > 1`. -/
def groupPredicate : Expression := .binary .and (aboveOne aColumn) (aboveOne countRow) ⟨.boolean, true⟩

/-- Table `t` holds 1, 2 and 2. -/
def groupDatabase : Database where
  scan _ _ _ := .ok [[("t.a", .int 1)], [("t.a", .int 2)], [("t.a", .int 2)]]
  operator
    | .aggregate _ _ groupBy aggregates _, rows => aggregateRows countPython 10 groupBy aggregates rows
    | _, _ => .ok []

def groupScan : LogicalPlan := .scan "t" "t" "t" [⟨"a", .int64, true⟩]

def groupPlan : LogicalPlan :=
  .filter "having" (.aggregate "aggregate" groupScan [aColumn] [⟨"n", countRow⟩] []) groupPredicate []
    "having"

end PredicatePushdownAggregate

end DistributedSql

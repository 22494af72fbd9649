/-
Windows and aggregates over partitions.

`materialize_exchanges` puts an exchange below every window and aggregate: by the keys of
a GROUP BY, by the PARTITION BY list that the windows have in common, or into a single
partition.  The operator is then run on each target partition for itself.

Main results:
* `partitioned_eq` — a window gives every row the values it gives it on the whole input,
  and a sort-based aggregate gives every group the row it gives it there;
* `not_partitioned` — not so where PARTITION BY lists print alike and differ.
-/
import DistributedSql.PhysicalPlans
import DistributedSql.CoLocation
import DistributedSql.WindowOperator
import DistributedSql.RepartitionJoin
import DistributedSql.SortAggregate

namespace DistributedSql

/-! ### The exchange below a node -/

/-- The execution of an exchange: write every source partition, read every target. -/
def Exchange.run (py : Python) (self : Exchange) (source : List RecordBatch) :
    Except PyError (List RecordBatch) :=
  exchange py self.keys self.partitionCount (decide (self.strategy = .broadcast)) source

/-- The target that a row is sent to. -/
def Exchange.sends (py : Python) (self : Exchange) (target : ℕ) (row : Row) : Bool :=
  (shufflePartition py self.keys self.partitionCount row).toOption == some target

/-- The exchange right below a node. -/
def PhysicalPlan.inputExchange : PhysicalPlan → Option Exchange
  | .aggregate _ (.exchange nodeId input strategy keys partitionCount schema) _ _ _ =>
      some ⟨nodeId, input, strategy, keys, partitionCount, schema⟩
  | .window _ (.exchange nodeId input strategy keys partitionCount schema) _ _ =>
      some ⟨nodeId, input, strategy, keys, partitionCount, schema⟩
  | _ => none

/-- What `materialize_exchanges` puts below a window. -/
theorem inputExchange_window {py : Python} {decisions : List (String × JoinDecision)}
    {partitionCount : ℕ} {nodeId : String} {input : LogicalPlan} {expressions : List NamedExpression}
    {schema : Schema} {physical : PhysicalPlan} {self : Exchange}
    (h : materialize py decisions partitionCount (.window nodeId input expressions schema)
      = .ok physical) (hexchange : physical.inputExchange = some self) :
    self.keys = windowPartitionKeys py expressions ∧
      self.partitionCount = (if (windowPartitionKeys py expressions).isEmpty then 1 else partitionCount) ∧
      self.strategy ≠ .broadcast := by
  obtain ⟨inner, -, h⟩ := ExceptState.bind_eq_ok h
  obtain ⟨exchanged, hexchanged, h⟩ := ExceptState.bind_eq_ok h
  cases eq_of_exchangeOf_ok hexchanged
  cases h
  cases hexchange
  refine ⟨rfl, rfl, ?_⟩
  show (if _ then PartitionStrategy.single else PartitionStrategy.hash) ≠ .broadcast
  split <;> exact fun h => by cases h

/-- What `materialize_exchanges` puts below an aggregate. -/
theorem inputExchange_aggregate {py : Python} {decisions : List (String × JoinDecision)}
    {partitionCount : ℕ} {nodeId : String} {input : LogicalPlan} {groupBy : List Expression}
    {aggregates : List NamedExpression} {schema : Schema} {physical : PhysicalPlan} {self : Exchange}
    (h : materialize py decisions partitionCount (.aggregate nodeId input groupBy aggregates schema)
      = .ok physical) (hexchange : physical.inputExchange = some self) :
    self.keys = groupBy ∧ self.partitionCount = (if groupBy.isEmpty then 1 else partitionCount) ∧
      self.strategy ≠ .broadcast := by
  obtain ⟨inner, -, h⟩ := ExceptState.bind_eq_ok h
  obtain ⟨exchanged, hexchanged, h⟩ := ExceptState.bind_eq_ok h
  cases eq_of_exchangeOf_ok hexchanged
  cases h
  cases hexchange
  refine ⟨rfl, rfl, ?_⟩
  show (if _ then PartitionStrategy.single else PartitionStrategy.hash) ≠ .broadcast
  split <;> exact fun h => by cases h

/-! ### Key types -/

/-- On these values `==` is equality of what the shuffle writes for them. -/
def EncodesEquality (py : Python) (S : Set SQLValue) : Prop :=
  ∀ v ∈ S, ∀ w ∈ S, v.eq w = true ↔
    JsonValue.dumps (stableJson py v) = JsonValue.dumps (stableJson py w)

private theorem valueText_eq {py : Python} {S : Set SQLValue} (hS : EncodesEquality py S)
    {v w : SQLValue} (hv : v = .null ∨ v ∈ S) (hw : w = .null ∨ w ∈ S) (h : v.eq w = true) :
    CoLocation.valueText py v = CoLocation.valueText py w := by
  rcases hv with rfl | hv
  · rw [null_eq_iff.mp h]
  · rcases hw with rfl | hw
    · rw [eq_null_iff.mp h]
    · exact String.ofList_injective ((hS v hv w hw).mp h)

/-- Equal keys are written alike. -/
theorem shuffleText_eq {py : Python} {domains : List (Set SQLValue)}
    (hS : ∀ S ∈ domains, EncodesEquality py S) {left right : List SQLValue}
    (hl : InDomains domains left) (hr : InDomains domains right) (h : tupleEq left right = true) :
    shuffleText py left = shuffleText py right := by
  have hitems : ∀ {domains : List (Set SQLValue)} {left right : List SQLValue},
      (∀ S ∈ domains, EncodesEquality py S) → InDomains domains left → InDomains domains right →
      tupleEq left right = true → CoLocation.itemsText py left = CoLocation.itemsText py right := by
    intro domains left right hS hl
    induction hl generalizing right with
    | nil =>
      intro hr _
      cases hr
      rfl
    | @cons S v domains left hv _ ih =>
      intro hr h
      obtain _ | ⟨hw, hr⟩ := hr
      obtain ⟨hhead, htail⟩ := Bool.and_eq_true_iff.mp h
      rw [CoLocation.itemsText_cons, CoLocation.itemsText_cons,
        valueText_eq (hS S List.mem_cons_self) hv hw hhead,
        ih (fun S hS' => hS S (List.mem_cons_of_mem _ hS')) hr htail]
  cases hl with
  | nil =>
    cases hr
    rfl
  | @cons S v domains left hv hl =>
    obtain _ | ⟨hw, hr⟩ := hr
    obtain ⟨hhead, htail⟩ := Bool.and_eq_true_iff.mp h
    rw [CoLocation.shuffleText_cons, CoLocation.shuffleText_cons,
      valueText_eq (hS S List.mem_cons_self) hv hw hhead,
      hitems (fun S hS' => hS S (List.mem_cons_of_mem _ hS')) hl hr htail]

/-- A key that is sent to the target. -/
def sentTo (py : Python) (partitionCount target : ℕ) (key : List SQLValue) : Bool :=
  digestNumber py (shuffleText py key) % partitionCount == target

theorem respects_sentTo {py : Python} {domains : List (Set SQLValue)}
    (hS : ∀ S ∈ domains, EncodesEquality py S) (partitionCount target : ℕ) :
    Grouping.Respects tupleEq (InDomains domains) (sentTo py partitionCount target) := by
  intro a b ha hb h
  rw [sentTo, sentTo, shuffleText_eq hS ha hb h]

/-! ### The tables of the targets -/

section Tables

variable {py : Python} {self : Exchange} {source : List RecordBatch} {names : List String}

/-- Each target reads the rows sent to it, in the order in which the sources hold them. -/
theorem run_exchange (hcount : 0 < self.partitionCount)
    (hkeys : self.keys ≠ [] ∨ self.partitionCount = 1) (hstrategy : self.strategy ≠ .broadcast)
    (hne : source ≠ []) (hnames : ∀ table ∈ source, table.names = names)
    (heval : ∀ row ∈ allRows source, ∃ values, Expression.evaluateAll py row self.keys = .ok values) :
    ∃ tables, self.run py source = .ok tables ∧ tables.length = self.partitionCount ∧
      ∀ target table, tables[target]? = some table → table.names = names ∧
        table.rows = (allRows source).filter (self.sends py target) := by
  have hcheck : (!decide (self.strategy = .broadcast) && decide (1 < self.partitionCount)
      && self.keys.isEmpty) = false := by
    rcases hkeys with hkeys | hone
    · simp [List.isEmpty_eq_false_iff.mpr hkeys]
    · simp [hone]
  have htargets : ∀ row ∈ allRows source, shuffleTargets py self.keys self.partitionCount
      (decide (self.strategy = .broadcast)) row
        = .ok [(shufflePartition py self.keys self.partitionCount row).toOption.getD 0] := by
    intro row hrow
    obtain ⟨values, hvalues⟩ := heval row hrow
    rw [shuffleTargets, if_neg (by simpa using hstrategy), shufflePartition_eq hvalues]
    rfl
  obtain ⟨tables, hrun, htables⟩ := exchange_eq_of_check hcount hcheck hne hnames htargets
  refine ⟨tables, hrun, by simpa using htables.length_eq.symm, fun target table htable => ?_⟩
  obtain ⟨hlt, hget⟩ := List.getElem?_eq_some_iff.mp htable
  obtain ⟨hname, hrows⟩ := htables.get (i := target)
    (by rw [htables.length_eq]; exact hlt) hlt
  rw [List.get_eq_getElem, hget] at hname hrows
  refine ⟨hname, hrows.trans (List.filter_congr fun row hrow => ?_)⟩
  obtain ⟨values, hvalues⟩ := heval row hrow
  rw [Exchange.sends, shufflePartition_eq hvalues, Bool.eq_iff_iff]
  simp only [Except.toOption, List.get_eq_getElem, List.getElem_range, Option.getD_some,
    List.mem_singleton, decide_eq_true_eq, beq_iff_eq, Option.some.injEq]
  exact eq_comm

end Tables

/-! ### Windows -/

/-- On the targets of the exchange, and on them all together, the windows are evaluated as on the
whole input: every row a target gets it gives the values it has there, and the targets return
if the whole evaluation does, and only then. -/
def WindowsAgree (py : Python) (expressions : List NamedExpression) (self : Exchange)
    (source : List RecordBatch) (names : List String) (batchSize taskSize : ℕ) (chunking : Chunking) :
    Prop :=
  ∃ tables, self.run py source = .ok tables ∧ tables.length = self.partitionCount ∧
    (∀ target table, tables[target]? = some table →
      table.rows = (allRows source).filter (self.sends py target)) ∧
    (∀ output, windowExecute py expressions batchSize names source = .ok output →
      (allRows output).length = (allRows source).length ∧
      ∀ target table, tables[target]? = some table → ∃ taskOutput,
        windowExecute py expressions taskSize table.names (chunking.toBatches table) = .ok taskOutput ∧
        allRows taskOutput
          = Grouping.chosen (self.sends py target) (allRows source) (allRows output)) ∧
    ((∀ table ∈ tables, ∃ taskOutput,
      windowExecute py expressions taskSize table.names (chunking.toBatches table) = .ok taskOutput) →
      ∃ output, windowExecute py expressions batchSize names source = .ok output)

section Windows

variable {py : Python} {expressions : List NamedExpression} {names : List String}

theorem windowNames_ne_nil (h : names ≠ []) : windowNames py expressions names ≠ [] := by
  rw [windowNames]
  induction expressions generalizing names with
  | nil => exact h
  | cons item expressions ih =>
    refine ih ?_
    show (if _ then _ else _) ≠ []
    split
    · exact h
    · exact List.append_ne_nil_of_left_ne_nil h _

/-- What the operator emits are the rows with their values, cut down to the schema. -/
theorem windowExecute_iff {batchSize : ℕ} (hsize : 0 < batchSize) {batches : List RecordBatch}
    (hnames : names = [] → allRows batches = []) {result : List Row} :
    (∃ output, windowExecute py expressions batchSize names batches = .ok output ∧
      allRows output = result) ↔
    ∃ updated, evaluateWindows py expressions (allRows batches) = .ok updated ∧
      result = updated.map (Row.restrict (windowNames py expressions names)) := by
  have hrows : ∀ updated, evaluateWindows py expressions (allRows batches) = .ok updated →
      allRows (batchesFromRows updated (windowNames py expressions names) batchSize)
        = updated.map (Row.restrict (windowNames py expressions names)) := by
    intro updated hupdated
    by_cases h : names = []
    · have hnil := (evaluateWindows_spec hupdated).length_eq
      rw [hnames h] at hnil
      rw [List.eq_nil_of_length_eq_zero hnil.symm, batchesFromRows, chunks_nil hsize]
      rfl
    · exact batchesFromRows_rows (windowNames_ne_nil h) hsize updated
  constructor
  · rintro ⟨output, h, rfl⟩
    obtain ⟨updated, hupdated, h⟩ := ExceptState.bind_eq_ok h
    cases h
    exact ⟨updated, hupdated, hrows updated hupdated⟩
  · rintro ⟨updated, hupdated, rfl⟩
    exact ⟨_, ExceptState.bind_eq_ok_iff.mpr ⟨updated, hupdated, rfl⟩, hrows updated hupdated⟩

/-- The rows with these PARTITION BY values, under all windows. -/
private theorem partitionedBy_of_same {self : Exchange} {rows : List Row}
    (heval : ∀ row ∈ rows, Expression.evaluateAll py row self.keys = .ok (rowValues py self.keys row))
    (hsame : ∀ item ∈ expressions, ∀ row ∈ rows, ∀ row',
      AgreesBut (windowTexts py expressions) row row' →
      Expression.evaluateAll py row' item.expression.partitionBy
        = Expression.evaluateAll py row self.keys) :
    PartitionedBy py expressions (windowTexts py expressions) rows
      (rows.map (rowValues py self.keys)) := by
  intro item hitem window hwindow
  have hpartition : window.partitionBy = item.expression.partitionBy := by
    cases hexpression : item.expression <;> rw [hexpression] at hwindow <;> cases hwindow
    rfl
  rw [List.forall₂_map_right_iff, List.forall₂_same]
  intro row hrow row' hrow'
  rw [hpartition, hsame item hitem row hrow row' hrow', heval row hrow]

/-- Windows that all have the same PARTITION BY values, after the exchange by these. -/
theorem windowsAgree_of_keys {self : Exchange} {domains : List (Set SQLValue)}
    {source : List RecordBatch} (hcount : 0 < self.partitionCount) (hkeys : self.keys ≠ [])
    (hstrategy : self.strategy ≠ .broadcast) (hne : source ≠ [])
    (hnames : ∀ table ∈ source, table.names = names)
    (hS : ∀ S ∈ domains, EncodesEquality py S)
    (hrows : ∀ row ∈ allRows source, HasKeys py self.keys domains row)
    (hsame : ∀ item ∈ expressions, ∀ row ∈ allRows source, ∀ row',
      AgreesBut (windowTexts py expressions) row row' →
      Expression.evaluateAll py row' item.expression.partitionBy
        = Expression.evaluateAll py row self.keys)
    {batchSize taskSize : ℕ} (hsize : 0 < batchSize) (htask : 0 < taskSize) (chunking : Chunking) :
    WindowsAgree py expressions self source names batchSize taskSize chunking := by
  obtain ⟨tables, hrun, hlength, htables⟩ := run_exchange hcount (Or.inl hkeys) hstrategy hne hnames
    fun row hrow => ⟨_, (hrows row hrow).1⟩
  set rows := allRows source with hrowsdef
  set keys := rows.map (rowValues py self.keys) with hkeysdef
  have hpart := partitionedBy_of_same (fun row hrow => (hrows row hrow).1) hsame
  have hK : ∀ key ∈ keys, InDomains domains key := by
    intro key hkey
    obtain ⟨row, hrow, rfl⟩ := List.mem_map.mp hkey
    exact (hrows row hrow).2
  have hself : List.Forall₂ (AgreesBut (windowTexts py expressions)) rows rows :=
    List.forall₂_same.mpr fun row _ => AgreesBut.refl _ row
  -- what is chosen by its target is chosen by its key
  have hchosen : ∀ (target : ℕ) {α : Type} (xs : List α),
      Grouping.chosen (self.sends py target) rows xs
        = Grouping.chosen (sentTo py self.partitionCount target) keys xs := by
    intro target α xs
    rw [hkeysdef, Grouping.chosen_map]
    refine Grouping.chosen_congr (fun row hrow => ?_) xs
    rw [Exchange.sends, shufflePartition_eq (hrows row hrow).1, sentTo]
    rfl
  have htable : ∀ (target : ℕ) (table : RecordBatch), tables[target]? = some table →
      table.rows = Grouping.chosen (sentTo py self.partitionCount target) keys rows := by
    intro target table h
    rw [(htables target table h).2, ← hchosen target rows, Grouping.chosen_self]
  have hnil : names = [] → rows = [] := fun h => List.flatMap_eq_nil_iff.mpr fun table hmem =>
    table.rows_of_nil ((hnames table hmem).trans h)
  have hnilTask : ∀ table ∈ tables, table.names = [] → allRows (chunking.toBatches table) = [] :=
    fun table _ h => (chunking.rows_eq table).trans (table.rows_of_nil h)
  refine ⟨tables, hrun, hlength, fun target table h => (htables target table h).2, ?_, ?_⟩
  · intro output houtput
    obtain ⟨updated, hupdated, hresult⟩ := (windowExecute_iff hsize hnil).mp ⟨output, houtput, rfl⟩
    refine ⟨by rw [hresult, List.length_map, (evaluateWindows_spec hupdated).length_eq], ?_⟩
    intro target table hget
    have hpiece := evaluateWindows_chosen (respects_sentTo hS self.partitionCount target) hK
      (List.Subset.refl _) hpart hself hupdated
    rw [← htable target table hget, ← chunking.rows_eq table] at hpiece
    obtain ⟨taskOutput, htaskOutput, hrowsOut⟩ := (windowExecute_iff htask
      (hnilTask table (List.mem_of_getElem? hget))).mpr ⟨_, hpiece, rfl⟩
    refine ⟨taskOutput, htaskOutput, ?_⟩
    rw [hrowsOut, (htables target table hget).1, Grouping.map_chosen, hresult, hchosen]
  · intro htasks
    have : NeZero self.partitionCount := ⟨hcount.ne'⟩
    obtain ⟨updated, hupdated⟩ := evaluateWindows_of_chosen
      (p := fun i : Fin self.partitionCount => sentTo py self.partitionCount i)
      (fun i => respects_sentTo hS self.partitionCount i) hK
      (fun key _ => ⟨⟨digestNumber py (shuffleText py key) % self.partitionCount,
        Nat.mod_lt _ hcount⟩, beq_self_eq_true _⟩)
      (List.Subset.refl _) hpart hself fun i => by
        have hlt : i.val < tables.length := i.isLt.trans_eq hlength.symm
        have hget : tables[i.val]? = some tables[i.val] := List.getElem?_eq_getElem hlt
        obtain ⟨taskOutput, htaskOutput⟩ := htasks tables[i.val] (List.getElem_mem hlt)
        obtain ⟨updated, hupdated, -⟩ := (windowExecute_iff htask
          (hnilTask _ (List.getElem_mem hlt))).mp ⟨taskOutput, htaskOutput, rfl⟩
        rw [chunking.rows_eq, htable i.val _ hget] at hupdated
        exact ⟨updated, hupdated⟩
    obtain ⟨output, houtput, -⟩ := (windowExecute_iff hsize hnil).mpr ⟨updated, hupdated, rfl⟩
    exact ⟨output, houtput⟩

/-- Any windows, after the exchange into a single partition. -/
theorem windowsAgree_single {self : Exchange} {source : List RecordBatch}
    (hone : self.partitionCount = 1) (hkeys : self.keys = []) (hstrategy : self.strategy ≠ .broadcast)
    (hne : source ≠ []) (hnames : ∀ table ∈ source, table.names = names)
    {batchSize taskSize : ℕ} (hsize : 0 < batchSize) (htask : 0 < taskSize) (chunking : Chunking) :
    WindowsAgree py expressions self source names batchSize taskSize chunking := by
  have heval : ∀ row ∈ allRows source, Expression.evaluateAll py row self.keys = .ok [] := by
    intro row _
    rw [hkeys]
    rfl
  obtain ⟨tables, hrun, hlength, htables⟩ := run_exchange (hone ▸ Nat.one_pos) (Or.inr hone)
    hstrategy hne hnames fun row hrow => ⟨[], heval row hrow⟩
  -- the one target gets every row
  have hsends : ∀ row ∈ allRows source, self.sends py 0 row = true := by
    intro row hrow
    rw [Exchange.sends, shufflePartition_eq (heval row hrow), hone, Nat.mod_one]
    rfl
  have hzero : ∀ target table, tables[target]? = some table → target = 0 := by
    intro target table h
    have hlt := (List.getElem?_eq_some_iff.mp h).1
    omega
  have hall : ∀ (target : ℕ) (table : RecordBatch), tables[target]? = some table →
      table.rows = allRows source := by
    intro target table h
    rw [(htables target table h).2, hzero target table h]
    exact List.filter_eq_self.mpr hsends
  have hnil : names = [] → allRows source = [] := fun h => List.flatMap_eq_nil_iff.mpr
    fun table hmem => table.rows_of_nil ((hnames table hmem).trans h)
  have hnilTask : ∀ table ∈ tables, table.names = [] → allRows (chunking.toBatches table) = [] :=
    fun table _ h => (chunking.rows_eq table).trans (table.rows_of_nil h)
  refine ⟨tables, hrun, hlength, fun target table h => (htables target table h).2, ?_, ?_⟩
  · intro output houtput
    obtain ⟨updated, hupdated, hresult⟩ := (windowExecute_iff hsize hnil).mp ⟨output, houtput, rfl⟩
    have hlen : (allRows output).length = (allRows source).length := by
      rw [hresult, List.length_map, (evaluateWindows_spec hupdated).length_eq]
    refine ⟨hlen, fun target table hget => ?_⟩
    have hpiece := hupdated
    rw [← hall target table hget, ← chunking.rows_eq table] at hpiece
    obtain ⟨taskOutput, htaskOutput, hrowsOut⟩ := (windowExecute_iff htask
      (hnilTask table (List.mem_of_getElem? hget))).mpr ⟨updated, hpiece, rfl⟩
    refine ⟨taskOutput, htaskOutput, ?_⟩
    rw [hrowsOut, (htables target table hget).1, ← hresult, hzero target table hget,
      Grouping.chosen_congr hsends, Grouping.chosen_true hlen]
  · intro htasks
    have hlt : 0 < tables.length := by omega
    obtain ⟨taskOutput, htaskOutput⟩ := htasks tables[0] (List.getElem_mem hlt)
    obtain ⟨updated, hupdated, -⟩ := (windowExecute_iff htask
      (hnilTask _ (List.getElem_mem hlt))).mp ⟨taskOutput, htaskOutput, rfl⟩
    rw [chunking.rows_eq, hall 0 _ (List.getElem?_eq_getElem hlt)] at hupdated
    obtain ⟨output, houtput, -⟩ := (windowExecute_iff hsize hnil).mpr ⟨updated, hupdated, rfl⟩
    exact ⟨output, houtput⟩

end Windows

/-! ### Sort-based aggregates -/

/-- The values of the GROUP BY expressions in the row of a group. -/
def groupValues (py : Python) (groupBy : List Expression) (row : Row) : List SQLValue :=
  groupBy.map fun expression => (row.get? (expression.sql py)).getD .null

/-- On the targets of the exchange, and on them all together, the groups are what they are on the
whole input: a target emits the rows of the groups it is sent, and the targets return if the whole
evaluation does, and only then; whatever memory each of them is granted. -/
def GroupsAgree (py : Python) (groupBy : List Expression) (aggregates : List NamedExpression)
    (self : Exchange) (source : List RecordBatch) (names : List String) (batchSize taskSize : ℕ)
    (chunking : Chunking) : Prop :=
  ∃ tables, self.run py source = .ok tables ∧ tables.length = self.partitionCount ∧
    (∀ account output account',
      (aggregateExecute py groupBy aggregates batchSize names source).run account
        = .ok (output, account') →
      ∀ target table, tables[target]? = some table → ∀ taskAccount, ∃ taskOutput taskAccount',
        (aggregateExecute py groupBy aggregates taskSize table.names
          (chunking.toBatches table)).run taskAccount = .ok (taskOutput, taskAccount') ∧
        allRows taskOutput = (allRows output).filter fun row =>
          sentTo py self.partitionCount target (groupValues py groupBy row)) ∧
    ((∀ table ∈ tables, ∃ taskAccount taskOutput taskAccount',
      (aggregateExecute py groupBy aggregates taskSize table.names
        (chunking.toBatches table)).run taskAccount = .ok (taskOutput, taskAccount')) →
      ∀ account, ∃ output account',
        (aggregateExecute py groupBy aggregates batchSize names source).run account
          = .ok (output, account'))

section Aggregates

variable {py : Python} {groupBy : List Expression} {aggregates : List NamedExpression}
  {domains : List (Set SQLValue)} {names : List String}

/-- A sort-based aggregate emits the outcomes of its groups, whatever memory it is granted. -/
theorem aggregateExecute_iff {batchSize : ℕ} (hsize : 0 < batchSize) (hgroup : groupBy ≠ [])
    (hS : ∀ S ∈ domains, Ordered S) {batches : List RecordBatch}
    (hkeys : ∀ row ∈ allRows batches, HasKeys py groupBy domains row)
    (hstored : ∀ row ∈ allRows batches, Row.Stored names row) (account : MemoryAccount)
    {result : List Row} :
    (∃ output account', (aggregateExecute py groupBy aggregates batchSize names batches).run account
      = .ok (output, account') ∧ allRows output = result) ↔
    (aggregateNames py groupBy aggregates).Nodup ∧ ∃ outcomes,
      (Grouping.runs tupleEq (sortedKeyed py groupBy (allRows batches))).mapM
        (groupOutcome py groupBy aggregates) = .ok outcomes ∧
      result = outcomes.map (Row.restrict (aggregateNames py groupBy aggregates)) := by
  by_cases hnodup : (aggregateNames py groupBy aggregates).Nodup
  · rw [aggregateExecute_eq hnodup, and_iff_right hnodup]
    exact sortAggregateExecute_iff hsize hgroup hS hkeys hstored account
  · unfold aggregateExecute
    rw [if_pos hnodup]
    refine iff_of_false ?_ fun h => hnodup h.1
    rintro ⟨output, account', h, -⟩
    cases h

/-- The groups of the rows sent to a target are those whose key is. -/
private theorem runs_sent (hS : ∀ S ∈ domains, Ordered S) (hE : ∀ S ∈ domains, EncodesEquality py S)
    {rows : List Row} (hkeys : ∀ row ∈ rows, HasKeys py groupBy domains row) (count target : ℕ) :
    Grouping.runs tupleEq (sortedKeyed py groupBy
        (rows.filter fun row => sentTo py count target (rowValues py groupBy row)))
      = (Grouping.runs tupleEq (sortedKeyed py groupBy rows)).filter fun group =>
          sentTo py count target group.1 := by
  have hfilter : sortedKeyed py groupBy
      (rows.filter fun row => sentTo py count target (rowValues py groupBy row))
      = (sortedKeyed py groupBy rows).filter fun item => sentTo py count target item.1 := by
    rw [sortedKeyed, StableSort.sort_filter, sortedKeyed, List.filter_map]
    rfl
  have hsorted : (sortedKeyed py groupBy rows).Pairwise fun a b => sortKey a.1 ≤ sortKey b.1 :=
    List.pairwise_map.mpr (StableSort.sortedBy_sort _ _)
  have hplace : ∀ a b, InDomains domains a → InDomains domains b →
      (tupleEq a b = true ↔ sortKey a = sortKey b) := fun a b ha hb => tupleEq_iff_sortKey hS ha hb
  rw [hfilter]
  exact Grouping.runs_filter hplace (respects_sentTo hE count target)
    (fun item hitem => (inDomains_of_mem_sortedKeyed hkeys item hitem).1) hsorted

/-- The row of a group tells its key. -/
private theorem groupValues_of_outcome (hnodup : (aggregateNames py groupBy aggregates).Nodup)
    {group : List SQLValue × List Row} (hkey : group.1.length = groupBy.length) {outcome : Row}
    (h : groupOutcome py groupBy aggregates group = .ok outcome) :
    groupValues py groupBy (outcome.restrict (aggregateNames py groupBy aggregates)) = group.1 := by
  obtain ⟨states, hstates, hfinish⟩ := ExceptState.bind_eq_ok h
  obtain ⟨new, hnew, hadd⟩ := ExceptState.bind_eq_ok hstates
  obtain ⟨values, hvalues, hrow⟩ := finishGroup_eq hnodup (group.1, states) hkey
    ((length_foldlM_add hadd).trans (length_newStates hnew)) hfinish
  have hlength : (group.1 ++ values).length = (aggregateNames py groupBy aggregates).length := by
    rw [aggregateNames, List.length_append, List.length_append, List.length_map, List.length_map,
      hkey, (ExceptState.forall₂_of_mapM_eq_ok hvalues).length_eq.symm,
      (length_foldlM_add hadd).trans (length_newStates hnew)]
  have hnames : outcome.names = aggregateNames py groupBy aggregates := by
    rw [hrow]
    exact List.map_fst_zip hlength.ge
  have hself := Row.restrict_self hnames hnodup
  -- the row holds the key and then the values of the aggregates, read name by name
  have hread : (aggregateNames py groupBy aggregates).map
      (fun name => (outcome.get? name).getD .null) = group.1 ++ values := by
    have hsnd := congrArg (List.map Prod.snd) hself
    rw [Row.restrict, List.map_map] at hsnd
    refine hsnd.trans ?_
    rw [hrow]
    exact List.map_snd_zip hlength.le
  rw [hself]
  have htake := congrArg (List.take groupBy.length) hread
  rw [← hkey, List.take_left, hkey, aggregateNames, List.map_append, List.map_map,
    List.take_left' (by rw [List.length_map])] at htake
  exact htake

/-- A sort-based aggregate after the exchange by its GROUP BY expressions. -/
theorem groupsAgree_of_keys {self : Exchange} {source : List RecordBatch}
    (hcount : 0 < self.partitionCount) (hself : self.keys = groupBy) (hgroup : groupBy ≠ [])
    (hstrategy : self.strategy ≠ .broadcast) (hne : source ≠ [])
    (hnames : ∀ table ∈ source, table.names = names) (hnodup : names.Nodup)
    (hS : ∀ S ∈ domains, Ordered S) (hE : ∀ S ∈ domains, EncodesEquality py S)
    (hrows : ∀ row ∈ allRows source, HasKeys py groupBy domains row)
    {batchSize taskSize : ℕ} (hsize : 0 < batchSize) (htask : 0 < taskSize) (chunking : Chunking) :
    GroupsAgree py groupBy aggregates self source names batchSize taskSize chunking := by
  obtain ⟨tables, hrun, hlength, htables⟩ := run_exchange hcount (Or.inl (hself ▸ hgroup)) hstrategy
    hne hnames fun row hrow => ⟨_, hself ▸ (hrows row hrow).1⟩
  have hsent : ∀ (target : ℕ) (table : RecordBatch), tables[target]? = some table →
      table.rows = (allRows source).filter fun row =>
        sentTo py self.partitionCount target (rowValues py groupBy row) := by
    intro target table h
    rw [(htables target table h).2]
    refine List.filter_congr fun row hrow => ?_
    rw [Exchange.sends, hself, shufflePartition_eq (hrows row hrow).1, sentTo]
    rfl
  have hstored : ∀ row ∈ allRows source, Row.Stored names row := by
    intro row hrow
    obtain ⟨table, htable, hmem⟩ := List.mem_flatMap.mp hrow
    refine ⟨(table.rows_names row hmem).trans (hnames table htable), hnodup, fun hnil => ?_⟩
    rw [table.rows_of_nil ((hnames table htable).trans hnil)] at hmem
    exact List.not_mem_nil hmem
  -- the aggregate of one target, by the groups of its rows
  have htaskIff : ∀ (target : ℕ) (table : RecordBatch), tables[target]? = some table →
      ∀ taskAccount result, (∃ output account', (aggregateExecute py groupBy aggregates taskSize
          table.names (chunking.toBatches table)).run taskAccount = .ok (output, account') ∧
          allRows output = result) ↔
        (aggregateNames py groupBy aggregates).Nodup ∧ ∃ outcomes,
          ((Grouping.runs tupleEq (sortedKeyed py groupBy (allRows source))).filter fun group =>
            sentTo py self.partitionCount target group.1).mapM (groupOutcome py groupBy aggregates)
            = .ok outcomes ∧
          result = outcomes.map (Row.restrict (aggregateNames py groupBy aggregates)) := by
    intro target table h taskAccount result
    have hmem : ∀ row ∈ allRows (chunking.toBatches table), row ∈ allRows source := by
      intro row hrow
      rw [chunking.rows_eq, hsent target table h] at hrow
      exact List.mem_of_mem_filter hrow
    rw [aggregateExecute_iff htask hgroup hS (fun row hrow => hrows row (hmem row hrow))
      (fun row hrow => (htables target table h).1 ▸ hstored row (hmem row hrow)) taskAccount,
      chunking.rows_eq, hsent target table h, runs_sent hS hE hrows]
  refine ⟨tables, hrun, hlength, ?_, ?_⟩
  · intro account output account' houtput target table h taskAccount
    obtain ⟨hunique, outcomes, houtcomes, hresult⟩ := (aggregateExecute_iff hsize hgroup hS hrows
      hstored account).mp ⟨output, account', houtput, rfl⟩
    have hall := (List.forall₂_and_left _ _).mpr ⟨fun group hmem => by
      obtain ⟨item, hitem, heq⟩ := Grouping.key_of_mem_runs hmem
      exact heq ▸ (inDomains_of_mem_sortedKeyed hrows item hitem).2,
      ExceptState.mapM_eq_ok_iff.mp houtcomes⟩
    have hpart := List.rel_filter (R := fun (group : List SQLValue × List Row) outcome =>
        group.1.length = groupBy.length ∧ groupOutcome py groupBy aggregates group = .ok outcome)
      (p := fun group => sentTo py self.partitionCount target group.1)
      (q := fun outcome => sentTo py self.partitionCount target (groupValues py groupBy
        (outcome.restrict (aggregateNames py groupBy aggregates))))
      (fun group outcome hg => by
        beta_reduce
        rw [groupValues_of_outcome hunique hg.1 hg.2]) hall
    obtain ⟨taskOutput, taskAccount', htaskOutput, hrowsOut⟩ := (htaskIff target table h taskAccount
      _).mpr ⟨hunique, _, ExceptState.mapM_eq_ok_iff.mpr (hpart.imp fun _ _ hg => hg.2), rfl⟩
    refine ⟨taskOutput, taskAccount', htaskOutput, ?_⟩
    rw [hrowsOut, hresult, List.filter_map]
    rfl
  · intro htasks account
    have htaskOk : ∀ target, target < self.partitionCount →
        (aggregateNames py groupBy aggregates).Nodup ∧ ∃ outcomes,
          ((Grouping.runs tupleEq (sortedKeyed py groupBy (allRows source))).filter fun group =>
            sentTo py self.partitionCount target group.1).mapM (groupOutcome py groupBy aggregates)
            = .ok outcomes := by
      intro target htarget
      have hlt : target < tables.length := htarget.trans_eq hlength.symm
      obtain ⟨taskAccount, taskOutput, taskAccount', htaskOutput⟩ :=
        htasks tables[target] (List.getElem_mem hlt)
      obtain ⟨hunique, outcomes, houtcomes, -⟩ := (htaskIff target _ (List.getElem?_eq_getElem hlt)
        taskAccount _).mp ⟨taskOutput, taskAccount', htaskOutput, rfl⟩
      exact ⟨hunique, outcomes, houtcomes⟩
    obtain ⟨outcomes, houtcomes, -⟩ := ExceptState.exists_mapM_eq_ok
      (f := groupOutcome py groupBy aggregates)
      (l := Grouping.runs tupleEq (sortedKeyed py groupBy (allRows source)))
      (P := fun _ _ => True) fun group hmem => by
        obtain ⟨-, outcomes, houtcomes⟩ := htaskOk
          (digestNumber py (shuffleText py group.1) % self.partitionCount) (Nat.mod_lt _ hcount)
        obtain ⟨outcome, houtcome⟩ := ExceptState.ok_of_mapM_eq_ok houtcomes group
          (List.mem_filter.mpr ⟨hmem, beq_self_eq_true _⟩)
        exact ⟨outcome, houtcome, trivial⟩
    obtain ⟨output, account', houtput, -⟩ := (aggregateExecute_iff hsize hgroup hS hrows hstored
      account).mpr ⟨(htaskOk 0 hcount).1, outcomes, houtcomes, rfl⟩
    exact ⟨output, account', houtput⟩

end Aggregates

/-! ### Both -/

/-- Python on the texts of the windows below. -/
def windowPython : Python := { keyPython with
  upper := fun text => String.ofList (text.toList.map Char.toUpper)
  str := fun value => if value = .float ⟨false, 1023, 0⟩ then "1.0" else Python.ascii.str value }

/-- The exchange of the input of `plan` by its keys. -/
def scanExchange (suffix : String) (keys : List Expression) : Exchange where
  nodeId := "exchange_s_" ++ suffix
  input := .scan "s" "t" "t" []
  strategy := .hash
  keys := keys
  partitionCount := 2
  outputSchema := []

def intColumn (name source : String) : Expression := .column name source ⟨.int64, true⟩

/-- `ROW_NUMBER() OVER (PARTITION BY a ORDER BY b)` and `SUM(b) OVER (PARTITION BY a)`. -/
def numberedWindows : List NamedExpression :=
  [⟨"n", .windowFunction (.scalarFunction "row_number" [] ⟨.int64, false⟩) [intColumn "a" ""]
      [(intColumn "b" "", true, false)] none⟩,
    ⟨"s", .windowFunction (.aggregateFunction "sum" [intColumn "b" ""] ⟨.int64, true⟩ false)
      [intColumn "a" ""] [] none⟩]

/-- Two partitions with a tie between them. -/
def tiedTables : List RecordBatch :=
  [.fromPylist [[("a", .int 1), ("b", .int 5)], [("a", .int 3), ("b", .int 5)]] ["a", "b"],
    .fromPylist [[("a", .int 1), ("b", .int 5)]] ["a", "b"]]

def keyInts : Set SQLValue := {.int 1, .int 3}

/-- The ints 1 and 3 are written as they are. -/
theorem encodesEquality_ints : EncodesEquality windowPython keyInts := by
  rintro v (rfl | rfl) w (rfl | rfl) <;> decide +kernel

theorem ordered_keyInts : Ordered keyInts := by
  rintro v (rfl | rfl) w (rfl | rfl) <;> exact ⟨_, rfl⟩

/-- `ROW_NUMBER() OVER (PARTITION BY "1"."0")` and `COUNT(*) OVER (PARTITION BY 1.0)`. -/
def alikeWindows : List NamedExpression :=
  [⟨"n", .windowFunction (.scalarFunction "row_number" [] ⟨.int64, false⟩) [intColumn "0" "1"] []
      none⟩,
    ⟨"c", .windowFunction (.aggregateFunction "count" [] ⟨.int64, false⟩ false)
      [.literal (.float ⟨false, 1023, 0⟩) ⟨.float64, false⟩] [] none⟩]

/-- A table under the alias `1`, with a column `0`. -/
def numberedTable : List RecordBatch :=
  [.fromPylist [[("1.0", .int 1)], [("1.0", .int 3)]] ["1.0"]]

/-- A row of the table with the values of the two windows. -/
def numberedRow (value number count : ℤ) : Row :=
  [("1.0", .int value), ("ROW_NUMBER() OVER (PARTITION BY 1.0)", .int number),
    ("COUNT(*) OVER (PARTITION BY 1.0)", .int count)]

end DistributedSql

/-
Aggregates in two phases (`DistributedExecutor._partial_aggregate` in `execution/distributed.py`).

Every source partition is aggregated by itself into rows with the counts and values of its
groups; these are exchanged by the group keys and merged.  Tables that are large for the memory
limit are not aggregated this way, and Arrow's conversion of values is left out.

A state after some rows is a function of the arguments that are not NULL, in either phase and in
a single one, and so is a state that is merged from parts.  Only SUM and AVG do not merge
everything: a part without such an argument holds NULL, which is not added to a number.

Main results:
* `foldlM_mergePart` — the parts of a group, merged one after the other;
* `finish_after` — a partial state comes to what the state of a single phase comes to;
* `foldGroups_parts` — grouping the groups of the tables;
* `twoPhaseAggregate_iff` — when both phases return, and that they return the rows of the single
  phase.
-/
import DistributedSql.GroupFolds
import DistributedSql.AggregationBinding
import DistributedSql.PartitionedEvaluation
import DistributedSql.GroupingSets
import DistributedSql.ShuffleStore

namespace DistributedSql

/-- A dict of `_new_partial_states`, with the function that `zip` puts beside it. -/
structure PartialState where
  function : AggregateFunction
  count : ℤ := 0
  value : SQLValue := .null

/-- `_can_partial`. -/
def canPartial (aggregates : List NamedExpression) : Bool :=
  aggregates.all fun item =>
    match item.expression.asAggregate with
    | some function => !function.distinct && function.name ∈ ["count", "sum", "avg", "min", "max"]
    | none => false

/-- The functions of the aggregates, all of which are aggregate functions. -/
def aggregateFunctions (aggregates : List NamedExpression) : List AggregateFunction :=
  aggregates.filterMap (·.expression.asAggregate)

/-- `_new_partial_states`. -/
def newPartialStates (aggregates : List NamedExpression) : List PartialState :=
  (aggregateFunctions aggregates).map fun function => { function := function }

/-- `_add_numbers`. -/
def addNumbers (py : Python) (current value : SQLValue) : Except PyError SQLValue :=
  if current = .null then .ok value else numericOperation py current value .add

/-- The argument of a function on a row; `COUNT(*)` has none. -/
def AggregateFunction.argument (py : Python) (function : AggregateFunction) (row : Row) :
    Except PyError SQLValue :=
  match function.arguments with
  | [] => .ok (.int 1)
  | argument :: _ => argument.evaluate py row

namespace PartialState

variable (py : Python)

/-- The value that MIN and MAX keep of two. -/
def keep (name : String) (current value : SQLValue) : Except PyError SQLValue := do
  if current = .null then return value
  else if name = "min" then return if ← value.lt current then value else current
  else return if ← value.gt current then value else current

/-- A row in `_partial_aggregate_runner`. -/
def add (row : Row) (state : PartialState) : Except PyError PartialState := do
  let value ← state.function.argument py row
  -- NULL is not counted
  if value = .null then return state
  else
    let state := { state with count := state.count + 1 }
    if state.function.name ∈ ["sum", "avg"] then
      return { state with value := ← addNumbers py state.value value }
    else if state.function.name ∈ ["min", "max"] then
      return { state with value := ← keep state.function.name state.value value }
    else return state

/-- The count and value of a partial row in `_final_aggregate_runner`. -/
def merge (count : ℤ) (value : SQLValue) (state : PartialState) : Except PyError PartialState := do
  let state := { state with count := state.count + count }
  -- a NULL sum of the part is added as it is
  if state.function.name ∈ ["sum", "avg"] then
    return { state with value := ← addNumbers py state.value value }
  else if state.function.name ∈ ["min", "max"] ∧ value ≠ .null then
    return { state with value := ← keep state.function.name state.value value }
  else return state

/-- What `_final_aggregate_runner` puts into the row of a group. -/
def finish (state : PartialState) : Except PyError SQLValue :=
  if state.function.name = "count" then .ok (.int state.count)
  else if state.count = 0 then .ok .null
  else if state.function.name = "avg" then
    AggregateState.average py
      { function := state.function, count := state.count.toNat, total := state.value }
  else .ok state.value

end PartialState

/-! ### The runners -/

section Runners

variable (py : Python) (groupBy : List Expression) (aggregates : List NamedExpression)

def partialCountName (index : ℕ) : String := "__partial_" ++ toString index ++ "_count"

def partialValueName (index : ℕ) : String := "__partial_" ++ toString index ++ "_value"

/-- The field names of `_partial_schema`. -/
def partialNames : List String :=
  groupBy.map (Expression.sql py) ++ (List.range aggregates.length).flatMap fun index =>
    [partialCountName index, partialValueName index]

/-- The groups of `_partial_aggregate_runner`. -/
def partialGroups (rows : List Row) : Except PyError (List (List SQLValue × List PartialState)) :=
  rows.foldlM (fun groups row => do
    let key ← Expression.evaluateAll py row groupBy
    Grouping.update tupleEq (fun states row => states.mapM (PartialState.add py row))
      (newPartialStates aggregates) (key, row) groups)
    (if groupBy.isEmpty then [([], newPartialStates aggregates)] else [])

/-- The row of a group after the first phase. -/
def partialRow (group : List SQLValue × List PartialState) : Row :=
  let row : Dict String SQLValue := Dict.empty.update ((groupBy.map (Expression.sql py)).zip group.1)
  (row.update (group.2.zipIdx.flatMap fun item =>
    [(partialCountName item.2, .int item.1.count), (partialValueName item.2, item.1.value)])).items

/-- `pa.Table.from_pylist` under a schema with these names. -/
def tableFromPylist (rows : List Row) (names : List String) : Except PyError RecordBatch :=
  if ¬names.Nodup then .error (.valueError "schema field names must be unique")
  else .ok (.fromPylist rows names)

/-- `_partial_aggregate_runner`. -/
def partialAggregate (table : RecordBatch) : Except PyError RecordBatch := do
  let groups ← partialGroups py groupBy aggregates table.rows
  tableFromPylist (groups.map (partialRow py groupBy)) (partialNames py groupBy aggregates)

/-- A state and its place with what a partial row has for it. -/
def mergeRow (row : Row) (item : PartialState × ℕ) : Except PyError PartialState := do
  match ← row.getItem (partialCountName item.2) with
  | .int count => item.1.merge py count (← row.getItem (partialValueName item.2))
  | value => .error (.typeError
      ("unsupported operand type(s) for +: 'int' and '" ++ value.typeName ++ "'"))

/-- The groups of `_final_aggregate_runner`. -/
def finalGroups (rows : List Row) : Except PyError (List (List SQLValue × List PartialState)) :=
  rows.foldlM (fun groups row =>
    let key := groupBy.map fun expression => (row.get? (expression.sql py)).getD .null
    Grouping.update tupleEq (fun states row => states.zipIdx.mapM (mergeRow py row))
      (newPartialStates aggregates) (key, row) groups)
    (if groupBy.isEmpty then [([], newPartialStates aggregates)] else [])

/-- The row of a group after the second phase. -/
def finalRow (group : List SQLValue × List PartialState) : Except PyError Row := do
  let values ← group.2.mapM (PartialState.finish py)
  let row : Dict String SQLValue := Dict.empty.update ((groupBy.map (Expression.sql py)).zip group.1)
  return (row.update ((aggregates.map (·.expression.sql py)).zip values)).items

/-- `_final_aggregate_runner`. -/
def finalAggregate (table : RecordBatch) : Except PyError RecordBatch := do
  let rows ← (← finalGroups py groupBy aggregates table.rows).mapM (finalRow py groupBy aggregates)
  tableFromPylist rows (aggregateNames py groupBy aggregates)

/-- `_partial_aggregate`, where no table is large. -/
def twoPhaseAggregate (exchange : Exchange) (source : List RecordBatch) :
    Except PyError (List RecordBatch) := do
  let partials ← source.mapM (partialAggregate py groupBy aggregates)
  let shuffled ← exchange.run py partials
  shuffled.mapM (finalAggregate py groupBy aggregates)

end Runners

/-! ### What an aggregate is of its arguments -/

namespace AggregateFunction

variable (py : Python) (function : AggregateFunction)

/-- The arguments of a function that count. -/
def values (rows : List Row) : List SQLValue :=
  rows.filterMap fun row => (function.argument py row).toOption.filter (· ≠ .null)

/-- What a function makes of two values. -/
def combine (left right : SQLValue) : SQLValue :=
  if function.name ∈ ["sum", "avg"] then
    (numericOperation py left right .add).toOption.getD .null
  else if function.name = "min" then if right.rank < left.rank then right else left
  else if left.rank < right.rank then right else left

/-- What a function keeps of values; COUNT keeps none. -/
def summary (values : List SQLValue) : SQLValue :=
  if function.name = "count" then .null else (Grouping.total (combine py function) values).getD .null

end AggregateFunction

/-- These values are added up exactly, beginning with 0, and NULL is not added to them. -/
structure Sums (py : Python) (D : Set SQLValue) : Prop where
  add : ∀ a ∈ D, ∀ b ∈ D, ∃ c ∈ D, numericOperation py a b .add = .ok c
  assoc : ∀ a ∈ D, ∀ b ∈ D, ∀ c ∈ D, ∀ ab bc, numericOperation py a b .add = .ok ab →
    numericOperation py b c .add = .ok bc →
      numericOperation py ab c .add = numericOperation py a bc .add
  zero : ∀ a ∈ D, numericOperation py (.int 0) a .add = .ok a
  null : ∀ a ∈ D, ∃ e, numericOperation py a .null .add = .error e

/-- One of the five functions over values of this kind. -/
structure Handles (py : Python) (function : AggregateFunction) (D : Set SQLValue) : Prop where
  not_null : .null ∉ D
  sums : function.name = "sum" ∨ function.name = "avg" → Sums py D
  ordered : function.name = "min" ∨ function.name = "max" → Ordered D
  plain : function.distinct = false ∧ function.name ∈ ["count", "sum", "avg", "min", "max"]

/-- The rows have arguments of this kind for a function, or NULL. -/
structure Takes (py : Python) (function : AggregateFunction) (D : Set SQLValue) (rows : List Row)
    : Prop extends Handles py function D where
  argument : ∀ row ∈ rows, ∃ value, function.argument py row = .ok value ∧
    (value = .null ∨ value ∈ D)

section Values

variable {py : Python} {function : AggregateFunction} {D : Set SQLValue}

theorem values_append (rows more : List Row) :
    function.values py (rows ++ more) = function.values py rows ++ function.values py more :=
  List.filterMap_append ..

theorem values_singleton {row : Row} {value : SQLValue} (h : function.argument py row = .ok value) :
    function.values py [row] = if value = .null then [] else [value] := by
  rw [AggregateFunction.values, List.filterMap_cons, h]
  by_cases hnull : value = .null
  · simp [Except.toOption, Option.filter, hnull]
  · simp [Except.toOption, Option.filter, hnull]

theorem Takes.mono {rows part : List Row} (h : Takes py function D rows) (hpart : part ⊆ rows) :
    Takes py function D part :=
  ⟨h.toHandles, fun row hrow => h.argument row (hpart hrow)⟩

theorem Takes.mem_values {rows : List Row} (h : Takes py function D rows) {value : SQLValue}
    (hvalue : value ∈ function.values py rows) : value ∈ D := by
  obtain ⟨row, hrow, hargument⟩ := List.mem_filterMap.mp hvalue
  obtain ⟨value', hvalue', hD⟩ := h.argument row hrow
  rw [hvalue'] at hargument
  obtain ⟨hsome, hne⟩ := Option.filter_eq_some_iff.mp hargument
  cases hsome
  exact hD.resolve_left (by simpa using hne)

/-- The five functions. -/
theorem Handles.name (h : Handles py function D) :
    function.name = "count" ∨ (function.name = "sum" ∨ function.name = "avg") ∨
      (function.name = "min" ∨ function.name = "max") := by
  have hmem := h.plain.2
  simp only [List.mem_cons, List.not_mem_nil, or_false] at hmem
  rcases hmem with h | h | h | h | h
  · exact Or.inl h
  · exact Or.inr (Or.inl (Or.inl h))
  · exact Or.inr (Or.inl (Or.inr h))
  · exact Or.inr (Or.inr (Or.inl h))
  · exact Or.inr (Or.inr (Or.inr h))

private theorem sum_names (h : function.name = "sum" ∨ function.name = "avg") :
    function.name ∈ ["sum", "avg"] ∧ function.name ≠ "count" := by
  rcases h with h | h <;> rw [h] <;> decide

private theorem order_names (h : function.name = "min" ∨ function.name = "max") :
    function.name ∈ ["min", "max"] ∧ function.name ∉ ["sum", "avg"] ∧ function.name ≠ "count" := by
  rcases h with h | h <;> rw [h] <;> decide

theorem combine_sum (h : function.name = "sum" ∨ function.name = "avg")
    {left right value : SQLValue}
    (hvalue : numericOperation py left right .add = .ok value) :
    function.combine py left right = value := by
  rw [AggregateFunction.combine, if_pos (sum_names h).1, hvalue]
  rfl

/-- The values of a function other than COUNT add up. -/
theorem Handles.adds (h : Handles py function D) (hcount : function.name ≠ "count") :
    Grouping.Adds (function.combine py) D := by
  rcases h.name.resolve_left hcount with hname | hname
  · have hsums := h.sums hname
    refine ⟨fun a ha b hb => ?_, fun a ha b hb c hc => ?_⟩
    · obtain ⟨c, hc, hadd⟩ := hsums.add a ha b hb
      rw [combine_sum hname hadd]
      exact hc
    · obtain ⟨ab, hab, hleft⟩ := hsums.add a ha b hb
      obtain ⟨bc, hbc, hright⟩ := hsums.add b hb c hc
      obtain ⟨abc, -, habc⟩ := hsums.add ab hab c hc
      rw [combine_sum hname hleft, combine_sum hname hright, combine_sum hname habc]
      rw [hsums.assoc a ha b hb c hc ab bc hleft hright] at habc
      rw [combine_sum hname habc]
  · have hsum := (order_names hname).2.1
    refine ⟨fun a ha b hb => ?_, fun a ha b hb c hc => ?_⟩
    · rw [AggregateFunction.combine, if_neg hsum]
      split_ifs <;> assumption
    · simp only [AggregateFunction.combine, if_neg hsum]
      rcases hname with hname | hname
      · simp only [hname, if_true]
        split_ifs <;> first | rfl | (exfalso; order)
      · simp only [hname, show ("max" : String) ≠ "min" by decide, if_false]
        split_ifs <;> first | rfl | (exfalso; order)

/-! ### What a function keeps -/

theorem summary_nil : function.summary py [] = .null := by
  rw [AggregateFunction.summary]
  split <;> rfl

theorem summary_count (h : function.name = "count") (values : List SQLValue) :
    function.summary py values = .null :=
  if_pos h

theorem summary_singleton (hcount : function.name ≠ "count") (value : SQLValue) :
    function.summary py [value] = value :=
  if_neg hcount

variable {values more : List SQLValue}

theorem Handles.summary_mem (h : Handles py function D) (hcount : function.name ≠ "count")
    (hvalues : ∀ v ∈ values, v ∈ D) (hne : values ≠ []) : function.summary py values ∈ D := by
  obtain ⟨first, rest, rfl⟩ := List.exists_cons_of_ne_nil hne
  rw [AggregateFunction.summary, if_neg hcount]
  exact (h.adds hcount).total_mem hvalues rfl

theorem Handles.summary_ne_null (h : Handles py function D) (hcount : function.name ≠ "count")
    (hvalues : ∀ v ∈ values, v ∈ D) (hne : values ≠ []) : function.summary py values ≠ .null :=
  fun hnull => h.not_null (hnull ▸ h.summary_mem hcount hvalues hne)

theorem Handles.summary_append (h : Handles py function D) (hcount : function.name ≠ "count")
    (hvalues : ∀ v ∈ values, v ∈ D) (hmore : ∀ v ∈ more, v ∈ D) (hne : values ≠ [])
    (hne' : more ≠ []) : function.summary py (values ++ more)
      = function.combine py (function.summary py values) (function.summary py more) := by
  obtain ⟨first, rest, rfl⟩ := List.exists_cons_of_ne_nil hne
  obtain ⟨first', rest', rfl⟩ := List.exists_cons_of_ne_nil hne'
  rw [AggregateFunction.summary, AggregateFunction.summary, AggregateFunction.summary,
    if_neg hcount, if_neg hcount, if_neg hcount,
    Grouping.total_append (h.adds hcount) hvalues hmore]
  rfl

/-- SUM and AVG of two lists, the second of which is not empty if the first is not. -/
theorem Handles.addNumbers_summary (h : Handles py function D)
    (hname : function.name = "sum" ∨ function.name = "avg") (hvalues : ∀ v ∈ values, v ∈ D)
    (hmore : ∀ v ∈ more, v ∈ D) (hne : values ≠ [] → more ≠ []) :
    addNumbers py (function.summary py values) (function.summary py more)
      = .ok (function.summary py (values ++ more)) := by
  have hcount := (sum_names hname).2
  by_cases hempty : values = []
  · rw [hempty, summary_nil]
    exact if_pos rfl
  · have hleft := h.summary_mem hcount hvalues hempty
    obtain ⟨value, -, hvalue⟩ := (h.sums hname).add _ hleft _
      (h.summary_mem hcount hmore (hne hempty))
    rw [addNumbers, if_neg (h.summary_ne_null hcount hvalues hempty), hvalue,
      h.summary_append hcount hvalues hmore hempty (hne hempty), combine_sum hname hvalue]

theorem Handles.addNumbers_null (h : Handles py function D)
    (hname : function.name = "sum" ∨ function.name = "avg") (hvalues : ∀ v ∈ values, v ∈ D)
    (hne : values ≠ []) : ∃ e, addNumbers py (function.summary py values) .null = .error e := by
  have hcount := (sum_names hname).2
  rw [addNumbers, if_neg (h.summary_ne_null hcount hvalues hne)]
  exact (h.sums hname).null _ (h.summary_mem hcount hvalues hne)

/-- MIN and MAX of two lists, the second of which is not empty. -/
theorem Handles.keep_summary (h : Handles py function D)
    (hname : function.name = "min" ∨ function.name = "max") (hvalues : ∀ v ∈ values, v ∈ D)
    (hmore : ∀ v ∈ more, v ∈ D) (hne : more ≠ []) :
    PartialState.keep function.name (function.summary py values) (function.summary py more)
      = .ok (function.summary py (values ++ more)) := by
  obtain ⟨-, hsum, hcount⟩ := order_names hname
  by_cases hempty : values = []
  · rw [hempty, summary_nil, PartialState.keep, if_pos rfl]
    rfl
  · have hleft := h.summary_mem hcount hvalues hempty
    have hright := h.summary_mem hcount hmore hne
    have hordered := h.ordered hname
    rw [PartialState.keep, if_neg (h.summary_ne_null hcount hvalues hempty),
      h.summary_append hcount hvalues hmore hempty hne, AggregateFunction.combine, if_neg hsum]
    rcases hname with hmin | hmax
    · rw [if_pos hmin, if_pos hmin, SQLValue.lt_of_comparable (hordered _ hright _ hleft)]
      by_cases hlt : (function.summary py more).rank < (function.summary py values).rank
      · simp [hlt]
      · simp [hlt]
    · have hnot : function.name ≠ "min" := by rw [hmax]; decide
      rw [if_neg hnot, if_neg hnot, SQLValue.gt_of_comparable (hordered _ hright _ hleft)]
      by_cases hlt : (function.summary py values).rank < (function.summary py more).rank
      · simp [hlt]
      · simp [hlt]

end Values

/-! ### The states after some rows -/

/-- A partial state after some rows. -/
def PartialState.after (py : Python) (function : AggregateFunction) (rows : List Row) :
    PartialState where
  function := function
  count := (function.values py rows).length
  value := function.summary py (function.values py rows)

/-- An `_AggregateState` after some rows. -/
def AggregateState.after (py : Python) (function : AggregateFunction) (rows : List Row) :
    AggregateState where
  function := function
  count := (function.values py rows).length
  total :=
    if function.name ∈ ["sum", "avg"] ∧ function.values py rows ≠ [] then
      function.summary py (function.values py rows)
    else .int 0
  value :=
    if function.name ∈ ["min", "max"] then function.summary py (function.values py rows) else .null

section States

variable {py : Python} {function : AggregateFunction} {D : Set SQLValue} {rows : List Row}

theorem PartialState.after_nil :
    PartialState.after py function [] = { function := function } := by
  rw [after, show function.values py [] = [] from rfl, summary_nil]
  rfl

theorem AggregateState.after_nil :
    AggregateState.after py function [] = { function := function } := by
  rw [after, show function.values py [] = [] from rfl, summary_nil, ite_self]
  simp

/-- A partial state is what its values make of it. -/
private theorem PartialState.after_of_values {rows' : List Row}
    (h : function.values py rows = function.values py rows') :
    PartialState.after py function rows = PartialState.after py function rows' := by
  rw [after, after, h]

private theorem AggregateState.after_of_values {rows' : List Row}
    (h : function.values py rows = function.values py rows') :
    AggregateState.after py function rows = AggregateState.after py function rows' := by
  rw [after, after, h]

/-- One more row in the first phase. -/
theorem PartialState.add_after {row : Row} (h : Takes py function D (rows ++ [row])) :
    (PartialState.after py function rows).add py row
      = .ok (PartialState.after py function (rows ++ [row])) := by
  have hrows : ∀ v ∈ function.values py rows, v ∈ D := fun v hv =>
    (h.mono (List.subset_append_left ..)).mem_values hv
  obtain ⟨value, hvalue, hD⟩ :=
    h.argument row (List.mem_append_right _ (List.mem_singleton_self row))
  have hlast : function.values py (rows ++ [row])
      = function.values py rows ++ if value = .null then [] else [value] := by
    rw [values_append, values_singleton hvalue]
  rw [add, show (after py function rows).function = function from rfl, hvalue, ExceptState.ok_bind]
  by_cases hnull : value = .null
  · rw [if_pos hnull, List.append_nil] at hlast
    rw [if_pos hnull, after_of_values hlast]
    rfl
  · -- one more value, which COUNT does not keep
    rw [if_neg hnull] at hlast
    have hmore : ∀ v ∈ [value], v ∈ D := List.forall_mem_singleton.mpr (hD.resolve_left hnull)
    have hne : [value] ≠ [] := List.cons_ne_nil _ _
    rw [if_neg hnull]
    simp only [after, hlast, List.length_append, List.length_singleton, Nat.cast_add, Nat.cast_one]
    rcases h.name with hcount | hsum | horder
    · rw [if_neg (by rw [hcount]; decide), if_neg (by rw [hcount]; decide), summary_count hcount,
        summary_count hcount]
      rfl
    · rw [if_pos (sum_names hsum).1]
      have hadd := h.addNumbers_summary hsum hrows hmore fun _ => hne
      rw [summary_singleton (sum_names hsum).2] at hadd
      rw [hadd]
      rfl
    · rw [if_neg (order_names horder).2.1, if_pos (order_names horder).1]
      have hkeep := h.keep_summary horder hrows hmore hne
      rw [summary_singleton (order_names horder).2.2] at hkeep
      rw [hkeep]
      rfl

/-- MIN and MAX of an `_AggregateState` keep the values that partial states keep. -/
private theorem accumulate_order {state : AggregateState}
    (hname : state.function.name = "min" ∨ state.function.name = "max") (argument : SQLValue) :
    state.accumulate py argument
      = (PartialState.keep state.function.name state.value argument).map fun value =>
          { state with count := state.count + 1, value := value } := by
  have hsum := (order_names hname).2.1
  simp only [AggregateState.accumulate, if_neg hsum, PartialState.keep]
  by_cases hnull : state.value = .null
  · simp only [if_pos hnull]
    rcases hname with hname | hname
    · rw [if_pos hname]
      rfl
    · rw [if_neg (by rw [hname]; decide), if_pos hname]
      rfl
  · simp only [if_neg hnull]
    rcases hname with hname | hname
    · rw [if_pos hname, if_pos hname]
      cases argument.lt state.value with
      | error e => rfl
      | ok less => cases less <;> rfl
    · have hmin : state.function.name ≠ "min" := by rw [hname]; decide
      rw [if_neg hmin, if_pos hname, if_neg hmin]
      cases argument.gt state.value with
      | error e => rfl
      | ok greater => cases greater <;> rfl

/-- One more row in a single phase. -/
theorem AggregateState.add_after {row : Row} (h : Takes py function D (rows ++ [row])) :
    (AggregateState.after py function rows).add py row
      = .ok (AggregateState.after py function (rows ++ [row])) := by
  have hrows : ∀ v ∈ function.values py rows, v ∈ D := fun v hv =>
    (h.mono (List.subset_append_left ..)).mem_values hv
  obtain ⟨value, hvalue, hD⟩ :=
    h.argument row (List.mem_append_right _ (List.mem_singleton_self row))
  have hlast : function.values py (rows ++ [row])
      = function.values py rows ++ if value = .null then [] else [value] := by
    rw [values_append, values_singleton hvalue]
  have hargument : (after py function rows).argument py row = .ok value := hvalue
  rw [add, hargument, ExceptState.ok_bind]
  by_cases hnull : value = .null
  · rw [if_pos hnull, List.append_nil] at hlast
    rw [if_pos hnull, after_of_values hlast]
    rfl
  · rw [if_neg hnull] at hlast
    have hmore : ∀ v ∈ [value], v ∈ D := List.forall_mem_singleton.mpr (hD.resolve_left hnull)
    have hne : [value] ≠ [] := List.cons_ne_nil _ _
    have hdistinct : ¬(after py function rows).function.distinct = true := by
      rw [show (after py function rows).function = function from rfl, h.plain.1]
      exact Bool.false_ne_true
    rw [if_neg hnull, if_neg hdistinct]
    rcases h.name with hcount | hsum | horder
    · -- COUNT has no total and no value
      rw [accumulate, show (after py function rows).function = function from rfl]
      simp [after, hlast, hcount, pure, Except.pure]
    · rw [accumulate, show (after py function rows).function = function from rfl,
        if_pos (sum_names hsum).1]
      -- the total begins with 0, where a partial value begins with NULL
      have hadd : numericOperation py (after py function rows).total value .add
          = .ok (function.summary py (function.values py rows ++ [value])) := by
        by_cases hempty : function.values py rows = []
        · rw [after, if_neg (fun hand => hand.2 hempty), hempty, List.nil_append,
            summary_singleton (sum_names hsum).2]
          exact (h.sums hsum).zero value (hD.resolve_left hnull)
        · have hadd := h.addNumbers_summary hsum hrows hmore fun _ => hne
          rw [summary_singleton (sum_names hsum).2, addNumbers,
            if_neg (h.summary_ne_null (sum_names hsum).2 hrows hempty)] at hadd
          rw [after, if_pos ⟨(sum_names hsum).1, hempty⟩, hadd]
      have horder : function.name ∉ ["min", "max"] := by
        rcases hsum with hname | hname <;> rw [hname] <;> decide
      have htotal : function.name ∈ ["sum", "avg"] ∧ function.values py rows ++ [value] ≠ [] :=
        ⟨(sum_names hsum).1, List.append_ne_nil_of_right_ne_nil _ hne⟩
      rw [hadd]
      simp only [after, hlast, if_neg horder, if_pos htotal, List.length_append,
        List.length_singleton]
      rfl
    · rw [accumulate_order horder]
      have hkeep := h.keep_summary horder hrows hmore hne
      rw [summary_singleton (order_names horder).2.2] at hkeep
      rw [show (after py function rows).function = function from rfl,
        show (after py function rows).value = function.summary py (function.values py rows) from
          if_pos (order_names horder).1, hkeep]
      simp only [after, hlast, if_pos (order_names horder).1, (order_names horder).2.1, false_and,
        if_false, List.length_append, List.length_singleton]
      rfl

private theorem average_congr {state state' : AggregateState} (hcount : state.count = state'.count)
    (htotal : state.total = state'.total) : state.average py = state'.average py := by
  rw [AggregateState.average, AggregateState.average, hcount, htotal]

/-- Both come to the same value of the group. -/
theorem PartialState.finish_after (h : Handles py function D) :
    (PartialState.after py function rows).finish py
      = (AggregateState.after py function rows).finish py := by
  rw [finish, AggregateState.finish]
  have hfunction : (after py function rows).function = function := rfl
  have hfunction' : (AggregateState.after py function rows).function = function := rfl
  rw [hfunction, hfunction']
  have hzero : (after py function rows).count = 0 ↔ function.values py rows = [] := by
    rw [after, Int.natCast_eq_zero, List.length_eq_zero_iff]
  have hzero' : (AggregateState.after py function rows).count = 0 ↔ function.values py rows = [] :=
    List.length_eq_zero_iff
  rcases h.name with hcount | hsum | horder
  · rw [if_pos hcount, if_pos hcount]
    rfl
  · have hcount := (sum_names hsum).2
    rw [if_neg hcount, if_neg hcount]
    by_cases hempty : function.values py rows = []
    · rw [if_pos (hzero.mpr hempty), if_pos (hzero'.mpr hempty), if_pos (hzero'.mpr hempty)]
      rcases hsum with hname | hname
      · rw [if_pos hname]
      · rw [if_neg (by rw [hname]; decide), if_pos hname]
    · have htotal : (AggregateState.after py function rows).total
          = function.summary py (function.values py rows) := if_pos ⟨(sum_names hsum).1, hempty⟩
      rw [if_neg (mt hzero.mp hempty), if_neg (mt hzero'.mp hempty), if_neg (mt hzero'.mp hempty)]
      rcases hsum with hname | hname
      · rw [if_neg (by rw [hname]; decide), if_pos hname, htotal]
        rfl
      · rw [if_pos hname, if_neg (by rw [hname]; decide), if_pos hname]
        exact average_congr rfl htotal.symm
  · obtain ⟨hmem, hnot, hcount⟩ := order_names horder
    have hsum : function.name ≠ "sum" ∧ function.name ≠ "avg" := by
      rcases horder with hname | hname <;> rw [hname] <;> decide
    have hvalue : (AggregateState.after py function rows).value
        = function.summary py (function.values py rows) := if_pos hmem
    rw [if_neg hcount, if_neg hcount, if_neg hsum.1, if_neg hsum.2, if_neg hsum.2, hvalue]
    by_cases hempty : function.values py rows = []
    · rw [if_pos (hzero.mpr hempty), hempty, summary_nil]
    · rw [if_neg (mt hzero.mp hempty)]
      rfl

/-! ### Merging partial states -/

/-- A part that is added to a group: SUM and AVG do not add nothing to something. -/
def Mergeable (py : Python) (function : AggregateFunction) (earlier later : List Row) : Prop :=
  function.name = "sum" ∨ function.name = "avg" →
    function.values py earlier ≠ [] → function.values py later ≠ []

/-- Merging the state of a part into the state of what is before it. -/
def PartialState.mergePart (py : Python) (part : List Row) (state : PartialState) :
    Except PyError PartialState :=
  state.merge py (PartialState.after py state.function part).count
    (PartialState.after py state.function part).value

theorem PartialState.mergePart_after {part : List Row} (h : Takes py function D (rows ++ part))
    {state : PartialState} :
    (PartialState.after py function rows).mergePart py part = .ok state ↔
      Mergeable py function rows part ∧ state = PartialState.after py function (rows ++ part) := by
  have hrows : ∀ v ∈ function.values py rows, v ∈ D := fun v hv =>
    (h.mono (List.subset_append_left ..)).mem_values hv
  have hpart : ∀ v ∈ function.values py part, v ∈ D := fun v hv =>
    (h.mono (List.subset_append_right ..)).mem_values hv
  have hall : function.values py (rows ++ part)
      = function.values py rows ++ function.values py part := values_append rows part
  simp only [mergePart, merge, after, hall, List.length_append, Nat.cast_add]
  rcases h.name with hcount | hsum | horder
  · -- COUNT adds up the counts only
    have hmerge : Mergeable py function rows part := fun hname => absurd hcount (sum_names hname).2
    have hnames : function.name ∉ ["sum", "avg"] ∧ function.name ∉ ["min", "max"] := by
      rw [hcount]
      decide
    simp only [hnames.1, hnames.2, false_and, if_false]
    rw [and_iff_right hmerge, summary_count hcount, summary_count hcount]
    exact ⟨fun h => by cases h; rfl, fun h => by rw [h]; rfl⟩
  · simp only [(sum_names hsum).1, if_true]
    -- NULL, the sum of no values, is not added to a number
    by_cases hne : function.values py rows ≠ [] → function.values py part ≠ []
    · have hmerge : Mergeable py function rows part := fun _ => hne
      rw [h.addNumbers_summary hsum hrows hpart hne, and_iff_right hmerge]
      exact ⟨fun h => by cases h; rfl, fun h => by rw [h]; rfl⟩
    · obtain ⟨hrowsNe, hpartNil⟩ := Classical.not_imp.mp hne
      rw [ne_eq, not_not] at hpartNil
      obtain ⟨e, he⟩ := h.addNumbers_null hsum hrows hrowsNe
      rw [hpartNil, summary_nil, he]
      refine iff_of_false (fun h => by cases h) fun hand => ?_
      exact hne (hand.1 hsum)
  · obtain ⟨hmem, hnot, hcount⟩ := order_names horder
    have hmerge : Mergeable py function rows part := fun hname => absurd (sum_names hname).1 hnot
    rw [and_iff_right hmerge]
    by_cases hempty : function.values py part = []
    · simp only [hempty, summary_nil, List.append_nil, hnot, hmem, ne_eq, not_true, and_false,
        if_false]
      exact ⟨fun h => by cases h; rfl, fun h => by rw [h]; rfl⟩
    · simp only [hnot, hmem, ne_eq, h.summary_ne_null hcount hpart hempty, not_false_eq_true,
        true_and, if_false, if_true]
      rw [h.keep_summary horder hrows hpart hempty]
      exact ⟨fun h => by cases h; rfl, fun h => by rw [h]; rfl⟩

theorem Mergeable.append_left {part rest : List Row} :
    Mergeable py function (rows ++ part) rest ↔
      Mergeable py function rows rest ∧ Mergeable py function part rest := by
  rw [Mergeable, Mergeable, Mergeable, values_append, ← forall_and]
  refine forall_congr' fun _ => ?_
  rw [ne_eq, List.append_eq_nil_iff, not_and_or, or_imp]

theorem Mergeable.of_nil (part : List Row) : Mergeable py function [] part :=
  fun _ h => absurd rfl h

/-- Merging the parts of a group one after the other. -/
theorem PartialState.foldlM_mergePart {parts : List (List Row)}
    (h : Takes py function D (rows ++ parts.flatten)) {state : PartialState} :
    parts.foldlM (fun state part => state.mergePart py part) (PartialState.after py function rows)
        = .ok state ↔
      (rows :: parts).Pairwise (Mergeable py function) ∧
        state = PartialState.after py function (rows ++ parts.flatten) := by
  induction parts generalizing rows with
  | nil =>
    rw [List.foldlM_nil, List.flatten_nil, List.append_nil,
      and_iff_right (List.pairwise_singleton _ _)]
    exact ⟨fun h => by cases h; rfl, fun h => by rw [h]; rfl⟩
  | cons part parts ih =>
    rw [List.flatten_cons, ← List.append_assoc] at h ⊢
    have hpart := h.mono (List.subset_append_left (rows ++ part) parts.flatten)
    -- the part is merged into what is before it, which then is before the other parts
    have hpairs : (rows :: part :: parts).Pairwise (Mergeable py function) ↔
        Mergeable py function rows part ∧
          ((rows ++ part) :: parts).Pairwise (Mergeable py function) := by
      simp only [List.pairwise_cons, List.forall_mem_cons, Mergeable.append_left, forall_and]
      tauto
    rw [List.foldlM_cons, ExceptState.bind_eq_ok_iff, hpairs, and_assoc, ← ih h]
    constructor
    · rintro ⟨next, hnext, hrest⟩
      obtain ⟨hmerge, rfl⟩ := (mergePart_after hpart).mp hnext
      exact ⟨hmerge, hrest⟩
    · rintro ⟨hmerge, hrest⟩
      exact ⟨_, (mergePart_after hpart).mpr ⟨hmerge, rfl⟩, hrest⟩

end States

/-! ### The groups of both phases -/

private theorem mapM_congr {α β : Type} {f g : α → Except PyError β} {l : List α}
    (h : ∀ a ∈ l, f a = g a) : l.mapM f = l.mapM g := by
  induction l with
  | nil => rfl
  | cons a l ih =>
    obtain ⟨ha, hl⟩ := List.forall_mem_cons.mp h
    rw [List.mapM_cons, List.mapM_cons, ha, ih hl]

section Groups

variable {py : Python} {groupBy : List Expression} {aggregates : List NamedExpression}
  {rows : List Row}

/-- The rows with the values of the GROUP BY expressions. -/
def keyedBy (py : Python) (groupBy : List Expression) (rows : List Row) :
    List (List SQLValue × Row) :=
  rows.map fun row => (rowValues py groupBy row, row)

/-- The groups of the rows; without GROUP BY there is one, of all rows. -/
def groupsOf (py : Python) (groupBy : List Expression) (rows : List Row) :
    List (List SQLValue × List Row) :=
  if groupBy = [] then [([], rows)] else Grouping.groups tupleEq (keyedBy py groupBy rows)

/-- The groups of all tables, as the parts of a group that the tables hold. -/
def groupParts (py : Python) (groupBy : List Expression) (source : List RecordBatch) :
    List (List SQLValue × List (List Row)) :=
  if groupBy = [] then [([], source.map (·.rows))]
  else (Grouping.groups tupleEq (keyedBy py groupBy (allRows source))).map fun group =>
    (group.1, (source.map fun table =>
      Grouping.members tupleEq group.1 (keyedBy py groupBy table.rows)).filter fun part =>
        !part.isEmpty)

/-- The states of the partial aggregates after some rows. -/
def partialStates (py : Python) (aggregates : List NamedExpression) (rows : List Row) :
    List PartialState :=
  (aggregateFunctions aggregates).map fun function => .after py function rows

/-- The states of the aggregates after some rows. -/
def aggregateStates (py : Python) (aggregates : List NamedExpression) (rows : List Row) :
    List AggregateState :=
  (aggregateFunctions aggregates).map fun function => .after py function rows

/-- Every aggregate takes the rows, each over values of its own kind. -/
def TakesAll (py : Python) (aggregates : List NamedExpression) (rows : List Row) : Prop :=
  ∀ function ∈ aggregateFunctions aggregates, ∃ D, Takes py function D rows

theorem newPartialStates_eq (py : Python) (aggregates : List NamedExpression) :
    newPartialStates aggregates = partialStates py aggregates [] := by
  rw [newPartialStates, partialStates]
  exact List.map_congr_left fun function _ => PartialState.after_nil.symm

/-- The aggregates of a plan that can be partial are aggregate functions. -/
theorem asAggregate_of_canPartial (h : canPartial aggregates = true) :
    ∀ item ∈ aggregates, ∃ function, item.expression.asAggregate = some function := by
  intro item hitem
  have hfunction := List.all_eq_true.mp h item hitem
  revert hfunction
  cases item.expression.asAggregate with
  | none => exact fun hfalse => absurd hfalse Bool.false_ne_true
  | some function => exact fun _ => ⟨function, rfl⟩

private theorem aggregateFunctions_cons {item : NamedExpression} {function : AggregateFunction}
    (h : item.expression.asAggregate = some function) :
    aggregateFunctions (item :: aggregates) = function :: aggregateFunctions aggregates := by
  rw [aggregateFunctions, List.filterMap_cons, h]
  rfl

theorem newStates_eq (h : canPartial aggregates = true) :
    newStates aggregates = .ok (aggregateStates py aggregates []) := by
  have hall := asAggregate_of_canPartial h
  clear h
  rw [newStates, aggregateStates]
  induction aggregates with
  | nil => rfl
  | cons item aggregates ih =>
    obtain ⟨⟨function, hfunction⟩, hrest⟩ := List.forall_mem_cons.mp hall
    rw [aggregateFunctions_cons hfunction, List.map_cons, AggregateState.after_nil,
      ExceptState.mapM_cons_eq_ok_iff]
    exact ⟨_, _, by rw [hfunction], ih hrest, rfl⟩

theorem length_partialStates (h : canPartial aggregates = true) :
    (partialStates py aggregates rows).length = aggregates.length := by
  have hall := asAggregate_of_canPartial h
  clear h
  rw [partialStates, List.length_map]
  induction aggregates with
  | nil => rfl
  | cons item aggregates ih =>
    obtain ⟨⟨function, hfunction⟩, hrest⟩ := List.forall_mem_cons.mp hall
    rw [aggregateFunctions_cons hfunction, List.length_cons, List.length_cons, ih hrest]

theorem TakesAll.mono (h : TakesAll py aggregates rows) {part : List Row}
    (hpart : ∀ row ∈ part, row ∈ rows) : TakesAll py aggregates part := by
  intro function hfunction
  obtain ⟨D, hD⟩ := h function hfunction
  exact ⟨D, hD.mono hpart⟩

/-- One more row for all states of the first phase. -/
theorem partialStates_step {row : Row} (h : TakesAll py aggregates (rows ++ [row])) :
    (partialStates py aggregates rows).mapM (PartialState.add py row)
      = .ok (partialStates py aggregates (rows ++ [row])) := by
  rw [ExceptState.mapM_eq_ok_iff, partialStates, partialStates, List.forall₂_map_left_iff,
    List.forall₂_map_right_iff, List.forall₂_same]
  intro function hfunction
  obtain ⟨D, hD⟩ := h function hfunction
  exact PartialState.add_after hD

/-- One more row for all states of a single phase. -/
theorem aggregateStates_step {row : Row} (h : TakesAll py aggregates (rows ++ [row])) :
    (aggregateStates py aggregates rows).mapM (AggregateState.add py row)
      = .ok (aggregateStates py aggregates (rows ++ [row])) := by
  rw [ExceptState.mapM_eq_ok_iff, aggregateStates, aggregateStates, List.forall₂_map_left_iff,
    List.forall₂_map_right_iff, List.forall₂_same]
  intro function hfunction
  obtain ⟨D, hD⟩ := h function hfunction
  exact AggregateState.add_after hD

/-- The group of a key comes to the same row from both. -/
theorem finalRow_partialStates (h : TakesAll py aggregates rows) (key : List SQLValue) :
    finalRow py groupBy aggregates (key, partialStates py aggregates rows)
      = finishGroup py groupBy aggregates (key, aggregateStates py aggregates rows) := by
  have hfinish : (partialStates py aggregates rows).mapM (PartialState.finish py)
      = (aggregateStates py aggregates rows).mapM (AggregateState.finish py) := by
    rw [partialStates, aggregateStates, List.mapM_map, List.mapM_map]
    refine mapM_congr fun function hfunction => ?_
    obtain ⟨D, hD⟩ := h function hfunction
    exact PartialState.finish_after hD.toHandles
  rw [finalRow, finishGroup, hfinish]

/-! ### The row of a partial group -/

/-- The row of a group of the first phase. -/
def partRow (py : Python) (groupBy : List Expression) (aggregates : List NamedExpression)
    (group : List SQLValue × List Row) : Row :=
  partialRow py groupBy (group.1, partialStates py aggregates group.2)

/-- The items of a state in a partial row. -/
def stateItems (item : PartialState × ℕ) : Row :=
  [(partialCountName item.2, .int item.1.count), (partialValueName item.2, item.1.value)]

private theorem names_stateItems {states : List PartialState} :
    Row.names (states.zipIdx.flatMap stateItems)
      = (List.range states.length).flatMap fun index =>
          [partialCountName index, partialValueName index] := by
  have hrange : (List.range states.length) = states.zipIdx.map Prod.snd := by
    rw [List.zipIdx_map_snd, List.range_eq_range']
  rw [Row.names, List.map_flatMap, hrange, List.flatMap_map]
  rfl

/-- The row of a partial group is its key and then the items of its states. -/
theorem partRow_eq (hplan : canPartial aggregates = true)
    (hnodup : (partialNames py groupBy aggregates).Nodup) {group : List SQLValue × List Row}
    (hkey : group.1.length = groupBy.length) :
    partRow py groupBy aggregates group = (groupBy.map (Expression.sql py)).zip group.1
      ++ (partialStates py aggregates group.2).zipIdx.flatMap stateItems := by
  obtain ⟨hgroup, hnames, hdisjoint⟩ := List.nodup_append.mp hnodup
  have hkeyNames : ((groupBy.map (Expression.sql py)).zip group.1).map Prod.fst
      = groupBy.map (Expression.sql py) := List.map_fst_zip (by rw [List.length_map, hkey])
  have hstateNames : ((partialStates py aggregates group.2).zipIdx.flatMap stateItems).map Prod.fst
      = (List.range aggregates.length).flatMap fun index =>
          [partialCountName index, partialValueName index] := by
    rw [← length_partialStates hplan]
    exact names_stateItems
  have hitems : (Dict.empty.update ((groupBy.map (Expression.sql py)).zip group.1)).items
      = (groupBy.map (Expression.sql py)).zip group.1 :=
    Dict.items_update_of_new (hkeyNames.symm ▸ hgroup) fun _ _ => rfl
  rw [partRow, partialRow]
  refine (Dict.items_update_of_new (hstateNames.symm ▸ hnames) fun item hitem => ?_).trans
    (congrArg (· ++ _) hitems)
  rw [Dict.get?_eq_none, Dict.keys, hitems]
  intro hmem
  have hname : item.1 ∈ groupBy.map (Expression.sql py) := hkeyNames ▸ hmem
  exact hdisjoint _ hname _ (hstateNames ▸ List.mem_map_of_mem hitem) rfl

theorem names_partRow (hplan : canPartial aggregates = true)
    (hnodup : (partialNames py groupBy aggregates).Nodup) {group : List SQLValue × List Row}
    (hkey : group.1.length = groupBy.length) :
    (partRow py groupBy aggregates group).names = partialNames py groupBy aggregates := by
  rw [partRow_eq hplan hnodup hkey, Row.names, List.map_append, List.map_fst_zip
    (by rw [List.length_map, hkey])]
  refine congrArg (_ ++ ·) (names_stateItems.trans ?_)
  rw [length_partialStates hplan]

/-- A partial row tells its key. -/
theorem key_partRow (hplan : canPartial aggregates = true)
    (hnodup : (partialNames py groupBy aggregates).Nodup)
    (hcolumns : ∀ expression ∈ groupBy, expression.isColumn = true)
    {group : List SQLValue × List Row} {row : Row}
    (hkey : Expression.evaluateAll py row groupBy = .ok group.1) :
    Expression.evaluateAll py (partRow py groupBy aggregates group) groupBy = .ok group.1 ∧
      (groupBy.map fun expression =>
        ((partRow py groupBy aggregates group).get? (expression.sql py)).getD .null) = group.1 := by
  have hread := get?_zip_texts hkey (List.nodup_append.mp hnodup).1
    ((partialStates py aggregates group.2).zipIdx.flatMap stateItems)
  rw [← partRow_eq hplan hnodup (Expression.length_of_evaluateAll hkey)] at hread
  generalize partRow py groupBy aggregates group = partRow at hread ⊢
  generalize group.1 = values at hkey ⊢
  clear hnodup
  induction groupBy generalizing values with
  | nil =>
    cases hkey
    exact ⟨rfl, rfl⟩
  | cons expression groupBy ih =>
    obtain ⟨hcolumn, hcolumns⟩ := List.forall_mem_cons.mp hcolumns
    obtain ⟨⟨value, hvalue, hget⟩, hread⟩ := List.forall_mem_cons.mp hread
    obtain ⟨value', tail, hvalue', htail, rfl⟩ := Expression.evaluateAll_cons hkey
    obtain rfl : value = value' := Except.ok.inj (hvalue.symm.trans hvalue')
    obtain ⟨heval, hmap⟩ := ih hcolumns hread tail htail
    have hfirst : expression.evaluate py partRow = .ok value := by
      cases expression with
      | column name source type => exact Expression.evaluate_column hget
      | _ => cases hcolumn
    refine ⟨?_, ?_⟩
    · rw [Expression.evaluateAll, hfirst, heval]
      rfl
    · rw [List.map_cons, hmap, hget]
      rfl

theorem getItem_partRow (hplan : canPartial aggregates = true)
    (hnodup : (partialNames py groupBy aggregates).Nodup) {group : List SQLValue × List Row}
    (hkey : group.1.length = groupBy.length) {item : PartialState × ℕ}
    (hitem : item ∈ (partialStates py aggregates group.2).zipIdx) :
    (partRow py groupBy aggregates group).getItem (partialCountName item.2)
        = .ok (.int item.1.count) ∧
      (partRow py groupBy aggregates group).getItem (partialValueName item.2)
        = .ok item.1.value := by
  have hread : ∀ field ∈ stateItems item,
      (partRow py groupBy aggregates group).getItem field.1 = .ok field.2 := by
    intro field hfield
    have hmem : field ∈ partRow py groupBy aggregates group := by
      rw [partRow_eq hplan hnodup hkey]
      exact List.mem_append_right _ (List.mem_flatMap.mpr ⟨item, hitem, hfield⟩)
    exact Row.getItem_of_get? (Dict.mem_items.mp hmem)
  exact ⟨hread _ List.mem_cons_self, hread _ (List.mem_cons_of_mem _ List.mem_cons_self)⟩

/-- Merging the row of a partial group is merging its states. -/
theorem mergeRow_partRow (hplan : canPartial aggregates = true)
    (hnodup : (partialNames py groupBy aggregates).Nodup) {group : List SQLValue × List Row}
    (hkey : group.1.length = groupBy.length) {states : List PartialState}
    (hstates : states.map (·.function) = aggregateFunctions aggregates) :
    states.zipIdx.mapM (mergeRow py (partRow py groupBy aggregates group))
      = states.mapM (PartialState.mergePart py group.2) := by
  have hrow : ∀ item ∈ states.zipIdx, mergeRow py (partRow py groupBy aggregates group) item
      = item.1.mergePart py group.2 := by
    intro item hitem
    have hget := List.mem_zipIdx_iff_getElem?.mp hitem
    -- the row has the state of the same function at this place
    have hmem : (PartialState.after py item.1.function group.2, item.2)
        ∈ (partialStates py aggregates group.2).zipIdx := by
      rw [List.mem_zipIdx_iff_getElem?, partialStates, ← hstates, List.getElem?_map,
        List.getElem?_map, hget]
      rfl
    obtain ⟨hcount, hvalue⟩ := getItem_partRow hplan hnodup hkey hmem
    rw [mergeRow, hcount, hvalue]
    rfl
  have hfst : states = states.zipIdx.map Prod.fst := (List.zipIdx_map_fst 0 states).symm
  rw [mapM_congr hrow]
  conv_rhs => rw [hfst, List.mapM_map]
  rfl

theorem PartialState.function_mergePart {part : List Row} {state state' : PartialState}
    (h : state.mergePart py part = .ok state') : state'.function = state.function := by
  rw [mergePart, merge] at h
  split at h
  · obtain ⟨value, -, h⟩ := ExceptState.bind_eq_ok h
    cases h
    rfl
  · split at h
    · obtain ⟨value, -, h⟩ := ExceptState.bind_eq_ok h
      cases h
      rfl
    · cases h
      rfl

theorem functions_mergePart {part : List Row} {states states' : List PartialState}
    (h : states.mapM (PartialState.mergePart py part) = .ok states') :
    states'.map (·.function) = states.map (·.function) := by
  have hall := ExceptState.mapM_eq_ok_iff.mp h
  clear h
  induction hall with
  | nil => rfl
  | cons hstate _ ih =>
    rw [List.map_cons, List.map_cons, ih, PartialState.function_mergePart hstate]

/-- Merging the parts of a group of states. -/
theorem foldlM_merge_iff {parts : List (List Row)} (h : TakesAll py aggregates parts.flatten)
    {states : List PartialState} :
    parts.foldlM (fun states part => states.mapM (PartialState.mergePart py part))
        (partialStates py aggregates []) = .ok states ↔
      (∀ function ∈ aggregateFunctions aggregates, parts.Pairwise (Mergeable py function)) ∧
        states = partialStates py aggregates parts.flatten := by
  have hone : ∀ function ∈ aggregateFunctions aggregates, ∀ state,
      parts.foldlM (fun state part => state.mergePart py part) (PartialState.after py function [])
          = .ok state ↔
        parts.Pairwise (Mergeable py function) ∧
          state = PartialState.after py function parts.flatten := by
    intro function hfunction state
    obtain ⟨D, hD⟩ := h function hfunction
    have hfold : parts.foldlM (fun state part => state.mergePart py part)
        (PartialState.after py function []) = .ok state ↔
          ([] :: parts).Pairwise (Mergeable py function) ∧
            state = PartialState.after py function ([] ++ parts.flatten) :=
      PartialState.foldlM_mergePart hD
    rw [List.pairwise_cons, and_iff_right fun part _ => Mergeable.of_nil part,
      List.nil_append] at hfold
    exact hfold
  rw [Grouping.foldlM_mapM_eq_ok_iff, ExceptState.mapM_eq_ok_iff, partialStates, partialStates,
    List.forall₂_map_left_iff]
  generalize aggregateFunctions aggregates = functions at hone ⊢
  induction functions generalizing states with
  | nil =>
    rw [List.forall₂_nil_left_iff]
    exact ⟨fun h => ⟨fun _ hmem => absurd hmem List.not_mem_nil, h⟩, fun h => h.2⟩
  | cons function functions ih =>
    obtain ⟨hfunction, hfunctions⟩ := List.forall_mem_cons.mp hone
    rw [List.forall₂_cons_left_iff, List.forall_mem_cons]
    constructor
    · rintro ⟨state, rest, hstate, hrest, rfl⟩
      obtain ⟨hpairs, rfl⟩ := (hfunction state).mp hstate
      obtain ⟨hall, rfl⟩ := (ih hfunctions).mp hrest
      exact ⟨⟨hpairs, hall⟩, rfl⟩
    · rintro ⟨⟨hpairs, hall⟩, rfl⟩
      exact ⟨_, _, (hfunction _).mpr ⟨hpairs, rfl⟩, (ih hfunctions).mpr ⟨hall, rfl⟩, rfl⟩

/-! ### The dicts of groups -/

private theorem tupleEq_nil : tupleEq [] [] = true := rfl

/-- The dict of a step that is folded over the rows of a group. -/
theorem foldGroups_keyedBy {σ : Type} (step : σ → Row → Except PyError σ) (after : List Row → σ)
    (hstep : ∀ part row, (∀ other ∈ part ++ [row], other ∈ rows) →
      step (after part) row = .ok (after (part ++ [row]))) :
    Grouping.foldGroups tupleEq step (after []) (keyedBy py groupBy rows)
        (if groupBy = [] then [([], after [])] else [])
      = .ok ((groupsOf py groupBy rows).map fun group => (group.1, after group.2)) := by
  have hfold : ∀ part : List Row, (∀ row ∈ part, row ∈ rows) →
      part.foldlM step (after []) = .ok (after part) := fun part hpart =>
    Grouping.foldlM_eq_ok_of_step hstep hpart
  by_cases hgroup : groupBy = []
  · subst hgroup
    rw [if_pos rfl, groupsOf, if_pos rfl, Grouping.foldGroups_singleton_eq_ok_iff]
    · refine ⟨after rows, ?_, rfl⟩
      rw [keyedBy, List.map_map]
      exact (congrArg (fun part => List.foldlM step (after []) part) (List.map_id rows)).trans
        (hfold rows fun _ h => h)
    · intro item hitem
      obtain ⟨row, -, rfl⟩ := List.mem_map.mp hitem
      exact tupleEq_nil
  · rw [if_neg hgroup, groupsOf, if_neg hgroup, Grouping.foldGroups_eq_ok_iff]
    refine ExceptState.mapM_eq_ok fun group hmem => ?_
    rw [Grouping.foldGroup, hfold group.2 fun row hrow => ?_]
    · rfl
    · have hsub := Grouping.sublist_of_mem_groups group hmem
      rw [keyedBy, List.map_map] at hsub
      have hrow := hsub.subset hrow
      rw [List.mem_map] at hrow
      obtain ⟨other, hother, heq⟩ := hrow
      exact heq ▸ hother

/-- The rows have values of the GROUP BY expressions. -/
def Keyed (py : Python) (groupBy : List Expression) (rows : List Row) : Prop :=
  ∀ row ∈ rows, Expression.evaluateAll py row groupBy = .ok (rowValues py groupBy row)

private theorem foldlM_congr {α β : Type} {f g : β → α → Except PyError β} {l : List α}
    (h : ∀ a ∈ l, ∀ b, f b a = g b a) (start : β) : l.foldlM f start = l.foldlM g start := by
  induction l generalizing start with
  | nil => rfl
  | cons a l ih =>
    obtain ⟨ha, hl⟩ := List.forall_mem_cons.mp h
    rw [List.foldlM_cons, List.foldlM_cons, ha]
    exact congrArg _ (funext fun next => ih hl next)

/-- The groups after the first phase on some rows. -/
theorem partialGroups_eq (hkeys : Keyed py groupBy rows) (h : TakesAll py aggregates rows) :
    partialGroups py groupBy aggregates rows = .ok ((groupsOf py groupBy rows).map fun group =>
      (group.1, partialStates py aggregates group.2)) := by
  rw [← foldGroups_keyedBy (fun states row => states.mapM (PartialState.add py row))
    (partialStates py aggregates) fun part row hmem => partialStates_step (h.mono hmem),
    partialGroups, newPartialStates_eq py, Grouping.foldGroups, keyedBy, List.foldlM_map]
  simp only [List.isEmpty_iff]
  refine foldlM_congr (fun row hrow groups => ?_) _
  rw [hkeys row hrow, ExceptState.ok_bind]

/-- A step of the dict of a single phase. -/
theorem addToGroups_eq_update (row : Row) (new : AggregateGroup) (groups : List AggregateGroup) :
    addToGroups py row new groups
      = Grouping.update tupleEq (fun states row => states.mapM (AggregateState.add py row)) new.2
          (new.1, row) groups := by
  induction groups with
  | nil => rfl
  | cons group rest ih => rw [addToGroups, Grouping.update, ih]

/-- The groups of a single phase. -/
theorem hashGroups_eq (hplan : canPartial aggregates = true) (hkeys : Keyed py groupBy rows)
    (h : TakesAll py aggregates rows) :
    hashGroups py groupBy aggregates rows = .ok ((groupsOf py groupBy rows).map fun group =>
      (group.1, aggregateStates py aggregates group.2)) := by
  have hsteps : ∀ start : List AggregateGroup, rows.foldlM (fun groups row => do
      let key ← Expression.evaluateAll py row groupBy
      addToGroups py row (key, ← newStates aggregates) groups) start
        = Grouping.foldGroups tupleEq (fun states row => states.mapM (AggregateState.add py row))
          (aggregateStates py aggregates []) (keyedBy py groupBy rows) start := by
    intro start
    rw [Grouping.foldGroups, keyedBy, List.foldlM_map]
    refine foldlM_congr (fun row hrow groups => ?_) start
    rw [hkeys row hrow, ExceptState.ok_bind, newStates_eq hplan, ExceptState.ok_bind,
      addToGroups_eq_update]
  rw [← foldGroups_keyedBy (fun states row => states.mapM (AggregateState.add py row))
    (aggregateStates py aggregates) fun part row hmem => aggregateStates_step (h.mono hmem),
    hashGroups]
  by_cases hempty : groupBy = []
  · rw [if_pos (List.isEmpty_iff.mpr hempty), if_pos hempty, ← hsteps, newStates_eq hplan]
    rfl
  · rw [if_neg (mt List.isEmpty_iff.mp hempty), if_neg hempty, ← hsteps]
    rfl

/-- The second phase reads the parts of its groups out of the partial rows. -/
theorem finalGroups_eq (hplan : canPartial aggregates = true)
    (hnodup : (partialNames py groupBy aggregates).Nodup)
    (hcolumns : ∀ expression ∈ groupBy, expression.isColumn = true)
    {parts : List (List SQLValue × List Row)}
    (hparts : ∀ part ∈ parts, ∃ row, Expression.evaluateAll py row groupBy = .ok part.1) :
    finalGroups py groupBy aggregates (parts.map (partRow py groupBy aggregates))
      = Grouping.foldGroups tupleEq
          (fun states part => states.mapM (PartialState.mergePart py part))
          (partialStates py aggregates []) parts
          (if groupBy = [] then [([], partialStates py aggregates [])] else []) := by
  have hfunctions : (partialStates py aggregates []).map (·.function)
      = aggregateFunctions aggregates := by
    rw [partialStates, List.map_map]
    exact List.map_id _
  have hstart : ∀ group ∈ (if groupBy = [] then [([], partialStates py aggregates [])] else [] :
      List (List SQLValue × List PartialState)),
      group.2.map (·.function) = aggregateFunctions aggregates := by
    split
    · exact List.forall_mem_singleton.mpr hfunctions
    · exact fun _ h => absurd h List.not_mem_nil
  -- the states are of these functions at every step, so that a row has the states to merge
  refine Eq.trans ?_ (Grouping.foldGroups_map_congr
    (fun states => states.map (·.function) = aggregateFunctions aggregates)
    (partRow py groupBy aggregates) (fun states row => states.zipIdx.mapM (mergeRow py row))
    hfunctions (fun part hpart states hstates => ?_)
    (fun part _ states states' hstates h => (functions_mergePart h).trans hstates) hstart)
  · rw [finalGroups, newPartialStates_eq py, Grouping.foldGroups, List.foldlM_map, List.foldlM_map]
    simp only [List.isEmpty_iff]
    refine foldlM_congr (fun part hpart groups => ?_) _
    obtain ⟨row, hrow⟩ := hparts part hpart
    rw [(key_partRow hplan hnodup hcolumns hrow).2]
  · obtain ⟨row, hrow⟩ := hparts part hpart
    exact mergeRow_partRow hplan hnodup (Expression.length_of_evaluateAll hrow) hstates

end Groups

/-! ### The parts of the groups -/

section Parts

variable {py : Python} {groupBy : List Expression} {aggregates : List NamedExpression}
  {domains : List (Set SQLValue)} {source : List RecordBatch}

private theorem mem_allRows_of_mem {table : RecordBatch} (htable : table ∈ source) :
    ∀ row ∈ table.rows, row ∈ allRows source :=
  fun _ hrow => List.mem_flatMap.mpr ⟨table, htable, hrow⟩

private theorem keyedBy_allRows :
    keyedBy py groupBy (allRows source)
      = (source.map fun table => keyedBy py groupBy table.rows).flatten := by
  rw [keyedBy, allRows, List.map_flatMap, List.flatMap_def]
  rfl

private theorem inDomains_keyedBy {rows : List Row}
    (hkeys : ∀ row ∈ rows, HasKeys py groupBy domains row) :
    ∀ item ∈ keyedBy py groupBy rows, InDomains domains item.1 := by
  intro item hitem
  obtain ⟨row, hrow, rfl⟩ := List.mem_map.mp hitem
  exact (hkeys row hrow).2

/-- The parts of a group make it up. -/
theorem groupParts_flatten (hS : ∀ S ∈ domains, Ordered S)
    (hkeys : ∀ row ∈ allRows source, HasKeys py groupBy domains row) :
    (groupParts py groupBy source).map (fun group => (group.1, group.2.flatten))
      = groupsOf py groupBy (allRows source) := by
  rw [groupParts, groupsOf]
  by_cases hgroup : groupBy = []
  · rw [if_pos hgroup, if_pos hgroup, List.map_singleton, allRows, List.flatMap_def]
  · have hsame : ∀ a b, InDomains domains a → InDomains domains b →
        (tupleEq a b = true ↔ sortKey a = sortKey b) :=
      fun a b ha hb => tupleEq_iff_sortKey hS ha hb
    rw [if_neg hgroup, if_neg hgroup, List.map_map]
    refine (List.map_congr_left fun group hmem => ?_).trans (List.map_id _)
    have hmembers := Grouping.eq_members_of_mem_groups hsame (inDomains_keyedBy hkeys) hmem
    rw [keyedBy_allRows, Grouping.members_flatten, List.map_map] at hmembers
    exact Prod.ext rfl (List.flatten_filter_not_isEmpty.trans hmembers.symm)

/-- Grouping the groups of the tables gives the groups in their parts. -/
theorem foldGroups_parts {σ : Type} {merge : σ → List Row → Except PyError σ} {new : σ}
    (hS : ∀ S ∈ domains, Ordered S) (hkeys : ∀ row ∈ allRows source, HasKeys py groupBy domains row)
    {chosen : List SQLValue → Bool} (hchosen : Grouping.Respects tupleEq (InDomains domains) chosen)
    (hall : groupBy = [] → chosen [] = true) {result : List (List SQLValue × σ)} :
    Grouping.foldGroups tupleEq merge new
        ((source.flatMap fun table => groupsOf py groupBy table.rows).filter
          fun part => chosen part.1)
        (if groupBy = [] then [([], new)] else []) = .ok result ↔
      ((groupParts py groupBy source).filter fun group => chosen group.1).mapM
        (Grouping.foldGroup merge new) = .ok result := by
  by_cases hgroup : groupBy = []
  · -- every table has one group, which is a part of the one group of all rows
    have hparts : (source.flatMap fun table => groupsOf py groupBy table.rows)
        = source.map fun table => ([], table.rows) := by
      simp only [groupsOf, if_pos hgroup]
      exact List.map_eq_flatMap.symm
    have hrows : (source.map fun table => (([] : List SQLValue), table.rows)).map Prod.snd
        = source.map (·.rows) := by
      rw [List.map_map]
      rfl
    have hfilter : (source.map fun table => (([] : List SQLValue), table.rows)).filter
        (fun part => chosen part.1) = source.map fun table => ([], table.rows) := by
      rw [List.filter_eq_self]
      intro part hpart
      obtain ⟨table, -, rfl⟩ := List.mem_map.mp hpart
      exact hall hgroup
    rw [hparts, hfilter, if_pos hgroup, groupParts, if_pos hgroup, List.filter_cons,
      if_pos (hall hgroup), List.filter_nil, Grouping.foldGroups_singleton_eq_ok_iff,
      ExceptState.mapM_cons_eq_ok_iff, hrows]
    · constructor
      · rintro ⟨state, hstate, rfl⟩
        exact ⟨_, [], Grouping.foldGroup_eq_ok_iff.mpr ⟨rfl, hstate⟩, rfl, rfl⟩
      · rintro ⟨first, rest, hfirst, hrest, rfl⟩
        cases hrest
        obtain ⟨hkey, hstate⟩ := Grouping.foldGroup_eq_ok_iff.mp hfirst
        exact ⟨first.2, hstate, congrArg (fun item => [item]) (Prod.ext hkey rfl)⟩
    · intro item hitem
      obtain ⟨table, -, rfl⟩ := List.mem_map.mp hitem
      exact tupleEq_nil
  · have hsame : ∀ a b, InDomains domains a → InDomains domains b →
        (tupleEq a b = true ↔ sortKey a = sortKey b) :=
      fun a b ha hb => tupleEq_iff_sortKey hS ha hb
    have htables : ∀ part ∈ source.map (fun table => keyedBy py groupBy table.rows),
        ∀ item ∈ part, InDomains domains item.1 := by
      intro part hpart
      obtain ⟨table, htable, rfl⟩ := List.mem_map.mp hpart
      exact inDomains_keyedBy fun row hrow => hkeys row (mem_allRows_of_mem htable row hrow)
    have hparts : (source.flatMap fun table => groupsOf py groupBy table.rows)
        = (source.map fun table => keyedBy py groupBy table.rows).flatMap
          (Grouping.groups tupleEq) := by
      simp only [groupsOf, if_neg hgroup, List.flatMap_map]
    have hitems : ∀ item ∈ (source.map fun table => keyedBy py groupBy table.rows).flatMap
        (Grouping.groups tupleEq), InDomains domains item.1 := by
      intro item hitem
      obtain ⟨part, hpart, hitem⟩ := List.mem_flatMap.mp hitem
      exact Grouping.keys_of_mem_groups (htables part hpart) item hitem
    rw [if_neg hgroup, Grouping.foldGroups_eq_ok_iff, hparts, Grouping.groups_filter hchosen hitems,
      Grouping.groups_flatMap_groups hsame htables, groupParts, if_neg hgroup, keyedBy_allRows]
    simp only [List.map_map]
    rfl

/-- A group has the key of a row. -/
theorem exists_row_of_groupsOf {rows : List Row} (hkeys : Keyed py groupBy rows) :
    ∀ group ∈ groupsOf py groupBy rows,
      ∃ row, Expression.evaluateAll py row groupBy = .ok group.1 := by
  intro group hgroup
  rw [groupsOf] at hgroup
  split at hgroup
  next hempty =>
    rw [List.mem_singleton.mp hgroup, hempty]
    exact ⟨[], rfl⟩
  · refine Grouping.keys_of_mem_groups
      (K := fun key => ∃ row, Expression.evaluateAll py row groupBy = .ok key)
      (fun item hitem => ?_) group hgroup
    obtain ⟨row, hrow, rfl⟩ := List.mem_map.mp hitem
    exact ⟨row, hkeys row hrow⟩

/-- The members of a group are rows. -/
theorem mem_of_groupsOf {rows : List Row} : ∀ group ∈ groupsOf py groupBy rows,
    ∀ row ∈ group.2, row ∈ rows := by
  intro group hgroup row hrow
  rw [groupsOf] at hgroup
  split at hgroup
  · rw [List.mem_singleton.mp hgroup] at hrow
    exact hrow
  · have hsub := (Grouping.sublist_of_mem_groups group hgroup).subset hrow
    rw [keyedBy, List.map_map] at hsub
    obtain ⟨other, hother, rfl⟩ := List.mem_map.mp hsub
    exact hother

/-- The groups with their parts merged. -/
theorem mapM_merge_iff {parts : List (List SQLValue × List (List Row))}
    (h : ∀ group ∈ parts, TakesAll py aggregates group.2.flatten)
    {result : List (List SQLValue × List PartialState)} :
    parts.mapM (Grouping.foldGroup
        (fun states part => states.mapM (PartialState.mergePart py part))
        (partialStates py aggregates [])) = .ok result ↔
      (∀ group ∈ parts, ∀ function ∈ aggregateFunctions aggregates,
        group.2.Pairwise (Mergeable py function)) ∧
      result = parts.map fun group => (group.1, partialStates py aggregates group.2.flatten) := by
  induction parts generalizing result with
  | nil =>
    constructor
    · intro h
      cases h
      exact ⟨fun _ hmem => absurd hmem List.not_mem_nil, rfl⟩
    · rintro ⟨-, rfl⟩
      rfl
  | cons group parts ih =>
    obtain ⟨hgroup, hparts⟩ := List.forall_mem_cons.mp h
    rw [ExceptState.mapM_cons_eq_ok_iff, List.forall_mem_cons]
    constructor
    · rintro ⟨first, rest, hfirst, hrest, rfl⟩
      obtain ⟨hkey, hstates⟩ := Grouping.foldGroup_eq_ok_iff.mp hfirst
      obtain ⟨hpairs, hmerged⟩ := (foldlM_merge_iff hgroup).mp hstates
      obtain ⟨hall, rfl⟩ := (ih hparts).mp hrest
      exact ⟨⟨hpairs, hall⟩, congrArg (· :: _) (Prod.ext hkey hmerged)⟩
    · rintro ⟨⟨hpairs, hall⟩, rfl⟩
      exact ⟨_, _,
        Grouping.foldGroup_eq_ok_iff.mpr ⟨rfl, (foldlM_merge_iff hgroup).mpr ⟨hpairs, rfl⟩⟩,
        (ih hparts).mpr ⟨hall, rfl⟩, rfl⟩

end Parts

/-! ### Both phases -/

/-- A plan that is aggregated in two phases, and source tables that its aggregates take. -/
structure TwoPhases (py : Python) (groupBy : List Expression) (aggregates : List NamedExpression)
    (exchange : Exchange) (domains : List (Set SQLValue)) (source : List RecordBatch) : Prop where
  keys : exchange.keys = groupBy
  count : 0 < exchange.partitionCount
  single : groupBy = [] → exchange.partitionCount = 1
  strategy : exchange.strategy ≠ .broadcast
  plan : canPartial aggregates = true
  columns : ∀ expression ∈ groupBy, expression.isColumn = true
  partials_nodup : (partialNames py groupBy aggregates).Nodup
  names_nodup : (aggregateNames py groupBy aggregates).Nodup
  names_ne : aggregateNames py groupBy aggregates ≠ []
  source_ne : source ≠ []
  ordered : ∀ S ∈ domains, Ordered S
  encoded : ∀ S ∈ domains, EncodesEquality py S
  rows : ∀ row ∈ allRows source, HasKeys py groupBy domains row
  takes : TakesAll py aggregates (allRows source)

namespace TwoPhases

variable {py : Python} {groupBy : List Expression} {aggregates : List NamedExpression}
  {exchange : Exchange} {domains : List (Set SQLValue)} {source : List RecordBatch}
  (h : TwoPhases py groupBy aggregates exchange domains source)

include h

theorem keyed : Keyed py groupBy (allRows source) := fun row hrow => (h.rows row hrow).1

theorem partialNames_ne : partialNames py groupBy aggregates ≠ [] := by
  intro hnil
  obtain ⟨hgroup, hstates⟩ := List.append_eq_nil_iff.mp hnil
  refine h.names_ne ?_
  rw [aggregateNames, hgroup, List.nil_append]
  cases aggregates with
  | nil => rfl
  | cons item rest =>
    rw [List.length_cons, List.range_succ_eq_map, List.flatMap_cons] at hstates
    cases hstates

/-- The first phase on a table. -/
theorem partialAggregate_eq {table : RecordBatch} (htable : table ∈ source) :
    ∃ partialTable, partialAggregate py groupBy aggregates table = .ok partialTable ∧
      partialTable.names = partialNames py groupBy aggregates ∧
      partialTable.rows = (groupsOf py groupBy table.rows).map (partRow py groupBy aggregates) := by
  have hmem := mem_allRows_of_mem htable
  have hkeyed : Keyed py groupBy table.rows := fun row hrow => h.keyed row (hmem row hrow)
  refine ⟨.fromPylist ((groupsOf py groupBy table.rows).map (partRow py groupBy aggregates))
    (partialNames py groupBy aggregates), ?_, rfl, ?_⟩
  · rw [partialAggregate, partialGroups_eq hkeyed (h.takes.mono hmem), ExceptState.ok_bind,
      tableFromPylist, if_neg (not_not.mpr h.partials_nodup), List.map_map]
    rfl
  · rw [RecordBatch.fromPylist]
    dsimp only
    rw [if_neg h.partialNames_ne, List.map_map]
    refine List.map_congr_left fun group hgroup => ?_
    obtain ⟨row, hrow⟩ := exists_row_of_groupsOf hkeyed group hgroup
    exact Row.restrict_self (names_partRow h.plan h.partials_nodup
      (Expression.length_of_evaluateAll hrow)) h.partials_nodup

/-- The partial rows of all tables. -/
theorem exists_partials : ∃ partials, source.mapM (partialAggregate py groupBy aggregates)
      = .ok partials ∧ partials ≠ [] ∧
    (∀ table ∈ partials, table.names = partialNames py groupBy aggregates) ∧
    allRows partials = (source.flatMap fun table => groupsOf py groupBy table.rows).map
      (partRow py groupBy aggregates) := by
  obtain ⟨partials, hpartials, hall⟩ := ExceptState.exists_mapM_eq_ok
    fun table htable => h.partialAggregate_eq htable
  refine ⟨partials, hpartials, ?_, ?_, ?_⟩
  · rintro rfl
    exact h.source_ne (List.forall₂_nil_right_iff.mp hall)
  · intro table htable
    obtain ⟨first, -, hnames, -⟩ := ExceptState.exists_mem_of_forall₂ hall htable
    exact hnames
  · rw [List.map_flatMap, allRows]
    clear hpartials h
    induction hall with
    | nil => rfl
    | cons htable _ ih => rw [List.flatMap_cons, List.flatMap_cons, htable.2, ih]

/-- The tables that the second phase reads. -/
theorem exists_shuffled {partials : List RecordBatch} (hne : partials ≠ [])
    (hnames : ∀ table ∈ partials, table.names = partialNames py groupBy aggregates)
    (hrows : allRows partials = (source.flatMap fun table => groupsOf py groupBy table.rows).map
      (partRow py groupBy aggregates)) :
    ∃ tables, exchange.run py partials = .ok tables ∧ tables.length = exchange.partitionCount ∧
      ∀ target table, tables[target]? = some table →
        table.rows = ((source.flatMap fun table => groupsOf py groupBy table.rows).filter
          fun part => sentTo py exchange.partitionCount target part.1).map
            (partRow py groupBy aggregates) := by
  have hkey : ∀ part ∈ source.flatMap fun table => groupsOf py groupBy table.rows,
      Expression.evaluateAll py (partRow py groupBy aggregates part) exchange.keys
        = .ok part.1 := by
    intro part hpart
    obtain ⟨table, htable, hpart⟩ := List.mem_flatMap.mp hpart
    obtain ⟨row, hrow⟩ := exists_row_of_groupsOf
      (fun row hrow => h.keyed row (mem_allRows_of_mem htable row hrow)) part hpart
    rw [h.keys]
    exact (key_partRow h.plan h.partials_nodup h.columns hrow).1
  -- a partial row is sent by the key of its group
  have hkeys : exchange.keys ≠ [] ∨ exchange.partitionCount = 1 := by
    by_cases hgroup : groupBy = []
    · exact Or.inr (h.single hgroup)
    · exact Or.inl (h.keys ▸ hgroup)
  obtain ⟨tables, hrun, hlength, htables⟩ := run_exchange h.count hkeys h.strategy hne hnames
    fun row hrow => by
      rw [hrows] at hrow
      obtain ⟨part, hpart, rfl⟩ := List.mem_map.mp hrow
      exact ⟨_, hkey part hpart⟩
  refine ⟨tables, hrun, hlength, fun target table htable => ?_⟩
  rw [(htables target table htable).2, hrows, List.filter_map]
  refine congrArg _ (List.filter_congr fun part hpart => ?_)
  rw [Function.comp_apply, Exchange.sends, shufflePartition_eq (hkey part hpart), sentTo]
  rfl

/-- The second phase on the table of a target, where each group has an outcome. -/
theorem finalAggregate_iff {outcome : List SQLValue × List Row → Row}
    (houtcome : ∀ group ∈ groupsOf py groupBy (allRows source),
      finishGroup py groupBy aggregates (group.1, aggregateStates py aggregates group.2)
        = .ok (outcome group)) {table : RecordBatch} {target : ℕ}
    (htarget : target < exchange.partitionCount)
    (hrows : table.rows = ((source.flatMap fun table => groupsOf py groupBy table.rows).filter
      fun part => sentTo py exchange.partitionCount target part.1).map
        (partRow py groupBy aggregates)) {result : RecordBatch} :
    finalAggregate py groupBy aggregates table = .ok result ↔
      (∀ group ∈ (groupParts py groupBy source).filter fun group =>
          sentTo py exchange.partitionCount target group.1,
        ∀ function ∈ aggregateFunctions aggregates, group.2.Pairwise (Mergeable py function)) ∧
      result = .fromPylist (((groupParts py groupBy source).filter fun group =>
        sentTo py exchange.partitionCount target group.1).map fun group =>
          outcome (group.1, group.2.flatten)) (aggregateNames py groupBy aggregates) := by
  have hall : groupBy = [] → sentTo py exchange.partitionCount target [] = true := by
    intro hgroup
    rw [h.single hgroup] at htarget ⊢
    rw [sentTo, Nat.mod_one, Nat.lt_one_iff.mp htarget]
    rfl
  have hparts : ∀ part ∈ (source.flatMap fun table => groupsOf py groupBy table.rows).filter
      (fun part => sentTo py exchange.partitionCount target part.1),
      ∃ row, Expression.evaluateAll py row groupBy = .ok part.1 := by
    intro part hpart
    obtain ⟨table, htable, hpart⟩ := List.mem_flatMap.mp (List.mem_of_mem_filter hpart)
    exact exists_row_of_groupsOf
      (fun row hrow => h.keyed row (mem_allRows_of_mem htable row hrow)) part hpart
  -- a group of the target is a group of all rows, in its parts
  have hgroups : ∀ group ∈ (groupParts py groupBy source).filter fun group =>
      sentTo py exchange.partitionCount target group.1,
      (group.1, group.2.flatten) ∈ groupsOf py groupBy (allRows source) := by
    intro group hgroup
    rw [← groupParts_flatten h.ordered h.rows]
    exact List.mem_map_of_mem (List.mem_of_mem_filter hgroup)
  have htakes : ∀ group ∈ (groupParts py groupBy source).filter fun group =>
      sentTo py exchange.partitionCount target group.1, TakesAll py aggregates group.2.flatten :=
    fun group hgroup => h.takes.mono (mem_of_groupsOf _ (hgroups group hgroup))
  have hfinish : (((groupParts py groupBy source).filter fun group =>
      sentTo py exchange.partitionCount target group.1).map fun group =>
        (group.1, partialStates py aggregates group.2.flatten)).mapM
          (finalRow py groupBy aggregates)
      = .ok (((groupParts py groupBy source).filter fun group =>
        sentTo py exchange.partitionCount target group.1).map fun group =>
          outcome (group.1, group.2.flatten)) := by
    rw [List.mapM_map]
    refine ExceptState.mapM_eq_ok fun group hgroup => ?_
    exact (finalRow_partialStates (htakes group hgroup) group.1).trans
      (houtcome _ (hgroups group hgroup))
  rw [finalAggregate, hrows, finalGroups_eq h.plan h.partials_nodup h.columns hparts,
    ExceptState.bind_eq_ok_iff]
  simp only [foldGroups_parts h.ordered h.rows
    (respects_sentTo h.encoded exchange.partitionCount target) hall, mapM_merge_iff htakes]
  constructor
  · rintro ⟨groups, ⟨hmergeable, rfl⟩, hresult⟩
    rw [hfinish, ExceptState.ok_bind, tableFromPylist, if_neg (not_not.mpr h.names_nodup)]
      at hresult
    cases hresult
    exact ⟨hmergeable, rfl⟩
  · rintro ⟨hmergeable, rfl⟩
    refine ⟨_, ⟨hmergeable, rfl⟩, ?_⟩
    rw [hfinish, ExceptState.ok_bind, tableFromPylist, if_neg (not_not.mpr h.names_nodup)]

/-- The outcomes of the groups of a single phase. -/
theorem exists_outcome {batchSize : ℕ} (hsize : 0 < batchSize) {output : List RecordBatch}
    (houtput : hashAggregate py groupBy aggregates batchSize (allRows source) = .ok output) :
    ∃ outcome : List SQLValue × List Row → Row,
      (∀ group ∈ groupsOf py groupBy (allRows source),
        finishGroup py groupBy aggregates (group.1, aggregateStates py aggregates group.2)
          = .ok (outcome group)) ∧
      allRows output = (groupsOf py groupBy (allRows source)).map fun group =>
        (outcome group).restrict (aggregateNames py groupBy aggregates) := by
  rw [hashAggregate, hashGroups_eq h.plan h.keyed h.takes, ExceptState.ok_bind, List.mapM_map]
    at houtput
  obtain ⟨rows, hrows, hbatches⟩ := ExceptState.bind_eq_ok houtput
  cases hbatches
  have houtcome : ∀ group ∈ groupsOf py groupBy (allRows source),
      finishGroup py groupBy aggregates (group.1, aggregateStates py aggregates group.2)
        = .ok ((finishGroup py groupBy aggregates
          (group.1, aggregateStates py aggregates group.2)).toOption.getD []) := by
    intro group hgroup
    obtain ⟨row, hrow⟩ := ExceptState.ok_of_mapM_eq_ok hrows group hgroup
    rw [Function.comp_apply] at hrow
    rw [hrow]
    rfl
  refine ⟨_, houtcome, ?_⟩
  have hmap := ExceptState.mapM_eq_ok houtcome
  obtain rfl := Except.ok.inj (hrows.symm.trans hmap)
  rw [batchesFromRows_rows h.names_ne hsize, List.map_map]
  rfl

end TwoPhases

/-! ### Sums of ints -/

/-- `SUM(b)` -/
def sumFunction : AggregateFunction := ⟨"sum", [intColumn "b" ""], false⟩

/-- `SUM(b)` and `COUNT(*)`. -/
def sumAndCount : List NamedExpression :=
  [⟨"s", .aggregateFunction "sum" [intColumn "b" ""] ⟨.int64, true⟩ false⟩,
    ⟨"n", .aggregateFunction "count" [] ⟨.int64, false⟩ false⟩]

/-- A table of keys and numbers. -/
def sumTable (rows : List (ℤ × SQLValue)) : RecordBatch :=
  .fromPylist (rows.map fun row => [("a", .int row.1), ("b", row.2)]) ["a", "b"]

/-- The NULL of key 3 comes before its number. -/
def nullFirst : List RecordBatch :=
  [sumTable [(1, .int 5), (3, .null), (1, .int 7)], sumTable [(3, .int 4), (1, .int 2)]]

/-- The NULL of key 3 comes after its number. -/
def nullLast : List RecordBatch := [sumTable [(1, .int 5), (3, .int 4)], sumTable [(3, .null)]]

/-- Ints are added up exactly. -/
theorem sums_ints : Sums windowPython {v | ∃ i, v = .int i} where
  add := by
    rintro _ ⟨i, rfl⟩ _ ⟨j, rfl⟩
    exact ⟨.int (i + j), ⟨i + j, rfl⟩, rfl⟩
  assoc := by
    rintro _ ⟨i, rfl⟩ _ ⟨j, rfl⟩ _ ⟨k, rfl⟩ _ _ hij hjk
    cases hij
    cases hjk
    exact congrArg (fun n => Except.ok (SQLValue.int n)) (Int.add_assoc i j k)
  zero := by
    rintro _ ⟨i, rfl⟩
    exact congrArg (fun n => Except.ok (SQLValue.int n)) (Int.zero_add i)
  null := by
    rintro _ ⟨i, rfl⟩
    exact ⟨_, rfl⟩

private theorem twoPhases_sums {source : List RecordBatch} (hne : source ≠ [])
    (hrows : ∀ row ∈ allRows source, ∃ a b, row = [("a", a), ("b", b)] ∧ a ∈ keyInts ∧
      (b = .null ∨ ∃ i, b = .int i)) :
    TwoPhases windowPython [intColumn "a" ""] sumAndCount (scanExchange "s" [intColumn "a" ""])
      [keyInts] source where
  keys := rfl
  count := Nat.two_pos
  single := fun h => absurd h (List.cons_ne_nil _ _)
  strategy := fun h => by cases h
  plan := rfl
  columns := List.forall_mem_singleton.mpr rfl
  partials_nodup := by decide +kernel
  names_nodup := by decide +kernel
  names_ne := List.cons_ne_nil _ _
  source_ne := hne
  ordered := List.forall_mem_singleton.mpr ordered_keyInts
  encoded := List.forall_mem_singleton.mpr encodesEquality_ints
  rows := by
    intro row hrow
    obtain ⟨a, b, rfl, ha, -⟩ := hrows row hrow
    exact ⟨rfl, .cons (Or.inr ha) .nil⟩
  takes := by
    intro function hfunction
    rcases List.mem_cons.mp hfunction with rfl | hfunction
    · refine ⟨{v | ∃ i, v = .int i}, ⟨?_, fun _ => sums_ints, ?_, rfl, by decide⟩,
        fun row hrow => ?_⟩
      · rintro ⟨i, hi⟩
        cases hi
      · rintro _ _ ⟨i, rfl⟩ _ ⟨j, rfl⟩
        exact ⟨_, rfl⟩
      · obtain ⟨a, b, rfl, -, hb⟩ := hrows row hrow
        exact ⟨b, rfl, hb⟩
    · rw [List.mem_singleton.mp hfunction]
      exact ⟨{.int 1}, ⟨(fun h => by cases h), fun h => absurd h (by decide),
        fun h => absurd h (by decide), rfl, by decide⟩, fun row _ => ⟨.int 1, rfl, Or.inr rfl⟩⟩

end DistributedSql

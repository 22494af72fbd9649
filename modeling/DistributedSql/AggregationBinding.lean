/-
What the binder accepts of an aggregation (`planner/binder.py`), and what becomes of it.

The projections and HAVING of a grouped query are evaluated on the rows of the aggregate,
which hold the values of the GROUP BY expressions and of the aggregates under their
printed texts.  The binder asks of a projection without aggregates that its columns occur
in GROUP BY, and of the others and of HAVING nothing.

Main results:
* `validateAggregation_ok_iff` — what is accepted;
* `exists_representative` — every group has a row with its GROUP BY values;
* `aggregation_iff` — exactly when an accepted expression has, on the row of a group, the
  value it has on such a row with the aggregates put in.
-/
import DistributedSql.Aggregation
import DistributedSql.ExpressionReads
import DistributedSql.Errors

namespace DistributedSql

namespace Expression

mutual

/-- `_walk_aggregates`: into neither windows nor the arguments of aggregates. -/
def walkAggregates : Expression → List Expression
  | .literal _ _ => []
  | .column _ _ _ => []
  | .cast expression _ _ => expression.walkAggregates
  | .unary _ expression _ => expression.walkAggregates
  | .binary _ left right _ => left.walkAggregates ++ right.walkAggregates
  | .isNull expression _ => expression.walkAggregates
  | .inList expression options _ => expression.walkAggregates ++ walkAggregatesAll options
  | .between expression low high _ =>
      expression.walkAggregates ++ (low.walkAggregates ++ high.walkAggregates)
  | .like expression pattern _ => expression.walkAggregates ++ pattern.walkAggregates
  | .case branches default _ => walkAggregatesBranches branches ++ default.walkAggregates
  | .scalarFunction _ arguments _ => walkAggregatesAll arguments
  | .aggregateFunction name arguments resultType distinct =>
      [.aggregateFunction name arguments resultType distinct]
  | .windowFunction _ _ _ _ => []

def walkAggregatesAll : List Expression → List Expression
  | [] => []
  | expression :: rest => expression.walkAggregates ++ walkAggregatesAll rest

def walkAggregatesBranches : List (Expression × Expression) → List Expression
  | [] => []
  | (condition, result) :: rest =>
      condition.walkAggregates ++ result.walkAggregates ++ walkAggregatesBranches rest

end

def isColumn : Expression → Bool
  | .column _ _ _ => true
  | _ => false

end Expression

/-! ### The binder -/

/-- `_binding_error`; where the expression stands in the query is left out. -/
def bindingError (message : String) (context : List (String × ContextValue)) :
    DistributedSQLError where
  code := .bindingError
  message := message
  context := context

/-- The first of the expressions with each text, of those not seen before. -/
def firstOfEachText (py : Python) : List String → List NamedExpression → List NamedExpression
  | _, [] => []
  | seen, item :: rest =>
      if item.expression.sql py ∈ seen then firstOfEachText py seen rest
      else item :: firstOfEachText py (item.expression.sql py :: seen) rest

/-- `_collect_aggregates`. -/
def collectAggregates (py : Python) (projections : List NamedExpression)
    (having : Option Expression) : List NamedExpression :=
  firstOfEachText py []
    ((projections.flatMap fun projection =>
        projection.expression.walkAggregates.map fun expression => ⟨projection.name, expression⟩)
      ++ having.toList.flatMap fun predicate =>
        (predicate.walkAggregates.zipIdx 1).map fun item =>
          ⟨"_having" ++ toString item.2, item.1⟩)

/-- `_collect_windows`. -/
def collectWindows (projections : List NamedExpression) : List NamedExpression :=
  projections.flatMap fun projection =>
    (projection.expression.walk.filter Expression.isWindow).map fun expression =>
      ⟨projection.name, expression⟩

/-- The texts of the columns in some expressions. -/
def columnTexts (py : Python) (expressions : List Expression) : List String :=
  ((expressions.flatMap Expression.walk).filter Expression.isColumn).map (Expression.sql py)

/-- An aggregate or a window is somewhere in the expression. -/
def Expression.isComputed (expression : Expression) : Bool :=
  expression.containsAggregate || expression.containsWindow

/-- `_validate_aggregation`. -/
def validateAggregation (py : Python) (hasHaving : Bool) (projections : List NamedExpression)
    (groupBy : List Expression) (groupingSets : Option (List (List Expression)))
    (aggregates : List NamedExpression) : Except DistributedSQLError Unit :=
  if aggregates.isEmpty && groupBy.isEmpty && groupingSets.isNone then
    if hasHaving then .error (bindingError "HAVING requires aggregation." []) else .ok ()
  else
    projections.forM fun projection =>
      if projection.expression.isComputed then .ok ()
      else if columnTexts py [projection.expression]
          ⊆ columnTexts py (groupBy ++ (groupingSets.getD []).flatten) then .ok ()
      else .error (bindingError
        ("Expression '" ++ projection.name ++ "' must appear in GROUP BY or be aggregated.")
        [("column", .text projection.name)])

/-- `_require_boolean`, and the check for windows, on a HAVING predicate. -/
def checkHaving (predicate : Expression) : Except DistributedSQLError Unit :=
  if predicate.typeInfo.dataType ∉ [.boolean, .null] then
    .error (bindingError "A boolean expression is required." [])
  else if predicate.containsWindow then
    .error (bindingError "Window functions are not allowed in HAVING." [])
  else .ok ()

/-- The aggregation part of `Binder.bind`, for a GROUP BY without grouping sets: the aggregates
and the windows of the plan. -/
def bindAggregation (py : Python) (groupBy : List Expression) (projections : List NamedExpression)
    (having : Option Expression) :
    Except DistributedSQLError (List NamedExpression × List NamedExpression) := do
  if groupBy.any Expression.isComputed then
    throw (bindingError "Aggregate and window functions are not allowed here." [])
  having.toList.forM checkHaving
  let aggregates := collectAggregates py projections having
  validateAggregation py having.isSome projections groupBy none aggregates
  return (aggregates, collectWindows projections)

/-! ### What is accepted -/

/-- Of the projections of an aggregation, those without aggregates and windows are checked:
their columns occur in the GROUP BY expressions. -/
theorem validateAggregation_ok_iff {py : Python} {hasHaving : Bool}
    {projections aggregates : List NamedExpression} {groupBy : List Expression}
    (haggregation : aggregates ≠ [] ∨ groupBy ≠ []) :
    validateAggregation py hasHaving projections groupBy none aggregates = .ok () ↔
      ∀ projection ∈ projections, projection.expression.isComputed = true ∨
        columnTexts py [projection.expression] ⊆ columnTexts py groupBy := by
  have hcheck : (aggregates.isEmpty && groupBy.isEmpty
      && (none : Option (List (List Expression))).isNone) ≠ true := by
    intro h
    simp only [Bool.and_eq_true, List.isEmpty_iff] at h
    rcases haggregation with ha | hg
    · exact ha h.1.1
    · exact hg h.1.2
  rw [validateAggregation, if_neg hcheck]
  induction projections with
  | nil => exact iff_of_true rfl fun _ h => absurd h List.not_mem_nil
  | cons projection rest ih =>
    rw [List.forall_mem_cons]
    change ((if projection.expression.isComputed = true then Except.ok () else _)
      >>= fun _ => rest.forM _) = Except.ok () ↔ _
    by_cases hcomputed : projection.expression.isComputed = true
    · rw [if_pos hcomputed]
      exact ih.trans (and_iff_right (Or.inl hcomputed)).symm
    · rw [if_neg hcomputed, or_iff_right hcomputed]
      rw [Option.getD_none, List.flatten_nil, List.append_nil] at ih ⊢
      by_cases hcolumns : columnTexts py [projection.expression] ⊆ columnTexts py groupBy
      · rw [if_pos hcolumns]
        exact ih.trans (and_iff_right hcolumns).symm
      · rw [if_neg hcolumns]
        exact iff_of_false (fun h => by cases h) fun h => hcolumns h.1

theorem text_mem_firstOfEachText (py : Python) (seen : List String) {items : List NamedExpression}
    (item : NamedExpression) (h : item ∈ items) :
    item.expression.sql py ∈ seen ∨
      item.expression.sql py ∈ (firstOfEachText py seen items).map (·.expression.sql py) := by
  induction items generalizing seen with
  | nil => cases h
  | cons first rest ih =>
    rw [firstOfEachText]
    rcases List.mem_cons.mp h with rfl | h
    · split
      · exact Or.inl ‹_›
      · exact Or.inr List.mem_cons_self
    · split
      · exact ih seen h
      · rcases ih (first.expression.sql py :: seen) h with hseen | hrest
        · rcases List.mem_cons.mp hseen with heq | hseen
          · rw [List.map_cons, heq]
            exact Or.inr List.mem_cons_self
          · exact Or.inl hseen
        · exact Or.inr (List.mem_cons_of_mem _ hrest)

/-- Every aggregate that a projection or HAVING looks up is computed. -/
theorem text_mem_collectAggregates (py : Python) {projections : List NamedExpression}
    {having : Option Expression} {expression aggregate : Expression}
    (hexpression : expression ∈ projections.map (·.expression) ++ having.toList)
    (haggregate : aggregate ∈ expression.walkAggregates) :
    aggregate.sql py ∈ (collectAggregates py projections having).map (·.expression.sql py) := by
  rcases List.mem_append.mp hexpression with h | h
  · obtain ⟨projection, hprojection, rfl⟩ := List.mem_map.mp h
    exact (text_mem_firstOfEachText py [] ⟨projection.name, aggregate⟩
      (List.mem_append_left _ (List.mem_flatMap.mpr
        ⟨projection, hprojection, List.mem_map_of_mem haggregate⟩))).resolve_left List.not_mem_nil
  · obtain ⟨index, hindex⟩ := List.mem_iff_getElem?.mp haggregate
    have hmem : (aggregate, 1 + index) ∈ expression.walkAggregates.zipIdx 1 :=
      List.mk_add_mem_zipIdx_iff_getElem?.mpr hindex
    exact (text_mem_firstOfEachText py [] ⟨"_having" ++ toString (1 + index), aggregate⟩
      (List.mem_append_right _ (List.mem_flatMap.mpr
        ⟨expression, h, List.mem_map_of_mem hmem⟩))).resolve_left List.not_mem_nil

/-! ### What is looked up -/

namespace Expression

/-- A reference of an expression, among its aggregates if it is one. -/
structure IsReadOf (item : Expression) (walked aggregates : List Expression) : Prop where
  isReference : item.isReference = true
  mem_walk : item ∈ walked
  mem_aggregates : item.isAggregate = true → item ∈ aggregates

theorem IsReadOf.mono {item : Expression} {walked walked' aggregates aggregates' : List Expression}
    (h : item.IsReadOf walked aggregates) (hwalked : walked ⊆ walked')
    (haggregates : aggregates ⊆ aggregates') : item.IsReadOf walked' aggregates' :=
  ⟨h.isReference, hwalked h.mem_walk, fun haggregate => haggregates (h.mem_aggregates haggregate)⟩

theorem IsReadOf.left {item : Expression} {walked aggregates : List Expression}
    (h : item.IsReadOf walked aggregates) (walked' aggregates' : List Expression) :
    item.IsReadOf (walked ++ walked') (aggregates ++ aggregates') :=
  h.mono (List.subset_append_left _ _) (List.subset_append_left _ _)

theorem IsReadOf.right {item : Expression} {walked aggregates : List Expression}
    (h : item.IsReadOf walked aggregates) (walked' aggregates' : List Expression) :
    item.IsReadOf (walked' ++ walked) (aggregates' ++ aggregates) :=
  h.mono (List.subset_append_right _ _) (List.subset_append_right _ _)

theorem IsReadOf.below {item parent : Expression} {walked aggregates : List Expression}
    (h : item.IsReadOf walked aggregates) : item.IsReadOf (parent :: walked) aggregates :=
  h.mono (List.subset_cons_self _ _) (List.Subset.refl _)

theorem mem_afterOk {α : Type} {x : Except PyError α} {f : α → List Expression} {item : Expression}
    (h : item ∈ afterOk x f) : ∃ a, x = .ok a ∧ item ∈ f a := by
  cases x with
  | error e => cases h
  | ok a => exact ⟨a, rfl, h⟩

variable {py : Python} {row : Row} {item : Expression}

mutual

theorem isReadOf_of_mem_reads : ∀ {expression : Expression}, item ∈ expression.reads py row →
    item.IsReadOf expression.walk expression.walkAggregates
  | .literal _ _, h => absurd h List.not_mem_nil
  | .column _ _ _, h => by
    obtain rfl := List.mem_singleton.mp h
    exact ⟨rfl, List.mem_cons_self, fun h => by cases h⟩
  | .aggregateFunction _ _ _ _, h => by
    obtain rfl := List.mem_singleton.mp h
    exact ⟨rfl, List.mem_cons_self, fun _ => List.mem_cons_self⟩
  | .windowFunction _ _ _ _, h => by
    obtain rfl := List.mem_singleton.mp h
    exact ⟨rfl, List.mem_cons_self, fun h => by cases h⟩
  | .cast expression _ _, h => (isReadOf_of_mem_reads (show item ∈ expression.reads py row from h)).below
  | .unary _ expression _, h => (isReadOf_of_mem_reads (show item ∈ expression.reads py row from h)).below
  | .isNull expression _, h => (isReadOf_of_mem_reads (show item ∈ expression.reads py row from h)).below
  | .binary _ left right _, h => by
    rw [reads] at h
    rcases List.mem_append.mp h with h | h
    · exact ((isReadOf_of_mem_reads h).left _ _).below
    · obtain ⟨value, -, h⟩ := mem_afterOk h
      exact ((isReadOf_of_mem_reads h).right _ _).below
  | .like expression pattern _, h => by
    rw [reads] at h
    rcases List.mem_append.mp h with h | h
    · exact ((isReadOf_of_mem_reads h).left _ _).below
    · obtain ⟨value, -, h⟩ := mem_afterOk h
      exact ((isReadOf_of_mem_reads h).right _ _).below
  | .between expression low high _, h => by
    rw [reads] at h
    rcases List.mem_append.mp h with h | h
    · exact ((isReadOf_of_mem_reads h).left _ _).below
    · obtain ⟨value, -, h⟩ := mem_afterOk h
      rcases List.mem_append.mp h with h | h
      · exact (((isReadOf_of_mem_reads h).left _ _).right _ _).below
      · obtain ⟨value', -, h⟩ := mem_afterOk h
        exact (((isReadOf_of_mem_reads h).right _ _).right _ _).below
  | .inList expression options _, h => by
    rw [reads] at h
    rcases List.mem_append.mp h with h | h
    · exact ((isReadOf_of_mem_reads h).left _ _).below
    · obtain ⟨value, -, h⟩ := mem_afterOk h
      split at h
      · exact absurd h List.not_mem_nil
      · exact ((isReadOf_of_mem_readsOptions h).right _ _).below
  | .case branches default _, h => by
    rw [reads] at h
    rcases List.mem_append.mp h with h | h
    · exact ((isReadOf_of_mem_readsBranches h).left _ _).below
    · obtain ⟨result, -, h⟩ := mem_afterOk h
      split at h
      · exact ((isReadOf_of_mem_reads h).right _ _).below
      · exact absurd h List.not_mem_nil
  | .scalarFunction _ arguments _, h =>
    (isReadOf_of_mem_readsAll (show item ∈ readsAll py row arguments from h)).below

theorem isReadOf_of_mem_readsAll : ∀ {expressions : List Expression},
    item ∈ readsAll py row expressions →
    item.IsReadOf (walkAll expressions) (walkAggregatesAll expressions)
  | [], h => absurd h List.not_mem_nil
  | expression :: rest, h => by
    rw [readsAll] at h
    rcases List.mem_append.mp h with h | h
    · exact (isReadOf_of_mem_reads h).left _ _
    · obtain ⟨value, -, h⟩ := mem_afterOk h
      exact (isReadOf_of_mem_readsAll h).right _ _

theorem isReadOf_of_mem_readsOptions : ∀ {options : List Expression} {value : SQLValue},
    item ∈ readsOptions py row value options →
    item.IsReadOf (walkAll options) (walkAggregatesAll options)
  | [], _, h => absurd h List.not_mem_nil
  | option :: rest, value, h => by
    rw [readsOptions] at h
    rcases List.mem_append.mp h with h | h
    · exact (isReadOf_of_mem_reads h).left _ _
    · obtain ⟨candidate, -, h⟩ := mem_afterOk h
      split at h
      · exact (isReadOf_of_mem_readsOptions h).right _ _
      · split at h
        · exact absurd h List.not_mem_nil
        · exact (isReadOf_of_mem_readsOptions h).right _ _

theorem isReadOf_of_mem_readsBranches : ∀ {branches : List (Expression × Expression)},
    item ∈ readsBranches py row branches →
    item.IsReadOf (walkBranches branches) (walkAggregatesBranches branches)
  | [], h => absurd h List.not_mem_nil
  | (condition, result) :: rest, h => by
    rw [readsBranches] at h
    rcases List.mem_append.mp h with h | h
    · exact ((isReadOf_of_mem_reads h).left _ _).left _ _
    · obtain ⟨value, -, h⟩ := mem_afterOk h
      split at h
      · exact ((isReadOf_of_mem_reads h).right _ _).left _ _
      · exact (isReadOf_of_mem_readsBranches h).right _ _

end

end Expression

/-! ### The row of a group and the rows behind it -/

/-- The GROUP BY expressions have on the row the values that the group exposes. -/
def Represents (py : Python) (groupBy : List Expression) (group row : Row) : Prop :=
  ∀ key ∈ groupBy, key.evaluate py row = group.getItem (key.sql py)

theorem get?_zip_texts {py : Python} {row : Row} {keys : List Expression}
    {values : List SQLValue} (h : Expression.evaluateAll py row keys = .ok values)
    (hnodup : (keys.map (Expression.sql py)).Nodup) (rest : Row) :
    ∀ key ∈ keys, ∃ value, key.evaluate py row = .ok value ∧
      Row.get? ((keys.map (Expression.sql py)).zip values ++ rest) (key.sql py) = some value := by
  induction keys generalizing values with
  | nil => exact fun key hkey => absurd hkey List.not_mem_nil
  | cons first keys ih =>
    obtain ⟨value, tail, hvalue, htail, rfl⟩ := Expression.evaluateAll_cons h
    obtain ⟨hnot, hnodup⟩ := List.nodup_cons.mp hnodup
    rw [List.map_cons, List.zip_cons_cons, List.cons_append]
    refine List.forall_mem_cons.mpr ⟨⟨value, hvalue, ?_⟩, fun key hkey => ?_⟩
    · rw [Row.get?_cons, if_pos rfl]
    · obtain ⟨value', hvalue', hget⟩ := ih htail hnodup key hkey
      refine ⟨value', hvalue', ?_⟩
      rw [Row.get?_cons, if_neg, hget]
      intro heq
      exact hnot (List.mem_map.mpr ⟨key, hkey, heq⟩)

/-- The row that comes of a group exposes the key of the group. -/
theorem represents_of_outcome {py : Python} {groupBy : List Expression}
    {aggregates : List NamedExpression} (hnodup : (aggregateNames py groupBy aggregates).Nodup)
    {group : List SQLValue × List Row} {outcome row : Row}
    (houtcome : groupOutcome py groupBy aggregates group = .ok outcome)
    (hrow : Expression.evaluateAll py row groupBy = .ok group.1) :
    Represents py groupBy (outcome.restrict (aggregateNames py groupBy aggregates)) row := by
  obtain ⟨states, hstates, hfinish⟩ := ExceptState.bind_eq_ok houtcome
  obtain ⟨new, hnew, hadd⟩ := ExceptState.bind_eq_ok hstates
  have hkeyLength := Expression.length_of_evaluateAll hrow
  have hstatesLength : states.length = aggregates.length :=
    (length_foldlM_add hadd).trans (length_newStates hnew)
  obtain ⟨values, hvalues, houtcome⟩ :=
    finishGroup_eq hnodup (group.1, states) hkeyLength hstatesLength hfinish
  have hvaluesLength : values.length = aggregates.length :=
    (ExceptState.forall₂_of_mapM_eq_ok hvalues).length_eq.symm.trans hstatesLength
  have hnames : outcome.names = aggregateNames py groupBy aggregates := by
    rw [houtcome, Row.names, List.map_fst_zip]
    rw [aggregateNames, List.length_append, List.length_append, List.length_map, List.length_map,
      hkeyLength, hvaluesLength]
  rw [Row.restrict_self hnames hnodup]
  intro expression hexpression
  obtain ⟨value, hvalue, hget⟩ := get?_zip_texts hrow (List.nodup_append.mp hnodup).1
    ((aggregates.map (·.expression.sql py)).zip values) expression hexpression
  rw [hvalue, houtcome, aggregateNames, List.zip_append (by rw [List.length_map, hkeyLength]),
    Row.getItem, hget]

/-- Every group of the sorted rows has one of them behind it. -/
theorem exists_representative {py : Python} {groupBy : List Expression}
    {aggregates : List NamedExpression} {batchSize : ℕ} (hsize : 0 < batchSize)
    (hne : groupBy ≠ []) (hnodup : (aggregateNames py groupBy aggregates).Nodup)
    {rows : List Row} {batches : List RecordBatch}
    (h : sortedAggregate py groupBy aggregates batchSize rows = .ok batches) :
    ∀ group ∈ allRows batches, ∃ row ∈ rows, Represents py groupBy group row := by
  obtain ⟨keyed, outcomes, hkeyed, houtcomes, hoverall⟩ :=
    (sortedAggregate_iff hsize hne).mp ⟨batches, h, rfl⟩
  intro group hgroup
  rw [hoverall] at hgroup
  obtain ⟨outcome, houtcome, rfl⟩ := List.mem_map.mp hgroup
  obtain ⟨run, hrun, hfinish⟩ := ExceptState.mem_of_mapM_eq_ok houtcomes houtcome
  obtain ⟨⟨key, row⟩, hitem, rfl⟩ := Grouping.key_of_mem_runs hrun
  obtain ⟨row', hrow', hkeyRow⟩ := ExceptState.mem_of_mapM_eq_ok hkeyed hitem
  obtain ⟨key', hevaluate, heq⟩ := ExceptState.bind_eq_ok hkeyRow
  cases heq
  exact ⟨row, hrow', represents_of_outcome hnodup hfinish hevaluate⟩

/-- A row with the results of the aggregates, and then of the windows, put in. -/
def substituted (py : Python) (aggregates : List NamedExpression) (group windowValues row : Row) :
    Row :=
  (row.union (group.restrict (aggregates.map (·.expression.sql py)))).union windowValues

/-- Where an expression is evaluated: a projection on the rows of a group with the values of the
windows, HAVING before these. -/
inductive Evaluated (py : Python) (projections windows : List NamedExpression)
    (having : Option Expression) : Expression → Row → Prop
  | projection {item : NamedExpression} {windowValues : Row} (hitem : item ∈ projections)
      (hvalues : ∀ text, text ∈ windowValues.names ↔
        text ∈ windows.map (·.expression.sql py)) :
      Evaluated py projections windows having item.expression windowValues
  | having {predicate : Expression} (hpredicate : having = some predicate) :
      Evaluated py projections windows having predicate []

/-- A printed text is one thing: that of an aggregate or a window is no column of the row, a
GROUP BY expression printed like a column has its value, and no column's name without its
source is a text that the aggregate or the windows expose. -/
structure TextsApart (py : Python) (groupBy : List Expression)
    (aggregates windows : List NamedExpression) (expression : Expression) (row : Row) : Prop where
  computed : ∀ item ∈ aggregates ++ windows, item.expression.sql py ∉ row.names
  grouped : ∀ key ∈ groupBy, key.sql py ∈ row.names →
    key.evaluate py row = row.getItem (key.sql py)
  bare : ∀ name source, (name, source) ∈ expression.columns →
    name ∉ groupBy.map (Expression.sql py) ∧
      ∀ item ∈ aggregates ++ windows, name ≠ item.expression.sql py

section Soundness

variable {py : Python} {groupBy : List Expression} {aggregates windows : List NamedExpression}
  {group row windowValues : Row}

theorem Row.get?_of_getItem {row : Row} {name : String} {value : SQLValue}
    (h : row.getItem name = .ok value) : row.get? name = some value := by
  rw [Row.getItem] at h
  split at h
  case h_1 hvalue =>
    cases h
    exact hvalue
  case h_2 => cases h

theorem Row.getItem_of_get? {row : Row} {name : String} {value : SQLValue}
    (h : row.get? name = some value) : row.getItem name = .ok value := by
  rw [Row.getItem, h]

/-- An item of an expression gets the same value on the row of the group as on a row behind it, if
it is no column or one of the GROUP BY expressions. -/
theorem evaluate_exposed (hgroup : group.names = aggregateNames py groupBy aggregates)
    (hrow : Represents py groupBy group row) {expression : Expression}
    (hwindowValues : ∀ text, text ∈ windowValues.names → text ∈ windows.map (·.expression.sql py))
    (hbound : ∀ name source, (name, source) ∈ expression.columns →
      Expression.qualifiedName name source ∈ row.names)
    (hapart : TextsApart py groupBy aggregates windows expression row) {item : Expression}
    (hitem : item.IsReadOf expression.walk expression.walkAggregates)
    (haggregates : ∀ aggregate ∈ expression.walkAggregates,
      aggregate.sql py ∈ aggregates.map (·.expression.sql py))
    (hwindows : ∀ window ∈ expression.walk, window.isWindow = true →
      window.sql py ∈ windowValues.names)
    (hcolumn : item.isColumn = true → item.sql py ∈ groupBy.map (Expression.sql py)) :
    ∃ value, item.evaluate py (group.union windowValues) = .ok value ∧
      item.evaluate py (substituted py aggregates group windowValues row) = .ok value := by
  have hsubstituted : ∀ text, (substituted py aggregates group windowValues row).get? text
      = (windowValues.get? text).or (((group.restrict
          (aggregates.map (·.expression.sql py))).get? text).or (row.get? text)) := by
    intro text
    rw [substituted, Row.get?_union, Row.get?_union]
  cases item with
  | column name source resultType =>
    have hcolumns : (name, source) ∈ expression.columns :=
      List.mem_filterMap.mpr ⟨_, hitem.mem_walk, rfl⟩
    have hname := hbound name source hcolumns
    have hnotAggregate : Expression.qualifiedName name source
        ∉ aggregates.map (·.expression.sql py) := by
      intro h
      obtain ⟨other, hother, heq⟩ := List.mem_map.mp h
      exact hapart.computed other (List.mem_append_left _ hother) (heq ▸ hname)
    have hnotWindow : windowValues.get? (Expression.qualifiedName name source) = none := by
      rw [Row.get?_eq_none]
      intro h
      obtain ⟨other, hother, heq⟩ := List.mem_map.mp (hwindowValues _ h)
      exact hapart.computed other (List.mem_append_right _ hother) (heq ▸ hname)
    obtain ⟨key, hkey, htext⟩ := List.mem_map.mp (hcolumn rfl)
    rw [Expression.sql] at htext
    obtain ⟨value, hvalue⟩ := Option.isSome_iff_exists.mp (Row.get?_isSome.mpr hname)
    -- the group exposes the value that the column has on the row
    have hexposed : group.get? (Expression.qualifiedName name source) = some value := by
      have hmem : Expression.qualifiedName name source ∈ group.names := by
        rw [hgroup, aggregateNames, ← htext]
        exact List.mem_append_left _ (List.mem_map_of_mem hkey)
      obtain ⟨value', hvalue'⟩ := Option.isSome_iff_exists.mp (Row.get?_isSome.mpr hmem)
      have hkeyValue := hapart.grouped key hkey (htext ▸ hname)
      rw [hrow key hkey, htext, Row.getItem_of_get? hvalue, Row.getItem_of_get? hvalue'] at hkeyValue
      rw [hvalue', Except.ok.inj hkeyValue]
    refine ⟨value, Expression.evaluate_column ?_, Expression.evaluate_column ?_⟩
    · rw [Row.get?_union, hnotWindow, Option.none_or, hexposed]
    · rw [hsubstituted, hnotWindow, Option.none_or, Row.get?_restrict, if_neg hnotAggregate,
        Option.none_or, hvalue]
  | aggregateFunction name arguments resultType distinct =>
    have htext := haggregates _ (hitem.mem_aggregates rfl)
    have hmem : Expression.sql py (.aggregateFunction name arguments resultType distinct)
        ∈ group.names := by
      rw [hgroup, aggregateNames]
      exact List.mem_append_right _ htext
    obtain ⟨value, hvalue⟩ := Option.isSome_iff_exists.mp (Row.get?_isSome.mpr hmem)
    cases hwindow : windowValues.get?
        (Expression.sql py (.aggregateFunction name arguments resultType distinct)) with
    | none =>
      refine ⟨value, ?_, ?_⟩ <;> rw [Expression.evaluate]
      · rw [Row.get?_union, hwindow, Option.none_or, hvalue]
      · rw [hsubstituted, hwindow, Option.none_or, Row.get?_restrict, if_pos htext, hvalue]
        rfl
    | some other =>
      refine ⟨other, ?_, ?_⟩ <;> rw [Expression.evaluate]
      · rw [Row.get?_union, hwindow, Option.some_or]
      · rw [hsubstituted, hwindow, Option.some_or]
  | windowFunction function partitionBy orderBy frame =>
    obtain ⟨value, hvalue⟩ := Option.isSome_iff_exists.mp
      (Row.get?_isSome.mpr (hwindows _ hitem.mem_walk rfl))
    refine ⟨value, ?_, ?_⟩ <;> rw [Expression.evaluate]
    · rw [Row.get?_union, hvalue, Option.some_or]
    · rw [hsubstituted, hvalue, Option.some_or]
  | _ => cases hitem.isReference

/-- A column that is no GROUP BY expression is not found on the row of a group. -/
theorem evaluate_unexposed (hgroup : group.names = aggregateNames py groupBy aggregates)
    {expression : Expression}
    (hwindowValues : ∀ text, text ∈ windowValues.names → text ∈ windows.map (·.expression.sql py))
    (hbound : ∀ name source, (name, source) ∈ expression.columns →
      Expression.qualifiedName name source ∈ row.names)
    (hapart : TextsApart py groupBy aggregates windows expression row) {item : Expression}
    (hitem : item ∈ expression.walk) (hcolumn : item.isColumn = true)
    (htext : item.sql py ∉ groupBy.map (Expression.sql py)) :
    ¬∃ value, item.evaluate py (group.union windowValues) = .ok value := by
  cases item with
  | column name source resultType =>
    have hcolumns : (name, source) ∈ expression.columns :=
      List.mem_filterMap.mpr ⟨_, hitem, rfl⟩
    have hnone : ∀ text, text ∉ groupBy.map (Expression.sql py) →
        (∀ item ∈ aggregates ++ windows, text ≠ item.expression.sql py) →
        (group.union windowValues).get? text = none := by
      intro text hkey hcomputed
      rw [Row.get?_union, Row.get?_eq_none.mpr, Option.none_or, Row.get?_eq_none, hgroup,
        aggregateNames, List.mem_append, not_or]
      · refine ⟨hkey, fun h => ?_⟩
        obtain ⟨other, hother, heq⟩ := List.mem_map.mp h
        exact hcomputed other (List.mem_append_left _ hother) heq.symm
      · intro h
        obtain ⟨other, hother, heq⟩ := List.mem_map.mp (hwindowValues _ h)
        exact hcomputed other (List.mem_append_right _ hother) heq.symm
    have hqualified := hnone (Expression.qualifiedName name source) htext fun other hother heq =>
      hapart.computed other hother (heq ▸ hbound name source hcolumns)
    have hbare := hnone name (hapart.bare name source hcolumns).1
      (hapart.bare name source hcolumns).2
    rintro ⟨value, hvalue⟩
    rw [Expression.evaluate, hqualified, Row.getItem, hbare] at hvalue
    cases hvalue
  | _ => cases hcolumn

/-- What a query that is bound has gone through. -/
theorem bindAggregation_ok {projections : List NamedExpression} {having : Option Expression}
    (h : bindAggregation py groupBy projections having = .ok (aggregates, windows)) :
    (∀ predicate, having = some predicate → predicate.containsWindow = false) ∧
      validateAggregation py having.isSome projections groupBy none aggregates = .ok () ∧
      aggregates = collectAggregates py projections having ∧ windows = collectWindows projections := by
  unfold bindAggregation at h
  split at h
  · cases h
  · obtain ⟨_, hhaving, h⟩ := ExceptState.bind_eq_ok h
    obtain ⟨_, hvalid, h⟩ := ExceptState.bind_eq_ok h
    cases h
    refine ⟨?_, hvalid, rfl, rfl⟩
    rintro predicate rfl
    obtain ⟨_, hcheck, -⟩ := ExceptState.bind_eq_ok
      (show (checkHaving predicate >>= fun _ => [].forM checkHaving) = .ok () from hhaving)
    unfold checkHaving at hcheck
    split at hcheck
    · cases hcheck
    · split at hcheck
      · cases hcheck
      · exact Bool.eq_false_iff.mpr ‹_›

theorem text_mem_collectWindows {projections : List NamedExpression} {projection : NamedExpression}
    (hprojection : projection ∈ projections) {window : Expression}
    (hwindow : window ∈ projection.expression.walk) (hkind : window.isWindow = true) :
    window.sql py ∈ (collectWindows projections).map (·.expression.sql py) :=
  List.mem_map.mpr ⟨⟨projection.name, window⟩, List.mem_flatMap.mpr ⟨projection, hprojection,
    List.mem_map_of_mem (List.mem_filter.mpr ⟨hwindow, hkind⟩)⟩, rfl⟩

end Soundness

/-! ### Queries of a table `t` with columns `a` and `b` -/

/-- Python on ASCII names. -/
def groupPython : Python := { Python.ascii with
  upper := fun text => String.ofList (text.toList.map Char.toUpper) }

def columnA : Expression := .column "a" "t" ⟨.int64, true⟩

def columnB : Expression := .column "b" "t" ⟨.int64, true⟩

def countRows : Expression := .aggregateFunction "count" [] ⟨.int64, false⟩ false

def sumOf (left right : Expression) : Expression := .binary .add left right ⟨.int64, true⟩

def literalOne : Expression := .literal (.int 1) ⟨.int64, false⟩

/-- The one row of `t`. -/
def rowOfT : Row := [("t.a", .int 1), ("t.b", .int 5)]

/-- Run the aggregate of `SELECT expression FROM t GROUP BY groupBy` on that row. -/
def aggregateOfT (groupBy : List Expression) (expression : Expression) :
    Except PyError (List RecordBatch × MemoryAccount) :=
  (aggregateExecute groupPython groupBy (collectAggregates groupPython [⟨"x", expression⟩] none) 10
    ["t.a", "t.b"] [.fromPylist [rowOfT] ["t.a", "t.b"]]).run ⟨0, fun _ => true⟩

/-- The query is accepted, and its projection misses a column on the row of the group where it has
a value on the row behind it. -/
def Misses (groupBy : List Expression) (expression : Expression)
    (aggregates : List NamedExpression) (column : String) (value : SQLValue) : Prop :=
  bindAggregation groupPython groupBy [⟨"x", expression⟩] none = .ok (aggregates, []) ∧
    ∃ output account, aggregateOfT groupBy expression = .ok (output, account) ∧
    ∃ group ∈ allRows output, Represents groupPython groupBy group rowOfT ∧
      expression.evaluate groupPython group = .error (.keyError column) ∧
      expression.evaluate groupPython (substituted groupPython aggregates group [] rowOfT)
        = .ok value

end DistributedSql

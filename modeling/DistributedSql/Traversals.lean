/-
The traversals of an expression (`optimizer/utils.py`, `planner/binder.py`,
`execution/engine.py`).

`expression_children`, `_bound_children` and `_expression_sources` look at the fields of a
dataclass: at expressions in them, and at expressions in tuples, to different depths.
`map_expression` names the fields of each class.

Main results:
* `Expression.walkBound_eq` — the walks of the optimizer and of the binder are one;
* `Expression.walkedColumns_eq`, `Expression.maps_iff`, `Expression.fieldSources_eq` — which
  occurrences of columns each traversal comes to;
* `Expression.agree_iff` — exactly for which expressions the traversals agree.
-/
import DistributedSql.ConstantFolding
import DistributedSql.JoinKeySides
import DistributedSql.PredicatePushdown

namespace DistributedSql

/-! ### Fields -/

/-- What a traversal finds in a field. -/
inductive FieldValue
  | expression (value : Expression)
  | tuple (items : List FieldValue)
  /-- a `SortExpression`: neither an `Expression` nor a tuple -/
  | sort (item : Expression × Bool × Bool)
  | other

/-- `_expressions_in_tuple` of one item. -/
def FieldValue.expressions : FieldValue → List Expression
  | .expression value => [value]
  | .tuple items => items.flatMap FieldValue.expressions
  | .sort _ => []
  | .other => []

/-- The expression that the value is. -/
def FieldValue.asExpression : FieldValue → List Expression
  | .expression value => [value]
  | _ => []

/-- What `_bound_children` takes from a field: expressions, also in tuples and in tuples of
tuples. -/
def FieldValue.boundExpressions : FieldValue → List Expression
  | .expression value => [value]
  | .tuple items => items.flatMap fun
      | .expression value => [value]
      | .tuple nested => nested.flatMap FieldValue.asExpression
      | _ => []
  | _ => []

/-- What `_expression_sources` takes from a field: expressions, also in tuples. -/
def FieldValue.flatExpressions : FieldValue → List Expression
  | .expression value => [value]
  | .tuple items => items.flatMap FieldValue.asExpression
  | _ => []

namespace Expression

/-- `fields`, with their values. -/
def fields : Expression → List FieldValue
  | .literal _ _ => [.other, .other]
  | .column _ _ _ => [.other, .other, .other]
  | .cast expression _ _ => [.expression expression, .other, .other]
  | .unary _ expression _ => [.other, .expression expression, .other]
  | .binary _ left right _ => [.other, .expression left, .expression right, .other]
  | .isNull expression _ => [.expression expression, .other]
  | .inList expression options _ =>
      [.expression expression, .tuple (options.map .expression), .other]
  | .between expression low high _ =>
      [.expression expression, .expression low, .expression high, .other]
  | .like expression pattern _ => [.expression expression, .expression pattern, .other]
  | .case branches default _ =>
      [.tuple (branches.map fun branch => .tuple [.expression branch.1, .expression branch.2]),
        .expression default, .other]
  | .scalarFunction _ arguments _ => [.other, .tuple (arguments.map .expression), .other]
  | .aggregateFunction _ arguments _ _ =>
      [.other, .tuple (arguments.map .expression), .other, .other]
  | .windowFunction function partitionBy orderBy _ =>
      [.expression function, .tuple (partitionBy.map .expression), .tuple (orderBy.map .sort),
        .other]

/-- `expression_children`, from the fields. -/
theorem children_eq (expression : Expression) :
    expression.children = expression.fields.flatMap FieldValue.expressions := by
  cases expression <;>
    simp [children, fields, FieldValue.expressions, List.flatMap_map]

/-- `_bound_children`. -/
def boundChildren (expression : Expression) : List Expression :=
  expression.fields.flatMap FieldValue.boundExpressions

theorem boundChildren_eq (expression : Expression) :
    expression.boundChildren = expression.children := by
  cases expression <;>
    simp [children, boundChildren, fields, FieldValue.boundExpressions, FieldValue.asExpression,
      List.flatMap_map]

/-- `_walk_bound`. -/
def walkBound (expression : Expression) : List Expression :=
  expression :: expression.boundChildren.attach.flatMap fun child => child.1.walkBound
termination_by sizeOf expression
decreasing_by exact sizeOf_lt_of_mem_children (boundChildren_eq expression ▸ child.2)

/-- The walks of the optimizer and of the binder are one. -/
theorem walkBound_eq (expression : Expression) : expression.walkBound = expression.walk := by
  induction expression using children_induction with
  | h expression ih =>
    have hchildren : expression.boundChildren.attach.flatMap (fun child => child.1.walkBound)
        = expression.boundChildren.flatMap walkBound := by
      rw [← List.flatMap_map, List.attach_map_subtype_val]
    rw [walkBound.eq_def, walk_eq, hchildren, boundChildren_eq]
    exact congrArg (expression :: ·) (List.flatMap_congr ih)

end Expression

/-! ### Occurrences of columns -/

/-- The fields of a `Column`: its name, its source and its type. -/
abbrev ColumnFields : Type := String × String × TypeInfo

def Expression.columnFields : Expression → Option ColumnFields
  | .column name source resultType => some (name, source, resultType)
  | _ => none

/-- A column at a place of an expression: whether in the ORDER BY list of a window, and
whether in a branch of a CASE. -/
structure Occurrence where
  column : ColumnFields
  inOrder : Bool := false
  inBranch : Bool := false

def Occurrence.underOrder (occurrence : Occurrence) : Occurrence :=
  { occurrence with inOrder := true }

def Occurrence.underBranch (occurrence : Occurrence) : Occurrence :=
  { occurrence with inBranch := true }

namespace Expression

mutual

/-- The columns at all places of an expression. -/
def occurrences : Expression → List Occurrence
  | .literal _ _ => []
  | .column name source resultType => [{ column := (name, source, resultType) }]
  | .cast expression _ _ => expression.occurrences
  | .unary _ expression _ => expression.occurrences
  | .binary _ left right _ => left.occurrences ++ right.occurrences
  | .isNull expression _ => expression.occurrences
  | .inList expression options _ => expression.occurrences ++ occurrencesAll options
  | .between expression low high _ =>
      expression.occurrences ++ (low.occurrences ++ high.occurrences)
  | .like expression pattern _ => expression.occurrences ++ pattern.occurrences
  | .case branches default _ =>
      (occurrencesBranches branches).map Occurrence.underBranch ++ default.occurrences
  | .scalarFunction _ arguments _ => occurrencesAll arguments
  | .aggregateFunction _ arguments _ _ => occurrencesAll arguments
  | .windowFunction function partitionBy orderBy _ =>
      function.occurrences ++ occurrencesAll partitionBy
        ++ (occurrencesOrder orderBy).map Occurrence.underOrder

def occurrencesAll : List Expression → List Occurrence
  | [] => []
  | expression :: rest => expression.occurrences ++ occurrencesAll rest

def occurrencesBranches : List (Expression × Expression) → List Occurrence
  | [] => []
  | (condition, result) :: rest =>
      condition.occurrences ++ result.occurrences ++ occurrencesBranches rest

def occurrencesOrder : List (Expression × Bool × Bool) → List Occurrence
  | [] => []
  | (expression, _) :: rest => expression.occurrences ++ occurrencesOrder rest

end

/-! ### What each traversal comes to -/

/-- `expression_columns`. -/
def walkedColumns (expression : Expression) : List ColumnFields :=
  expression.walk.filterMap columnFields

/-- The columns that `_walk_bound` comes to. -/
def boundColumns (expression : Expression) : List ColumnFields :=
  expression.walkBound.filterMap columnFields

/-- The columns that do not stand in an ORDER BY list. -/
def outsideOrder (occurrences : List Occurrence) : List ColumnFields :=
  (occurrences.filter fun occurrence => !occurrence.inOrder).map (·.column)

@[simp] theorem outsideOrder_append (left right : List Occurrence) :
    outsideOrder (left ++ right) = outsideOrder left ++ outsideOrder right := by
  rw [outsideOrder, List.filter_append, List.map_append, outsideOrder, outsideOrder]

@[simp] theorem outsideOrder_underBranch (occurrences : List Occurrence) :
    outsideOrder (occurrences.map Occurrence.underBranch) = outsideOrder occurrences := by
  rw [outsideOrder, List.filter_map, List.map_map]
  rfl

@[simp] theorem outsideOrder_underOrder (occurrences : List Occurrence) :
    outsideOrder (occurrences.map Occurrence.underOrder) = [] := by
  rw [outsideOrder, List.filter_map, List.map_map, List.map_eq_nil_iff, List.filter_eq_nil_iff]
  exact fun _ _ => Bool.false_ne_true

mutual

/-- The walk comes to the columns outside the ORDER BY lists. -/
theorem walkedColumns_eq : ∀ expression : Expression,
    expression.walk.filterMap columnFields = outsideOrder expression.occurrences
  | .literal _ _ => rfl
  | .column _ _ _ => rfl
  | .cast expression _ _ => by
    rw [walk, List.filterMap_cons_none rfl, walkedColumns_eq expression, occurrences]
  | .unary _ expression _ => by
    rw [walk, List.filterMap_cons_none rfl, walkedColumns_eq expression, occurrences]
  | .isNull expression _ => by
    rw [walk, List.filterMap_cons_none rfl, walkedColumns_eq expression, occurrences]
  | .binary _ left right _ => by
    rw [walk, List.filterMap_cons_none rfl, List.filterMap_append, walkedColumns_eq left,
      walkedColumns_eq right, occurrences, outsideOrder_append]
  | .like left right _ => by
    rw [walk, List.filterMap_cons_none rfl, List.filterMap_append, walkedColumns_eq left,
      walkedColumns_eq right, occurrences, outsideOrder_append]
  | .between expression low high _ => by
    rw [walk, List.filterMap_cons_none rfl, List.filterMap_append, List.filterMap_append,
      walkedColumns_eq expression, walkedColumns_eq low, walkedColumns_eq high, occurrences,
      outsideOrder_append, outsideOrder_append]
  | .inList expression options _ => by
    rw [walk, List.filterMap_cons_none rfl, List.filterMap_append, walkedColumns_eq expression,
      walkedColumns_all options, occurrences, outsideOrder_append]
  | .case branches default _ => by
    rw [walk, List.filterMap_cons_none rfl, List.filterMap_append,
      walkedColumns_branches branches, walkedColumns_eq default, occurrences,
      outsideOrder_append, outsideOrder_underBranch]
  | .scalarFunction _ arguments _ => by
    rw [walk, List.filterMap_cons_none rfl, walkedColumns_all arguments, occurrences]
  | .aggregateFunction _ arguments _ _ => by
    rw [walk, List.filterMap_cons_none rfl, walkedColumns_all arguments, occurrences]
  | .windowFunction function partitionBy _ _ => by
    -- the walk leaves the sort keys out
    rw [walk, List.filterMap_cons_none rfl, List.filterMap_append, walkedColumns_eq function,
      walkedColumns_all partitionBy, occurrences, outsideOrder_append, outsideOrder_append,
      outsideOrder_underOrder, List.append_nil]

private theorem walkedColumns_all : ∀ expressions : List Expression,
    (walkAll expressions).filterMap columnFields = outsideOrder (occurrencesAll expressions)
  | [] => rfl
  | expression :: rest => by
    rw [walkAll, List.filterMap_append, walkedColumns_eq expression, walkedColumns_all rest,
      occurrencesAll, outsideOrder_append]

private theorem walkedColumns_branches : ∀ branches : List (Expression × Expression),
    (walkBranches branches).filterMap columnFields = outsideOrder (occurrencesBranches branches)
  | [] => rfl
  | (condition, result) :: rest => by
    rw [walkBranches, List.filterMap_append, List.filterMap_append, walkedColumns_eq condition,
      walkedColumns_eq result, walkedColumns_branches rest, occurrencesBranches,
      outsideOrder_append, outsideOrder_append]

end

variable (py : Python)

/-- `_expression_sources` goes on with the expressions it takes from the fields. -/
theorem fieldSources_eq_fields {expression : Expression} (h : expression.columnFields = none) :
    expression.fieldSources py = (expression.fields.flatMap FieldValue.flatExpressions).flatMap
      (fieldSources py) := by
  cases expression with
  | column => cases h
  | case branches default resultType =>
    -- a branch is a tuple in a tuple, which is not looked into
    have hbranches : (branches.map fun branch => FieldValue.tuple
        [.expression branch.1, .expression branch.2]).flatMap FieldValue.asExpression = [] := by
      rw [List.flatMap_map]
      exact List.flatMap_eq_nil_iff.mpr fun _ _ => rfl
    simp [fieldSources, fields, FieldValue.flatExpressions, hbranches]
  | windowFunction function partitionBy orderBy frame =>
    have horder : (orderBy.map FieldValue.sort).flatMap FieldValue.asExpression = [] := by
      rw [List.flatMap_map]
      exact List.flatMap_eq_nil_iff.mpr fun _ _ => rfl
    simp [fieldSources, fieldSourcesAll_eq, fields, FieldValue.flatExpressions, horder,
      FieldValue.asExpression, List.flatMap_map]
  | _ =>
    simp [fieldSources, fieldSourcesAll_eq, fields, FieldValue.flatExpressions,
      FieldValue.asExpression, List.flatMap_map]

/-- The sources that are named outside the ORDER BY lists and the branches. -/
def outsideBoth (occurrences : List Occurrence) : List String :=
  (occurrences.filter fun occurrence => !occurrence.inOrder && !occurrence.inBranch).map
    fun occurrence => py.casefold occurrence.column.2.1

@[simp] theorem outsideBoth_append (left right : List Occurrence) :
    outsideBoth py (left ++ right) = outsideBoth py left ++ outsideBoth py right := by
  rw [outsideBoth, List.filter_append, List.map_append, outsideBoth, outsideBoth]

@[simp] theorem outsideBoth_underBranch (occurrences : List Occurrence) :
    outsideBoth py (occurrences.map Occurrence.underBranch) = [] := by
  rw [outsideBoth, List.filter_map, List.map_map, List.map_eq_nil_iff, List.filter_eq_nil_iff]
  intro occurrence _
  simp [Occurrence.underBranch]

@[simp] theorem outsideBoth_underOrder (occurrences : List Occurrence) :
    outsideBoth py (occurrences.map Occurrence.underOrder) = [] := by
  rw [outsideBoth, List.filter_map, List.map_map, List.map_eq_nil_iff, List.filter_eq_nil_iff]
  intro occurrence _
  simp [Occurrence.underOrder]

mutual

/-- `_expression_sources` gives the sources named outside ORDER BY lists and branches. -/
theorem fieldSources_eq : ∀ expression : Expression,
    expression.fieldSources py = outsideBoth py expression.occurrences
  | .literal _ _ => rfl
  | .column _ _ _ => rfl
  | .cast expression _ _ => by
    rw [fieldSources, fieldSources_eq expression, occurrences]
  | .unary _ expression _ => by
    rw [fieldSources, fieldSources_eq expression, occurrences]
  | .isNull expression _ => by
    rw [fieldSources, fieldSources_eq expression, occurrences]
  | .binary _ left right _ => by
    rw [fieldSources, fieldSources_eq left, fieldSources_eq right, occurrences,
      outsideBoth_append]
  | .like left right _ => by
    rw [fieldSources, fieldSources_eq left, fieldSources_eq right, occurrences,
      outsideBoth_append]
  | .between expression low high _ => by
    rw [fieldSources, fieldSources_eq expression, fieldSources_eq low, fieldSources_eq high,
      occurrences, outsideBoth_append, outsideBoth_append, List.append_assoc]
  | .inList expression options _ => by
    rw [fieldSources, fieldSources_eq expression, fieldSources_all options, occurrences,
      outsideBoth_append]
  | .case branches default _ => by
    -- of a CASE, only the default is looked into
    rw [fieldSources, fieldSources_eq default, occurrences, outsideBoth_append,
      outsideBoth_underBranch, List.nil_append]
  | .scalarFunction _ arguments _ => by
    rw [fieldSources, fieldSources_all arguments, occurrences]
  | .aggregateFunction _ arguments _ _ => by
    rw [fieldSources, fieldSources_all arguments, occurrences]
  | .windowFunction function partitionBy _ _ => by
    rw [fieldSources, fieldSources_eq function, fieldSources_all partitionBy, occurrences,
      outsideBoth_append, outsideBoth_append, outsideBoth_underOrder, List.append_nil]

private theorem fieldSources_all : ∀ expressions : List Expression,
    fieldSourcesAll py expressions = outsideBoth py (occurrencesAll expressions)
  | [] => rfl
  | expression :: rest => by
    rw [fieldSourcesAll, fieldSources_eq expression, fieldSources_all rest, occurrencesAll,
      outsideBoth_append]

end

/-! ### What is rebuilt -/

/-- The exception of a transform that is called on a marked column. -/
def marked : PyError := .runtimeError "column"

/-- A transform that changes nothing and raises on a column. -/
def markColumn (column : ColumnFields) (item : Expression) : Except PyError Expression :=
  if item.columnFields = some column then .error marked else .ok item

/-- `map_expression` rebuilds the column: it calls its transform on it. -/
def Maps (expression : Expression) (column : ColumnFields) : Prop :=
  expression.mapExpression (markColumn column) = .error marked

/-- The column occurs, wherever. -/
def mentions (column : ColumnFields) (occurrences : List Occurrence) : Bool :=
  occurrences.any fun occurrence => occurrence.column = column

/-- What a traversal gives that raises if it comes to the column. -/
def raiseIf {α : Type} (found : Bool) (result : α) : Except PyError α :=
  if found then .error marked else .ok result

variable {py}

@[simp] theorem mentions_append (column : ColumnFields) (left right : List Occurrence) :
    mentions column (left ++ right) = (mentions column left || mentions column right) :=
  List.any_append

@[simp] theorem mentions_underBranch (column : ColumnFields) (occurrences : List Occurrence) :
    mentions column (occurrences.map Occurrence.underBranch) = mentions column occurrences :=
  List.any_map

@[simp] theorem mentions_underOrder (column : ColumnFields) (occurrences : List Occurrence) :
    mentions column (occurrences.map Occurrence.underOrder) = mentions column occurrences :=
  List.any_map

theorem raiseIf_bind {α β : Type} (found found' : Bool) (a : α) (b : β)
    {f : α → Except PyError β} (h : f a = raiseIf found' b) :
    (raiseIf found a >>= f) = raiseIf (found || found') b := by
  cases found with
  | true => rfl
  | false => exact h

theorem raiseIf_return {α β : Type} (found : Bool) {a : α} {b : β} {f : α → Except PyError β}
    (h : f a = .ok b) : (raiseIf found a >>= f) = raiseIf found b := by
  cases found with
  | true => rfl
  | false => exact h

theorem markColumn_of_none {column : ColumnFields} {item : Expression}
    (h : item.columnFields = none) : markColumn column item = .ok item := by
  rw [markColumn, h]
  exact if_neg fun h => by cases h

mutual

/-- `map_expression` calls its transform on the columns at all places. -/
theorem mapExpression_markColumn (column : ColumnFields) : ∀ expression : Expression,
    expression.mapExpression (markColumn column)
      = raiseIf (mentions column expression.occurrences) expression
  | .literal _ _ => rfl
  | .column name source resultType => by
    rw [mapExpression, markColumn, occurrences, mentions, List.any_cons, List.any_nil,
      Bool.or_false, raiseIf, columnFields]
    simp only [Option.some.injEq, decide_eq_true_eq]
  | .cast expression target implicit => by
    rw [mapExpression, mapExpression_markColumn column expression, occurrences]
    exact raiseIf_return _ (markColumn_of_none rfl)
  | .unary operator expression resultType => by
    rw [mapExpression, mapExpression_markColumn column expression, occurrences]
    exact raiseIf_return _ (markColumn_of_none rfl)
  | .isNull expression negated => by
    rw [mapExpression, mapExpression_markColumn column expression, occurrences]
    exact raiseIf_return _ (markColumn_of_none rfl)
  | .binary operator left right resultType => by
    rw [mapExpression, mapExpression_markColumn column left,
      mapExpression_markColumn column right, occurrences, mentions_append]
    exact raiseIf_bind _ _ _ _ (raiseIf_return _ (markColumn_of_none rfl))
  | .like left right negated => by
    rw [mapExpression, mapExpression_markColumn column left,
      mapExpression_markColumn column right, occurrences, mentions_append]
    exact raiseIf_bind _ _ _ _ (raiseIf_return _ (markColumn_of_none rfl))
  | .between expression low high negated => by
    rw [mapExpression, mapExpression_markColumn column expression,
      mapExpression_markColumn column low, mapExpression_markColumn column high, occurrences,
      mentions_append, mentions_append]
    exact raiseIf_bind _ _ _ _ (raiseIf_bind _ _ _ _ (raiseIf_return _ (markColumn_of_none rfl)))
  | .inList expression options negated => by
    rw [mapExpression, mapExpression_markColumn column expression,
      mapAll_markColumn column options, occurrences, mentions_append]
    exact raiseIf_bind _ _ _ _ (raiseIf_return _ (markColumn_of_none rfl))
  | .case branches default resultType => by
    rw [mapExpression, mapBranches_markColumn column branches,
      mapExpression_markColumn column default, occurrences, mentions_append,
      mentions_underBranch]
    exact raiseIf_bind _ _ _ _ (raiseIf_return _ (markColumn_of_none rfl))
  | .scalarFunction name arguments resultType => by
    rw [mapExpression, mapAll_markColumn column arguments, occurrences]
    exact raiseIf_return _ (markColumn_of_none rfl)
  | .aggregateFunction name arguments resultType distinct => by
    rw [mapExpression, mapAll_markColumn column arguments, occurrences]
    exact raiseIf_return _ (markColumn_of_none rfl)
  | .windowFunction function partitionBy orderBy frame => by
    rw [mapExpression, mapExpression_markColumn column function,
      mapAll_markColumn column partitionBy, mapOrder_markColumn column orderBy, occurrences,
      mentions_append, mentions_append, mentions_underOrder, Bool.or_assoc]
    exact raiseIf_bind _ _ _ _ (raiseIf_bind _ _ _ _ (raiseIf_return _ (markColumn_of_none rfl)))

private theorem mapAll_markColumn (column : ColumnFields) : ∀ expressions : List Expression,
    mapAll (markColumn column) expressions
      = raiseIf (mentions column (occurrencesAll expressions)) expressions
  | [] => rfl
  | expression :: rest => by
    rw [mapAll, mapExpression_markColumn column expression, mapAll_markColumn column rest,
      occurrencesAll, mentions_append]
    exact raiseIf_bind _ _ _ _ (raiseIf_return _ rfl)

private theorem mapBranches_markColumn (column : ColumnFields) :
    ∀ branches : List (Expression × Expression),
      mapBranches (markColumn column) branches
        = raiseIf (mentions column (occurrencesBranches branches)) branches
  | [] => rfl
  | (condition, result) :: rest => by
    rw [mapBranches, mapExpression_markColumn column condition,
      mapExpression_markColumn column result, mapBranches_markColumn column rest,
      occurrencesBranches, mentions_append, mentions_append, Bool.or_assoc]
    exact raiseIf_bind _ _ _ _ (raiseIf_bind _ _ _ _ (raiseIf_return _ rfl))

private theorem mapOrder_markColumn (column : ColumnFields) :
    ∀ orderBy : List (Expression × Bool × Bool),
      mapOrder (markColumn column) orderBy
        = raiseIf (mentions column (occurrencesOrder orderBy)) orderBy
  | [] => rfl
  | (expression, flags) :: rest => by
    rw [mapOrder, mapExpression_markColumn column expression, mapOrder_markColumn column rest,
      occurrencesOrder, mentions_append]
    exact raiseIf_bind _ _ _ _ (raiseIf_return _ rfl)

end

theorem maps_iff {expression : Expression} {column : ColumnFields} : expression.Maps column ↔
    ∃ occurrence ∈ expression.occurrences, occurrence.column = column := by
  have hmentions : mentions column expression.occurrences = true ↔
      ∃ occurrence ∈ expression.occurrences, occurrence.column = column := by
    rw [mentions, List.any_eq_true]
    simp only [decide_eq_true_eq]
  rw [Maps, mapExpression_markColumn, raiseIf, ← hmentions]
  split
  · next h => exact iff_of_true rfl h
  · next h => exact iff_of_false (fun h => by cases h) h

/-! ### Agreement -/

/-- All traversals come to the same columns, and to their sources. -/
structure Agree (py : Python) (expression : Expression) : Prop where
  bound : ∀ column, column ∈ expression.boundColumns ↔ column ∈ expression.walkedColumns
  mapped : ∀ column, expression.Maps column ↔ column ∈ expression.walkedColumns
  sources : ∀ source, source ∈ expression.fieldSources py ↔
    ∃ column ∈ expression.walkedColumns, py.casefold column.2.1 = source

theorem mem_walkedColumns {expression : Expression} {column : ColumnFields} :
    column ∈ expression.walkedColumns ↔ ∃ occurrence ∈ expression.occurrences,
      occurrence.inOrder = false ∧ occurrence.column = column := by
  rw [walkedColumns, walkedColumns_eq, outsideOrder, List.mem_map]
  simp only [List.mem_filter, Bool.not_eq_true', and_assoc]

theorem mem_fieldSources {expression : Expression} {source : String} :
    source ∈ expression.fieldSources py ↔ ∃ occurrence ∈ expression.occurrences,
      occurrence.inOrder = false ∧ occurrence.inBranch = false ∧
        py.casefold occurrence.column.2.1 = source := by
  rw [fieldSources_eq, outsideBoth, List.mem_map]
  simp only [List.mem_filter, Bool.and_eq_true, Bool.not_eq_true', and_assoc]

/-- The traversals agree exactly if every column of an ORDER BY list also stands outside such
lists, and every source in a branch of a CASE is also named outside both. -/
theorem agree_iff (py : Python) (expression : Expression) : expression.Agree py ↔
    (∀ occurrence ∈ expression.occurrences, occurrence.inOrder = true →
      ∃ other ∈ expression.occurrences, other.inOrder = false ∧
        other.column = occurrence.column) ∧
    ∀ occurrence ∈ expression.occurrences, occurrence.inOrder = false →
      occurrence.inBranch = true →
      ∃ other ∈ expression.occurrences, other.inOrder = false ∧ other.inBranch = false ∧
        py.casefold other.column.2.1 = py.casefold occurrence.column.2.1 := by
  constructor
  · intro h
    refine ⟨fun occurrence hmem _ => ?_, fun occurrence hmem horder _ => ?_⟩
    · exact mem_walkedColumns.mp ((h.mapped _).mp (maps_iff.mpr ⟨occurrence, hmem, rfl⟩))
    · have hwalked : occurrence.column ∈ expression.walkedColumns :=
        mem_walkedColumns.mpr ⟨occurrence, hmem, horder, rfl⟩
      exact mem_fieldSources.mp ((h.sources _).mpr ⟨_, hwalked, rfl⟩)
  · rintro ⟨horder, hbranch⟩
    refine ⟨fun column => ?_, fun column => ?_, fun source => ?_⟩
    · rw [boundColumns, walkBound_eq, walkedColumns]
    · rw [maps_iff, mem_walkedColumns]
      constructor
      · rintro ⟨occurrence, hmem, rfl⟩
        cases hflag : occurrence.inOrder with
        | false => exact ⟨occurrence, hmem, hflag, rfl⟩
        | true => exact horder occurrence hmem hflag
      · rintro ⟨occurrence, hmem, -, hcolumn⟩
        exact ⟨occurrence, hmem, hcolumn⟩
    · rw [mem_fieldSources]
      constructor
      · rintro ⟨occurrence, hmem, hflag, -, hsource⟩
        exact ⟨_, mem_walkedColumns.mpr ⟨occurrence, hmem, hflag, rfl⟩, hsource⟩
      · rintro ⟨column, hcolumn, rfl⟩
        obtain ⟨occurrence, hmem, hflag, rfl⟩ := mem_walkedColumns.mp hcolumn
        cases hin : occurrence.inBranch with
        | false => exact ⟨occurrence, hmem, hflag, hin, rfl⟩
        | true => exact hbranch occurrence hmem hflag hin

end Expression

/-! ### Where they differ -/

open PredicatePushdownJoin (lowercase)

/-- A table `t` with columns `x` and `y`. -/
def traversalScope : List Source :=
  [⟨"t", "t", [⟨"x", .int64, true⟩, ⟨"y", .int64, true⟩], by decide⟩]

/-- `ROW_NUMBER() OVER (ORDER BY t.y)` -/
def orderedWindow : SqlExpression :=
  .window (.func "rownumber" []) [] [(.column "t" "y", false, false)] none

/-- `CASE WHEN t.x IS NULL THEN t.y END` -/
def columnBranches : SqlExpression :=
  .case none [(.is (.column "t" "x") true, .column "t" "y")] none

/-- The walks leave out the column of the window's ORDER BY list, which is rebuilt, and the
executor the sources in the branches of the CASE. -/
theorem not_agree :
    (∃ bound, bindExpression lowercase traversalScope [] orderedWindow = .ok bound ∧
      ¬bound.Agree lowercase) ∧
    ∃ bound, bindExpression lowercase traversalScope [] columnBranches = .ok bound ∧
      ¬bound.Agree lowercase := by
  refine ⟨⟨_, rfl, fun h => ?_⟩, _, rfl, fun h => ?_⟩
  · obtain ⟨other, hother, horder, -⟩ := ((Expression.agree_iff _ _).mp h).1 _
      List.mem_cons_self rfl
    cases List.mem_singleton.mp hother
    cases horder
  · have hsource := (h.sources "t").mpr ⟨("x", "t", ⟨.int64, true⟩), by decide, rfl⟩
    cases hsource

end DistributedSql

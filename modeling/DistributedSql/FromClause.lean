/-
The FROM clause (`Binder._bind_from` and `_Scope` in `planner/binder.py`).

Every JOIN brings one table into scope, and its condition is bound over all tables so far.
The plan is a chain of joins, each with a scan on its right.

Main results:
* `BoundFrom.of_bindFrom` — the plan of a FROM clause and its scope go together: the rows
  have a column for every field in scope, under its qualified name;
* `BoundFrom.join_of_bindJoin` — what is bound for a JOIN.
-/
import DistributedSql.Binder

namespace DistributedSql

/-! ### The binder -/

/-- A JOIN: its table, its type and its condition. -/
structure JoinClause where
  source : Source
  joinType : JoinType
  on : SqlExpression

/-- `_Scope.add`. -/
def addSource (py : Python) (scope : List Source) (source : Source) :
    Except BinderError (List Source) := do
  ensure (py.casefold source.tableAlias ∉ scope.map fun other => py.casefold other.tableAlias)
    ("Duplicate table alias '" ++ source.tableAlias ++ "'.") [("alias", .text source.tableAlias)]
  return scope ++ [source]

/-- The name of a field in the rows of a scan or a join. -/
def Source.fieldName (source : Source) (field : SchemaField) : String :=
  source.tableAlias ++ "." ++ field.name

/-- The names of a source's fields in the rows. -/
def Source.names (source : Source) : List String := source.schema.map source.fieldName

/-- `_join_fields`. -/
def joinFields (scope : List Source) (joinType : JoinType) : Schema :=
  scope.zipIdx.flatMap fun item =>
    let nullableSide := joinType = .full ∨ (joinType = .left ∧ item.2 = scope.length - 1) ∨
      (joinType = .right ∧ item.2 < scope.length - 1)
    item.1.schema.map fun field =>
      ⟨item.1.fieldName field, field.dataType, field.nullable || decide nullableSide⟩

/-- `Schema.field_names_are_unique`. -/
def checkSchema (schema : Schema) : Except BinderError Schema :=
  if schema.names.Nodup then .ok schema
  else .error (.python (.valueError "schema field names must be unique"))

/-- `_id`. -/
def nodeName (prefix_ : String) (id : ℕ) : String := prefix_ ++ "_" ++ toString id

/-- The plan so far, the tables in scope and the next id. -/
structure FromState where
  plan : LogicalPlan
  scope : List Source
  nextId : ℕ

/-- `_bind_table` of the first table. -/
def bindTable (source : Source) : FromState where
  plan := .scan (nodeName "scan" 1) source.tableName source.tableAlias source.schema
  scope := [source]
  nextId := 2

/-- One round of the loop in `_bind_from`. -/
def bindJoin (py : Python) (state : FromState) (clause : JoinClause) :
    Except BinderError FromState := do
  let scope ← addSource py state.scope clause.source
  let right := LogicalPlan.scan (nodeName "scan" state.nextId) clause.source.tableName
    clause.source.tableAlias clause.source.schema
  let condition ← bindExpression py scope [] clause.on
  sqlResult (requireBoolean condition)
  rejectComputed "Aggregate and window functions are not allowed here." condition
  let schema ← checkSchema (joinFields scope clause.joinType)
  return {
    plan := .join (nodeName "join" (state.nextId + 1)) state.plan right clause.joinType condition
      schema none .right
    scope := scope
    nextId := state.nextId + 2 }

/-- `_bind_from`. -/
def bindFrom (py : Python) (first : Source) (joins : List JoinClause) :
    Except BinderError FromState :=
  joins.foldlM (bindJoin py) (bindTable first)

/-! ### The plan and its scope -/

/-- The names that the fields in scope have in the rows. -/
def scopeNames (scope : List Source) : List String := scope.flatMap Source.names

theorem joinFields_names (scope : List Source) (joinType : JoinType) :
    (joinFields scope joinType).names = scopeNames scope := by
  have hnames : (joinFields scope joinType).names
      = (scope.zipIdx.map Prod.fst).flatMap Source.names := by
    rw [joinFields, Schema.names, List.map_flatMap, List.flatMap_map]
    refine congrArg (List.flatMap · scope.zipIdx) (funext fun item => ?_)
    rw [List.map_map]
    rfl
  rw [hnames, List.zipIdx_map_fst]
  rfl

/-- A plan whose rows have the fields in scope. -/
structure BoundFrom (py : Python) (state : FromState) : Prop where
  sources : state.plan.sources py = state.scope.map fun source => py.casefold source.tableAlias
  runtimeNames : state.plan.runtimeNames py = scopeNames state.scope
  aliases : (state.scope.map fun source => py.casefold source.tableAlias).Nodup

theorem BoundFrom.of_bindTable (py : Python) (source : Source) :
    BoundFrom py (bindTable source) where
  sources := rfl
  runtimeNames := (List.flatMap_singleton Source.names source).symm
  aliases := List.nodup_singleton _

/-- What is bound for a JOIN. -/
structure BoundJoin (py : Python) (state : FromState) (clause : JoinClause) (next : FromState) :
    Prop where
  scope_eq : next.scope = state.scope ++ [clause.source]
  fresh : py.casefold clause.source.tableAlias ∉
    state.scope.map fun source => py.casefold source.tableAlias
  names_nodup : (scopeNames next.scope).Nodup
  plan_eq : ∃ nodeId scanId condition, next.plan = .join nodeId state.plan
      (.scan scanId clause.source.tableName clause.source.tableAlias clause.source.schema)
      clause.joinType condition (joinFields next.scope clause.joinType) none .right ∧
    bindExpression py next.scope [] clause.on = .ok condition ∧
    condition.typeInfo.dataType ∈ [DataType.boolean, .null] ∧ condition.isComputed = false

theorem BoundJoin.of_bindJoin {py : Python} {state next : FromState} {clause : JoinClause}
    (h : bindJoin py state clause = .ok next) : BoundJoin py state clause next := by
  obtain ⟨scope, hscope, h⟩ := ExceptState.bind_eq_ok h
  obtain ⟨_, hfresh, hscope⟩ := ExceptState.bind_eq_ok hscope
  cases hscope
  obtain ⟨condition, hcondition, h⟩ := ExceptState.bind_eq_ok h
  obtain ⟨_, hboolean, h⟩ := ExceptState.bind_eq_ok h
  obtain ⟨_, hplain, h⟩ := ExceptState.bind_eq_ok h
  obtain ⟨schema, hschema, h⟩ := ExceptState.bind_eq_ok h
  cases h
  unfold checkSchema at hschema
  split at hschema
  next hnodup =>
    cases hschema
    rw [joinFields_names] at hnodup
    refine ⟨rfl, ensure_eq_ok_iff.mp hfresh, hnodup, _, _, condition, rfl, hcondition, ?_,
      ensure_eq_ok_iff.mp hplain⟩
    have hboolean := sqlResult_eq_ok hboolean
    unfold requireBoolean at hboolean
    split at hboolean
    · assumption
    · cases hboolean
  · cases hschema

theorem BoundFrom.join {py : Python} {state next : FromState} {clause : JoinClause}
    (hstate : BoundFrom py state) (h : BoundJoin py state clause next) : BoundFrom py next := by
  obtain ⟨nodeId, scanId, condition, hplan, -⟩ := h.plan_eq
  refine ⟨?_, ?_, ?_⟩
  · rw [hplan, h.scope_eq, LogicalPlan.sources, hstate.sources, List.map_append]
    rfl
  · rw [hplan, LogicalPlan.runtimeNames, joinFields_names]
  · rw [h.scope_eq, List.map_append]
    exact List.nodup_append_comm.mp (List.nodup_cons.mpr ⟨h.fresh, hstate.aliases⟩)

/-- The plan of a FROM clause and its scope go together. -/
theorem BoundFrom.of_bindFrom {py : Python} {first : Source} {joins : List JoinClause}
    {state : FromState} (h : bindFrom py first joins = .ok state) : BoundFrom py state := by
  have hrun : ∀ (joins : List JoinClause) (start : FromState), BoundFrom py start →
      joins.foldlM (bindJoin py) start = .ok state → BoundFrom py state := by
    intro joins
    induction joins with
    | nil =>
      intro start hstart h
      cases h
      exact hstart
    | cons clause rest ih =>
      intro start hstart h
      rw [List.foldlM_cons] at h
      obtain ⟨next, hnext, h⟩ := ExceptState.bind_eq_ok h
      exact ih next (hstart.join (.of_bindJoin hnext)) h
  exact hrun joins _ (.of_bindTable py first) h

end DistributedSql

/-
Physical plans (`execution/physical.py`).

`materialize_exchanges` puts an `Exchange` wherever an operator needs its input
distributed: below both sides of a join as its `JoinDecision` says, below an
aggregate and a window by their keys, and below what needs all rows in one place.

Main results:
* `exchangeSide_ok_iff` — when the exchange of one side of a join can be made;
* `materialize_join_iff` — when a join whose inputs are materialized is.
-/
import DistributedSql.LogicalPlans
import DistributedSql.DistributedJoin
import DistributedSql.Errors

namespace DistributedSql

/-- `type PhysicalPlan = LogicalPlan | Exchange`, an exchange anywhere in the tree. -/
inductive PhysicalPlan
  | scan (nodeId tableName tableAlias : String) (outputSchema : Schema)
  | project (nodeId : String) (input : PhysicalPlan) (expressions : List NamedExpression)
      (outputSchema : Schema)
  | filter (nodeId : String) (input : PhysicalPlan) (predicate : Expression)
      (outputSchema : Schema) (phase : String)
  | aggregate (nodeId : String) (input : PhysicalPlan) (groupBy : List Expression)
      (aggregates : List NamedExpression) (outputSchema : Schema)
  | join (nodeId : String) (left right : PhysicalPlan) (joinType : JoinType)
      (condition : Expression) (outputSchema : Schema) (inputLimit : Option ℕ) (buildSide : Side)
  | limit (nodeId : String) (input : PhysicalPlan) (count : ℕ) (outputSchema : Schema)
  | order (nodeId : String) (input : PhysicalPlan) (orderBy : List SortExpression)
      (outputSchema : Schema)
  | window (nodeId : String) (input : PhysicalPlan) (expressions : List NamedExpression)
      (outputSchema : Schema)
  | groupingSets (nodeId : String) (input : PhysicalPlan) (groupingSets : List (List Expression))
      (aggregates : List NamedExpression) (outputSchema : Schema)
  | exchange (nodeId : String) (input : PhysicalPlan) (strategy : PartitionStrategy)
      (keys : List Expression) (partitionCount : ℕ) (outputSchema : Schema)

/-- The fields of an `Exchange`. -/
structure Exchange where
  nodeId : String
  input : PhysicalPlan
  strategy : PartitionStrategy
  keys : List Expression
  partitionCount : ℕ
  outputSchema : Schema

namespace PhysicalPlan

def nodeId : PhysicalPlan → String
  | .scan nodeId _ _ _ => nodeId
  | .project nodeId _ _ _ => nodeId
  | .filter nodeId _ _ _ _ => nodeId
  | .aggregate nodeId _ _ _ _ => nodeId
  | .join nodeId _ _ _ _ _ _ _ => nodeId
  | .limit nodeId _ _ _ => nodeId
  | .order nodeId _ _ _ => nodeId
  | .window nodeId _ _ _ => nodeId
  | .groupingSets nodeId _ _ _ _ => nodeId
  | .exchange nodeId _ _ _ _ _ => nodeId

def outputSchema : PhysicalPlan → Schema
  | .scan _ _ _ schema => schema
  | .project _ _ _ schema => schema
  | .filter _ _ _ schema _ => schema
  | .aggregate _ _ _ _ schema => schema
  | .join _ _ _ _ _ schema _ _ => schema
  | .limit _ _ _ schema => schema
  | .order _ _ _ schema => schema
  | .window _ _ _ schema => schema
  | .groupingSets _ _ _ _ schema => schema
  | .exchange _ _ _ _ _ schema => schema

/-- `_runtime_names`: the columns of a plan's rows; an exchange leaves them as they are. -/
def rowNames (py : Python) : PhysicalPlan → List String
  | .scan _ _ tableAlias schema => schema.map fun field => tableAlias ++ "." ++ field.name
  | .filter _ input _ _ _ => input.rowNames py
  | .limit _ input _ _ => input.rowNames py
  | .order _ input _ _ => input.rowNames py
  | .project _ _ expressions _ => expressions.map (·.name)
  | .aggregate _ _ groupBy aggregates _ =>
      groupBy.map (Expression.sql py) ++ aggregates.map (·.expression.sql py)
  | .groupingSets _ _ sets aggregates _ =>
      (sets.flatten.map (Expression.sql py)).dedup ++ aggregates.map (·.expression.sql py)
  | .window _ input expressions _ =>
      input.rowNames py ++ expressions.map (·.expression.sql py)
  | .join _ _ _ _ _ schema _ _ => schema.names
  | .exchange _ input _ _ _ _ => input.rowNames py

/-- The exchanges in a plan. -/
def exchanges : PhysicalPlan → List Exchange
  | .scan _ _ _ _ => []
  | .project _ input _ _ => input.exchanges
  | .filter _ input _ _ _ => input.exchanges
  | .aggregate _ input _ _ _ => input.exchanges
  | .join _ left right _ _ _ _ _ => left.exchanges ++ right.exchanges
  | .limit _ input _ _ => input.exchanges
  | .order _ input _ _ => input.exchanges
  | .window _ input _ _ => input.exchanges
  | .groupingSets _ input _ _ _ => input.exchanges
  | .exchange nodeId input strategy keys partitionCount schema =>
      ⟨nodeId, input, strategy, keys, partitionCount, schema⟩ :: input.exchanges

end PhysicalPlan

/-- `_exchange`, with the checks of `Exchange.__post_init__`. -/
def exchangeOf (plan : PhysicalPlan) (keys : List Expression) (strategy : PartitionStrategy)
    (partitionCount : ℕ) (suffix : String) : Except PyError PhysicalPlan :=
  if partitionCount < 1 then .error (.valueError "exchange partition_count must be positive")
  else if strategy = .hash ∧ keys = [] then
    .error (.valueError "hash exchange requires partition keys")
  else .ok (.exchange ("exchange_" ++ plan.nodeId ++ "_" ++ suffix) plan strategy keys
    partitionCount plan.outputSchema)

/-- `partition_by` of a window function; nothing else has one. -/
def Expression.partitionBy : Expression → List Expression
  | .windowFunction _ partitionBy _ _ => partitionBy
  | _ => []

/-- `_window_partition_keys`. -/
def windowPartitionKeys (py : Python) (expressions : List NamedExpression) : List Expression :=
  match expressions with
  | [] => []
  | item :: rest =>
      let first := item.expression.partitionBy
      if first.isEmpty then []
      else if rest.all fun item =>
          item.expression.partitionBy.map (Expression.sql py) == first.map (Expression.sql py) then
        first
      else []

/-- One side of a join below `materialize_exchanges`. -/
def JoinDecision.exchangeSide (decision : JoinDecision) (partitionCount : ℕ) (side : Side)
    (plan : PhysicalPlan) : Except PyError PhysicalPlan :=
  if decision.repartitions side then
    exchangeOf plan ((decision.keys side).map keyColumn) .hash partitionCount side.name
  else if decision.strategy = .broadcast ∧ side = decision.buildSide then
    exchangeOf plan [] .broadcast partitionCount side.name
  else .ok plan

/-- `by_node.get(node_id)`: a later decision replaces an earlier one. -/
def decisionFor (decisions : List (String × JoinDecision)) (nodeId : String) :
    Option JoinDecision :=
  (decisions.reverse.find? fun item => item.1 = nodeId).map Prod.snd

section Materialize

variable (py : Python) (decisions : List (String × JoinDecision)) (partitionCount : ℕ)

/-- `visit` of `materialize_exchanges`. -/
def materialize : LogicalPlan → Except PyError PhysicalPlan
  | .scan nodeId tableName tableAlias schema => .ok (.scan nodeId tableName tableAlias schema)
  | .project nodeId input expressions schema => do
      return .project nodeId (← materialize input) expressions schema
  | .filter nodeId input predicate schema phase => do
      return .filter nodeId (← materialize input) predicate schema phase
  | .aggregate nodeId input groupBy aggregates schema => do
      let input ← materialize input
      let strategy := if groupBy.isEmpty then .single else .hash
      let count := if groupBy.isEmpty then 1 else partitionCount
      return .aggregate nodeId (← exchangeOf input groupBy strategy count "aggregate") groupBy
        aggregates schema
  | .join nodeId left right joinType condition schema inputLimit _ => do
      let left ← materialize left
      let right ← materialize right
      match decisionFor decisions nodeId with
      | none => throw (.valueError ("Missing JoinDecision for " ++ strRepr nodeId))
      | some decision =>
          let left ← decision.exchangeSide partitionCount .left left
          let right ← decision.exchangeSide partitionCount .right right
          return .join nodeId left right joinType condition schema inputLimit decision.buildSide
  | .limit nodeId input count schema => do
      return .limit nodeId (← exchangeOf (← materialize input) [] .single 1 "limit") count schema
  | .order nodeId input orderBy schema => do
      return .order nodeId (← exchangeOf (← materialize input) [] .single 1 "global") orderBy schema
  | .window nodeId input expressions schema => do
      let input ← materialize input
      let keys := windowPartitionKeys py expressions
      let strategy := if keys.isEmpty then .single else .hash
      let count := if keys.isEmpty then 1 else partitionCount
      return .window nodeId (← exchangeOf input keys strategy count "window") expressions schema
  | .groupingSets nodeId input sets aggregates schema => do
      return .groupingSets nodeId (← exchangeOf (← materialize input) [] .single 1 "global") sets
        aggregates schema

/-- `materialize_exchanges`. -/
def materializeExchanges (plan : LogicalPlan) : Except PyError PhysicalPlan :=
  if partitionCount < 1 then .error (.valueError "partition_count must be positive")
  else materialize py decisions partitionCount plan

end Materialize

/-! ### Joins -/

theorem exchangeOf_ok_iff {plan : PhysicalPlan} {keys : List Expression}
    {strategy : PartitionStrategy} {partitionCount : ℕ} {suffix : String}
    (hcount : 0 < partitionCount) :
    (∃ exchanged, exchangeOf plan keys strategy partitionCount suffix = .ok exchanged) ↔
      (strategy = .hash → keys ≠ []) := by
  rw [exchangeOf, if_neg (by omega)]
  by_cases h : strategy = .hash ∧ keys = []
  · rw [if_pos h]
    refine iff_of_false ?_ fun hkeys => hkeys h.1 h.2
    rintro ⟨exchanged, hok⟩
    cases hok
  · rw [if_neg h]
    exact iff_of_true ⟨_, rfl⟩ fun hhash hkeys => h ⟨hhash, hkeys⟩

/-- The exchange that is made, if one is. -/
theorem eq_of_exchangeOf_ok {plan exchanged : PhysicalPlan} {keys : List Expression}
    {strategy : PartitionStrategy} {partitionCount : ℕ} {suffix : String}
    (h : exchangeOf plan keys strategy partitionCount suffix = .ok exchanged) :
    exchanged = .exchange ("exchange_" ++ plan.nodeId ++ "_" ++ suffix) plan strategy keys
      partitionCount plan.outputSchema := by
  unfold exchangeOf at h
  split at h
  · cases h
  · split at h
    · cases h
    · cases h
      rfl

/-- The exchange below one side of a join is made unless it lacks keys. -/
theorem exchangeSide_ok_iff {decision : JoinDecision} {partitionCount : ℕ}
    (hcount : 0 < partitionCount) (side : Side) (plan : PhysicalPlan) :
    (∃ exchanged, decision.exchangeSide partitionCount side plan = .ok exchanged) ↔
      (decision.repartitions side = true → decision.keys side ≠ []) := by
  unfold JoinDecision.exchangeSide
  by_cases hside : decision.repartitions side = true
  · rw [if_pos hside, exchangeOf_ok_iff hcount, imp_iff_right rfl, imp_iff_right hside, ne_eq,
      List.map_eq_nil_iff]
  · rw [if_neg hside]
    refine iff_of_true ?_ fun h => absurd h hside
    split
    · exact (exchangeOf_ok_iff hcount).mpr fun h => by cases h
    · exact ⟨_, rfl⟩

/-- A join whose inputs are materialized is, if it has a decision and its exchanges can be
made. -/
theorem materialize_join_iff {py : Python} {decisions : List (String × JoinDecision)}
    {partitionCount : ℕ} {nodeId : String} {left right : LogicalPlan} {joinType : JoinType}
    {condition : Expression} {schema : Schema} {inputLimit : Option ℕ} {buildSide : Side}
    {decision : JoinDecision} {leftPhysical rightPhysical : PhysicalPlan}
    (hdecision : decisionFor decisions nodeId = some decision)
    (hleft : materialize py decisions partitionCount left = .ok leftPhysical)
    (hright : materialize py decisions partitionCount right = .ok rightPhysical)
    (hcount : 0 < partitionCount) :
    (∃ physical, materialize py decisions partitionCount
      (.join nodeId left right joinType condition schema inputLimit buildSide) = .ok physical) ↔
      ∀ side, decision.repartitions side = true → decision.keys side ≠ [] := by
  rw [materialize, hleft, hright]
  simp only [ExceptState.ok_bind, hdecision]
  constructor
  · rintro ⟨physical, h⟩ side
    obtain ⟨leftExchanged, hl, h⟩ := ExceptState.bind_eq_ok h
    obtain ⟨rightExchanged, hr, -⟩ := ExceptState.bind_eq_ok h
    cases side with
    | left => exact (exchangeSide_ok_iff hcount .left leftPhysical).mp ⟨leftExchanged, hl⟩
    | right => exact (exchangeSide_ok_iff hcount .right rightPhysical).mp ⟨rightExchanged, hr⟩
  · intro h
    obtain ⟨leftExchanged, hl⟩ := (exchangeSide_ok_iff hcount .left leftPhysical).mpr (h .left)
    obtain ⟨rightExchanged, hr⟩ := (exchangeSide_ok_iff hcount .right rightPhysical).mpr (h .right)
    rw [hl, hr]
    exact ⟨_, rfl⟩

end DistributedSql

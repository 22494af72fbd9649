/-
The keys of a join, as three parts of the engine take them from its condition
(`execution/engine.py`, `optimizer/cost.py`, `execution/physical.py`).

The local hash join takes both sides of every equality; the cost model only
equalities of two columns, by their casefolded names; and `materialize_exchanges`
makes columns of these names again.

Main results:
* `joinKeyNames_eq` — the cost model's names are those of the column equalities;
* `exchangeKeys_iff` — exactly when the exchanges of a join can be made and their keys
  are the local join's.
-/
import DistributedSql.PhysicalPlans

namespace DistributedSql

/-! ### The keys of the local join -/

mutual

/-- `_expression_sources`: the expressions in the fields, and in tuples of them; the branches
of a CASE and the sort keys of a window are neither. -/
def Expression.fieldSources (py : Python) : Expression → List String
  | .literal _ _ => []
  | .column _ source _ => [py.casefold source]
  | .cast expression _ _ => expression.fieldSources py
  | .unary _ expression _ => expression.fieldSources py
  | .binary _ left right _ => left.fieldSources py ++ right.fieldSources py
  | .isNull expression _ => expression.fieldSources py
  | .inList expression options _ => expression.fieldSources py ++ Expression.fieldSourcesAll py options
  | .between expression low high _ =>
      expression.fieldSources py ++ low.fieldSources py ++ high.fieldSources py
  | .like expression pattern _ => expression.fieldSources py ++ pattern.fieldSources py
  | .case _ default _ => default.fieldSources py
  | .scalarFunction _ arguments _ => Expression.fieldSourcesAll py arguments
  | .aggregateFunction _ arguments _ _ => Expression.fieldSourcesAll py arguments
  | .windowFunction function partitionBy _ _ =>
      function.fieldSources py ++ Expression.fieldSourcesAll py partitionBy

def Expression.fieldSourcesAll (py : Python) : List Expression → List String
  | [] => []
  | expression :: rest => expression.fieldSources py ++ Expression.fieldSourcesAll py rest

end

/-- `_split_equalities`: the two sides of each equality. -/
def splitEqualities : Expression → Except PyError (List (Expression × Expression))
  | .binary .and left right _ => do return (← splitEqualities left) ++ (← splitEqualities right)
  | .binary .equal left right _ => .ok [(left, right)]
  | _ => .error (.valueError "Task 5 Hash Join supports conjunctions of equality predicates only.")

/-- One equality in `_hash_join_keys`: its sides, the one of the left input first. -/
def hashJoinKey (py : Python) (leftSources rightSources : List String)
    (equality : Expression × Expression) : Except PyError (Expression × Expression) :=
  let first := equality.1.fieldSources py
  let second := equality.2.fieldSources py
  if first ≠ [] ∧ first ⊆ leftSources ∧ second ⊆ rightSources then .ok equality
  else if first ≠ [] ∧ first ⊆ rightSources ∧ second ⊆ leftSources then .ok equality.swap
  else .error (.valueError "Hash join keys must reference one input side each.")

/-- `_hash_join_keys`, the left and the right keys in pairs. -/
def hashJoinKeys (py : Python) (leftSources rightSources : List String) (condition : Expression) :
    Except PyError (List (Expression × Expression)) := do
  (← splitEqualities condition).mapM (hashJoinKey py leftSources rightSources)

/-! ### The key names of the cost model -/

/-- `_join_keys`, the left and the right names in pairs. -/
def joinKeyNames (py : Python) (leftSources rightSources : List String) :
    Expression → List (String × String)
  | .binary .and left right _ =>
      joinKeyNames py leftSources rightSources left
        ++ joinKeyNames py leftSources rightSources right
  | .binary .equal (.column name source _) (.column name' source' _) _ =>
      let text := py.casefold (Expression.qualifiedName name source)
      let text' := py.casefold (Expression.qualifiedName name' source')
      if py.casefold source ∈ leftSources ∧ py.casefold source' ∈ rightSources then [(text, text')]
      else if py.casefold source' ∈ leftSources ∧ py.casefold source ∈ rightSources then
        [(text', text)]
      else []
  | _ => []

/-- The name of a column in the rows. -/
def Expression.columnName : Expression → Option String
  | .column name source _ => some (Expression.qualifiedName name source)
  | _ => none

/-- The names of a pair of columns. -/
def columnNames (pair : Expression × Expression) : Option (String × String) :=
  match pair.1.columnName, pair.2.columnName with
  | some left, some right => some (left, right)
  | _, _ => none

/-- The names that an equality of two columns gives to the cost model. -/
def foldedNames (py : Python) (pair : Expression × Expression) : Option (String × String) :=
  (columnNames pair).map fun names => (py.casefold names.1, py.casefold names.2)

variable {py : Python} {leftSources rightSources : List String}

/-- The side of an equality that is no column gives the cost model nothing. -/
private theorem joinKeyNames_of_none {left right : Expression} {type : TypeInfo}
    (h : left.columnName = none ∨ right.columnName = none) :
    joinKeyNames py leftSources rightSources (.binary .equal left right type) = [] := by
  cases left <;> cases right <;> first | rfl | (rcases h with h | h <;> cases h)

/-- The keys of an equality are its sides, each with the sources of its own input. -/
theorem hashJoinKey_cases {equality pair : Expression × Expression}
    (h : hashJoinKey py leftSources rightSources equality = .ok pair) :
    (pair = equality ∨ pair = equality.swap) ∧ pair.1.fieldSources py ⊆ leftSources ∧
      pair.2.fieldSources py ⊆ rightSources := by
  unfold hashJoinKey at h
  dsimp only at h
  split at h
  next hsides =>
    cases h
    exact ⟨Or.inl rfl, hsides.2⟩
  next =>
    split at h
    next hsides =>
      cases h
      exact ⟨Or.inr rfl, hsides.2.2, hsides.2.1⟩
    next => cases h

private theorem joinKeyNames_equality {left right : Expression} {type : TypeInfo}
    {pair : Expression × Expression}
    (h : hashJoinKey py leftSources rightSources (left, right) = .ok pair) :
    joinKeyNames py leftSources rightSources (.binary .equal left right type)
      = (foldedNames py pair).toList := by
  have hpair : pair = (left, right) ∨ pair = (right, left) := (hashJoinKey_cases h).1
  by_cases hcolumns : left.columnName = none ∨ right.columnName = none
  · have hnone : columnNames pair = none := by
      rcases hpair with rfl | rfl <;> unfold columnNames <;> rcases hcolumns with hc | hc <;>
        rw [hc] <;> split <;> simp_all
    rw [joinKeyNames_of_none hcolumns, foldedNames, hnone]
    rfl
  · rw [not_or] at hcolumns
    cases left with
    | column name source _ =>
      cases right with
      | column name' source' _ =>
        unfold hashJoinKey at h
        simp only [Expression.fieldSources, ne_eq, reduceCtorEq, not_false_eq_true, true_and,
          List.cons_subset, List.nil_subset, and_true] at h
        rw [joinKeyNames]
        split at h
        · next hsides =>
          cases h
          rw [if_pos hsides]
          rfl
        · next hsides =>
          split at h
          · next hswap =>
            cases h
            rw [if_neg hsides, if_pos ⟨hswap.2, hswap.1⟩]
            rfl
          · cases h
      | _ => exact absurd rfl hcolumns.2
    | _ => exact absurd rfl hcolumns.1

/-- The cost model takes the names of those keys that are columns on both sides. -/
theorem joinKeyNames_eq {condition : Expression} {pairs : List (Expression × Expression)}
    (h : hashJoinKeys py leftSources rightSources condition = .ok pairs) :
    joinKeyNames py leftSources rightSources condition = pairs.filterMap (foldedNames py) := by
  obtain ⟨equalities, hsplit, hpairs⟩ := ExceptState.bind_eq_ok h
  clear h
  induction condition using splitEqualities.induct generalizing equalities pairs with
  | case1 left right type ihl ihr =>
    obtain ⟨leftEqualities, hl, hsplit⟩ := ExceptState.bind_eq_ok hsplit
    obtain ⟨rightEqualities, hr, hsplit⟩ := ExceptState.bind_eq_ok hsplit
    cases hsplit
    rw [List.mapM_append] at hpairs
    obtain ⟨leftPairs, hlp, hpairs⟩ := ExceptState.bind_eq_ok hpairs
    obtain ⟨rightPairs, hrp, hpairs⟩ := ExceptState.bind_eq_ok hpairs
    cases hpairs
    rw [joinKeyNames, ihl leftEqualities hl hlp, ihr rightEqualities hr hrp, List.filterMap_append]
  | case2 left right type =>
    cases hsplit
    obtain ⟨pair, hpair, hpairs⟩ := ExceptState.bind_eq_ok hpairs
    cases hpairs
    rw [joinKeyNames_equality hpair]
    change _ = List.filterMap (foldedNames py) [pair]
    rw [List.filterMap_cons]
    cases foldedNames py pair <;> rfl
  | case3 condition hand heq =>
    rw [splitEqualities.eq_def] at hsplit
    split at hsplit
    · next left right type => exact absurd rfl (hand left right type)
    · next left right type => exact absurd rfl (heq left right type)
    · cases hsplit

/-! ### Column keys -/

/-- The name of a key that is a column. -/
def keyName (key : Expression) : String := key.columnName.getD ""

/-- The keys of the local join that are columns on both sides. -/
def columnPairs (pairs : List (Expression × Expression)) : List (Expression × Expression) :=
  pairs.filter fun pair => (columnNames pair).isSome

theorem mem_columnPairs {pairs : List (Expression × Expression)} {pair : Expression × Expression}
    (h : pair ∈ columnPairs pairs) (side : Side) :
    ∃ name source type, Side.pick pair.1 pair.2 side = .column name source type := by
  have hsome := (List.mem_filter.mp h).2
  unfold columnNames at hsome
  obtain ⟨left, right⟩ := pair
  cases left with
  | column name source type =>
    cases right with
    | column name' source' type' =>
      cases side
      · exact ⟨name, source, type, rfl⟩
      · exact ⟨name', source', type', rfl⟩
    | _ => cases hsome
  | _ => cases hsome

private theorem foldedNames_eq (pair : Expression × Expression) :
    foldedNames py pair = if (columnNames pair).isSome then
      some (py.casefold (keyName pair.1), py.casefold (keyName pair.2)) else none := by
  unfold foldedNames columnNames keyName
  cases hleft : pair.1.columnName <;> cases hright : pair.2.columnName <;> simp

theorem filterMap_foldedNames (pairs : List (Expression × Expression)) :
    pairs.filterMap (foldedNames py) = (columnPairs pairs).map fun pair =>
      (py.casefold (keyName pair.1), py.casefold (keyName pair.2)) := by
  induction pairs with
  | nil => rfl
  | cons pair rest ih =>
    rw [List.filterMap_cons, ih, foldedNames_eq, columnPairs, columnPairs, List.filter_cons]
    split <;> simp_all

/-! ### The columns of an exchange -/

theorem keyColumn_spec (name : String) :
    (∃ source column, keyColumn name = .column column source ⟨.null, true⟩ ∧
      name = source ++ "." ++ column) ∨ ∃ column, keyColumn name = .column column "" ⟨.null, true⟩ := by
  have hsplit := List.takeWhile_append_dropWhile (p := fun c => decide (c ≠ '.')) (l := name.toList)
  have hhead := List.head?_dropWhile_not (fun c => decide (c ≠ '.')) name.toList
  unfold keyColumn
  rw [List.span_eq_takeWhile_dropWhile]
  dsimp only
  split
  · next d c column hrest =>
    rw [hrest] at hsplit hhead
    have hd : d = '.' := by simpa using hhead
    refine Or.inl ⟨_, _, rfl, String.toList_inj.mp ?_⟩
    rw [hd] at hsplit
    refine hsplit.symm.trans ?_
    simp [String.toList_append]
  · exact Or.inr ⟨_, rfl⟩

/-- The exchange's column for a name reads the column of that name. -/
def Recovered (py : Python) (name : String) : Prop :=
  (keyColumn (py.casefold name)).columnName = some name

/-- A row with these columns in which one is told from all others. -/
def markedRow (names : List String) (name : String) : Row :=
  names.map fun other => (other, .int (if other = name then 1 else 0))

theorem markedRow_names (names : List String) (name : String) :
    Row.names (markedRow names name) = names := by
  simp [markedRow, Row.names, Function.comp_def]

theorem markedRow_get? {names : List String} {name other : String} (h : other ∈ names) :
    Row.get? (markedRow names name) other = some (.int (if other = name then 1 else 0)) := by
  induction names with
  | nil => exact absurd h List.not_mem_nil
  | cons first rest ih =>
    rw [markedRow, List.map_cons, Row.get?_cons]
    by_cases heq : other = first
    · rw [if_pos heq, heq]
    · rw [if_neg heq]
      exact ih ((List.mem_cons.mp h).resolve_left heq)

theorem evaluate_columnName (py : Python) {row : Row} {name source : String} (type : TypeInfo)
    (h : Expression.qualifiedName name source ∈ row.names) :
    ∃ value, row.get? (Expression.qualifiedName name source) = some value ∧
      (Expression.column name source type).evaluate py row = .ok value := by
  obtain ⟨value, hvalue⟩ := Option.isSome_iff_exists.mp (Row.get?_isSome.mpr h)
  refine ⟨value, hvalue, ?_⟩
  rw [Expression.evaluate, hvalue]

theorem columnName_eq_some {key : Expression} {text : String} (h : key.columnName = some text) :
    ∃ name source type, key = .column name source type ∧
      Expression.qualifiedName name source = text := by
  cases key with
  | column name source type => exact ⟨name, source, type, rfl, Option.some.inj h⟩
  | _ => cases h

/-- A column reads its qualified name, or else its bare name. -/
theorem get?_of_evaluate_column {row : Row} {name source : String} {type : TypeInfo}
    {value : SQLValue} (h : (Expression.column name source type).evaluate py row = .ok value) :
    row.get? (Expression.qualifiedName name source) = some value ∨
      source ≠ "" ∧ row.get? name = some value := by
  rw [Expression.evaluate] at h
  cases hget : row.get? (Expression.qualifiedName name source) with
  | some other =>
    rw [hget] at h
    exact Or.inl (congrArg some (Except.ok.inj h))
  | none =>
    refine Or.inr ⟨?_, ?_⟩
    · rintro rfl
      rw [hget, Row.getItem, show row.get? name = none from hget] at h
      cases h
    · rw [hget, Row.getItem] at h
      cases hbare : row.get? name with
      | some other =>
        rw [hbare] at h
        exact congrArg some (Except.ok.inj h)
      | none =>
        rw [hbare] at h
        cases h

/-- The exchange's column has the value of the named column in every row with these columns
exactly when it reads the column of that name. -/
theorem recovered_iff
    (hfold : ∀ text, (py.casefold text).toList.count '.' = text.toList.count '.')
    {names : List String} {name source : String} {type : TypeInfo}
    (hname : Expression.qualifiedName name source ∈ names) :
    (∀ row : Row, row.names = names → ∃ value,
      (keyColumn (py.casefold (Expression.qualifiedName name source))).evaluate py row = .ok value ∧
      (Expression.column name source type).evaluate py row = .ok value) ↔
    Recovered py (Expression.qualifiedName name source) := by
  set text := Expression.qualifiedName name source with htext
  constructor
  · intro h
    obtain ⟨value, hread, hvalue⟩ := h (markedRow names text) (markedRow_names names text)
    have hmarked : Row.get? (markedRow names text) text = some (.int 1) := by
      rw [markedRow_get? hname, if_pos rfl]
    rw [Expression.evaluate, ← htext, hmarked] at hvalue
    cases hvalue
    -- what the exchange reads is marked, so it has the name
    have hmark : ∀ other, Row.get? (markedRow names text) other = some (.int 1) → other = text := by
      intro other hother
      have hmem : other ∈ names := by
        rw [← markedRow_names names text]
        exact Row.get?_isSome.mp (by rw [hother]; rfl)
      rw [markedRow_get? hmem] at hother
      by_contra hne
      rw [if_neg hne] at hother
      cases hother
    unfold Recovered
    obtain ⟨source', column, hkey, hsplit⟩ | ⟨column, hkey⟩ := keyColumn_spec (py.casefold text)
    · rw [hkey] at hread ⊢
      rcases get?_of_evaluate_column hread with hget | ⟨-, hget⟩
      · exact congrArg some (hmark _ hget)
      · -- a bare name has fewer dots than the name folded
        have hcount := hfold text
        rw [hsplit, hmark _ hget, String.toList_append, String.toList_append, List.count_append,
          List.count_append] at hcount
        have hdot : ".".toList.count '.' = 1 := rfl
        omega
    · rw [hkey] at hread ⊢
      rcases get?_of_evaluate_column hread with hget | ⟨hne, -⟩
      · exact congrArg some (hmark _ hget)
      · exact absurd rfl hne
  · intro h row hrow
    obtain ⟨value, hget, hvalue⟩ := evaluate_columnName py type (hrow ▸ hname)
    obtain ⟨column, source', type', hkey, hqualified⟩ := columnName_eq_some h
    refine ⟨value, ?_, hvalue⟩
    rw [hkey, Expression.evaluate, hqualified, htext, hget]

/-- Two lists of expressions made of the same items evaluate to the same values exactly when
the expressions of each item do. -/
theorem evaluateAll_map_iff {α : Type} {f g : α → Expression} {row : Row} {items : List α} :
    (∃ values, Expression.evaluateAll py row (items.map f) = .ok values ∧
      Expression.evaluateAll py row (items.map g) = .ok values) ↔
    ∀ item ∈ items, ∃ value, (f item).evaluate py row = .ok value ∧
      (g item).evaluate py row = .ok value := by
  induction items with
  | nil => exact iff_of_true ⟨[], rfl, rfl⟩ fun item h => absurd h List.not_mem_nil
  | cons item rest ih =>
    rw [List.forall_mem_cons, ← ih, List.map_cons, List.map_cons]
    constructor
    · rintro ⟨values, hf, hg⟩
      obtain ⟨value, tail, hvalue, htail, rfl⟩ := Expression.evaluateAll_cons hf
      obtain ⟨value', tail', hvalue', htail', heq⟩ := Expression.evaluateAll_cons hg
      obtain ⟨rfl, rfl⟩ := List.cons_eq_cons.mp heq
      exact ⟨⟨value, hvalue, hvalue'⟩, tail, htail, htail'⟩
    · rintro ⟨⟨value, hvalue, hvalue'⟩, tail, htail, htail'⟩
      refine ⟨value :: tail, ?_, ?_⟩
      · rw [Expression.evaluateAll, hvalue, htail]
        rfl
      · rw [Expression.evaluateAll, hvalue', htail']
        rfl

/-! ### The exchanges of a join -/

/-- A decision that the cost model attaches to a join, whatever the estimates are. -/
def Attached (py : Python) (left right : LogicalPlan) (condition : Expression)
    (decision : JoinDecision) : Prop :=
  let names := joinKeyNames py (left.sources py) (right.sources py) condition
  ∃ (model : CostModel) (leftEstimate rightEstimate : PlanEstimate),
    model.joinDecision py leftEstimate rightEstimate (names.map Prod.fst) (names.map Prod.snd)
      = some decision

theorem Attached.keys {left right : LogicalPlan} {condition : Expression}
    {decision : JoinDecision} (h : Attached py left right condition decision) (side : Side) :
    decision.keys side = (joinKeyNames py (left.sources py) (right.sources py) condition).map
      fun names => Side.pick names.1 names.2 side := by
  obtain ⟨model, leftEstimate, rightEstimate, h⟩ := h
  obtain ⟨candidate, -, rfl⟩ := Option.map_eq_some_iff.mp h
  cases side <;> rfl

/-- On every row of the input of each exchange, its keys have the values of the local join's
column keys, in their order. -/
def KeysAgree (py : Python) (decision : JoinDecision) (input : Side → LogicalPlan)
    (pairs : List (Expression × Expression)) : Prop :=
  ∀ side, decision.repartitions side = true → ∀ row : Row,
    row.names = (input side).runtimeNames py → ∃ values,
      Expression.evaluateAll py row ((decision.keys side).map keyColumn) = .ok values ∧
      Expression.evaluateAll py row
        ((columnPairs pairs).map fun pair => Side.pick pair.1 pair.2 side) = .ok values

/-- On each side that is exchanged there is an equality of two columns, and casefolding
leaves the names of all such columns as they are. -/
def KeepsNames (py : Python) (decision : JoinDecision) (pairs : List (Expression × Expression)) :
    Prop :=
  ∀ side, decision.repartitions side = true → columnPairs pairs ≠ [] ∧
    ∀ pair ∈ columnPairs pairs, Recovered py (keyName (Side.pick pair.1 pair.2 side))

/-- The exchanges of a join can be made, and their keys are those of the local join, exactly
when every exchanged side has a column key and all its column keys keep their names. -/
theorem exchangeKeys_iff
    (hfold : ∀ text, (py.casefold text).toList.count '.' = text.toList.count '.')
    {left right : LogicalPlan} {condition : Expression} {pairs : List (Expression × Expression)}
    (hkeys : hashJoinKeys py (left.sources py) (right.sources py) condition = .ok pairs)
    (hbound : ∀ pair ∈ columnPairs pairs, ∀ side, keyName (Side.pick pair.1 pair.2 side) ∈
      (Side.pick left right side).runtimeNames py)
    {decision : JoinDecision} (hattached : Attached py left right condition decision)
    {decisions : List (String × JoinDecision)} {nodeId : String}
    (hdecision : decisionFor decisions nodeId = some decision) {n : ℕ} (hcount : 0 < n)
    {leftPhysical rightPhysical : PhysicalPlan}
    (hleft : materialize py decisions n left = .ok leftPhysical)
    (hright : materialize py decisions n right = .ok rightPhysical) {joinType : JoinType}
    {schema : Schema} {inputLimit : Option ℕ} {buildSide : Side} :
    ((∃ physical, materialize py decisions n
        (.join nodeId left right joinType condition schema inputLimit buildSide) = .ok physical) ∧
      KeysAgree py decision (Side.pick left right) pairs) ↔ KeepsNames py decision pairs := by
  have hnames : ∀ side, decision.keys side = (columnPairs pairs).map fun pair =>
      py.casefold (keyName (Side.pick pair.1 pair.2 side)) := by
    intro side
    rw [hattached.keys, joinKeyNames_eq hkeys, filterMap_foldedNames, List.map_map]
    refine List.map_congr_left fun pair _ => ?_
    cases side <;> rfl
  have hpair : ∀ side, ∀ pair ∈ columnPairs pairs,
      (∀ row : Row, row.names = (Side.pick left right side).runtimeNames py → ∃ value,
        (keyColumn (py.casefold (keyName (Side.pick pair.1 pair.2 side)))).evaluate py row
            = .ok value ∧
          (Side.pick pair.1 pair.2 side).evaluate py row = .ok value) ↔
        Recovered py (keyName (Side.pick pair.1 pair.2 side)) := by
    intro side pair hmem
    have hname := hbound pair hmem side
    obtain ⟨name, source, type, hcolumn⟩ := mem_columnPairs hmem side
    rw [hcolumn] at hname ⊢
    exact recovered_iff hfold hname
  rw [materialize_join_iff hdecision hleft hright hcount]
  unfold KeysAgree KeepsNames
  rw [← forall_and]
  refine forall_congr' fun side => ?_
  rw [← imp_and]
  refine imp_congr_right fun _ => ?_
  rw [hnames side, ne_eq, List.map_eq_nil_iff, List.map_map]
  refine and_congr_right fun _ => ?_
  constructor
  · intro h pair hmem
    exact (hpair side pair hmem).mp fun row hrow => evaluateAll_map_iff.mp (h row hrow) pair hmem
  · intro h row hrow
    exact evaluateAll_map_iff.mpr fun pair hmem => (hpair side pair hmem).mpr (h pair hmem) row hrow

/-! ### A capital in a column name -/

/-- Python on ASCII names. -/
def joinPython : Python := { Python.ascii with
  casefold := fun text => String.ofList (text.toList.map Char.toLower) }

private theorem toLower_eq_dot_iff (c : Char) : c.toLower = '.' ↔ c = '.' := by
  unfold Char.toLower
  split
  · next h =>
    refine iff_of_false (fun heq => ?_) (fun heq => ?_)
    · have hval : (c.val + ('a'.val - 'A'.val)).toNat = 46 :=
        congrArg (fun c : Char => c.val.toNat) heq
      have hlow : 65 ≤ c.val.toNat := UInt32.le_iff_toNat_le.mp h.1
      have hhigh : c.val.toNat ≤ 90 := UInt32.le_iff_toNat_le.mp h.2
      have hshift : ('a'.val - 'A'.val).toNat = 32 := rfl
      rw [UInt32.toNat_add, hshift] at hval
      omega
    · rw [heq] at h
      exact absurd h (by decide)
  · exact Iff.rfl

theorem count_casefold_joinPython (text : String) :
    (joinPython.casefold text).toList.count '.' = text.toList.count '.' := by
  change (String.ofList (text.toList.map Char.toLower)).toList.count '.' = _
  rw [String.toList_ofList]
  induction text.toList with
  | nil => rfl
  | cons c rest ih =>
    rw [List.map_cons, List.count_cons, List.count_cons, ih]
    simp [toLower_eq_dot_iff]

/-- `orders` under the alias `o`, with a column `Id`. -/
def orders : LogicalPlan := .scan "scan_1" "orders" "o" [⟨"Id", .int64, true⟩]

/-- `items` under the alias `i`, with a column `id`. -/
def items : LogicalPlan := .scan "scan_2" "items" "i" [⟨"id", .int64, true⟩]

def orderKey : Expression := .column "Id" "o" ⟨.int64, true⟩

def itemKey : Expression := .column "id" "i" ⟨.int64, true⟩

/-- `o.Id = i.id`. -/
def idCondition : Expression := .binary .equal orderKey itemKey ⟨.boolean, true⟩

/-- The decision for two inputs too large to broadcast. -/
def idDecision : JoinDecision := ⟨.left, .repartitionBoth, ["o.id"], ["i.id"]⟩

theorem hashJoinKeys_ids :
    hashJoinKeys joinPython (orders.sources joinPython) (items.sources joinPython) idCondition
      = .ok [(orderKey, itemKey)] := by
  rfl

theorem attached_ids : Attached joinPython orders items idCondition idDecision :=
  ⟨⟨2, 1000, 1000⟩, ⟨5000, {}⟩, ⟨5000, {}⟩, by decide +kernel⟩

/-- The plan below the exchanges, and its one decision. -/
def idDecisions : List (String × JoinDecision) := [("join_3", idDecision)]

theorem exchangeKeys_iff_ids :
    ((∃ physical, materialize joinPython idDecisions 2
        (.join "join_3" orders items .inner idCondition [] none .right) = .ok physical) ∧
      KeysAgree joinPython idDecision (Side.pick orders items) [(orderKey, itemKey)]) ↔
      KeepsNames joinPython idDecision [(orderKey, itemKey)] :=
  exchangeKeys_iff count_casefold_joinPython hashJoinKeys_ids
    (by
      intro pair hpair side
      rw [List.mem_singleton.mp (List.mem_of_mem_filter hpair)]
      cases side <;> decide +kernel)
    attached_ids (by decide +kernel) two_pos rfl rfl

/-- The exchange looks for a column `o.id` where there is `o.Id`. -/
theorem not_exchangeKeys : ∃ row : Row, row.names = orders.runtimeNames joinPython ∧
    hashJoinKeys joinPython (orders.sources joinPython) (items.sources joinPython) idCondition
      = .ok [(orderKey, itemKey)] ∧
    Attached joinPython orders items idCondition idDecision ∧
    idDecision.repartitions .left = true ∧
    orderKey.evaluate joinPython row = .ok (.int 1) ∧
    Expression.evaluateAll joinPython row ((idDecision.keys .left).map keyColumn)
      = .error (.keyError "id") :=
  ⟨[("o.Id", .int 1)], by decide +kernel, hashJoinKeys_ids, attached_ids, rfl, by decide +kernel,
    by decide +kernel⟩

end DistributedSql

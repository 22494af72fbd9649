/-
The rules that move filters and limits below projections (`optimizer/rules.py`).

A filter over a projection is put below it, with the projected expressions in the place of the
columns of its predicate.

Main results:
* `PredicatePushdownProject.carries_substituted` — the new predicate has the value on a row that
  the old one has on what is projected of it;
* `PredicatePushdownProject.keeps_apply`, `LimitPushdownProject.keeps_apply`,
  `LimitJoinInputHint.keeps_apply` — the rewritten plans have the rows of the plans.
-/
import DistributedSql.ConstantFolding
import DistributedSql.LocalOperators

namespace DistributedSql

/-- The inputs of a plan. -/
def LogicalPlan.children : LogicalPlan → List LogicalPlan
  | .scan _ _ _ _ => []
  | .project _ input _ _ => [input]
  | .filter _ input _ _ _ => [input]
  | .aggregate _ input _ _ _ => [input]
  | .join _ left right _ _ _ _ _ => [left, right]
  | .limit _ input _ _ => [input]
  | .order _ input _ _ => [input]
  | .window _ input _ _ => [input]
  | .groupingSets _ input _ _ _ => [input]

/-! ### Rules -/

/-- `LimitPushdownProject.apply`. -/
def LimitPushdownProject.apply : LogicalPlan → Option LogicalPlan
  | .limit nodeId (.project projectId input expressions projectSchema) count _ =>
      some (.project projectId (.limit nodeId input count input.outputSchema) expressions
        projectSchema)
  | _ => none

/-- `LimitJoinInputHint.apply`. -/
def LimitJoinInputHint.apply : LogicalPlan → Option LogicalPlan
  | .limit nodeId (.join joinId left right joinType condition joinSchema inputLimit buildSide)
      count schema =>
      if inputLimit.any (· ≤ count) then none
      else some (.limit nodeId
        (.join joinId left right joinType condition joinSchema (some count) buildSide) count schema)
  | _ => none

namespace PredicatePushdownProject

/-- `aliases`: of names that differ in case only the last. -/
def aliases (py : Python) (expressions : List NamedExpression) : Dict String Expression :=
  Dict.empty.update (expressions.map fun item => (py.casefold item.name, item.expression))

/-- `substitute`. -/
def substitute (py : Python) (aliases : Dict String Expression) (expression : Expression) :
    Except PyError Expression :=
  match expression with
  | .column name _ _ =>
      match aliases.get? (py.casefold name) with
      | some item => .ok item
      | none => .error (.keyError (py.casefold name))
  | expression => .ok expression

/-- `PredicatePushdownProject.apply`. -/
def apply (py : Python) : LogicalPlan → Except PyError (Option LogicalPlan)
  | .filter nodeId (.project projectId input expressions projectSchema) predicate _ phase => do
      let aliases := aliases py expressions
      if predicate.columns.any fun column => (aliases.get? (py.casefold column.1)).isNone then
        return none
      else
        let predicate ← predicate.mapExpression (substitute py aliases)
        if predicate.containsAggregate || predicate.containsWindow then return none
        else return some (.project projectId
          (.filter nodeId input predicate input.outputSchema phase) expressions projectSchema)
  | _ => .ok none

end PredicatePushdownProject

/-! ### Substituted predicates -/

namespace PredicatePushdownProject

open Expression

/-- The second expression has the value on the one row that the first one has on the other. -/
def Carries (py : Python) (row row' : Row) (expression expression' : Expression) : Prop :=
  ∀ value, expression.evaluate py row' = .ok value → expression'.evaluate py row = .ok value

/-- No value is looked up under the text of an expression. -/
def Unread (items : List Expression) : Prop :=
  ∀ item ∈ items, item.isAggregate = false ∧ item.isWindow = false

theorem Unread.left {items items' : List Expression} (h : Unread (items ++ items')) :
    Unread items := fun item hitem => h item (List.mem_append_left items' hitem)

theorem Unread.right {items items' : List Expression} (h : Unread (items ++ items')) :
    Unread items' := fun item hitem => h item (List.mem_append_right items hitem)

theorem Unread.tail {item : Expression} {items : List Expression} (h : Unread (item :: items)) :
    Unread items := fun other hother => h other (List.mem_cons_of_mem item hother)

/-- What is found for a column has the value that the column has on the other row. -/
def FoundCarry (py : Python) (row row' : Row) (found : Dict String Expression) : Prop :=
  ∀ name source resultType item, found.get? (py.casefold name) = some item →
    Carries py row row' (.column name source resultType) item

section Substituted

variable {py : Python} {row row' : Row} {found : Dict String Expression}

mutual

/-- A predicate with the projected expressions in it has the value on a row that the predicate
has on what is projected of the row. -/
theorem carries_substituted (hfound : FoundCarry py row row' found) :
    ∀ {expression expression' : Expression},
    expression.mapExpression (substitute py found) = .ok expression' → Unread expression'.walk →
      Carries py row row' expression expression'
  | .literal _ _, _, h, _ => by
    cases h
    exact fun _ hvalue => hvalue
  | .column name source resultType, expression', h, _ => by
    rw [mapExpression, substitute] at h
    split at h
    · next item hitem =>
      cases h
      exact hfound name source resultType _ hitem
    · cases h
  | .aggregateFunction _ _ _ _, _, h, hunread => by
    obtain ⟨arguments, -, h⟩ := ExceptState.bind_eq_ok h
    cases h
    exact absurd (hunread _ List.mem_cons_self).1 nofun
  | .windowFunction _ _ _ _, _, h, hunread => by
    obtain ⟨function, -, h⟩ := ExceptState.bind_eq_ok h
    obtain ⟨partitionBy, -, h⟩ := ExceptState.bind_eq_ok h
    obtain ⟨orderBy, -, h⟩ := ExceptState.bind_eq_ok h
    cases h
    exact absurd (hunread _ List.mem_cons_self).2 nofun
  | .cast expression _ _, _, h, hunread => by
    obtain ⟨inner, hinner, h⟩ := ExceptState.bind_eq_ok h
    cases h
    have hcarries := carries_substituted hfound hinner hunread.tail
    intro value hvalue
    rw [Expression.evaluate] at hvalue ⊢
    obtain ⟨v, hv, hvalue⟩ := ExceptState.bind_eq_ok hvalue
    rw [hcarries v hv]
    exact hvalue
  | .unary _ expression _, _, h, hunread => by
    obtain ⟨inner, hinner, h⟩ := ExceptState.bind_eq_ok h
    cases h
    have hcarries := carries_substituted hfound hinner hunread.tail
    intro value hvalue
    rw [Expression.evaluate] at hvalue ⊢
    obtain ⟨v, hv, hvalue⟩ := ExceptState.bind_eq_ok hvalue
    rw [hcarries v hv]
    exact hvalue
  | .isNull expression _, _, h, hunread => by
    obtain ⟨inner, hinner, h⟩ := ExceptState.bind_eq_ok h
    cases h
    have hcarries := carries_substituted hfound hinner hunread.tail
    intro value hvalue
    rw [Expression.evaluate] at hvalue ⊢
    obtain ⟨v, hv, hvalue⟩ := ExceptState.bind_eq_ok hvalue
    rw [hcarries v hv]
    exact hvalue
  | .binary _ left right _, _, h, hunread => by
    obtain ⟨left', hleft, h⟩ := ExceptState.bind_eq_ok h
    obtain ⟨right', hright, h⟩ := ExceptState.bind_eq_ok h
    cases h
    have hl := carries_substituted hfound hleft hunread.tail.left
    have hr := carries_substituted hfound hright hunread.tail.right
    intro value hvalue
    rw [Expression.evaluate] at hvalue ⊢
    obtain ⟨v, hv, hvalue⟩ := ExceptState.bind_eq_ok hvalue
    obtain ⟨w, hw, hvalue⟩ := ExceptState.bind_eq_ok hvalue
    rw [hl v hv, ExceptState.ok_bind, hr w hw]
    exact hvalue
  | .like expression pattern _, _, h, hunread => by
    obtain ⟨left', hleft, h⟩ := ExceptState.bind_eq_ok h
    obtain ⟨right', hright, h⟩ := ExceptState.bind_eq_ok h
    cases h
    have hl := carries_substituted hfound hleft hunread.tail.left
    have hr := carries_substituted hfound hright hunread.tail.right
    intro value hvalue
    rw [Expression.evaluate] at hvalue ⊢
    obtain ⟨v, hv, hvalue⟩ := ExceptState.bind_eq_ok hvalue
    obtain ⟨w, hw, hvalue⟩ := ExceptState.bind_eq_ok hvalue
    rw [hl v hv, ExceptState.ok_bind, hr w hw]
    exact hvalue
  | .between expression low high _, _, h, hunread => by
    obtain ⟨inner, hinner, h⟩ := ExceptState.bind_eq_ok h
    obtain ⟨low', hlow, h⟩ := ExceptState.bind_eq_ok h
    obtain ⟨high', hhigh, h⟩ := ExceptState.bind_eq_ok h
    cases h
    have he := carries_substituted hfound hinner hunread.tail.left
    have hl := carries_substituted hfound hlow hunread.tail.right.left
    have hh := carries_substituted hfound hhigh hunread.tail.right.right
    intro value hvalue
    rw [Expression.evaluate] at hvalue ⊢
    obtain ⟨v, hv, hvalue⟩ := ExceptState.bind_eq_ok hvalue
    obtain ⟨lowValue, hlowValue, hvalue⟩ := ExceptState.bind_eq_ok hvalue
    obtain ⟨highValue, hhighValue, hvalue⟩ := ExceptState.bind_eq_ok hvalue
    rw [he v hv, ExceptState.ok_bind, hl lowValue hlowValue, ExceptState.ok_bind,
      hh highValue hhighValue]
    exact hvalue
  | .inList expression options _, _, h, hunread => by
    obtain ⟨inner, hinner, h⟩ := ExceptState.bind_eq_ok h
    obtain ⟨options', hoptions, h⟩ := ExceptState.bind_eq_ok h
    cases h
    have he := carries_substituted hfound hinner hunread.tail.left
    intro value hvalue
    rw [Expression.evaluate] at hvalue ⊢
    obtain ⟨v, hv, hvalue⟩ := ExceptState.bind_eq_ok hvalue
    rw [he v hv, ExceptState.ok_bind]
    split at hvalue
    · next hnull => rw [if_pos hnull, hvalue]
    · next hnull =>
      rw [if_neg hnull]
      exact carries_options hfound hoptions hunread.tail.right hvalue
  | .case branches default _, _, h, hunread => by
    obtain ⟨branches', hbranches, h⟩ := ExceptState.bind_eq_ok h
    obtain ⟨default', hdefault, h⟩ := ExceptState.bind_eq_ok h
    cases h
    have hd := carries_substituted hfound hdefault hunread.tail.right
    intro value hvalue
    rw [Expression.evaluate] at hvalue ⊢
    obtain ⟨result, hresult, hvalue⟩ := ExceptState.bind_eq_ok hvalue
    rw [carries_branches hfound hbranches hunread.tail.left hresult, ExceptState.ok_bind]
    cases result with
    | some v => exact hvalue
    | none => exact hd value hvalue
  | .scalarFunction _ arguments _, _, h, hunread => by
    obtain ⟨arguments', harguments, h⟩ := ExceptState.bind_eq_ok h
    cases h
    intro value hvalue
    rw [Expression.evaluate] at hvalue ⊢
    obtain ⟨values, hvalues, hvalue⟩ := ExceptState.bind_eq_ok hvalue
    rw [carries_all hfound harguments hunread.tail hvalues]
    exact hvalue

theorem carries_all (hfound : FoundCarry py row row' found) :
    ∀ {expressions expressions' : List Expression},
    mapAll (substitute py found) expressions = .ok expressions' →
      Unread (walkAll expressions') → ∀ {values : List SQLValue},
        evaluateAll py row' expressions = .ok values → evaluateAll py row expressions' = .ok values
  | [], _, h, _, _, hvalues => by
    cases h
    exact hvalues
  | _ :: _, _, h, hunread, _, hvalues => by
    obtain ⟨first, hfirst, h⟩ := ExceptState.bind_eq_ok h
    obtain ⟨rest, hrest, h⟩ := ExceptState.bind_eq_ok h
    cases h
    obtain ⟨value, tail, hvalue, htail, rfl⟩ := evaluateAll_cons hvalues
    rw [evaluateAll, carries_substituted hfound hfirst hunread.left value hvalue,
      ExceptState.ok_bind, carries_all hfound hrest hunread.right htail]
    rfl

theorem carries_options (hfound : FoundCarry py row row' found) :
    ∀ {options options' : List Expression},
    mapAll (substitute py found) options = .ok options' →
      Unread (walkAll options') → ∀ {value : SQLValue} {negated sawNull : Bool} {result : SQLValue},
        evaluateOptions py row' value negated sawNull options = .ok result →
          evaluateOptions py row value negated sawNull options' = .ok result
  | [], _, h, _, _, _, _, _, hresult => by
    cases h
    exact hresult
  | _ :: _, _, h, hunread, _, _, _, _, hresult => by
    obtain ⟨first, hfirst, h⟩ := ExceptState.bind_eq_ok h
    obtain ⟨rest, hrest, h⟩ := ExceptState.bind_eq_ok h
    cases h
    rw [evaluateOptions] at hresult ⊢
    obtain ⟨candidate, hcandidate, hresult⟩ := ExceptState.bind_eq_ok hresult
    rw [carries_substituted hfound hfirst hunread.left candidate hcandidate, ExceptState.ok_bind]
    -- the options after the one that is found are not evaluated
    split at hresult
    · next hnull => rw [if_pos hnull, carries_options hfound hrest hunread.right hresult]
    · next hnull =>
      rw [if_neg hnull]
      split at hresult
      · next hequal => rw [if_pos hequal, hresult]
      · next hequal => rw [if_neg hequal, carries_options hfound hrest hunread.right hresult]

theorem carries_branches (hfound : FoundCarry py row row' found) :
    ∀ {branches branches' : List (Expression × Expression)},
    mapBranches (substitute py found) branches = .ok branches' →
      Unread (walkBranches branches') → ∀ {result : Option SQLValue},
        evaluateBranches py row' branches = .ok result →
          evaluateBranches py row branches' = .ok result
  | [], _, h, _, _, hresult => by
    cases h
    exact hresult
  | (_, _) :: _, _, h, hunread, _, hresult => by
    obtain ⟨condition, hcondition, h⟩ := ExceptState.bind_eq_ok h
    obtain ⟨value, hvalue, h⟩ := ExceptState.bind_eq_ok h
    obtain ⟨rest, hrest, h⟩ := ExceptState.bind_eq_ok h
    cases h
    rw [evaluateBranches] at hresult ⊢
    obtain ⟨test, htest, hresult⟩ := ExceptState.bind_eq_ok hresult
    rw [carries_substituted hfound hcondition hunread.left.left test htest, ExceptState.ok_bind]
    split at hresult
    · next htrue =>
      obtain ⟨result, hresultValue, hresult⟩ := ExceptState.bind_eq_ok hresult
      rw [if_pos htrue, carries_substituted hfound hvalue hunread.left.right result hresultValue,
        ← hresult]
      rfl
    · next htrue => rw [if_neg htrue, carries_branches hfound hrest hunread.right hresult]

end

end Substituted

/-! ### Projected rows -/

/-- A projection with an item for each field, under names that stay apart without their case and
are no qualified names. -/
structure Plain (py : Python) (expressions : List NamedExpression) (schema : Schema) : Prop where
  names : schema.names = expressions.map (·.name)
  distinct : (expressions.map fun item => py.casefold item.name).Nodup
  ne_nil : expressions ≠ []
  undotted : ∀ item ∈ expressions, '.' ∉ item.name.toList

theorem dot_mem_qualifiedName {name source : String} (h : source ≠ "") :
    '.' ∈ (qualifiedName name source).toList := by
  rw [qualifiedName, if_neg h, String.toList_append, String.toList_append]
  simp

section Projected

variable {py : Python} {row : Row} {expressions : List NamedExpression}

theorem mem_zip_of_evaluateAll {values : List SQLValue}
    (h : evaluateAll py row (expressions.map (·.expression)) = .ok values) :
    ∀ item ∈ expressions, ∃ value, item.expression.evaluate py row = .ok value ∧
      (item.name, value) ∈ (expressions.map (·.name)).zip values := by
  induction expressions generalizing values with
  | nil => exact fun item hitem => absurd hitem List.not_mem_nil
  | cons first rest ih =>
    obtain ⟨value, tail, hvalue, htail, rfl⟩ := evaluateAll_cons h
    refine List.forall_mem_cons.mpr ⟨⟨value, hvalue, List.mem_cons_self⟩, fun item hitem => ?_⟩
    obtain ⟨value', hvalue', hmem⟩ := ih htail item hitem
    exact ⟨value', hvalue', List.mem_cons_of_mem _ hmem⟩

/-- A projected row has the values of the items under their names. -/
theorem get?_projectRow {projected : Row} (hnodup : (expressions.map (·.name)).Nodup)
    (h : LocalExecutor.projectRow py expressions row = .ok projected) :
    ∀ item ∈ expressions, ∃ value, item.expression.evaluate py row = .ok value ∧
      projected.get? item.name = some value := by
  obtain ⟨values, hvalues, hprojected⟩ := ExceptState.bind_eq_ok h
  intro item hitem
  obtain ⟨value, hvalue, hmem⟩ := mem_zip_of_evaluateAll hvalues item hitem
  refine ⟨value, hvalue, ?_⟩
  cases hprojected
  have hlength : ((expressions.map (·.name)).zip values).map Prod.fst
      = expressions.map (·.name) := by
    refine List.map_fst_zip ?_
    rw [length_of_evaluateAll hvalues, List.length_map, List.length_map]
  exact Dict.get?_update_of_mem (by rwa [hlength]) hmem

theorem foundCarry_projectRow {schema : Schema} (hplain : Plain py expressions schema)
    {projected : Row} (h : LocalExecutor.projectRow py expressions row = .ok projected) :
    FoundCarry py row (projected.restrict schema.names) (aliases py expressions) := by
  have hnodup : (expressions.map (·.name)).Nodup := by
    refine List.Nodup.of_map py.casefold ?_
    rw [List.map_map]
    exact hplain.distinct
  have hkeys : ((expressions.map fun item => (py.casefold item.name, item.expression)).map
      Prod.fst).Nodup := by
    rw [List.map_map]
    exact hplain.distinct
  have hget : ∀ name, (projected.restrict schema.names).get? name
      = if name ∈ schema.names then some ((projected.get? name).getD .null) else none :=
    fun name => Row.get?_restrict _ _ _
  intro name source resultType found hfound value hvalue
  -- the qualified name of a column with a source is no name of an item
  have hqualified : source ≠ "" →
      (projected.restrict schema.names).get? (qualifiedName name source) = none := by
    intro hsource
    rw [hget, if_neg]
    intro hmem
    rw [hplain.names] at hmem
    obtain ⟨item, hitem, heq⟩ := List.mem_map.mp hmem
    exact hplain.undotted item hitem (heq ▸ dot_mem_qualifiedName hsource)
  have hread : (projected.restrict schema.names).get? name = some value := by
    rw [Expression.evaluate] at hvalue
    by_cases hsource : source = ""
    · rw [qualifiedName, if_pos hsource] at hvalue
      cases hname : (projected.restrict schema.names).get? name with
      | some v =>
        rw [hname] at hvalue
        cases hvalue
        rfl
      | none =>
        rw [hname, Row.getItem, hname] at hvalue
        cases hvalue
    · rw [hqualified hsource, Row.getItem] at hvalue
      cases hname : (projected.restrict schema.names).get? name with
      | some v =>
        rw [hname] at hvalue
        cases hvalue
        rfl
      | none =>
        rw [hname] at hvalue
        cases hvalue
  rw [hget] at hread
  obtain ⟨hmem, hread⟩ := Option.ite_none_right_eq_some.mp hread
  rw [hplain.names] at hmem
  obtain ⟨item, hitem, rfl⟩ := List.mem_map.mp hmem
  obtain ⟨v, hv, hprojected⟩ := get?_projectRow hnodup h item hitem
  have hitemFound : (aliases py expressions).get? (py.casefold item.name) = some item.expression :=
    Dict.get?_update_of_mem hkeys (List.mem_map.mpr ⟨item, hitem, rfl⟩)
  cases hfound.symm.trans hitemFound
  rw [hprojected] at hread
  cases hread
  exact hv

/-- Filtering what is projected gives what is projected of the rows that the new predicate
keeps. -/
theorem filterRows_projected {schema : Schema} (hplain : Plain py expressions schema)
    {predicate pushed : Expression}
    (hpushed : predicate.mapExpression (substitute py (aliases py expressions)) = .ok pushed)
    (hunread : Unread pushed.walk) {rows projected kept : List Row}
    (hprojected : rows.mapM (LocalExecutor.projectRow py expressions) = .ok projected)
    (hkept : filterRows py predicate (projected.map (Row.restrict schema.names)) = .ok kept) :
    ∃ selected outcome, filterRows py pushed rows = .ok selected ∧
      selected.mapM (LocalExecutor.projectRow py expressions) = .ok outcome ∧
      kept = outcome.map (Row.restrict schema.names) := by
  induction rows generalizing projected kept with
  | nil =>
    cases hprojected
    cases hkept
    exact ⟨[], [], rfl, rfl, rfl⟩
  | cons row rows ih =>
    obtain ⟨first, rest, hfirst, hrest, rfl⟩ := ExceptState.mapM_cons_eq_ok_iff.mp hprojected
    rw [List.map_cons, filterRows] at hkept
    obtain ⟨value, hvalue, hkept⟩ := ExceptState.bind_eq_ok hkept
    obtain ⟨keptRest, hkeptRest, hkept⟩ := ExceptState.bind_eq_ok hkept
    obtain ⟨selected, outcome, hselected, houtcome, rfl⟩ := ih hrest hkeptRest
    have hpushedValue : pushed.evaluate py row = .ok value :=
      carries_substituted (foundCarry_projectRow hplain hfirst) hpushed hunread value hvalue
    rw [filterRows, hpushedValue, hselected]
    by_cases htrue : value = .bool true
    · rw [if_pos htrue] at hkept
      cases hkept
      refine ⟨row :: selected, first :: outcome, ?_, ?_, rfl⟩
      · rw [ExceptState.ok_bind, ExceptState.ok_bind, if_pos htrue]
        rfl
      · exact ExceptState.mapM_cons_eq_ok_iff.mpr ⟨first, outcome, hfirst, houtcome, rfl⟩
    · rw [if_neg htrue] at hkept
      cases hkept
      refine ⟨selected, outcome, ?_, houtcome, rfl⟩
      rw [ExceptState.ok_bind, ExceptState.ok_bind, if_neg htrue]
      rfl

end Projected

/-! ### Rewritten plans -/

section Plans

variable {py : Python} {batchSize : ℕ}
  {scan : (tableName tableAlias : String) → Schema → Except PyError (List Row)}

/-- What `ProjectOperator` makes of rows where the projection has a field. -/
theorem projectRows_eq_ok_iff {expressions : List NamedExpression} {names : List String}
    (hnames : names ≠ []) {rows projected : List Row} :
    LocalExecutor.projectRows py expressions names rows = .ok projected ↔
      ∃ outcome, rows.mapM (LocalExecutor.projectRow py expressions) = .ok outcome ∧
        projected = outcome.map (Row.restrict names) := by
  rw [LocalExecutor.projectRows, ExceptState.bind_eq_ok_iff]
  refine exists_congr fun outcome => and_congr_right fun _ => ?_
  rw [RecordBatch.fromPylist_rows hnames]
  exact ⟨fun h => by cases h; rfl, fun h => by rw [h]; rfl⟩

theorem unread_walk {expression : Expression} (haggregate : expression.containsAggregate = false)
    (hwindow : expression.containsWindow = false) : Unread expression.walk := fun item hitem =>
  ⟨Bool.eq_false_iff.mpr (List.any_eq_false.mp haggregate item hitem),
    Bool.eq_false_iff.mpr (List.any_eq_false.mp hwindow item hitem)⟩

/-- What the rule rewrites, and into what. -/
theorem apply_cases {plan plan' : LogicalPlan} (h : apply py plan = .ok (some plan')) :
    ∃ nodeId projectId input expressions projectSchema predicate schema phase pushed,
      plan = .filter nodeId (.project projectId input expressions projectSchema) predicate schema
        phase ∧
      predicate.mapExpression (substitute py (aliases py expressions)) = .ok pushed ∧
      Unread pushed.walk ∧
      plan' = .project projectId (.filter nodeId input pushed input.outputSchema phase) expressions
        projectSchema := by
  unfold apply at h
  split at h
  · next nodeId projectId input expressions projectSchema predicate schema phase =>
    dsimp only at h
    split at h
    · cases h
    obtain ⟨pushed, hpushed, h⟩ := ExceptState.bind_eq_ok h
    split at h
    · cases h
    next hread =>
    rw [Bool.not_eq_true, Bool.or_eq_false_iff] at hread
    cases h
    exact ⟨_, _, _, _, _, _, _, _, pushed, rfl, hpushed, unread_walk hread.1 hread.2, rfl⟩
  · cases h

/-- The rewritten plan has the rows of the plan. -/
theorem keeps_apply {plan plan' : LogicalPlan} (h : apply py plan = .ok (some plan'))
    (hplain : ∀ projectId input expressions schema,
      plan.children = [.project projectId input expressions schema] →
        Plain py expressions schema) :
    LocalExecutor.Keeps py (LocalExecutor.database py batchSize scan) plan plan' := by
  obtain ⟨nodeId, projectId, input, expressions, projectSchema, predicate, schema, phase, pushed,
    rfl, hpushed, hunread, rfl⟩ := apply_cases h
  have hproject := hplain _ _ _ _ rfl
  have hnames : projectSchema.names ≠ [] := by
    rw [hproject.names]
    exact fun hnil => hproject.ne_nil (List.map_eq_nil_iff.mp hnil)
  refine ⟨rfl, rfl, fun rows hrows => ?_⟩
  obtain ⟨projected, hprojected, hkept⟩ := ExceptState.bind_eq_ok hrows
  obtain ⟨inputRows, hinput, hprojected⟩ := ExceptState.bind_eq_ok hprojected
  obtain ⟨outcome, houtcome, rfl⟩ := (projectRows_eq_ok_iff hnames).mp hprojected
  obtain ⟨selected, kept, hselected, hkeptRows, rfl⟩ :=
    filterRows_projected hproject hpushed hunread houtcome hkept
  show ((input.rows py _ >>= filterRows py pushed) >>= _) = _
  rw [hinput, ExceptState.ok_bind, hselected, ExceptState.ok_bind]
  exact (projectRows_eq_ok_iff hnames).mpr ⟨kept, hkeptRows, rfl⟩

end Plans

end PredicatePushdownProject

section Limits

variable {py : Python} {batchSize : ℕ}
  {scan : (tableName tableAlias : String) → Schema → Except PyError (List Row)}

theorem LimitPushdownProject.apply_cases {plan plan' : LogicalPlan}
    (h : LimitPushdownProject.apply plan = some plan') :
    ∃ nodeId projectId input expressions projectSchema count schema,
      plan = .limit nodeId (.project projectId input expressions projectSchema) count schema ∧
      plan' = .project projectId (.limit nodeId input count input.outputSchema) expressions
        projectSchema := by
  unfold LimitPushdownProject.apply at h
  split at h
  · cases h
    exact ⟨_, _, _, _, _, _, _, rfl, rfl⟩
  · cases h

/-- The first rows of a projection are what is projected of the first rows. -/
theorem LimitPushdownProject.keeps_apply {plan plan' : LogicalPlan}
    (h : LimitPushdownProject.apply plan = some plan') :
    LocalExecutor.Keeps py (LocalExecutor.database py batchSize scan) plan plan' := by
  obtain ⟨nodeId, projectId, input, expressions, projectSchema, count, schema, rfl, rfl⟩ :=
    LimitPushdownProject.apply_cases h
  refine ⟨rfl, rfl, fun rows hrows => ?_⟩
  obtain ⟨projected, hprojected, hlimited⟩ := ExceptState.bind_eq_ok hrows
  obtain ⟨inputRows, hinput, hprojected⟩ := ExceptState.bind_eq_ok hprojected
  obtain ⟨outcome, houtcome, hprojected⟩ := ExceptState.bind_eq_ok hprojected
  cases hprojected
  cases hlimited
  have htake : (inputRows.take count).mapM (LocalExecutor.projectRow py expressions)
      = .ok (outcome.take count) := by
    rw [ExceptState.mapM_eq_ok_iff] at houtcome ⊢
    exact List.forall₂_take count houtcome
  show ((input.rows py _ >>= fun rows => Except.ok (rows.take count)) >>= _) = _
  rw [hinput, ExceptState.ok_bind, ExceptState.ok_bind]
  show LocalExecutor.projectRows py expressions projectSchema.names _ = _
  rw [LocalExecutor.projectRows, htake, ExceptState.ok_bind]
  refine congrArg Except.ok ?_
  by_cases hnames : projectSchema.names = []
  · rw [RecordBatch.rows_of_nil _ hnames, RecordBatch.rows_of_nil _ hnames, List.take_nil]
  · rw [RecordBatch.fromPylist_rows hnames, RecordBatch.fromPylist_rows hnames, List.map_take]

theorem LimitJoinInputHint.apply_cases {plan plan' : LogicalPlan}
    (h : LimitJoinInputHint.apply plan = some plan') :
    ∃ nodeId joinId left right joinType condition joinSchema inputLimit buildSide count schema,
      plan = .limit nodeId (.join joinId left right joinType condition joinSchema inputLimit
        buildSide) count schema ∧
      plan' = .limit nodeId (.join joinId left right joinType condition joinSchema (some count)
        buildSide) count schema := by
  unfold LimitJoinInputHint.apply at h
  split at h
  · split at h
    · cases h
    · cases h
      exact ⟨_, _, _, _, _, _, _, _, _, _, _, rfl, rfl⟩
  · cases h

/-- The hint changes no row. -/
theorem LimitJoinInputHint.keeps_apply {plan plan' : LogicalPlan}
    (h : LimitJoinInputHint.apply plan = some plan') :
    LocalExecutor.Keeps py (LocalExecutor.database py batchSize scan) plan plan' := by
  obtain ⟨nodeId, joinId, left, right, joinType, condition, joinSchema, inputLimit, buildSide,
    count, schema, rfl, rfl⟩ := LimitJoinInputHint.apply_cases h
  exact ((LocalExecutor.Keeps.refl left).join (LocalExecutor.Keeps.refl right) joinType condition
    inputLimit (some count) buildSide).limit count

end Limits

end DistributedSql

/-
The keys of a join against its condition (`_hash_join_keys` in `execution/engine.py`).

The two sides of an equality become keys of the input that their columns belong to.  The
columns are collected by `_expression_sources`, which does not look into the branches of a
CASE, so that a key may come to a column that the rows of its input do not have.

Main results:
* `splitEqualities_true_iff` — a condition of equalities is true where all of them are;
* `decomposes_iff` — the keys decide the condition, and find their columns, exactly where
  they come to no column of the other input;
* `staysWithin_of_noCase` — which keys without a CASE never do;
* `case_key_strays` — and one with a CASE may.
-/
import DistributedSql.JoinKeys
import DistributedSql.FromClause

namespace DistributedSql

/-! ### Sides -/

/-- The evaluation on the row finds every column that it comes to. -/
def FindsColumns (py : Python) (row : Row) (key : Expression) : Prop :=
  ∀ name source type, .column name source type ∈ key.reads py row →
    Expression.qualifiedName name source ∈ row.names

/-- The keys of a pair of rows are without NULL and equal exactly where the condition is true
on the merged row, and miss no column. -/
structure Decomposes (py : Python) (condition : Expression) (pairs : List (Expression × Expression))
    (left right : Row) : Prop where
  left_finds : ∀ pair ∈ pairs, FindsColumns py left pair.1
  right_finds : ∀ pair ∈ pairs, FindsColumns py right pair.2
  true_iff : condition.evaluate py (left.union right) = .ok (.bool true) ↔
    ∃ leftKey rightKey, joinKey py (pairs.map Prod.fst) left = .ok (some leftKey) ∧
      joinKey py (pairs.map Prod.snd) right = .ok (some rightKey) ∧
      tupleEq leftKey rightKey = true

/-- The evaluation on the row comes to columns of these sources only. -/
def StaysWithin (py : Python) (sources : List String) (row : Row) (key : Expression) : Prop :=
  ∀ name source type, .column name source type ∈ key.reads py row → py.casefold source ∈ sources

/-! ### Equalities -/

variable {py : Python}

theorem SQLValue.eq_comm_iff {left right : SQLValue} :
    left.eq right = true ↔ right.eq left = true := by
  have hswap : ∀ {left right : SQLValue}, left.eq right = true → right.eq left = true := by
    intro left right h
    obtain ⟨rfl, rfl⟩ | h := SQLValue.eq_iff_order.mp h
    · rfl
    · exact SQLValue.eq_iff_order.mpr (Or.inr (SQLValue.order_swap "==" h))
  exact ⟨hswap, hswap⟩

/-- Two expressions have values on two rows that are not NULL and are equal. -/
def Matches (py : Python) (left right : Row) (pair : Expression × Expression) : Prop :=
  ∃ value value', pair.1.evaluate py left = .ok value ∧ pair.2.evaluate py right = .ok value' ∧
    value ≠ .null ∧ value' ≠ .null ∧ value.eq value' = true

theorem Matches.swap {left right : Row} {pair : Expression × Expression}
    (h : Matches py left right pair) : Matches py right left pair.swap := by
  obtain ⟨value, value', hleft, hright, hne, hne', heq⟩ := h
  exact ⟨value', value, hright, hleft, hne', hne, SQLValue.eq_comm_iff.mp heq⟩

theorem evaluate_equal_true_iff {row : Row} {left right : Expression} {type : TypeInfo} :
    (Expression.binary .equal left right type).evaluate py row = .ok (.bool true) ↔
      Matches py row row (left, right) := by
  rw [Expression.evaluate]
  constructor
  · intro h
    obtain ⟨value, hleft, h⟩ := ExceptState.bind_eq_ok h
    obtain ⟨value', hright, h⟩ := ExceptState.bind_eq_ok h
    unfold binaryValue at h
    dsimp only at h
    split at h
    · cases h
    next hnull =>
      rw [not_or] at hnull
      exact ⟨value, value', hleft, hright, hnull.1, hnull.2,
        SQLValue.bool.inj (Except.ok.inj h)⟩
  · rintro ⟨value, value', hleft, hright, hne, hne', heq⟩
    rw [show left.evaluate py row = .ok value from hleft,
      show right.evaluate py row = .ok value' from hright, ExceptState.ok_bind, ExceptState.ok_bind]
    unfold binaryValue
    dsimp only
    rw [if_neg (not_or.mpr ⟨hne, hne'⟩), heq]

/-- An equality is true, false or NULL where it has a value. -/
private theorem truthValued_equal {row : Row} {left right : Expression} {type : TypeInfo}
    {value : SQLValue} (h : (Expression.binary .equal left right type).evaluate py row = .ok value) :
    (Expression.binary .equal left right type).TruthValued py row := by
  unfold Expression.TruthValued
  rw [h]
  rw [Expression.evaluate] at h
  obtain ⟨_, -, h⟩ := ExceptState.bind_eq_ok h
  obtain ⟨_, -, h⟩ := ExceptState.bind_eq_ok h
  unfold binaryValue at h
  dsimp only at h
  split at h
  · exact Or.inl h.symm
  · exact Or.inr ⟨_, h.symm⟩

/-- Induction over the equalities of a condition. -/
theorem splitEqualities_induction {motive : Expression → List (Expression × Expression) → Prop}
    (equal : ∀ left right type, motive (.binary .equal left right type) [(left, right)])
    (and : ∀ left right type leftEqualities rightEqualities, motive left leftEqualities →
      motive right rightEqualities →
      motive (.binary .and left right type) (leftEqualities ++ rightEqualities))
    {condition : Expression} {equalities : List (Expression × Expression)}
    (h : splitEqualities condition = .ok equalities) : motive condition equalities := by
  induction condition using splitEqualities.induct generalizing equalities with
  | case1 left right type ihl ihr =>
    obtain ⟨leftEqualities, hl, h⟩ := ExceptState.bind_eq_ok h
    obtain ⟨rightEqualities, hr, h⟩ := ExceptState.bind_eq_ok h
    cases h
    exact and left right type leftEqualities rightEqualities (ihl hl) (ihr hr)
  | case2 left right type =>
    cases h
    exact equal left right type
  | case3 condition hand heq =>
    rw [splitEqualities.eq_def] at h
    split at h
    · next left right type => exact absurd rfl (hand left right type)
    · next left right type => exact absurd rfl (heq left right type)
    · cases h

/-- A condition of equalities is true where all of them are. -/
theorem splitEqualities_true_iff {row : Row} {condition : Expression}
    {equalities : List (Expression × Expression)}
    (hsplit : splitEqualities condition = .ok equalities) :
    condition.evaluate py row = .ok (.bool true) ↔
      ∀ equality ∈ equalities, Matches py row row equality := by
  -- both sides of an AND are true, false or NULL, so that only TRUE AND TRUE is true
  refine (splitEqualities_induction (motive := fun condition equalities =>
    (∀ value, condition.evaluate py row = .ok value → condition.TruthValued py row) ∧
      (condition.evaluate py row = .ok (.bool true) ↔
        ∀ equality ∈ equalities, Matches py row row equality)) ?_ ?_ hsplit).2
  · intro left right type
    rw [List.forall_mem_singleton]
    exact ⟨fun value => truthValued_equal, evaluate_equal_true_iff⟩
  · rintro left right type _ _ ⟨hvl, ihl⟩ ⟨hvr, ihr⟩
    refine ⟨fun value h => ?_, ?_⟩
    · obtain ⟨⟨_, hleft⟩, _, hright⟩ := Expression.and_evaluates h
      exact (hvl _ hleft).and (hvr _ hright) type
    · rw [List.forall_mem_append, ← ihl, ← ihr]
      constructor
      · intro h
        obtain ⟨⟨_, hleft⟩, _, hright⟩ := Expression.and_evaluates h
        have htrue := (Expression.isTrue_and (hvl _ hleft) (hvr _ hright) type).mp
          (Expression.isTrue_iff.mpr h)
        exact ⟨Expression.isTrue_iff.mp htrue.1, Expression.isTrue_iff.mp htrue.2⟩
      · rintro ⟨hleft, hright⟩
        rw [Expression.evaluate_and, hleft, hright]
        rfl

theorem walk_splitEqualities {condition : Expression} {equalities : List (Expression × Expression)}
    (hsplit : splitEqualities condition = .ok equalities) :
    ∀ equality ∈ equalities,
      equality.1.walk ⊆ condition.walk ∧ equality.2.walk ⊆ condition.walk := by
  refine splitEqualities_induction (motive := fun condition equalities =>
    ∀ equality ∈ equalities,
      equality.1.walk ⊆ condition.walk ∧ equality.2.walk ⊆ condition.walk) ?_ ?_ hsplit
  · intro left right type
    rw [List.forall_mem_singleton, Expression.walk]
    exact ⟨List.subset_cons_of_subset _ (List.subset_append_left left.walk right.walk),
      List.subset_cons_of_subset _ (List.subset_append_right left.walk right.walk)⟩
  · intro left right type _ _ ihl ihr
    rw [List.forall_mem_append, Expression.walk]
    have hleft := List.subset_cons_of_subset (Expression.binary .and left right type)
      (List.subset_append_left left.walk right.walk)
    have hright := List.subset_cons_of_subset (Expression.binary .and left right type)
      (List.subset_append_right left.walk right.walk)
    exact ⟨fun equality h => ⟨List.Subset.trans (ihl equality h).1 hleft,
        List.Subset.trans (ihl equality h).2 hleft⟩,
      fun equality h => ⟨List.Subset.trans (ihr equality h).1 hright,
        List.Subset.trans (ihr equality h).2 hright⟩⟩

/-! ### Keys -/

theorem joinKey_eq_some_iff {row : Row} {keys : List Expression} {values : List SQLValue} :
    joinKey py keys row = .ok (some values) ↔
      Expression.evaluateAll py row keys = .ok values ∧ ∀ value ∈ values, value ≠ .null := by
  have hnull : ∀ values : List SQLValue,
      values.any SQLValue.isNull = true ↔ ¬∀ value ∈ values, value ≠ .null := by
    intro values
    simp [List.any_eq_true, SQLValue.isNull_iff]
  rw [joinKey]
  constructor
  · intro h
    obtain ⟨values', hvalues, h⟩ := ExceptState.bind_eq_ok h
    split at h
    · cases h
    next hany =>
      cases h
      exact ⟨hvalues, not_not.mp (mt (hnull values).mpr hany)⟩
  · rintro ⟨hvalues, hne⟩
    rw [hvalues, ExceptState.ok_bind, if_neg fun hany => (hnull values).mp hany hne]
    rfl

/-- Two keys are there and equal exactly where all their pairs match. -/
theorem joinKeys_match_iff {left right : Row} {pairs : List (Expression × Expression)} :
    (∃ leftKey rightKey, joinKey py (pairs.map Prod.fst) left = .ok (some leftKey) ∧
      joinKey py (pairs.map Prod.snd) right = .ok (some rightKey) ∧
      tupleEq leftKey rightKey = true) ↔ ∀ pair ∈ pairs, Matches py left right pair := by
  simp only [joinKey_eq_some_iff]
  induction pairs with
  | nil =>
    exact iff_of_true ⟨[], [], ⟨rfl, fun _ h => absurd h List.not_mem_nil⟩,
      ⟨rfl, fun _ h => absurd h List.not_mem_nil⟩, rfl⟩ fun _ h => absurd h List.not_mem_nil
  | cons pair rest ih =>
    rw [List.forall_mem_cons, ← ih, List.map_cons, List.map_cons]
    constructor
    · rintro ⟨leftKey, rightKey, ⟨hleft, hlne⟩, ⟨hright, hrne⟩, heq⟩
      obtain ⟨value, leftRest, hvalue, hleftRest, rfl⟩ := Expression.evaluateAll_cons hleft
      obtain ⟨value', rightRest, hvalue', hrightRest, rfl⟩ := Expression.evaluateAll_cons hright
      rw [List.forall_mem_cons] at hlne hrne
      rw [tupleEq, Bool.and_eq_true] at heq
      exact ⟨⟨value, value', hvalue, hvalue', hlne.1, hrne.1, heq.1⟩,
        leftRest, rightRest, ⟨hleftRest, hlne.2⟩, ⟨hrightRest, hrne.2⟩, heq.2⟩
    · rintro ⟨⟨value, value', hvalue, hvalue', hne, hne', heq⟩,
        leftRest, rightRest, ⟨hleft, hlne⟩, ⟨hright, hrne⟩, hrest⟩
      refine ⟨value :: leftRest, value' :: rightRest, ⟨?_, ?_⟩, ⟨?_, ?_⟩, ?_⟩
      · rw [Expression.evaluateAll, hvalue, hleft]
        rfl
      · exact List.forall_mem_cons.mpr ⟨hne, hlne⟩
      · rw [Expression.evaluateAll, hvalue', hright]
        rfl
      · exact List.forall_mem_cons.mpr ⟨hne', hrne⟩
      · rw [tupleEq, heq, hrest]
        rfl

/-- The keys of a condition match where its equalities do. -/
theorem keys_match_iff {row : Row} {leftSources rightSources : List String}
    {equalities pairs : List (Expression × Expression)}
    (h : equalities.mapM (hashJoinKey py leftSources rightSources) = .ok pairs) :
    (∀ equality ∈ equalities, Matches py row row equality) ↔
      ∀ pair ∈ pairs, Matches py row row pair := by
  have hall := ExceptState.forall₂_of_mapM_eq_ok h
  clear h
  induction hall with
  | nil => exact Iff.rfl
  | cons hpair _ ih =>
    rw [List.forall_mem_cons, List.forall_mem_cons]
    refine and_congr ?_ ih
    rcases (hashJoinKey_cases hpair).1 with rfl | rfl
    · exact Iff.rfl
    · exact ⟨Matches.swap, Matches.swap⟩

theorem walk_hashJoinKeys {leftSources rightSources : List String} {condition : Expression}
    {pairs : List (Expression × Expression)}
    (h : hashJoinKeys py leftSources rightSources condition = .ok pairs) :
    ∀ pair ∈ pairs, pair.1.walk ⊆ condition.walk ∧ pair.2.walk ⊆ condition.walk := by
  intro pair hpair
  obtain ⟨equalities, hsplit, hpairs⟩ := ExceptState.bind_eq_ok h
  obtain ⟨equality, hequality, hkey⟩ := ExceptState.mem_of_mapM_eq_ok hpairs hpair
  have hsides := walk_splitEqualities hsplit equality hequality
  rcases (hashJoinKey_cases hkey).1 with rfl | rfl
  · exact hsides
  · exact hsides.symm

/-- Without aggregates and windows, an expression evaluates alike on a row that gives the
columns it comes to the same values. -/
theorem evaluate_eq_of_columns {row row' : Row} {key : Expression}
    (hplain : ∀ item ∈ key.walk, item.isAggregate = false ∧ item.isWindow = false)
    (h : ∀ name source type, .column name source type ∈ key.reads py row → ∃ value,
      row.get? (Expression.qualifiedName name source) = some value ∧
        row'.get? (Expression.qualifiedName name source) = some value) :
    key.evaluate py row' = key.evaluate py row := by
  refine (Expression.evaluate_congr_reads fun item hitem => ?_).1
  have hread := Expression.isReadOf_of_mem_reads hitem
  obtain ⟨haggregate, hwindow⟩ := hplain item hread.mem_walk
  cases item with
  | column name source type =>
    obtain ⟨value, hget, hget'⟩ := h name source type hitem
    rw [Expression.evaluate_column hget, Expression.evaluate_column hget']
  | aggregateFunction => cases haggregate
  | windowFunction => cases hwindow
  | _ => cases hread.isReference

/-! ### The inputs of a join -/

section

variable {first : Source} {joins : List JoinClause} {state next : FromState} {clause : JoinClause}

theorem qualifiedName_column {source : Source} {field : SchemaField} {name alias_ : String}
    {type : TypeInfo} (h : Expression.column name alias_ type = source.column field) :
    alias_ = source.tableAlias ∧ Expression.qualifiedName name alias_ = source.fieldName field := by
  obtain ⟨rfl, rfl, -⟩ := Expression.column.inj h
  exact ⟨rfl, if_neg source.alias_ne⟩

/-- The columns of a join's condition that have a source of the left input are those that the
rows of the left input have. -/
theorem BoundJoin.left_iff (h : BoundJoin py state clause next) {owner : Source}
    (howner : owner ∈ next.scope) {field : SchemaField} (hfield : field ∈ owner.schema) :
    py.casefold owner.tableAlias ∈ state.scope.map (fun source => py.casefold source.tableAlias) ↔
      owner.fieldName field ∈ scopeNames state.scope := by
  have hnames := h.names_nodup
  have hfresh := h.fresh
  rw [h.scope_eq] at howner hnames
  rw [scopeNames, List.flatMap_append, List.flatMap_singleton] at hnames
  have hmem : owner.fieldName field ∈ owner.names := List.mem_map_of_mem hfield
  rcases List.mem_append.mp howner with howner | howner
  · exact iff_of_true (List.mem_map_of_mem howner) (List.mem_flatMap.mpr ⟨owner, howner, hmem⟩)
  · rw [List.mem_singleton.mp howner] at hmem ⊢
    exact iff_of_false hfresh fun hleft => (List.disjoint_of_nodup_append hnames) hleft hmem

/-- And so for the right input. -/
theorem BoundJoin.right_iff (h : BoundJoin py state clause next) {owner : Source}
    (howner : owner ∈ next.scope) {field : SchemaField} (hfield : field ∈ owner.schema) :
    py.casefold owner.tableAlias ∈ [py.casefold clause.source.tableAlias] ↔
      owner.fieldName field ∈ clause.source.names := by
  have hnames := h.names_nodup
  have hfresh := h.fresh
  rw [h.scope_eq] at howner hnames
  rw [scopeNames, List.flatMap_append, List.flatMap_singleton] at hnames
  have hmem : owner.fieldName field ∈ owner.names := List.mem_map_of_mem hfield
  rw [List.mem_singleton]
  rcases List.mem_append.mp howner with howner | howner
  · refine iff_of_false (fun heq => hfresh ?_) fun hright =>
      (List.disjoint_of_nodup_append hnames) (List.mem_flatMap.mpr ⟨owner, howner, hmem⟩) hright
    rw [← heq]
    exact List.mem_map_of_mem howner
  · rw [List.mem_singleton.mp howner] at hmem ⊢
    exact iff_of_true rfl hmem

/-- The columns that a key of a bound condition comes to. -/
private theorem column_of_reads {scope : List Source} {on : SqlExpression} {condition : Expression}
    (hcondition : bindExpression py scope [] on = .ok condition) {key : Expression}
    (hkey : key.walk ⊆ condition.walk) {row : Row} {name source : String} {type : TypeInfo}
    (hread : .column name source type ∈ key.reads py row) :
    ∃ owner ∈ scope, ∃ field ∈ owner.schema, source = owner.tableAlias ∧
      Expression.qualifiedName name source = owner.fieldName field := by
  obtain ⟨owner, howner, field, hfield, hcolumn⟩ := bindExpression_resolves hcondition
    (hkey (Expression.isReadOf_of_mem_reads hread).mem_walk)
  exact ⟨owner, howner, field, hfield, qualifiedName_column hcolumn⟩

/-- A key finds the columns it comes to exactly if they are of its own side's sources, given
that this is so of every field in scope. -/
private theorem findsColumns_iff {scope : List Source} {on : SqlExpression} {condition : Expression}
    (hcondition : bindExpression py scope [] on = .ok condition) {key : Expression}
    (hkey : key.walk ⊆ condition.walk) {row : Row} {sources : List String}
    (hside : ∀ owner ∈ scope, ∀ field ∈ owner.schema,
      (py.casefold owner.tableAlias ∈ sources ↔ owner.fieldName field ∈ row.names)) :
    FindsColumns py row key ↔ StaysWithin py sources row key := by
  refine forall_congr' fun name => forall_congr' fun source => forall_congr' fun type =>
    forall_congr' fun hread => ?_
  obtain ⟨owner, howner, field, hfield, rfl, hname⟩ := column_of_reads hcondition hkey hread
  rw [hname]
  exact (hside owner howner field hfield).symm

/-- The keys of a join decide its condition on a pair of rows, and find their columns, exactly
where they come to no column of the other input. -/
theorem decomposes_iff (hfrom : bindFrom py first joins = .ok state)
    (hjoin : bindJoin py state clause = .ok next) {nodeId : String} {left right : LogicalPlan}
    {joinType : JoinType} {condition : Expression} {schema : Schema} {inputLimit : Option ℕ}
    {buildSide : Side} (hplan : next.plan
      = .join nodeId left right joinType condition schema inputLimit buildSide)
    {pairs : List (Expression × Expression)}
    (hkeys : hashJoinKeys py (left.sources py) (right.sources py) condition = .ok pairs)
    {leftRow rightRow : Row} (hleftRow : leftRow.names = left.runtimeNames py)
    (hrightRow : rightRow.names = right.runtimeNames py) :
    Decomposes py condition pairs leftRow rightRow ↔
      ∀ pair ∈ pairs, StaysWithin py (left.sources py) leftRow pair.1 ∧
        StaysWithin py (right.sources py) rightRow pair.2 := by
  have hbound := BoundJoin.of_bindJoin hjoin
  have hstate := BoundFrom.of_bindFrom hfrom
  obtain ⟨_, scanId, condition', hplan', hcondition, -, hplain⟩ := hbound.plan_eq
  rw [hplan] at hplan'
  obtain ⟨-, rfl, rfl, -, rfl, -, -, -⟩ := LogicalPlan.join.inj hplan'
  rw [hstate.runtimeNames] at hleftRow
  change rightRow.names = clause.source.names at hrightRow
  rw [hstate.sources] at hkeys ⊢
  change hashJoinKeys py _ [py.casefold clause.source.tableAlias] condition = .ok pairs at hkeys
  change _ ↔ ∀ pair ∈ pairs, _ ∧ StaysWithin py [py.casefold clause.source.tableAlias] _ _
  obtain ⟨equalities, hsplit, hpairs⟩ := ExceptState.bind_eq_ok hkeys
  have hwalk := walk_hashJoinKeys hkeys
  have hreferences : ∀ item ∈ condition.walk, item.isAggregate = false ∧ item.isWindow = false := by
    obtain ⟨haggregate, hwindow⟩ := Bool.or_eq_false_iff.mp hplain
    exact fun item hitem => ⟨Bool.eq_false_iff.mpr (List.any_eq_false.mp haggregate item hitem),
      Bool.eq_false_iff.mpr (List.any_eq_false.mp hwindow item hitem)⟩
  have hleft : ∀ pair ∈ pairs, (FindsColumns py leftRow pair.1 ↔ _) := fun pair hpair =>
    findsColumns_iff hcondition (hwalk pair hpair).1 fun owner howner field hfield => by
      rw [hleftRow]
      exact hbound.left_iff howner hfield
  have hright : ∀ pair ∈ pairs, (FindsColumns py rightRow pair.2 ↔ _) := fun pair hpair =>
    findsColumns_iff hcondition (hwalk pair hpair).2 fun owner howner field hfield => by
      rw [hrightRow]
      exact hbound.right_iff howner hfield
  have hdisjoint : ∀ name ∈ leftRow.names, name ∉ rightRow.names := by
    have hnames := hbound.names_nodup
    rw [hbound.scope_eq, scopeNames, List.flatMap_append, List.flatMap_singleton] at hnames
    rw [hleftRow, hrightRow]
    exact fun name hl hr => List.disjoint_of_nodup_append hnames hl hr
  constructor
  · intro h pair hpair
    exact ⟨(hleft pair hpair).mp (h.left_finds pair hpair),
      (hright pair hpair).mp (h.right_finds pair hpair)⟩
  · intro h
    have hfinds : ∀ pair ∈ pairs,
        FindsColumns py leftRow pair.1 ∧ FindsColumns py rightRow pair.2 := fun pair hpair =>
      ⟨(hleft pair hpair).mpr (h pair hpair).1, (hright pair hpair).mpr (h pair hpair).2⟩
    refine ⟨fun pair hpair => (hfinds pair hpair).1, fun pair hpair => (hfinds pair hpair).2, ?_⟩
    rw [splitEqualities_true_iff hsplit, keys_match_iff hpairs, joinKeys_match_iff]
    refine forall_congr' fun pair => forall_congr' fun hpair => ?_
    obtain ⟨hwl, hwr⟩ := hwalk pair hpair
    obtain ⟨hfl, hfr⟩ := hfinds pair hpair
    -- each key reads on the merged row what it reads on its own
    have hl : pair.1.evaluate py (leftRow.union rightRow) = pair.1.evaluate py leftRow := by
      refine evaluate_eq_of_columns (fun item hitem => hreferences item (hwl hitem)) ?_
      intro name source type hread
      have hmem := hfl name source type hread
      obtain ⟨value, hvalue⟩ := Option.isSome_iff_exists.mp (Row.get?_isSome.mpr hmem)
      refine ⟨value, hvalue, ?_⟩
      rw [Row.get?_union, Row.get?_eq_none.mpr (hdisjoint _ hmem), Option.none_or, hvalue]
    have hr : pair.2.evaluate py (leftRow.union rightRow) = pair.2.evaluate py rightRow := by
      refine evaluate_eq_of_columns (fun item hitem => hreferences item (hwr hitem)) ?_
      intro name source type hread
      obtain ⟨value, hvalue⟩ := Option.isSome_iff_exists.mp
        (Row.get?_isSome.mpr (hfr name source type hread))
      refine ⟨value, hvalue, ?_⟩
      rw [Row.get?_union, hvalue, Option.some_or]
    unfold Matches
    rw [hl, hr]

end

/-! ### Keys without a CASE -/

def Expression.isCase : Expression → Bool
  | .case _ _ _ => true
  | _ => false

theorem fieldSourcesAll_eq (expressions : List Expression) :
    Expression.fieldSourcesAll py expressions = expressions.flatMap (Expression.fieldSources py) := by
  induction expressions with
  | nil => rfl
  | cons expression rest ih => rw [Expression.fieldSourcesAll, ih, List.flatMap_cons]

/-- Of the children, `_expression_sources` leaves out the branches of a CASE. -/
theorem fieldSources_eq_children {expression : Expression} (hcase : expression.isCase = false)
    (hcolumn : expression.isColumn = false) :
    expression.fieldSources py = expression.children.flatMap (Expression.fieldSources py) := by
  cases expression with
  | column => cases hcolumn
  | case => cases hcase
  | _ =>
    simp only [Expression.fieldSources, Expression.children, fieldSourcesAll_eq, List.flatMap_nil,
      List.flatMap_cons, List.append_nil, List.append_assoc]

/-- Without a CASE, `_expression_sources` has the source of every column. -/
theorem sources_subset_fieldSources {expression : Expression}
    (h : ∀ item ∈ expression.walk, item.isCase = false) {name source : String} {type : TypeInfo}
    (hcolumn : .column name source type ∈ expression.walk) :
    py.casefold source ∈ expression.fieldSources py := by
  induction expression using Expression.children_induction with
  | h expression ih =>
    rw [Expression.walk_eq, List.forall_mem_cons, List.forall_mem_flatMap] at h
    rw [Expression.walk_eq, List.mem_cons, List.mem_flatMap] at hcolumn
    rcases hcolumn with rfl | ⟨child, hchild, hcolumn⟩
    · exact List.mem_cons_self
    · have hself : expression.isColumn = false := by
        cases expression with
        | column => exact absurd hchild List.not_mem_nil
        | _ => rfl
      rw [fieldSources_eq_children h.1 hself, List.mem_flatMap]
      exact ⟨child, hchild, ih child hchild (h.2 child hchild) hcolumn⟩

/-- Accepted keys without a CASE come to no column of the other input. -/
theorem staysWithin_of_noCase {leftSources rightSources : List String} {condition : Expression}
    {pairs : List (Expression × Expression)}
    (h : hashJoinKeys py leftSources rightSources condition = .ok pairs)
    (hcase : ∀ item ∈ condition.walk, item.isCase = false) (leftRow rightRow : Row) :
    ∀ pair ∈ pairs, StaysWithin py leftSources leftRow pair.1 ∧
      StaysWithin py rightSources rightRow pair.2 := by
  intro pair hpair
  obtain ⟨hleft, hright⟩ := walk_hashJoinKeys h pair hpair
  obtain ⟨equalities, -, hpairs⟩ := ExceptState.bind_eq_ok h
  obtain ⟨equality, -, hkey⟩ := ExceptState.mem_of_mapM_eq_ok hpairs hpair
  obtain ⟨-, hleftSources, hrightSources⟩ := hashJoinKey_cases hkey
  refine ⟨fun name source type hread => hleftSources ?_,
    fun name source type hread => hrightSources ?_⟩
  · exact sources_subset_fieldSources (fun item hitem => hcase item (hleft hitem))
      (Expression.isReadOf_of_mem_reads hread).mem_walk
  · exact sources_subset_fieldSources (fun item hitem => hcase item (hright hitem))
      (Expression.isReadOf_of_mem_reads hread).mem_walk

/-! ### A CASE over both inputs -/

/-- A table `l` with a column `a`. -/
def leftTable : Source := ⟨"l", "l", [⟨"a", .int64, true⟩], by decide⟩

/-- A table `r` with columns `x` and `c`. -/
def rightTable : Source := ⟨"r", "r", [⟨"x", .int64, true⟩, ⟨"c", .int64, true⟩], by decide⟩

/-- The join of the two tables on a condition. -/
def sampleJoin (condition : Expression) : LogicalPlan :=
  .join (nodeName "join" 3) (.scan (nodeName "scan" 1) "l" "l" leftTable.schema)
    (.scan (nodeName "scan" 2) "r" "r" rightTable.schema) .inner condition
    [⟨"l.a", .int64, true⟩, ⟨"r.x", .int64, true⟩, ⟨"r.c", .int64, true⟩] none .right

def leftA : Expression := .column "a" "l" ⟨.int64, true⟩
def rightX : Expression := .column "x" "r" ⟨.int64, true⟩
def rightC : Expression := .column "c" "r" ⟨.int64, true⟩

/-- `l.a = r.c`. -/
def columnClause : JoinClause :=
  ⟨rightTable, .inner, .binary .equal (.column "l" "a") (.column "r" "c")⟩

def columnState : FromState :=
  ⟨sampleJoin (.binary .equal leftA rightC ⟨.boolean, true⟩), [leftTable, rightTable], 4⟩

theorem decomposes_iff_columns :
    Decomposes joinPython (.binary .equal leftA rightC ⟨.boolean, true⟩) [(leftA, rightC)]
        [("l.a", .int 1)] [("r.x", .int 5), ("r.c", .int 1)] ↔
      ∀ pair ∈ [(leftA, rightC)], StaysWithin joinPython ["l"] [("l.a", .int 1)] pair.1 ∧
        StaysWithin joinPython ["r"] [("r.x", .int 5), ("r.c", .int 1)] pair.2 :=
  have hfrom : bindFrom joinPython leftTable [] = .ok (bindTable leftTable) := rfl
  have hjoin : bindJoin joinPython (bindTable leftTable) columnClause = .ok columnState := rfl
  decomposes_iff hfrom hjoin rfl (by rfl) rfl rfl

/-- `CASE WHEN r.x = 1 THEN l.a ELSE l.a END`. -/
def strayKey : Expression :=
  .case [(.binary .equal rightX (.cast (.literal (.int 1) ⟨.int32, false⟩) ⟨.int64, true⟩ true)
    ⟨.boolean, true⟩, leftA)] leftA ⟨.int64, true⟩

def strayCondition : Expression := .binary .equal strayKey rightC ⟨.boolean, true⟩

def strayClause : JoinClause :=
  ⟨rightTable, .inner, .binary .equal
    (.case none [(.binary .equal (.column "r" "x") (.intLiteral 1), .column "l" "a")]
      (some (.column "l" "a"))) (.column "r" "c")⟩

/-- The key is taken for one of the left input, whose rows do not have the column `r.x`: its
evaluation raises, while the condition is true on the merged row. -/
theorem case_key_strays :
    bindFrom joinPython leftTable [strayClause]
        = .ok ⟨sampleJoin strayCondition, [leftTable, rightTable], 4⟩ ∧
      hashJoinKeys joinPython ["l"] ["r"] strayCondition = .ok [(strayKey, rightC)] ∧
      strayCondition.evaluate joinPython
        (Row.union [("l.a", .int 1)] [("r.x", .int 5), ("r.c", .int 1)]) = .ok (.bool true) ∧
      strayKey.evaluate joinPython [("l.a", .int 1)] = .error (.keyError "x") ∧
      ¬Decomposes joinPython strayCondition [(strayKey, rightC)] [("l.a", .int 1)]
        [("r.x", .int 5), ("r.c", .int 1)] := by
  refine ⟨by rfl, by rfl, by decide +kernel, by decide +kernel, fun h => ?_⟩
  have hread : rightX ∈ strayKey.reads joinPython [("l.a", .int 1)] := List.mem_cons_self
  exact absurd (h.left_finds _ List.mem_cons_self "x" "r" ⟨.int64, true⟩ hread) (by decide)

end DistributedSql

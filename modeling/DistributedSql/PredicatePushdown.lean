/-
Predicates pushed through a join (`PredicatePushdownJoin` in `optimizer/rules.py`).

Main results:
* `PredicatePushdownJoin.evaluate_left` — a conjunct over one side has the same value on
  the side's row and on the joined row;
* `PredicatePushdownJoin.apply_perm` — the rewritten plan gives the same bag of rows.
-/
import DistributedSql.LogicalPlans

namespace DistributedSql

namespace PredicatePushdownJoin

/-- `sources and sources <= side_sources`. -/
def readsOnly (py : Python) (conjunct : Expression) (sideSources : List String) : Bool :=
  conjunct.sources py ≠ [] && (conjunct.sources py).all (· ∈ sideSources)

/-- The conjunct goes to `left_predicates`. -/
def goesLeft (py : Python) (left : LogicalPlan) (joinType : JoinType) (conjunct : Expression) :
    Bool :=
  readsOnly py conjunct (left.sources py) && (joinType = .inner || joinType = .left)

/-- The test for `right_predicates`. -/
def goesRight (py : Python) (right : LogicalPlan) (joinType : JoinType) (conjunct : Expression) :
    Bool :=
  readsOnly py conjunct (right.sources py) && (joinType = .inner || joinType = .right)

/-- A filter above `plan`, if there are predicates. -/
def withFilter (nodeId : String) (plan : LogicalPlan) (schema : Schema) (phase : String) :
    List Expression → LogicalPlan
  | [] => plan
  | first :: rest => .filter nodeId plan (Expression.combineConjuncts first rest) schema phase

/-- `PredicatePushdownJoin.apply`. -/
def apply (py : Python) : LogicalPlan → Option LogicalPlan
  | .filter nodeId (.join joinId left right joinType condition joinSchema inputLimit buildSide)
      predicate schema phase =>
      let conjuncts := predicate.splitConjuncts
      let leftPredicates := conjuncts.filter (goesLeft py left joinType)
      let others := conjuncts.filter fun conjunct => !goesLeft py left joinType conjunct
      let rightPredicates := others.filter (goesRight py right joinType)
      let residual := others.filter fun conjunct => !goesRight py right joinType conjunct
      if leftPredicates.isEmpty && rightPredicates.isEmpty then none
      else
        some (withFilter nodeId
          (.join joinId
            (withFilter (nodeId ++ "_left") left left.outputSchema phase leftPredicates)
            (withFilter (nodeId ++ "_right") right right.outputSchema phase rightPredicates)
            joinType condition joinSchema inputLimit buildSide)
          schema phase residual)
  | _ => none

variable {py : Python} {db : Database}

@[simp] theorem runtimeNames_withFilter (nodeId : String) (plan : LogicalPlan) (schema : Schema)
    (phase : String) (predicates : List Expression) :
    (withFilter nodeId plan schema phase predicates).runtimeNames py = plan.runtimeNames py := by
  cases predicates <;> rfl

/-- The rows on which all predicates are true. -/
def selected (py : Python) (predicates : List Expression) (rows : List Row) : List Row :=
  rows.filter fun row => predicates.all (Expression.isTrue py row)

theorem selected_subset (predicates : List Expression) (rows : List Row) :
    selected py predicates rows ⊆ rows := List.filter_subset_self _

theorem selected_nil (rows : List Row) : selected py [] rows = rows :=
  List.filter_eq_self.mpr fun _ _ => rfl

theorem rows_withFilter (nodeId : String) (schema : Schema) (phase : String)
    (predicates : List Expression) {plan : LogicalPlan} {rows : List Row}
    (hrows : plan.rows py db = .ok rows)
    (h : ∀ row ∈ rows, ∀ predicate ∈ predicates, predicate.TruthValued py row) :
    (withFilter nodeId plan schema phase predicates).rows py db
      = .ok (selected py predicates rows) := by
  cases predicates with
  | nil => rw [withFilter, hrows, selected_nil]
  | cons first rest =>
    have htrue := fun row hrow => Expression.combineConjuncts_true (h row hrow)
    rw [withFilter, LogicalPlan.rows, hrows, ExceptState.ok_bind,
      filterRows_eq fun row hrow => (htrue row hrow).1.evaluates]
    refine congrArg Except.ok (List.filter_congr fun row hrow => ?_)
    rw [Bool.eq_iff_iff, (htrue row hrow).2, List.all_eq_true]

/-- A predicate that a binder has resolved against the inputs of a join, and that
evaluates on their rows and on the joined ones. -/
structure Bound (py : Python) (predicate : Expression) (left right : LogicalPlan)
    (outputNames : List String) (leftRows rightRows joined : List Row) : Prop where
  noAggregate : predicate.containsAggregate = false
  noWindow : predicate.containsWindow = false
  disjoint : (left.runtimeNames py).Disjoint (right.runtimeNames py)
  leftNames : ∀ row ∈ leftRows, ∀ name, name ∈ row.names ↔ name ∈ left.runtimeNames py
  rightNames : ∀ row ∈ rightRows, ∀ name, name ∈ row.names ↔ name ∈ right.runtimeNames py
  leftColumns : ∀ name source, (name, source) ∈ predicate.columns →
    py.casefold source ∈ left.sources py →
      Expression.qualifiedName name source ∈ left.runtimeNames py ∧
      Expression.qualifiedName name source ∈ outputNames
  rightColumns : ∀ name source, (name, source) ∈ predicate.columns →
    py.casefold source ∈ right.sources py →
      Expression.qualifiedName name source ∈ right.runtimeNames py ∧
      Expression.qualifiedName name source ∈ outputNames
  leftValues : ∀ conjunct ∈ predicate.splitConjuncts,
    readsOnly py conjunct (left.sources py) = true →
      ∀ row ∈ leftRows, conjunct.TruthValued py row
  rightValues : ∀ conjunct ∈ predicate.splitConjuncts,
    readsOnly py conjunct (right.sources py) = true →
      ∀ row ∈ rightRows, conjunct.TruthValued py row
  joinedValues : ∀ conjunct ∈ predicate.splitConjuncts,
    ∀ row ∈ joined, conjunct.TruthValued py row

section Values

variable {predicate conjunct : Expression} {left right : LogicalPlan} {outputNames : List String}
  {leftRows rightRows joined : List Row}

/-- A conjunct over one side reads, on two rows that hold the side's columns alike, the same. -/
private theorem evaluate_side {plan : LogicalPlan} (hmem : conjunct ∈ predicate.splitConjuncts)
    (hreads : readsOnly py conjunct (plan.sources py) = true)
    (haggregate : predicate.containsAggregate = false)
    (hwindow : predicate.containsWindow = false) {row row' : Row}
    (h : ∀ name source, (name, source) ∈ predicate.columns →
      py.casefold source ∈ plan.sources py →
      ∃ value, row.get? (Expression.qualifiedName name source) = some value ∧
        row'.get? (Expression.qualifiedName name source) = some value) :
    conjunct.evaluate py row = conjunct.evaluate py row' := by
  have hwalk := Expression.walk_splitConjuncts hmem
  refine Expression.evaluate_congr (Expression.agreeOn_walk ?_ ?_ fun name source hcolumn _ => ?_)
  · exact List.any_eq_false.mpr fun item hitem => List.any_eq_false.mp haggregate item (hwalk hitem)
  · exact List.any_eq_false.mpr fun item hitem => List.any_eq_false.mp hwindow item (hwalk hitem)
  · obtain ⟨item, hitem, hasColumn⟩ := List.mem_filterMap.mp hcolumn
    have hsource : py.casefold source ∈ plan.sources py := by
      have hall := (Bool.and_eq_true _ _ ▸ hreads).2
      have hin := List.all_eq_true.mp hall (py.casefold source)
        (List.mem_map.mpr ⟨(name, source), hcolumn, rfl⟩)
      exact of_decide_eq_true hin
    obtain ⟨value, hrow, hrow'⟩ := h name source
      (List.mem_filterMap.mpr ⟨item, hwalk hitem, hasColumn⟩) hsource
    rw [Expression.evaluate_column hrow, Expression.evaluate_column hrow']

/-- A conjunct over the left side has the same value on a left row and on what the join
makes of it. -/
theorem evaluate_left
    (h : Bound py predicate left right outputNames leftRows rightRows joined)
    (hmem : conjunct ∈ predicate.splitConjuncts)
    (hreads : readsOnly py conjunct (left.sources py) = true) {row other : Row}
    (hrow : row ∈ leftRows) (hother : ∀ name ∈ other.names, name ∈ right.runtimeNames py) :
    conjunct.evaluate py ((row.union other).restrict outputNames) = conjunct.evaluate py row := by
  refine evaluate_side hmem hreads h.noAggregate h.noWindow fun name source hcolumn hsource => ?_
  obtain ⟨hname, houtput⟩ := h.leftColumns name source hcolumn hsource
  obtain ⟨value, hvalue⟩ := Option.isSome_iff_exists.mp
    (Row.get?_isSome.mpr ((h.leftNames row hrow _).mpr hname))
  have hnone : other.get? (Expression.qualifiedName name source) = none :=
    Row.get?_eq_none.mpr fun hin => h.disjoint hname (hother _ hin)
  exact ⟨value, by rw [Row.get?_restrict, if_pos houtput, Row.get?_union, hnone, hvalue]; rfl,
    hvalue⟩

/-- The same for the right side. -/
theorem evaluate_right
    (h : Bound py predicate left right outputNames leftRows rightRows joined)
    (hmem : conjunct ∈ predicate.splitConjuncts)
    (hreads : readsOnly py conjunct (right.sources py) = true) {row other : Row}
    (hrow : row ∈ rightRows) :
    conjunct.evaluate py ((other.union row).restrict outputNames) = conjunct.evaluate py row := by
  refine evaluate_side hmem hreads h.noAggregate h.noWindow fun name source hcolumn hsource => ?_
  obtain ⟨hname, houtput⟩ := h.rightColumns name source hcolumn hsource
  obtain ⟨value, hvalue⟩ := Option.isSome_iff_exists.mp
    (Row.get?_isSome.mpr ((h.rightNames row hrow _).mpr hname))
  exact ⟨value, by rw [Row.get?_restrict, if_pos houtput, Row.get?_union, hvalue]; rfl, hvalue⟩

theorem isTrue_congr {expression : Expression} {row row' : Row}
    (h : expression.evaluate py row = expression.evaluate py row') :
    expression.isTrue py row = expression.isTrue py row' := by
  rw [Expression.isTrue, Expression.isTrue, h]

theorem mem_names_fromkeys {names : List String} {name : String} :
    name ∈ (Row.fromkeys names).names ↔ name ∈ names := by
  rw [← Row.get?_isSome, Row.get?_fromkeys]
  split <;> simp_all

end Values

/-! ### The rule -/

section Rule

variable {predicate : Expression} {left right : LogicalPlan} {outputNames : List String}
  {leftRows rightRows joined : List Row} {joinType : JoinType} {condition : Expression}

/-- What every predicate of a list that goes to one side satisfies. -/
def GoesTo (py : Python) (predicate : Expression) (plan : LogicalPlan) (joinType : JoinType)
    (other : Side) (predicates : List Expression) : Prop :=
  ∀ conjunct ∈ predicates, conjunct ∈ predicate.splitConjuncts ∧
    readsOnly py conjunct (plan.sources py) = true ∧ sideIsPreserved joinType other = false

/-- Predicates over the left side may be tested on the left rows. -/
theorem filter_bag_left
    (h : Bound py predicate left right outputNames leftRows rightRows joined)
    {predicates : List Expression} (hgoes : GoesTo py predicate left joinType .right predicates)
    {rightRows' : List Row} (hright : rightRows' ⊆ rightRows) :
    ((joinRelation py joinType condition (left.runtimeNames py) (right.runtimeNames py)
        outputNames).bag leftRows rightRows').filter
          (fun row => predicates.all (Expression.isTrue py row) = true)
      = (joinRelation py joinType condition (left.runtimeNames py) (right.runtimeNames py)
        outputNames).bag (selected py predicates leftRows) rightRows' := by
  rcases predicates.eq_nil_or_concat with rfl | ⟨first, last, hne⟩
  · rw [selected_nil]
    exact Multiset.filter_eq_self.mpr fun _ _ => rfl
  have hkeep := (hgoes last (by simp [hne])).2.2
  have hsame : ∀ row ∈ leftRows, ∀ other : Row,
      (∀ name ∈ other.names, name ∈ right.runtimeNames py) →
      (predicates.all (Expression.isTrue py ((row.union other).restrict outputNames)) = true ↔
        predicates.all (Expression.isTrue py row) = true) := by
    intro row hrow other hother
    rw [List.all_eq_true, List.all_eq_true]
    refine forall₂_congr fun c hc => ?_
    rw [isTrue_congr (evaluate_left h (hgoes c hc).1 (hgoes c hc).2.1 hrow hother)]
  rw [BagJoin.filter_bag_left (Q := fun row => predicates.all (Expression.isTrue py row) = true)
    _ hkeep, Multiset.filter_coe]
  · simp only [selected, Bool.decide_eq_true]
  · intro l hl r hr
    exact hsame l (Multiset.mem_coe.mp hl) r
      fun name => (h.rightNames r (hright (Multiset.mem_coe.mp hr)) name).mp
  · exact fun l hl => hsame l (Multiset.mem_coe.mp hl) _ fun name => mem_names_fromkeys.mp

/-- Predicates over the right side may be tested on the right rows. -/
theorem filter_bag_right
    (h : Bound py predicate left right outputNames leftRows rightRows joined)
    {predicates : List Expression} (hgoes : GoesTo py predicate right joinType .left predicates)
    (leftRows' : List Row) :
    ((joinRelation py joinType condition (left.runtimeNames py) (right.runtimeNames py)
        outputNames).bag leftRows' rightRows).filter
          (fun row => predicates.all (Expression.isTrue py row) = true)
      = (joinRelation py joinType condition (left.runtimeNames py) (right.runtimeNames py)
        outputNames).bag leftRows' (selected py predicates rightRows) := by
  rcases predicates.eq_nil_or_concat with rfl | ⟨first, last, hne⟩
  · rw [selected_nil]
    exact Multiset.filter_eq_self.mpr fun _ _ => rfl
  have hkeep := (hgoes last (by simp [hne])).2.2
  have hsame : ∀ row ∈ rightRows, ∀ other : Row,
      (predicates.all (Expression.isTrue py ((other.union row).restrict outputNames)) = true ↔
        predicates.all (Expression.isTrue py row) = true) := by
    intro row hrow other
    rw [List.all_eq_true, List.all_eq_true]
    refine forall₂_congr fun c hc => ?_
    rw [isTrue_congr (evaluate_right h (hgoes c hc).1 (hgoes c hc).2.1 hrow)]
  rw [BagJoin.filter_bag_right (Q := fun row => predicates.all (Expression.isTrue py row) = true)
    _ hkeep, Multiset.filter_coe]
  · simp only [selected, Bool.decide_eq_true]
  · exact fun l _ r hr => hsame r (Multiset.mem_coe.mp hr) l
  · exact fun r hr => hsame r (Multiset.mem_coe.mp hr) _

theorem goesTo_left (py : Python) (predicate : Expression) (left : LogicalPlan)
    (joinType : JoinType) : GoesTo py predicate left joinType .right
    (predicate.splitConjuncts.filter (goesLeft py left joinType)) := by
  intro conjunct hmem
  obtain ⟨hmem, hgoes⟩ := List.mem_filter.mp hmem
  obtain ⟨hreads, htype⟩ := Bool.and_eq_true _ _ ▸ hgoes
  refine ⟨hmem, hreads, ?_⟩
  cases joinType <;> simp_all [sideIsPreserved]

theorem goesTo_right (py : Python) (right : LogicalPlan) (joinType : JoinType)
    {others : List Expression} (hothers : others ⊆ predicate.splitConjuncts) :
    GoesTo py predicate right joinType .left (others.filter (goesRight py right joinType)) := by
  intro conjunct hmem
  obtain ⟨hmem, hgoes⟩ := List.mem_filter.mp hmem
  obtain ⟨hreads, htype⟩ := Bool.and_eq_true _ _ ▸ hgoes
  refine ⟨hothers hmem, hreads, ?_⟩
  cases joinType <;> simp_all [sideIsPreserved]

/-- Splitting a list by a test does not matter to what holds of all its members. -/
theorem all_split (conjuncts : List Expression) (test : Expression → Bool)
    (p : Expression → Bool) : conjuncts.all p
      = ((conjuncts.filter test).all p && (conjuncts.filter fun c => !test c).all p) := by
  rw [Bool.eq_iff_iff, Bool.and_eq_true]
  simp only [List.all_eq_true, List.mem_filter]
  grind

theorem rows_join (joinId : String) (joinType : JoinType) (condition : Expression)
    (joinSchema : Schema) (inputLimit : Option ℕ) (buildSide : Side) (hleft : left.rows py db = .ok leftRows)
    (hright : right.rows py db = .ok rightRows) :
    (LogicalPlan.join joinId left right joinType condition joinSchema inputLimit buildSide).rows
      py db = joinRows py joinType condition (left.runtimeNames py) (right.runtimeNames py)
        joinSchema.names leftRows rightRows := by
  rw [LogicalPlan.rows, hleft, hright]
  rfl

/-- The join of the selected rows is the selection of the joined rows. -/
theorem joinRows_selected
    (hbound : Bound py predicate left right outputNames leftRows rightRows joined)
    (hjoined : joinRows py joinType condition (left.runtimeNames py) (right.runtimeNames py)
      outputNames leftRows rightRows = .ok joined)
    {leftPredicates rightPredicates : List Expression}
    (hgoesLeft : GoesTo py predicate left joinType .right leftPredicates)
    (hgoesRight : GoesTo py predicate right joinType .left rightPredicates) :
    ∃ rows, joinRows py joinType condition (left.runtimeNames py) (right.runtimeNames py)
        outputNames (selected py leftPredicates leftRows) (selected py rightPredicates rightRows)
          = .ok rows ∧
      rows.Perm (selected py rightPredicates (selected py leftPredicates joined)) := by
  have hpairs := evaluates_of_joinRows hjoined
  have hselected : ∀ l ∈ selected py leftPredicates leftRows,
      ∀ r ∈ selected py rightPredicates rightRows,
      ∃ value, condition.evaluate py (l.union r) = .ok value :=
    fun l hl r hr => hpairs l (selected_subset _ _ hl) r (selected_subset _ _ hr)
  have hrows := joinRows_eq joinType (left.runtimeNames py) (right.runtimeNames py) outputNames
    hselected
  refine ⟨_, hrows, Multiset.coe_eq_coe.mp ?_⟩
  rw [coe_joinRows hrows, ← filter_bag_right hbound hgoesRight,
    ← filter_bag_left hbound hgoesLeft (fun _ => id), ← coe_joinRows hjoined]
  simp only [selected, Multiset.filter_coe, Bool.decide_eq_true]

/-- The rewritten plan gives the bag of rows of the filter over the join. -/
theorem apply_perm (db : Database) {nodeId joinId phase : String} {joinSchema schema : Schema}
    {inputLimit : Option ℕ} {buildSide : Side} {plan' : LogicalPlan}
    (happly : apply py (.filter nodeId (.join joinId left right joinType condition joinSchema
      inputLimit buildSide) predicate schema phase) = some plan')
    (hleft : left.rows py db = .ok leftRows) (hright : right.rows py db = .ok rightRows)
    (hjoined : (LogicalPlan.join joinId left right joinType condition joinSchema inputLimit
      buildSide).rows py db = .ok joined)
    (hbound : Bound py predicate left right joinSchema.names leftRows rightRows joined) :
    ∃ rows rows', (LogicalPlan.filter nodeId (.join joinId left right joinType condition
        joinSchema inputLimit buildSide) predicate schema phase).rows py db = .ok rows ∧
      plan'.rows py db = .ok rows' ∧ rows'.Perm rows := by
  simp only [apply, Option.ite_none_left_eq_some, Option.some.injEq] at happly
  obtain ⟨-, rfl⟩ := happly
  have hgoesLeft := goesTo_left py predicate left joinType
  set leftPredicates := predicate.splitConjuncts.filter (goesLeft py left joinType)
  set others := predicate.splitConjuncts.filter fun c => !goesLeft py left joinType c
  have hothers : others ⊆ predicate.splitConjuncts := List.filter_subset_self _
  have hgoesRight := goesTo_right py right joinType hothers
  set rightPredicates := others.filter (goesRight py right joinType)
  set residual := others.filter fun c => !goesRight py right joinType c
  -- the original plan
  have htruth : ∀ row ∈ joined, predicate.TruthValued py row ∧ (predicate.isTrue py row = true ↔
      ∀ conjunct ∈ predicate.splitConjuncts, conjunct.isTrue py row = true) :=
    fun row hrow => Expression.splitConjuncts_true fun c hc => hbound.joinedValues c hc row hrow
  have hrows : (LogicalPlan.filter nodeId (.join joinId left right joinType condition joinSchema
      inputLimit buildSide) predicate schema phase).rows py db
        = .ok (joined.filter (predicate.isTrue py ·)) := by
    rw [LogicalPlan.rows, hjoined, ExceptState.ok_bind]
    exact filterRows_eq fun row hrow => (htruth row hrow).1.evaluates
  -- the rewritten join
  have hleft' := rows_withFilter (nodeId ++ "_left") left.outputSchema phase leftPredicates hleft
    fun row hrow c hc => hbound.leftValues c (hgoesLeft c hc).1 (hgoesLeft c hc).2.1 row hrow
  have hright' := rows_withFilter (nodeId ++ "_right") right.outputSchema phase rightPredicates
    hright fun row hrow c hc =>
      hbound.rightValues c (hgoesRight c hc).1 (hgoesRight c hc).2.1 row hrow
  have hjoin := rows_join joinId joinType condition joinSchema inputLimit buildSide hleft' hright'
  rw [runtimeNames_withFilter, runtimeNames_withFilter] at hjoin
  rw [rows_join _ _ _ _ _ _ hleft hright] at hjoined
  obtain ⟨rows, hselected, hperm⟩ := joinRows_selected hbound hjoined hgoesLeft hgoesRight
  have hresidual := rows_withFilter nodeId schema phase residual (hjoin.trans hselected)
    fun row hrow c hc => hbound.joinedValues c (hothers (List.mem_of_mem_filter hc)) row
      (selected_subset _ _ (selected_subset _ _ (hperm.mem_iff.mp hrow)))
  refine ⟨_, _, hrows, hresidual, (hperm.filter _).trans (List.Perm.of_eq ?_)⟩
  rw [selected, selected, List.filter_filter, List.filter_filter]
  refine List.filter_congr fun row hrow => ?_
  rw [Bool.eq_iff_iff, (htruth row hrow).2, ← List.all_eq_true,
    all_split predicate.splitConjuncts (goesLeft py left joinType),
    all_split others (goesRight py right joinType)]
  simp only [Bool.and_eq_true]
  tauto

end Rule

/-! ### A left join -/

/-- A runtime for texts in lower case. -/
def lowercase : Python := { Python.ascii with casefold := id }

def idColumn (source : String) : Expression := .column "id" source ⟨.int64, true⟩

def idScan (source : String) : LogicalPlan := .scan source source source [⟨"id", .int64, true⟩]

/-- Table `l` holds 1, 2, 3, and table `r` holds 2 and a NULL. -/
def sampleDatabase : Database where
  scan _ tableAlias _ := .ok (if tableAlias = "l" then
      [[("l.id", .int 1)], [("l.id", .int 2)], [("l.id", .int 3)]]
    else [[("r.id", .int 2)], [("r.id", .null)]])
  operator _ _ := .ok []

/-- `l.id > 1`. -/
def greaterOne : Expression :=
  .binary .greaterThan (idColumn "l") (.literal (.int 1) ⟨.int64, false⟩) ⟨.boolean, true⟩

/-- `l.id > 1 AND r.id IS NULL`. -/
def samplePredicate : Expression :=
  .binary .and greaterOne (.isNull (idColumn "r") false) ⟨.boolean, true⟩

def sampleJoin : LogicalPlan :=
  .join "join" (idScan "l") (idScan "r") .left
    (.binary .equal (idColumn "l") (idColumn "r") ⟨.boolean, true⟩)
    [⟨"l.id", .int64, true⟩, ⟨"r.id", .int64, true⟩] none .right

theorem columns_sample : samplePredicate.columns = [("id", "l"), ("id", "r")] := rfl

theorem conjuncts_sample :
    samplePredicate.splitConjuncts = [greaterOne, .isNull (idColumn "r") false] := rfl

theorem bound_sample : Bound lowercase samplePredicate (idScan "l") (idScan "r") ["l.id", "r.id"]
    [[("l.id", .int 1)], [("l.id", .int 2)], [("l.id", .int 3)]]
    [[("r.id", .int 2)], [("r.id", .null)]]
    [[("l.id", .int 2), ("r.id", .int 2)], [("l.id", .int 1), ("r.id", .null)],
      [("l.id", .int 3), ("r.id", .null)]] where
  noAggregate := rfl
  noWindow := rfl
  disjoint := by
    show ["l.id"].Disjoint ["r.id"]
    simp
  leftNames := by
    simp only [List.forall_mem_cons, List.not_mem_nil, IsEmpty.forall_iff, implies_true, and_true]
    exact ⟨fun _ => Iff.rfl, fun _ => Iff.rfl, fun _ => Iff.rfl⟩
  rightNames := by
    simp only [List.forall_mem_cons, List.not_mem_nil, IsEmpty.forall_iff, implies_true, and_true]
    exact ⟨fun _ => Iff.rfl, fun _ => Iff.rfl⟩
  leftColumns name source h hsource := by
    obtain rfl : source = "l" := List.mem_singleton.mp hsource
    obtain rfl : name = "id" := by simpa [columns_sample] using h
    decide
  rightColumns name source h hsource := by
    obtain rfl : source = "r" := List.mem_singleton.mp hsource
    obtain rfl : name = "id" := by simpa [columns_sample] using h
    decide
  leftValues := by
    rw [conjuncts_sample]
    simp only [List.forall_mem_cons, List.not_mem_nil, IsEmpty.forall_iff, implies_true, and_true]
    exact ⟨fun _ => ⟨Or.inr ⟨_, rfl⟩, Or.inr ⟨_, rfl⟩, Or.inr ⟨_, rfl⟩⟩,
      fun h => absurd h (by decide)⟩
  rightValues := by
    rw [conjuncts_sample]
    simp only [List.forall_mem_cons, List.not_mem_nil, IsEmpty.forall_iff, implies_true, and_true]
    exact ⟨fun h => absurd h (by decide), fun _ => ⟨Or.inr ⟨_, rfl⟩, Or.inr ⟨_, rfl⟩⟩⟩
  joinedValues := by
    rw [conjuncts_sample]
    simp only [List.forall_mem_cons, List.not_mem_nil, IsEmpty.forall_iff, implies_true, and_true]
    exact ⟨⟨Or.inr ⟨_, rfl⟩, Or.inr ⟨_, rfl⟩, Or.inr ⟨_, rfl⟩⟩, Or.inr ⟨_, rfl⟩, Or.inr ⟨_, rfl⟩,
      Or.inr ⟨_, rfl⟩⟩

theorem apply_perm_sample : ∃ plan' rows',
    apply lowercase (.filter "filter" sampleJoin samplePredicate sampleJoin.outputSchema "where")
      = some plan' ∧
    plan'.rows lowercase sampleDatabase = .ok rows' ∧
    rows'.Perm [[("l.id", .int 3), ("r.id", .null)]] := by
  obtain ⟨plan', happly⟩ : ∃ plan', apply lowercase
      (.filter "filter" sampleJoin samplePredicate sampleJoin.outputSchema "where") = some plan' :=
    ⟨_, rfl⟩
  obtain ⟨rows, rows', hrows, hrows', hperm⟩ :=
    apply_perm sampleDatabase happly rfl rfl rfl bound_sample
  refine ⟨plan', rows', happly, hrows', ?_⟩
  cases hrows
  exact hperm

end PredicatePushdownJoin

end DistributedSql

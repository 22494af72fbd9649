/-
The parts of an expression (`optimizer/utils.py`, and `type_info` of
`planner/expressions.py`).

Main results:
* `Expression.walk_eq` — `walk_expression` goes on with the children;
* `Expression.evaluate_congr` — without aggregates and windows, an expression evaluates
  alike on rows on which its columns do;
* `Expression.splitConjuncts_true` — a predicate with boolean conjuncts is true where all
  of them are, and `Expression.combineConjuncts_true` — so is their combination.
-/
import DistributedSql.Expressions
import DistributedSql.ExceptState

namespace DistributedSql

namespace Expression

mutual

/-- `Expression.type_info`. -/
def typeInfo : Expression → TypeInfo
  | .literal _ resultType => resultType
  | .column _ _ resultType => resultType
  | .cast expression target _ => ⟨target.dataType, expression.typeInfo.nullable⟩
  | .unary _ _ resultType => resultType
  | .binary _ _ _ resultType => resultType
  | .isNull _ _ => ⟨.boolean, false⟩
  | .inList expression options _ => ⟨.boolean, expression.typeInfo.nullable || anyNullable options⟩
  | .between expression low high _ =>
      ⟨.boolean, expression.typeInfo.nullable || low.typeInfo.nullable || high.typeInfo.nullable⟩
  | .like expression pattern _ =>
      ⟨.boolean, expression.typeInfo.nullable || pattern.typeInfo.nullable⟩
  | .case _ _ resultType => resultType
  | .scalarFunction _ _ resultType => resultType
  | .aggregateFunction _ _ resultType _ => resultType
  | .windowFunction function _ _ _ => function.typeInfo

/-- `any(option.type_info.nullable for option in options)`. -/
def anyNullable : List Expression → Bool
  | [] => false
  | option :: rest => option.typeInfo.nullable || anyNullable rest

end

/-! ### Traversal -/

/-- `expression_children`: the fields that are expressions, or tuples of them; the sort
keys of a window are neither. -/
def children : Expression → List Expression
  | .literal _ _ => []
  | .column _ _ _ => []
  | .cast expression _ _ => [expression]
  | .unary _ expression _ => [expression]
  | .binary _ left right _ => [left, right]
  | .isNull expression _ => [expression]
  | .inList expression options _ => expression :: options
  | .between expression low high _ => [expression, low, high]
  | .like expression pattern _ => [expression, pattern]
  | .case branches default _ => (branches.flatMap fun branch => [branch.1, branch.2]) ++ [default]
  | .scalarFunction _ arguments _ => arguments
  | .aggregateFunction _ arguments _ _ => arguments
  | .windowFunction function partitionBy _ _ => function :: partitionBy

mutual

/-- `walk_expression`. -/
def walk : Expression → List Expression
  | .literal value resultType => [.literal value resultType]
  | .column name source resultType => [.column name source resultType]
  | .cast expression target implicit => .cast expression target implicit :: expression.walk
  | .unary operator expression resultType =>
      .unary operator expression resultType :: expression.walk
  | .binary operator left right resultType =>
      .binary operator left right resultType :: (left.walk ++ right.walk)
  | .isNull expression negated => .isNull expression negated :: expression.walk
  | .inList expression options negated =>
      .inList expression options negated :: (expression.walk ++ walkAll options)
  | .between expression low high negated =>
      .between expression low high negated :: (expression.walk ++ (low.walk ++ high.walk))
  | .like expression pattern negated =>
      .like expression pattern negated :: (expression.walk ++ pattern.walk)
  | .case branches default resultType =>
      .case branches default resultType :: (walkBranches branches ++ default.walk)
  | .scalarFunction name arguments resultType =>
      .scalarFunction name arguments resultType :: walkAll arguments
  | .aggregateFunction name arguments resultType distinct =>
      .aggregateFunction name arguments resultType distinct :: walkAll arguments
  | .windowFunction function partitionBy orderBy frame =>
      .windowFunction function partitionBy orderBy frame :: (function.walk ++ walkAll partitionBy)

def walkAll : List Expression → List Expression
  | [] => []
  | expression :: rest => expression.walk ++ walkAll rest

def walkBranches : List (Expression × Expression) → List Expression
  | [] => []
  | (condition, result) :: rest => condition.walk ++ result.walk ++ walkBranches rest

end

theorem walkAll_eq (expressions : List Expression) :
    walkAll expressions = expressions.flatMap walk := by
  induction expressions with
  | nil => rfl
  | cons expression rest ih => rw [walkAll, ih, List.flatMap_cons]

theorem walkBranches_eq (branches : List (Expression × Expression)) :
    walkBranches branches
      = (branches.flatMap fun branch => [branch.1, branch.2]).flatMap walk := by
  induction branches with
  | nil => rfl
  | cons branch rest ih =>
    obtain ⟨condition, result⟩ := branch
    rw [walkBranches, ih]
    simp

/-- The recursion of `walk_expression`. -/
theorem walk_eq (expression : Expression) :
    expression.walk = expression :: expression.children.flatMap walk := by
  cases expression <;>
    simp only [walk, children, walkAll_eq, walkBranches_eq, List.flatMap_nil, List.flatMap_cons,
      List.flatMap_append, List.append_nil]

theorem sizeOf_lt_of_mem_children {child expression : Expression}
    (h : child ∈ expression.children) : sizeOf child < sizeOf expression := by
  cases expression with
  | literal | column => exact absurd h List.not_mem_nil
  | cast expression =>
    rw [List.mem_singleton.mp h, cast.sizeOf_spec]
    omega
  | unary _ expression =>
    rw [List.mem_singleton.mp h, unary.sizeOf_spec]
    omega
  | isNull expression =>
    rw [List.mem_singleton.mp h, isNull.sizeOf_spec]
    omega
  | binary _ left right =>
    rw [binary.sizeOf_spec]
    rcases List.mem_cons.mp h with rfl | h
    · omega
    · rw [List.mem_singleton.mp h]
      omega
  | like left right =>
    rw [like.sizeOf_spec]
    rcases List.mem_cons.mp h with rfl | h
    · omega
    · rw [List.mem_singleton.mp h]
      omega
  | between expression low high =>
    rw [between.sizeOf_spec]
    simp only [children, List.mem_cons, List.not_mem_nil, or_false] at h
    rcases h with rfl | rfl | rfl <;> omega
  | inList expression options =>
    rw [inList.sizeOf_spec]
    rcases List.mem_cons.mp h with rfl | h
    · omega
    · have := List.sizeOf_lt_of_mem h
      omega
  | case branches default =>
    rw [case.sizeOf_spec]
    rcases List.mem_append.mp h with h | h
    · obtain ⟨⟨condition, result⟩, hbranch, h⟩ := List.mem_flatMap.mp h
      have hlt := List.sizeOf_lt_of_mem hbranch
      rw [Prod.mk.sizeOf_spec] at hlt
      simp only [List.mem_cons, List.not_mem_nil, or_false] at h
      rcases h with rfl | rfl <;> omega
    · rw [List.mem_singleton.mp h]
      omega
  | scalarFunction _ arguments =>
    rw [scalarFunction.sizeOf_spec]
    have := List.sizeOf_lt_of_mem (show child ∈ arguments from h)
    omega
  | aggregateFunction _ arguments =>
    rw [aggregateFunction.sizeOf_spec]
    have := List.sizeOf_lt_of_mem (show child ∈ arguments from h)
    omega
  | windowFunction function partitionBy =>
    rw [windowFunction.sizeOf_spec]
    rcases List.mem_cons.mp h with rfl | h
    · omega
    · have := List.sizeOf_lt_of_mem h
      omega

/-- Induction over the children. -/
theorem children_induction {motive : Expression → Prop}
    (h : ∀ expression, (∀ child ∈ expression.children, motive child) → motive expression)
    (expression : Expression) : motive expression :=
  h expression fun child _ => children_induction h child
termination_by sizeOf expression
decreasing_by exact sizeOf_lt_of_mem_children ‹_›

def isAggregate : Expression → Bool
  | .aggregateFunction _ _ _ _ => true
  | _ => false

def isWindow : Expression → Bool
  | .windowFunction _ _ _ _ => true
  | _ => false

/-- `contains_aggregate`. -/
def containsAggregate (expression : Expression) : Bool := expression.walk.any isAggregate

/-- `contains_window`. -/
def containsWindow (expression : Expression) : Bool := expression.walk.any isWindow

/-- The name and the source of a column. -/
def asColumn : Expression → Option (String × String)
  | .column name source _ => some (name, source)
  | _ => none

/-- `expression_columns`: names and sources. -/
def columns (expression : Expression) : List (String × String) :=
  expression.walk.filterMap asColumn

/-- `expression_sources`. -/
def sources (py : Python) (expression : Expression) : List String :=
  expression.columns.map fun column => py.casefold column.2

/-! ### What an expression reads -/

/-- The value is looked up in the row. -/
def isReference : Expression → Bool
  | .column _ _ _ => true
  | .aggregateFunction _ _ _ _ => true
  | .windowFunction _ _ _ _ => true
  | _ => false

/-- Both rows give the same for every reference among `items`. -/
def AgreeOn (py : Python) (row row' : Row) (items : List Expression) : Prop :=
  ∀ item ∈ items, item.isReference = true → item.evaluate py row = item.evaluate py row'

variable {py : Python} {row row' : Row}

theorem agreeOn_cons {item : Expression} {items : List Expression}
    (h : AgreeOn py row row' (item :: items)) : AgreeOn py row row' items :=
  fun other hother => h other (List.mem_cons_of_mem item hother)

theorem agreeOn_left {items items' : List Expression}
    (h : AgreeOn py row row' (items ++ items')) : AgreeOn py row row' items :=
  fun other hother => h other (List.mem_append_left items' hother)

theorem agreeOn_right {items items' : List Expression}
    (h : AgreeOn py row row' (items ++ items')) : AgreeOn py row row' items' :=
  fun other hother => h other (List.mem_append_right items hother)

mutual

/-- An expression evaluates alike on rows on which its references do. -/
theorem evaluate_congr : ∀ {expression : Expression}, AgreeOn py row row' expression.walk →
    expression.evaluate py row = expression.evaluate py row'
  | .literal _ _, _ => rfl
  | .column _ _ _, h => h _ List.mem_cons_self rfl
  | .aggregateFunction _ _ _ _, h => h _ List.mem_cons_self rfl
  | .windowFunction _ _ _ _, h => h _ List.mem_cons_self rfl
  | .cast expression _ _, h => by
    rw [evaluate, evaluate, evaluate_congr (agreeOn_cons h)]
  | .unary _ expression _, h => by
    rw [evaluate, evaluate, evaluate_congr (agreeOn_cons h)]
  | .binary _ left right _, h => by
    rw [evaluate, evaluate, evaluate_congr (agreeOn_left (agreeOn_cons h)),
      evaluate_congr (agreeOn_right (agreeOn_cons h))]
  | .isNull expression _, h => by
    rw [evaluate, evaluate, evaluate_congr (agreeOn_cons h)]
  | .inList expression options _, h => by
    rw [evaluate, evaluate, evaluate_congr (agreeOn_left (agreeOn_cons h))]
    have hoptions := fun value negated sawNull =>
      evaluateOptions_congr value negated sawNull (agreeOn_right (agreeOn_cons h))
    simp only [hoptions]
  | .between expression low high _, h => by
    rw [evaluate, evaluate, evaluate_congr (agreeOn_left (agreeOn_cons h)),
      evaluate_congr (agreeOn_left (agreeOn_right (agreeOn_cons h))),
      evaluate_congr (agreeOn_right (agreeOn_right (agreeOn_cons h)))]
  | .like expression pattern _, h => by
    rw [evaluate, evaluate, evaluate_congr (agreeOn_left (agreeOn_cons h)),
      evaluate_congr (agreeOn_right (agreeOn_cons h))]
  | .case branches default _, h => by
    rw [evaluate, evaluate, evaluateBranches_congr (agreeOn_left (agreeOn_cons h)),
      evaluate_congr (agreeOn_right (agreeOn_cons h))]
  | .scalarFunction _ arguments _, h => by
    rw [evaluate, evaluate, evaluateAll_congr (agreeOn_cons h)]

theorem evaluateAll_congr : ∀ {expressions : List Expression},
    AgreeOn py row row' (walkAll expressions) →
    evaluateAll py row expressions = evaluateAll py row' expressions
  | [], _ => rfl
  | expression :: rest, h => by
    rw [evaluateAll, evaluateAll, evaluate_congr (agreeOn_left h),
      evaluateAll_congr (agreeOn_right h)]

theorem evaluateOptions_congr : ∀ {options : List Expression} (value : SQLValue)
    (negated sawNull : Bool), AgreeOn py row row' (walkAll options) →
    evaluateOptions py row value negated sawNull options
      = evaluateOptions py row' value negated sawNull options
  | [], _, _, _, _ => rfl
  | option :: rest, value, negated, sawNull, h => by
    rw [evaluateOptions, evaluateOptions, evaluate_congr (agreeOn_left h)]
    have hrest := fun sawNull =>
      evaluateOptions_congr value negated sawNull (agreeOn_right h)
    simp only [hrest]

theorem evaluateBranches_congr : ∀ {branches : List (Expression × Expression)},
    AgreeOn py row row' (walkBranches branches) →
    evaluateBranches py row branches = evaluateBranches py row' branches
  | [], _ => rfl
  | (condition, result) :: rest, h => by
    rw [evaluateBranches, evaluateBranches, evaluate_congr (agreeOn_left (agreeOn_left h)),
      evaluate_congr (agreeOn_right (agreeOn_left h)), evaluateBranches_congr (agreeOn_right h)]

end

theorem evaluate_column {name source : String} {resultType : TypeInfo} {value : SQLValue}
    (h : row.get? (qualifiedName name source) = some value) :
    (column name source resultType).evaluate py row = .ok value := by
  rw [evaluate, h]

/-- Without aggregates and windows, only columns are references. -/
theorem agreeOn_walk {expression : Expression} (haggregate : expression.containsAggregate = false)
    (hwindow : expression.containsWindow = false)
    (h : ∀ name source, (name, source) ∈ expression.columns → ∀ resultType,
      (column name source resultType).evaluate py row
        = (column name source resultType).evaluate py row') :
    AgreeOn py row row' expression.walk := by
  intro item hitem hreference
  cases item with
  | column name source resultType =>
    exact h name source (List.mem_filterMap.mpr ⟨_, hitem, rfl⟩) resultType
  | aggregateFunction name arguments resultType distinct =>
    exact absurd rfl (List.any_eq_false.mp haggregate _ hitem)
  | windowFunction function partitionBy orderBy frame =>
    exact absurd rfl (List.any_eq_false.mp hwindow _ hitem)
  | _ => cases hreference

/-! ### Conjuncts -/

/-- `split_conjuncts`. -/
def splitConjuncts : Expression → List Expression
  | .binary .and left right _ => left.splitConjuncts ++ right.splitConjuncts
  | expression => [expression]

theorem splitConjuncts_of_atom {predicate : Expression}
    (h : ∀ left right resultType, predicate ≠ .binary .and left right resultType) :
    predicate.splitConjuncts = [predicate] := by
  rw [splitConjuncts.eq_def]
  split
  case h_1 left right resultType => exact absurd rfl (h left right resultType)
  case h_2 => rfl

theorem walk_splitConjuncts {predicate conjunct : Expression}
    (h : conjunct ∈ predicate.splitConjuncts) : conjunct.walk ⊆ predicate.walk := by
  induction predicate using splitConjuncts.induct with
  | case1 left right resultType ihleft ihright =>
    rw [splitConjuncts, List.mem_append] at h
    rw [walk]
    rcases h with h | h
    · exact fun item hitem => List.mem_cons_of_mem _ (List.mem_append_left _ (ihleft h hitem))
    · exact fun item hitem => List.mem_cons_of_mem _ (List.mem_append_right _ (ihright h hitem))
  | case2 predicate hatom =>
    rw [splitConjuncts_of_atom hatom] at h
    rw [List.mem_singleton.mp h]
    exact fun _ => id

/-- A conjunct is not taken apart further. -/
theorem splitConjuncts_of_mem {predicate conjunct : Expression}
    (h : conjunct ∈ predicate.splitConjuncts) : conjunct.splitConjuncts = [conjunct] := by
  induction predicate using splitConjuncts.induct with
  | case1 left right resultType ihleft ihright =>
    rw [splitConjuncts, List.mem_append] at h
    exact h.elim ihleft ihright
  | case2 predicate hatom =>
    have hself := splitConjuncts_of_atom hatom
    rw [hself] at h
    rw [List.mem_singleton.mp h, hself]

/-- `combine_conjuncts` of one or more expressions. -/
def combineConjuncts (first : Expression) (rest : List Expression) : Expression :=
  rest.foldl (fun result expression => .binary .and result expression result.typeInfo) first

/-- The conjuncts that were combined come apart again. -/
theorem splitConjuncts_combineConjuncts {first : Expression} {rest : List Expression}
    (h : ∀ conjunct ∈ rest, conjunct.splitConjuncts = [conjunct]) :
    (combineConjuncts first rest).splitConjuncts = first.splitConjuncts ++ rest := by
  induction rest generalizing first with
  | nil => exact (List.append_nil _).symm
  | cons conjunct rest ih =>
    obtain ⟨hconjunct, hrest⟩ := List.forall_mem_cons.mp h
    have hsplit :
        (combineConjuncts (.binary .and first conjunct first.typeInfo) rest).splitConjuncts
          = (first.splitConjuncts ++ conjunct.splitConjuncts) ++ rest := ih hrest
    rw [hconjunct, List.append_assoc, List.singleton_append] at hsplit
    exact hsplit

/-- The test of a filter: the value is the object `True`. -/
def isTrue (py : Python) (row : Row) (expression : Expression) : Bool :=
  match expression.evaluate py row with
  | .ok value => value = .bool true
  | .error _ => false

/-- The expression is true, false or NULL on the row. -/
def TruthValued (py : Python) (row : Row) (expression : Expression) : Prop :=
  expression.evaluate py row = .ok .null ∨ ∃ b, expression.evaluate py row = .ok (.bool b)

theorem isTrue_iff {expression : Expression} :
    expression.isTrue py row = true ↔ expression.evaluate py row = .ok (.bool true) := by
  unfold isTrue
  cases expression.evaluate py row with
  | ok value => simp
  | error e => simp

theorem TruthValued.evaluates {expression : Expression} (h : expression.TruthValued py row) :
    ∃ value, expression.evaluate py row = .ok value := by
  rcases h with h | ⟨b, h⟩
  · exact ⟨_, h⟩
  · exact ⟨_, h⟩

theorem evaluate_and (left right : Expression) (resultType : TypeInfo) :
    (binary .and left right resultType).evaluate py row = (do
      let left ← left.evaluate py row
      let right ← right.evaluate py row
      return sqlAnd left right) := by
  rw [evaluate]
  rfl

theorem and_evaluates {left right : Expression} {resultType : TypeInfo} {value : SQLValue}
    (h : (binary .and left right resultType).evaluate py row = .ok value) :
    (∃ value, left.evaluate py row = .ok value) ∧ ∃ value, right.evaluate py row = .ok value := by
  rw [evaluate_and] at h
  obtain ⟨value, hleft, h⟩ := ExceptState.bind_eq_ok h
  obtain ⟨value', hright, -⟩ := ExceptState.bind_eq_ok h
  exact ⟨⟨value, hleft⟩, value', hright⟩

theorem TruthValued.and {left right : Expression} (hleft : left.TruthValued py row)
    (hright : right.TruthValued py row) (resultType : TypeInfo) :
    (binary .and left right resultType).TruthValued py row := by
  unfold TruthValued at hleft hright ⊢
  rw [evaluate_and]
  rcases hleft with hl | ⟨a, hl⟩ <;> rcases hright with hr | ⟨b, hr⟩ <;>
    rw [hl, hr, ExceptState.ok_bind, ExceptState.ok_bind]
  · exact Or.inl rfl
  · cases b
    · exact Or.inr ⟨false, rfl⟩
    · exact Or.inl rfl
  · cases a
    · exact Or.inr ⟨false, rfl⟩
    · exact Or.inl rfl
  · exact Or.inr ⟨a && b, by cases a <;> cases b <;> rfl⟩

theorem isTrue_and {left right : Expression} (hleft : left.TruthValued py row)
    (hright : right.TruthValued py row) (resultType : TypeInfo) :
    (binary .and left right resultType).isTrue py row = true ↔
      left.isTrue py row = true ∧ right.isTrue py row = true := by
  rw [isTrue_iff, isTrue_iff, isTrue_iff, evaluate_and]
  rcases hleft with hl | ⟨a, hl⟩ <;> rcases hright with hr | ⟨b, hr⟩ <;>
    rw [hl, hr, ExceptState.ok_bind, ExceptState.ok_bind]
  · exact iff_of_false (by simp [sqlAnd, pure, Except.pure]) (by simp)
  · cases b <;> exact iff_of_false (by simp [sqlAnd, pure, Except.pure]) (by simp)
  · cases a <;> exact iff_of_false (by simp [sqlAnd, pure, Except.pure]) (by simp)
  · cases a <;> cases b <;> simp [sqlAnd, pure, Except.pure]

/-- A predicate is true where all its conjuncts are. -/
theorem splitConjuncts_true {predicate : Expression}
    (h : ∀ conjunct ∈ predicate.splitConjuncts, conjunct.TruthValued py row) :
    predicate.TruthValued py row ∧ (predicate.isTrue py row = true ↔
      ∀ conjunct ∈ predicate.splitConjuncts, conjunct.isTrue py row = true) := by
  induction predicate using splitConjuncts.induct with
  | case1 left right resultType ihleft ihright =>
    rw [splitConjuncts, List.forall_mem_append] at h ⊢
    obtain ⟨hleft, hlefttrue⟩ := ihleft h.1
    obtain ⟨hright, hrighttrue⟩ := ihright h.2
    exact ⟨hleft.and hright resultType, (isTrue_and hleft hright resultType).trans
      (and_congr hlefttrue hrighttrue)⟩
  | case2 predicate hatom =>
    rw [splitConjuncts_of_atom hatom, List.forall_mem_singleton] at h ⊢
    exact ⟨h, Iff.rfl⟩

/-- A predicate that evaluates does so with all its conjuncts. -/
theorem splitConjuncts_evaluates {predicate : Expression} {value : SQLValue}
    (h : predicate.evaluate py row = .ok value) :
    ∀ conjunct ∈ predicate.splitConjuncts, ∃ value, conjunct.evaluate py row = .ok value := by
  induction predicate using splitConjuncts.induct generalizing value with
  | case1 left right resultType ihleft ihright =>
    obtain ⟨⟨_, hleft⟩, _, hright⟩ := and_evaluates h
    rw [splitConjuncts, List.forall_mem_append]
    exact ⟨ihleft hleft, ihright hright⟩
  | case2 predicate hatom =>
    rw [splitConjuncts_of_atom hatom]
    exact List.forall_mem_singleton.mpr ⟨value, h⟩

/-- A predicate evaluates where all its conjuncts do. -/
theorem evaluates_iff_conjuncts {predicate : Expression} :
    (∃ value, predicate.evaluate py row = .ok value) ↔
      ∀ conjunct ∈ predicate.splitConjuncts, ∃ value, conjunct.evaluate py row = .ok value := by
  refine ⟨fun ⟨value, h⟩ => splitConjuncts_evaluates h, fun h => ?_⟩
  induction predicate using splitConjuncts.induct with
  | case1 left right resultType ihleft ihright =>
    rw [splitConjuncts, List.forall_mem_append] at h
    obtain ⟨l, hl⟩ := ihleft h.1
    obtain ⟨r, hr⟩ := ihright h.2
    rw [evaluate_and, hl, hr]
    exact ⟨_, rfl⟩
  | case2 predicate hatom =>
    rw [splitConjuncts_of_atom hatom] at h
    exact h predicate (List.mem_singleton_self predicate)

/-- A combination is true where all its members are. -/
theorem combineConjuncts_true {first : Expression} {rest : List Expression}
    (h : ∀ conjunct ∈ first :: rest, conjunct.TruthValued py row) :
    (combineConjuncts first rest).TruthValued py row ∧
      ((combineConjuncts first rest).isTrue py row = true ↔
        ∀ conjunct ∈ first :: rest, conjunct.isTrue py row = true) := by
  induction rest generalizing first with
  | nil =>
    rw [List.forall_mem_singleton] at h ⊢
    exact ⟨h, Iff.rfl⟩
  | cons second rest ih =>
    obtain ⟨hfirst, hsecond, hrest⟩ := by simpa only [List.forall_mem_cons] using h
    have hall := @ih (.binary .and first second first.typeInfo)
      (List.forall_mem_cons.mpr ⟨hfirst.and hsecond _, hrest⟩)
    rw [List.forall_mem_cons, isTrue_and hfirst hsecond] at hall
    rw [List.forall_mem_cons, List.forall_mem_cons, ← and_assoc]
    exact hall

end Expression

end DistributedSql

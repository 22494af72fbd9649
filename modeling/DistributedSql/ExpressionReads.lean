/-
What the evaluation of an expression looks up in a row.

`Expression.reads` lists the columns, aggregates and windows that `evaluate` comes to, in
its order: what follows a part that raises is not among them, nor are the branches of a
CASE that are not taken and the options of an IN after the one that is found.

Main result:
* `Expression.evaluate_congr_reads` — on a row that gives these the same values, the
  evaluation takes the same course.
-/
import DistributedSql.ExpressionTrees

namespace DistributedSql

/-- What is read after a computation, if it returns. -/
def afterOk {α β : Type} (x : Except PyError α) (f : α → List β) : List β :=
  match x with
  | .ok a => f a
  | .error _ => []

namespace Expression

mutual

/-- The references that the evaluation looks up. -/
def reads (py : Python) (row : Row) : Expression → List Expression
  | .literal _ _ => []
  | .column name source resultType => [.column name source resultType]
  | .cast expression _ _ => expression.reads py row
  | .unary _ expression _ => expression.reads py row
  | .binary _ left right _ =>
      left.reads py row ++ afterOk (left.evaluate py row) fun _ => right.reads py row
  | .isNull expression _ => expression.reads py row
  | .inList expression options _ =>
      expression.reads py row ++ afterOk (expression.evaluate py row) fun value =>
        if value.isNull then [] else readsOptions py row value options
  | .between expression low high _ =>
      expression.reads py row ++ afterOk (expression.evaluate py row) fun _ =>
        low.reads py row ++ afterOk (low.evaluate py row) fun _ => high.reads py row
  | .like expression pattern _ =>
      expression.reads py row ++ afterOk (expression.evaluate py row) fun _ => pattern.reads py row
  | .case branches default _ =>
      readsBranches py row branches ++ afterOk (evaluateBranches py row branches) fun result =>
        if result.isNone then default.reads py row else []
  | .scalarFunction _ arguments _ => readsAll py row arguments
  | .aggregateFunction name arguments resultType distinct =>
      [.aggregateFunction name arguments resultType distinct]
  | .windowFunction function partitionBy orderBy frame =>
      [.windowFunction function partitionBy orderBy frame]

def readsAll (py : Python) (row : Row) : List Expression → List Expression
  | [] => []
  | expression :: rest =>
      expression.reads py row ++ afterOk (expression.evaluate py row) fun _ => readsAll py row rest

def readsOptions (py : Python) (row : Row) (value : SQLValue) : List Expression → List Expression
  | [] => []
  | option :: rest =>
      option.reads py row ++ afterOk (option.evaluate py row) fun candidate =>
        if candidate.isNull then readsOptions py row value rest
        else if candidate.eq value then []
        else readsOptions py row value rest

def readsBranches (py : Python) (row : Row) : List (Expression × Expression) → List Expression
  | [] => []
  | (condition, result) :: rest =>
      condition.reads py row ++ afterOk (condition.evaluate py row) fun value =>
        if value = .bool true then result.reads py row else readsBranches py row rest

end

/-! ### The same course on another row -/

variable {py : Python} {row row' : Row}

/-- The other row gives the same for what is read here. -/
def Gives (py : Python) (row row' : Row) (items : List Expression) : Prop :=
  ∀ item ∈ items, item.evaluate py row' = item.evaluate py row

theorem Gives.left {items items' : List Expression} (h : Gives py row row' (items ++ items')) :
    Gives py row row' items := fun item hitem => h item (List.mem_append_left _ hitem)

theorem Gives.after {α : Type} {items : List Expression} {x : Except PyError α}
    {f : α → List Expression} (h : Gives py row row' (items ++ afterOk x f)) {a : α}
    (hx : x = .ok a) : Gives py row row' (f a) := by
  subst hx
  exact fun item hitem => h item (List.mem_append_right _ hitem)

mutual

/-- Where a row gives the references that are read the same values, the evaluation takes the
same course. -/
theorem evaluate_congr_reads : ∀ {expression : Expression},
    Gives py row row' (expression.reads py row) →
    expression.evaluate py row' = expression.evaluate py row ∧
      expression.reads py row' = expression.reads py row
  | .literal _ _, _ => ⟨rfl, rfl⟩
  | .column _ _ _, h => ⟨h _ List.mem_cons_self, rfl⟩
  | .aggregateFunction _ _ _ _, h => ⟨h _ List.mem_cons_self, rfl⟩
  | .windowFunction _ _ _ _, h => ⟨h _ List.mem_cons_self, rfl⟩
  | .cast expression _ _, h => by
    obtain ⟨hvalue, hreads⟩ :=
      evaluate_congr_reads (show Gives py row row' (expression.reads py row) from h)
    rw [evaluate, evaluate, hvalue]
    exact ⟨rfl, hreads⟩
  | .unary _ expression _, h => by
    obtain ⟨hvalue, hreads⟩ :=
      evaluate_congr_reads (show Gives py row row' (expression.reads py row) from h)
    rw [evaluate, evaluate, hvalue]
    exact ⟨rfl, hreads⟩
  | .isNull expression _, h => by
    obtain ⟨hvalue, hreads⟩ :=
      evaluate_congr_reads (show Gives py row row' (expression.reads py row) from h)
    rw [evaluate, evaluate, hvalue]
    exact ⟨rfl, hreads⟩
  | .binary _ left right _, h => by
    obtain ⟨hleft, hreads⟩ := evaluate_congr_reads h.left
    rw [evaluate, evaluate, reads, reads, hleft, hreads]
    cases hl : left.evaluate py row with
    | error e => exact ⟨rfl, rfl⟩
    | ok value =>
      obtain ⟨hright, hreads'⟩ := evaluate_congr_reads (h.after hl)
      rw [hright, afterOk, afterOk, hreads']
      exact ⟨rfl, rfl⟩
  | .like expression pattern _, h => by
    obtain ⟨hvalue, hreads⟩ := evaluate_congr_reads h.left
    rw [evaluate, evaluate, reads, reads, hvalue, hreads]
    cases hv : expression.evaluate py row with
    | error e => exact ⟨rfl, rfl⟩
    | ok value =>
      obtain ⟨hpattern, hreads'⟩ := evaluate_congr_reads (h.after hv)
      rw [hpattern, afterOk, afterOk, hreads']
      exact ⟨rfl, rfl⟩
  | .between expression low high _, h => by
    obtain ⟨hvalue, hreads⟩ := evaluate_congr_reads h.left
    rw [evaluate, evaluate, reads, reads, hvalue, hreads]
    cases hv : expression.evaluate py row with
    | error e => exact ⟨rfl, rfl⟩
    | ok value =>
      have hafter := h.after hv
      obtain ⟨hlow, hreads'⟩ := evaluate_congr_reads hafter.left
      rw [hlow, afterOk, afterOk, hreads']
      cases hl : low.evaluate py row with
      | error e => exact ⟨rfl, rfl⟩
      | ok value' =>
        obtain ⟨hhigh, hreads''⟩ := evaluate_congr_reads (hafter.after hl)
        rw [hhigh, afterOk, afterOk, hreads'']
        exact ⟨rfl, rfl⟩
  | .inList expression options negated, h => by
    obtain ⟨hvalue, hreads⟩ := evaluate_congr_reads h.left
    rw [evaluate, evaluate, reads, reads, hvalue, hreads]
    cases hv : expression.evaluate py row with
    | error e => exact ⟨rfl, rfl⟩
    | ok value =>
      have hafter := h.after hv
      rw [afterOk, afterOk, ExceptState.ok_bind, ExceptState.ok_bind]
      by_cases hnull : value.isNull = true
      · rw [if_pos hnull, if_pos hnull, if_pos hnull, if_pos hnull]
        exact ⟨rfl, rfl⟩
      · rw [if_neg hnull] at hafter
        obtain ⟨hoptions, hreads'⟩ := evaluateOptions_congr_reads negated false hafter
        rw [if_neg hnull, if_neg hnull, if_neg hnull, if_neg hnull, hreads']
        exact ⟨hoptions, rfl⟩
  | .case branches default _, h => by
    obtain ⟨hbranches, hreads⟩ := evaluateBranches_congr_reads h.left
    rw [evaluate, evaluate, reads, reads, hbranches, hreads]
    cases hb : evaluateBranches py row branches with
    | error e => exact ⟨rfl, rfl⟩
    | ok result =>
      have hafter := h.after hb
      cases result with
      | some value => exact ⟨rfl, rfl⟩
      | none =>
        obtain ⟨hdefault, hreads'⟩ := evaluate_congr_reads
          (show Gives py row row' (default.reads py row) from hafter)
        rw [afterOk, afterOk, hreads']
        exact ⟨hdefault, rfl⟩
  | .scalarFunction _ arguments _, h => by
    obtain ⟨harguments, hreads⟩ :=
      evaluateAll_congr_reads (show Gives py row row' (readsAll py row arguments) from h)
    rw [evaluate, evaluate, harguments]
    exact ⟨rfl, hreads⟩

theorem evaluateAll_congr_reads : ∀ {expressions : List Expression},
    Gives py row row' (readsAll py row expressions) →
    evaluateAll py row' expressions = evaluateAll py row expressions ∧
      readsAll py row' expressions = readsAll py row expressions
  | [], _ => ⟨rfl, rfl⟩
  | expression :: rest, h => by
    obtain ⟨hvalue, hreads⟩ := evaluate_congr_reads h.left
    rw [evaluateAll, evaluateAll, readsAll, readsAll, hvalue, hreads]
    cases hv : expression.evaluate py row with
    | error e => exact ⟨rfl, rfl⟩
    | ok value =>
      obtain ⟨hrest, hreads'⟩ := evaluateAll_congr_reads (h.after hv)
      rw [hrest, afterOk, afterOk, hreads']
      exact ⟨rfl, rfl⟩

theorem evaluateOptions_congr_reads : ∀ {options : List Expression} {value : SQLValue}
    (negated sawNull : Bool), Gives py row row' (readsOptions py row value options) →
    evaluateOptions py row' value negated sawNull options
        = evaluateOptions py row value negated sawNull options ∧
      readsOptions py row' value options = readsOptions py row value options
  | [], _, _, _, _ => ⟨rfl, rfl⟩
  | option :: rest, value, negated, sawNull, h => by
    obtain ⟨hvalue, hreads⟩ := evaluate_congr_reads h.left
    rw [evaluateOptions, evaluateOptions, readsOptions, readsOptions, hvalue, hreads]
    cases hv : option.evaluate py row with
    | error e => exact ⟨rfl, rfl⟩
    | ok candidate =>
      have hafter := h.after hv
      rw [afterOk, afterOk, ExceptState.ok_bind, ExceptState.ok_bind]
      by_cases hnull : candidate.isNull = true
      · rw [if_pos hnull] at hafter
        obtain ⟨hrest, hreads'⟩ := evaluateOptions_congr_reads negated true hafter
        rw [if_pos hnull, if_pos hnull, if_pos hnull, if_pos hnull, hreads']
        exact ⟨hrest, rfl⟩
      · rw [if_neg hnull, if_neg hnull, if_neg hnull, if_neg hnull]
        rw [if_neg hnull] at hafter
        by_cases heq : candidate.eq value = true
        · rw [if_pos heq, if_pos heq, if_pos heq, if_pos heq]
          exact ⟨rfl, rfl⟩
        · rw [if_neg heq] at hafter
          obtain ⟨hrest, hreads'⟩ := evaluateOptions_congr_reads negated sawNull hafter
          rw [if_neg heq, if_neg heq, if_neg heq, if_neg heq, hreads']
          exact ⟨hrest, rfl⟩

theorem evaluateBranches_congr_reads : ∀ {branches : List (Expression × Expression)},
    Gives py row row' (readsBranches py row branches) →
    evaluateBranches py row' branches = evaluateBranches py row branches ∧
      readsBranches py row' branches = readsBranches py row branches
  | [], _ => ⟨rfl, rfl⟩
  | (condition, result) :: rest, h => by
    obtain ⟨hvalue, hreads⟩ := evaluate_congr_reads h.left
    rw [evaluateBranches, evaluateBranches, readsBranches, readsBranches, hvalue, hreads]
    cases hv : condition.evaluate py row with
    | error e => exact ⟨rfl, rfl⟩
    | ok value =>
      have hafter := h.after hv
      rw [afterOk, afterOk, ExceptState.ok_bind, ExceptState.ok_bind]
      by_cases htrue : value = .bool true
      · rw [if_pos htrue] at hafter
        obtain ⟨hresult, hreads'⟩ := evaluate_congr_reads hafter
        rw [if_pos htrue, if_pos htrue, if_pos htrue, if_pos htrue, hresult, hreads']
        exact ⟨rfl, rfl⟩
      · rw [if_neg htrue] at hafter
        obtain ⟨hrest, hreads'⟩ := evaluateBranches_congr_reads hafter
        rw [if_neg htrue, if_neg htrue, if_neg htrue, if_neg htrue, hreads']
        exact ⟨hrest, rfl⟩

end

end Expression

end DistributedSql

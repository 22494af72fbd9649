/-
Constant folding (`_fold_expression` in `optimizer/rules.py`, `map_expression` in
`optimizer/utils.py`).

An expression is rebuilt from its folded parts and then folded itself: AND and OR with a
constant side give a side, and another constant becomes the literal of its value, unless
its evaluation raises.

Main results:
* `Expression.mapExpression_eq` — the map of an expression is the transform of what is
  rebuilt from the maps of its parts;
* `Expression.evaluate_caught` — what a constant may raise is caught;
* `Expression.fold_preserves` — the folded expression has the value of the original one,
  and is its own folding.
-/
import DistributedSql.ExpressionTrees

namespace DistributedSql

namespace Expression

mutual

/-- `map_expression`. -/
def mapExpression (transform : Expression → Except PyError Expression) :
    Expression → Except PyError Expression
  | .literal value resultType => transform (.literal value resultType)
  | .column name source resultType => transform (.column name source resultType)
  | .cast expression target implicit => do
      let expression ← expression.mapExpression transform
      transform (.cast expression target implicit)
  | .unary operator expression resultType => do
      let expression ← expression.mapExpression transform
      transform (.unary operator expression resultType)
  | .binary operator left right resultType => do
      let left ← left.mapExpression transform
      let right ← right.mapExpression transform
      transform (.binary operator left right resultType)
  | .isNull expression negated => do
      let expression ← expression.mapExpression transform
      transform (.isNull expression negated)
  | .inList expression options negated => do
      let expression ← expression.mapExpression transform
      let options ← mapAll transform options
      transform (.inList expression options negated)
  | .between expression low high negated => do
      let expression ← expression.mapExpression transform
      let low ← low.mapExpression transform
      let high ← high.mapExpression transform
      transform (.between expression low high negated)
  | .like expression pattern negated => do
      let expression ← expression.mapExpression transform
      let pattern ← pattern.mapExpression transform
      transform (.like expression pattern negated)
  | .case branches default resultType => do
      let branches ← mapBranches transform branches
      let default ← default.mapExpression transform
      transform (.case branches default resultType)
  | .scalarFunction name arguments resultType => do
      let arguments ← mapAll transform arguments
      transform (.scalarFunction name arguments resultType)
  | .aggregateFunction name arguments resultType distinct => do
      let arguments ← mapAll transform arguments
      transform (.aggregateFunction name arguments resultType distinct)
  | .windowFunction function partitionBy orderBy frame => do
      let function ← function.mapExpression transform
      let partitionBy ← mapAll transform partitionBy
      let orderBy ← mapOrder transform orderBy
      transform (.windowFunction function partitionBy orderBy frame)

def mapAll (transform : Expression → Except PyError Expression) :
    List Expression → Except PyError (List Expression)
  | [] => .ok []
  | expression :: rest => do
      let expression ← expression.mapExpression transform
      return expression :: (← mapAll transform rest)

def mapBranches (transform : Expression → Except PyError Expression) :
    List (Expression × Expression) → Except PyError (List (Expression × Expression))
  | [] => .ok []
  | (condition, result) :: rest => do
      let condition ← condition.mapExpression transform
      let result ← result.mapExpression transform
      return (condition, result) :: (← mapBranches transform rest)

/-- The sort expressions of a window. -/
def mapOrder (transform : Expression → Except PyError Expression) :
    List (Expression × Bool × Bool) → Except PyError (List (Expression × Bool × Bool))
  | [] => .ok []
  | (expression, flags) :: rest => do
      let expression ← expression.mapExpression transform
      return (expression, flags) :: (← mapOrder transform rest)

end

/-- `is_constant`. -/
def isConstant (expression : Expression) : Bool := !expression.walk.any isReference

def isLiteral : Expression → Bool
  | .literal _ _ => true
  | _ => false

/-- The expression is a literal of the object `True` or `False`. -/
def isBoolean (b : Bool) : Expression → Bool
  | .literal value _ => value = .bool b
  | _ => false

/-- The side that AND (`unit` is true) or OR gives, if one side is a constant. -/
def constantSide (unit : Bool) (left right : Expression) : Option Expression :=
  if left.isBoolean unit then some right
  else if left.isBoolean !unit then some left
  else if right.isBoolean unit then some left
  else if right.isBoolean !unit then some right
  else none

def simplifyBoolean : Expression → Option Expression
  | .binary .and left right _ => constantSide true left right
  | .binary .or left right _ => constantSide false left right
  | _ => none

/-- `except (ArithmeticError, TypeError, ValueError)`. -/
def caught : PyError → Bool
  | .arithmeticError _ | .typeError _ | .valueError _ => true
  | _ => false

/-- `_fold_expression`. -/
def foldExpression (py : Python) (expression : Expression) : Except PyError Expression :=
  match simplifyBoolean expression with
  | some side => .ok side
  | none =>
      if !expression.isConstant || expression.isLiteral then .ok expression
      else
        match expression.evaluate py [] with
        | .ok value => .ok (.literal value expression.typeInfo)
        | .error error => if caught error then .ok expression else .error error

/-! ### Rebuilding an expression -/

/-- An expression and what is rebuilt from related parts; without aggregates and windows. -/
inductive Rebuilt (R : Expression → Expression → Prop) : Expression → Expression → Prop
  | literal (value : SQLValue) (resultType : TypeInfo) :
      Rebuilt R (.literal value resultType) (.literal value resultType)
  | column (name source : String) (resultType : TypeInfo) :
      Rebuilt R (.column name source resultType) (.column name source resultType)
  | cast {expression expression' : Expression} (target : TypeInfo) (implicit : Bool) :
      R expression expression' →
      Rebuilt R (.cast expression target implicit) (.cast expression' target implicit)
  | unary (operator : UnaryOperator) {expression expression' : Expression}
      (resultType : TypeInfo) : R expression expression' →
      Rebuilt R (.unary operator expression resultType) (.unary operator expression' resultType)
  | binary (operator : BinaryOperator) {left left' right right' : Expression}
      (resultType : TypeInfo) : R left left' → R right right' →
      Rebuilt R (.binary operator left right resultType) (.binary operator left' right' resultType)
  | isNull {expression expression' : Expression} (negated : Bool) : R expression expression' →
      Rebuilt R (.isNull expression negated) (.isNull expression' negated)
  | inList {expression expression' : Expression} {options options' : List Expression}
      (negated : Bool) : R expression expression' → List.Forall₂ R options options' →
      Rebuilt R (.inList expression options negated) (.inList expression' options' negated)
  | between {expression expression' low low' high high' : Expression} (negated : Bool) :
      R expression expression' → R low low' → R high high' →
      Rebuilt R (.between expression low high negated) (.between expression' low' high' negated)
  | like {expression expression' pattern pattern' : Expression} (negated : Bool) :
      R expression expression' → R pattern pattern' →
      Rebuilt R (.like expression pattern negated) (.like expression' pattern' negated)
  | case {branches branches' : List (Expression × Expression)} {default default' : Expression}
      (resultType : TypeInfo) :
      List.Forall₂ (fun branch branch' => R branch.1 branch'.1 ∧ R branch.2 branch'.2)
        branches branches' → R default default' →
      Rebuilt R (.case branches default resultType) (.case branches' default' resultType)
  | scalarFunction (name : String) {arguments arguments' : List Expression}
      (resultType : TypeInfo) : List.Forall₂ R arguments arguments' →
      Rebuilt R (.scalarFunction name arguments resultType)
        (.scalarFunction name arguments' resultType)

private theorem exists_forall₂ {α : Type} {R : α → α → Prop} {l : List α}
    (h : ∀ a ∈ l, ∃ b, R a b) : ∃ l', List.Forall₂ R l l' := by
  induction l with
  | nil => exact ⟨[], .nil⟩
  | cons a l ih =>
    obtain ⟨⟨b, hb⟩, hl⟩ := List.forall_mem_cons.mp h
    obtain ⟨l', hl'⟩ := ih hl
    exact ⟨b :: l', .cons hb hl'⟩

/-- An expression can be rebuilt if each of its parts has a related one. -/
theorem exists_rebuilt {R : Expression → Expression → Prop} {expression : Expression}
    (haggregate : expression.isAggregate = false) (hwindow : expression.isWindow = false)
    (h : ∀ child ∈ expression.children, ∃ child', R child child') :
    ∃ rebuilt, Rebuilt R expression rebuilt := by
  cases expression with
  | literal value resultType => exact ⟨_, .literal value resultType⟩
  | column name source resultType => exact ⟨_, .column name source resultType⟩
  | cast expression target implicit =>
    obtain ⟨_, he⟩ := h expression (List.mem_singleton_self _)
    exact ⟨_, .cast target implicit he⟩
  | unary operator expression resultType =>
    obtain ⟨_, he⟩ := h expression (List.mem_singleton_self _)
    exact ⟨_, .unary operator resultType he⟩
  | isNull expression negated =>
    obtain ⟨_, he⟩ := h expression (List.mem_singleton_self _)
    exact ⟨_, .isNull negated he⟩
  | binary operator left right resultType =>
    obtain ⟨⟨_, hl⟩, ⟨_, hr⟩, -⟩ := by simpa only [children, List.forall_mem_cons] using h
    exact ⟨_, .binary operator resultType hl hr⟩
  | like left right negated =>
    obtain ⟨⟨_, hl⟩, ⟨_, hr⟩, -⟩ := by simpa only [children, List.forall_mem_cons] using h
    exact ⟨_, .like negated hl hr⟩
  | between expression low high negated =>
    obtain ⟨⟨_, he⟩, ⟨_, hl⟩, ⟨_, hh⟩, -⟩ := by
      simpa only [children, List.forall_mem_cons] using h
    exact ⟨_, .between negated he hl hh⟩
  | inList expression options negated =>
    obtain ⟨⟨_, he⟩, hoptions⟩ := List.forall_mem_cons.mp h
    obtain ⟨_, hall⟩ := exists_forall₂ hoptions
    exact ⟨_, .inList negated he hall⟩
  | case branches default resultType =>
    obtain ⟨hbranches, hdefault⟩ := List.forall_mem_append.mp h
    obtain ⟨_, hd⟩ := hdefault default (List.mem_singleton_self _)
    have hpairs : ∀ branch ∈ branches, ∃ branch' : Expression × Expression,
        R branch.1 branch'.1 ∧ R branch.2 branch'.2 := by
      intro branch hbranch
      have hparts : ∀ part ∈ [branch.1, branch.2], ∃ part', R part part' := fun part hpart =>
        hbranches part (List.mem_flatMap.mpr ⟨branch, hbranch, hpart⟩)
      obtain ⟨⟨c, hc⟩, ⟨r, hr⟩, -⟩ := by simpa only [List.forall_mem_cons] using hparts
      exact ⟨(c, r), hc, hr⟩
    obtain ⟨_, hall⟩ := exists_forall₂ hpairs
    exact ⟨_, .case resultType hall hd⟩
  | scalarFunction name arguments resultType =>
    obtain ⟨_, hall⟩ := exists_forall₂ h
    exact ⟨_, .scalarFunction name resultType hall⟩
  | aggregateFunction => cases haggregate
  | windowFunction => cases hwindow

section Map

variable {transform : Expression → Except PyError Expression}

theorem mapAll_eq {expressions expressions' : List Expression}
    (h : List.Forall₂ (fun item item' => item.mapExpression transform = .ok item')
      expressions expressions') : mapAll transform expressions = .ok expressions' := by
  induction h with
  | nil => rfl
  | cons hitem _ ih =>
    rw [mapAll, hitem, ih]
    rfl

theorem mapBranches_eq {branches branches' : List (Expression × Expression)}
    (h : List.Forall₂ (fun branch branch' => branch.1.mapExpression transform = .ok branch'.1 ∧
      branch.2.mapExpression transform = .ok branch'.2) branches branches') :
    mapBranches transform branches = .ok branches' := by
  induction h with
  | nil => rfl
  | cons hbranch _ ih =>
    rw [mapBranches, hbranch.1, hbranch.2, ih]
    rfl

/-- The map of an expression is the transform of what is rebuilt from the maps of its parts. -/
theorem mapExpression_eq {expression rebuilt : Expression}
    (h : Rebuilt (fun item item' => item.mapExpression transform = .ok item') expression rebuilt) :
    expression.mapExpression transform = transform rebuilt := by
  cases h with
  | literal | column => rfl
  | cast target implicit he => rw [mapExpression, he]; rfl
  | unary operator resultType he => rw [mapExpression, he]; rfl
  | isNull negated he => rw [mapExpression, he]; rfl
  | binary operator resultType hl hr => rw [mapExpression, hl, hr]; rfl
  | like negated hl hr => rw [mapExpression, hl, hr]; rfl
  | between negated he hl hh => rw [mapExpression, he, hl, hh]; rfl
  | inList negated he hoptions => rw [mapExpression, he, mapAll_eq hoptions]; rfl
  | case resultType hbranches hd => rw [mapExpression, mapBranches_eq hbranches, hd]; rfl
  | scalarFunction name resultType harguments => rw [mapExpression, mapAll_eq harguments]; rfl

end Map

private theorem forall₂_right {α : Type} {R S : α → α → Prop} {l l' : List α}
    (hRS : ∀ a a', R a a' → S a' a') (h : List.Forall₂ R l l') : List.Forall₂ S l' l' := by
  induction h with
  | nil => exact .nil
  | cons ha _ ih => exact .cons (hRS _ _ ha) ih

theorem Rebuilt.mono {R S : Expression → Expression → Prop} {expression rebuilt : Expression}
    (h : Rebuilt R expression rebuilt) (hRS : ∀ item item', R item item' → S item item') :
    Rebuilt S expression rebuilt := by
  cases h with
  | literal value resultType => exact .literal value resultType
  | column name source resultType => exact .column name source resultType
  | cast target implicit he => exact .cast target implicit (hRS _ _ he)
  | unary operator resultType he => exact .unary operator resultType (hRS _ _ he)
  | isNull negated he => exact .isNull negated (hRS _ _ he)
  | binary operator resultType hl hr => exact .binary operator resultType (hRS _ _ hl) (hRS _ _ hr)
  | like negated hl hr => exact .like negated (hRS _ _ hl) (hRS _ _ hr)
  | between negated he hl hh => exact .between negated (hRS _ _ he) (hRS _ _ hl) (hRS _ _ hh)
  | inList negated he hoptions =>
    exact .inList negated (hRS _ _ he) (hoptions.imp fun _ _ => hRS _ _)
  | case resultType hbranches hd =>
    exact .case resultType
      (hbranches.imp fun _ _ hbranch => ⟨hRS _ _ hbranch.1, hRS _ _ hbranch.2⟩) (hRS _ _ hd)
  | scalarFunction name resultType harguments =>
    exact .scalarFunction name resultType (harguments.imp fun _ _ => hRS _ _)

/-- What holds of the parts of what is rebuilt. -/
theorem Rebuilt.right {R S : Expression → Expression → Prop} {expression rebuilt : Expression}
    (h : Rebuilt R expression rebuilt) (hRS : ∀ item item', R item item' → S item' item') :
    Rebuilt S rebuilt rebuilt := by
  cases h with
  | literal value resultType => exact .literal value resultType
  | column name source resultType => exact .column name source resultType
  | cast target implicit he => exact .cast target implicit (hRS _ _ he)
  | unary operator resultType he => exact .unary operator resultType (hRS _ _ he)
  | isNull negated he => exact .isNull negated (hRS _ _ he)
  | binary operator resultType hl hr => exact .binary operator resultType (hRS _ _ hl) (hRS _ _ hr)
  | like negated hl hr => exact .like negated (hRS _ _ hl) (hRS _ _ hr)
  | between negated he hl hh => exact .between negated (hRS _ _ he) (hRS _ _ hl) (hRS _ _ hh)
  | inList negated he hoptions => exact .inList negated (hRS _ _ he) (forall₂_right hRS hoptions)
  | case resultType hbranches hd =>
    exact .case resultType
      (forall₂_right (fun _ _ hbranch => ⟨hRS _ _ hbranch.1, hRS _ _ hbranch.2⟩) hbranches)
      (hRS _ _ hd)
  | scalarFunction name resultType harguments =>
    exact .scalarFunction name resultType (forall₂_right hRS harguments)

/-- The parts of what is rebuilt are related to the parts of the expression. -/
theorem Rebuilt.children {R : Expression → Expression → Prop} {expression rebuilt : Expression}
    (h : Rebuilt R expression rebuilt) : List.Forall₂ R expression.children rebuilt.children := by
  cases h with
  | literal | column => exact .nil
  | cast _ _ he => exact .cons he .nil
  | unary _ _ he => exact .cons he .nil
  | isNull _ he => exact .cons he .nil
  | binary _ _ hl hr => exact .cons hl (.cons hr .nil)
  | like _ hl hr => exact .cons hl (.cons hr .nil)
  | between _ he hl hh => exact .cons he (.cons hl (.cons hh .nil))
  | inList _ he hoptions => exact .cons he hoptions
  | case _ hbranches hd =>
    refine List.rel_append ?_ (.cons hd .nil)
    induction hbranches with
    | nil => exact .nil
    | cons hbranch _ ih => exact .cons hbranch.1 (.cons hbranch.2 ih)
  | scalarFunction _ _ harguments => exact harguments

/-! ### Values -/

/-- The second expression has the value of the first one, where that has a value. -/
def Refines (py : Python) (row : Row) (expression expression' : Expression) : Prop :=
  ∀ value, expression.evaluate py row = .ok value → expression'.evaluate py row = .ok value

section Refines

variable {py : Python} {row : Row}

theorem evaluateAll_refines {expressions expressions' : List Expression}
    (h : List.Forall₂ (Refines py row) expressions expressions') {values : List SQLValue}
    (hvalues : evaluateAll py row expressions = .ok values) :
    evaluateAll py row expressions' = .ok values := by
  induction h generalizing values with
  | nil => exact hvalues
  | cons hitem _ ih =>
    obtain ⟨value, tail, hvalue, htail, rfl⟩ := evaluateAll_cons hvalues
    rw [evaluateAll, hitem value hvalue, ih htail]
    rfl

theorem evaluateOptions_refines {options options' : List Expression}
    (h : List.Forall₂ (Refines py row) options options') {value result : SQLValue}
    {negated sawNull : Bool}
    (hresult : evaluateOptions py row value negated sawNull options = .ok result) :
    evaluateOptions py row value negated sawNull options' = .ok result := by
  induction h generalizing sawNull with
  | nil => exact hresult
  | cons hitem _ ih =>
    rw [evaluateOptions] at hresult ⊢
    obtain ⟨candidate, hcandidate, hresult⟩ := ExceptState.bind_eq_ok hresult
    rw [hitem candidate hcandidate, ExceptState.ok_bind]
    -- the options after the one that is found are not evaluated
    split at hresult
    · next hnull => rw [if_pos hnull, ih hresult]
    · next hnull =>
      rw [if_neg hnull]
      split at hresult
      · next hfound => rw [if_pos hfound, hresult]
      · next hfound => rw [if_neg hfound, ih hresult]

theorem evaluateBranches_refines {branches branches' : List (Expression × Expression)}
    (h : List.Forall₂ (fun branch branch' => Refines py row branch.1 branch'.1 ∧
      Refines py row branch.2 branch'.2) branches branches') {result : Option SQLValue}
    (hresult : evaluateBranches py row branches = .ok result) :
    evaluateBranches py row branches' = .ok result := by
  induction h with
  | nil => exact hresult
  | @cons branch branch' _ _ hbranch _ ih =>
    obtain ⟨condition, value⟩ := branch
    obtain ⟨condition', value'⟩ := branch'
    rw [evaluateBranches] at hresult ⊢
    obtain ⟨test, htest, hresult⟩ := ExceptState.bind_eq_ok hresult
    rw [hbranch.1 test htest, ExceptState.ok_bind]
    split at hresult
    · next htrue =>
      obtain ⟨found, hfound, hresult⟩ := ExceptState.bind_eq_ok hresult
      rw [if_pos htrue, hbranch.2 found hfound, ← hresult]
      rfl
    · next htrue => rw [if_neg htrue, ih hresult]

/-- What is rebuilt from parts with the same values has the same value. -/
theorem Rebuilt.refines {expression rebuilt : Expression}
    (h : Rebuilt (Refines py row) expression rebuilt) : Refines py row expression rebuilt := by
  intro value hvalue
  cases h with
  | literal | column => exact hvalue
  | cast target implicit he =>
    rw [evaluate] at hvalue ⊢
    obtain ⟨v, hv, hvalue⟩ := ExceptState.bind_eq_ok hvalue
    rw [he v hv]
    exact hvalue
  | unary operator resultType he =>
    rw [evaluate] at hvalue ⊢
    obtain ⟨v, hv, hvalue⟩ := ExceptState.bind_eq_ok hvalue
    rw [he v hv]
    exact hvalue
  | isNull negated he =>
    rw [evaluate] at hvalue ⊢
    obtain ⟨v, hv, hvalue⟩ := ExceptState.bind_eq_ok hvalue
    rw [he v hv]
    exact hvalue
  | binary operator resultType hl hr =>
    rw [evaluate] at hvalue ⊢
    obtain ⟨v, hv, hvalue⟩ := ExceptState.bind_eq_ok hvalue
    obtain ⟨w, hw, hvalue⟩ := ExceptState.bind_eq_ok hvalue
    rw [hl v hv, ExceptState.ok_bind, hr w hw]
    exact hvalue
  | like negated hl hr =>
    rw [evaluate] at hvalue ⊢
    obtain ⟨v, hv, hvalue⟩ := ExceptState.bind_eq_ok hvalue
    obtain ⟨w, hw, hvalue⟩ := ExceptState.bind_eq_ok hvalue
    rw [hl v hv, ExceptState.ok_bind, hr w hw]
    exact hvalue
  | between negated he hl hh =>
    rw [evaluate] at hvalue ⊢
    obtain ⟨v, hv, hvalue⟩ := ExceptState.bind_eq_ok hvalue
    obtain ⟨low, hlow, hvalue⟩ := ExceptState.bind_eq_ok hvalue
    obtain ⟨high, hhigh, hvalue⟩ := ExceptState.bind_eq_ok hvalue
    rw [he v hv, ExceptState.ok_bind, hl low hlow, ExceptState.ok_bind, hh high hhigh]
    exact hvalue
  | inList negated he hoptions =>
    rw [evaluate] at hvalue ⊢
    obtain ⟨v, hv, hvalue⟩ := ExceptState.bind_eq_ok hvalue
    rw [he v hv, ExceptState.ok_bind]
    split at hvalue
    · next hnull => rw [if_pos hnull, hvalue]
    · next hnull => rw [if_neg hnull, evaluateOptions_refines hoptions hvalue]
  | case resultType hbranches hd =>
    rw [evaluate] at hvalue ⊢
    obtain ⟨result, hresult, hvalue⟩ := ExceptState.bind_eq_ok hvalue
    rw [evaluateBranches_refines hbranches hresult, ExceptState.ok_bind]
    cases result with
    | some v => exact hvalue
    | none => exact hd value hvalue
  | scalarFunction name resultType harguments =>
    rw [evaluate] at hvalue ⊢
    obtain ⟨values, hvalues, hvalue⟩ := ExceptState.bind_eq_ok hvalue
    rw [evaluateAll_refines harguments hvalues]
    exact hvalue

/-- A constant has the same value on every row. -/
theorem evaluate_constant {expression : Expression} (h : expression.isConstant = true)
    (row row' : Row) : expression.evaluate py row = expression.evaluate py row' := by
  refine evaluate_congr fun item hitem hreference => ?_
  rw [isConstant, Bool.not_eq_true', List.any_eq_false] at h
  exact absurd hreference (h item hitem)

/-! ### Boolean operators -/

/-- Where it evaluates, the expression is true, false or NULL. -/
def BooleanValued (py : Python) (row : Row) (expression : Expression) : Prop :=
  ∀ value, expression.evaluate py row = .ok value → value = .null ∨ ∃ b, value = .bool b

/-- The operands of AND and OR are boolean. -/
def BooleanSides (py : Python) (row : Row) : Expression → Prop
  | .binary .and left right _ => BooleanValued py row left ∧ BooleanValued py row right
  | .binary .or left right _ => BooleanValued py row left ∧ BooleanValued py row right
  | _ => True

variable (py) in
/-- Among boolean values, one side is neutral and the other one decides. -/
private theorem binaryValue_unit {operator : BinaryOperator} {unit : Bool}
    (h : operator = .and ∧ unit = true ∨ operator = .or ∧ unit = false) {value : SQLValue}
    (hvalue : value = .null ∨ ∃ b, value = .bool b) :
    binaryValue py operator (.bool unit) value = .ok value ∧
      binaryValue py operator value (.bool unit) = .ok value ∧
      binaryValue py operator (.bool !unit) value = .ok (.bool !unit) ∧
      binaryValue py operator value (.bool !unit) = .ok (.bool !unit) := by
  rcases h with ⟨rfl, rfl⟩ | ⟨rfl, rfl⟩ <;> rcases hvalue with rfl | ⟨b, rfl⟩
  · exact ⟨rfl, rfl, rfl, rfl⟩
  · cases b <;> exact ⟨rfl, rfl, rfl, rfl⟩
  · exact ⟨rfl, rfl, rfl, rfl⟩
  · cases b <;> exact ⟨rfl, rfl, rfl, rfl⟩

private theorem evaluate_isBoolean {b : Bool} {expression : Expression}
    (h : expression.isBoolean b = true) : expression.evaluate py row = .ok (.bool b) := by
  cases expression with
  | literal value resultType =>
    rw [isBoolean, decide_eq_true_iff] at h
    rw [h, evaluate]
  | _ => cases h

/-- The side that is given has the value of the whole. -/
theorem constantSide_refines {operator : BinaryOperator} {unit : Bool}
    (hoperator : operator = .and ∧ unit = true ∨ operator = .or ∧ unit = false)
    {left right side : Expression} {resultType : TypeInfo} (hleft : BooleanValued py row left)
    (hright : BooleanValued py row right) (h : constantSide unit left right = some side) :
    Refines py row (.binary operator left right resultType) side := by
  intro value hvalue
  rw [evaluate] at hvalue
  obtain ⟨v, hv, hvalue⟩ := ExceptState.bind_eq_ok hvalue
  obtain ⟨w, hw, hvalue⟩ := ExceptState.bind_eq_ok hvalue
  obtain ⟨hunit, -, hzero, -⟩ := binaryValue_unit py hoperator (hright w hw)
  obtain ⟨-, hunit', -, hzero'⟩ := binaryValue_unit py hoperator (hleft v hv)
  -- the literal is the value of its side
  have hliteral : ∀ {b : Bool} {expression : Expression} {u : SQLValue},
      expression.isBoolean b = true → expression.evaluate py row = .ok u → u = .bool b := by
    intro b expression u hb hu
    rw [evaluate_isBoolean hb, Except.ok.injEq] at hu
    exact hu.symm
  unfold constantSide at h
  split at h
  · next hl =>
    cases h
    rw [hliteral hl hv, hunit] at hvalue
    rw [hw, hvalue]
  · split at h
    · next hl =>
      cases h
      rw [hliteral hl hv, hzero] at hvalue
      rw [evaluate_isBoolean hl, hvalue]
    · split at h
      · next hr =>
        cases h
        rw [hliteral hr hw, hunit'] at hvalue
        rw [hv, hvalue]
      · split at h
        · next hr =>
          cases h
          rw [hliteral hr hw, hzero'] at hvalue
          rw [evaluate_isBoolean hr, hvalue]
        · cases h

theorem simplifyBoolean_refines {expression side : Expression}
    (hsides : expression.BooleanSides py row) (h : simplifyBoolean expression = some side) :
    Refines py row expression side := by
  unfold simplifyBoolean at h
  split at h
  · exact constantSide_refines (Or.inl ⟨rfl, rfl⟩) hsides.1 hsides.2 h
  · exact constantSide_refines (Or.inr ⟨rfl, rfl⟩) hsides.1 hsides.2 h
  · cases h

/-- What is given in place of AND or OR is one of its sides. -/
theorem simplifyBoolean_mem {expression side : Expression}
    (h : simplifyBoolean expression = some side) : side ∈ expression.children := by
  have hside : ∀ {unit : Bool} {left right : Expression},
      constantSide unit left right = some side → side ∈ [left, right] := by
    intro unit left right h
    unfold constantSide at h
    split_ifs at h <;> cases h <;> simp
  unfold simplifyBoolean at h
  split at h
  · exact hside h
  · exact hside h
  · cases h

/-- The ways in which an expression is folded. -/
theorem foldExpression_cases {expression folded : Expression}
    (h : foldExpression py expression = .ok folded) :
    simplifyBoolean expression = some folded ∨
      simplifyBoolean expression = none ∧ (folded = expression ∨ expression.isConstant = true ∧
        ∃ value, expression.evaluate py [] = .ok value ∧
          folded = .literal value expression.typeInfo) := by
  unfold foldExpression at h
  split at h
  · next side hside =>
    cases h
    exact Or.inl hside
  · next hnone =>
    refine Or.inr ⟨hnone, ?_⟩
    split at h
    · cases h
      exact Or.inl rfl
    · next hconstant =>
      simp only [Bool.or_eq_true, Bool.not_eq_true', not_or] at hconstant
      split at h
      · next value hvalue =>
        cases h
        exact Or.inr ⟨Bool.of_not_eq_false hconstant.1, value, hvalue, rfl⟩
      · split at h
        · cases h
          exact Or.inl rfl
        · cases h

/-- A folded expression has the value of the expression. -/
theorem foldExpression_refines {expression folded : Expression}
    (hsides : expression.BooleanSides py row) (h : foldExpression py expression = .ok folded) :
    Refines py row expression folded := by
  rcases foldExpression_cases h with hside | ⟨-, rfl | ⟨hconstant, value, hvalue, rfl⟩⟩
  · exact simplifyBoolean_refines hsides hside
  · exact fun _ => id
  · intro value' hvalue'
    rw [evaluate_constant hconstant row [], hvalue] at hvalue'
    rw [evaluate, hvalue']

end Refines

end Expression

/-! ### Exceptions -/

/-- What the computation raises is caught. -/
def Caught {α : Type} (x : Except PyError α) : Prop :=
  ∀ error, x = .error error → Expression.caught error = true

namespace Caught

variable {α β : Type}

theorem ok (a : α) : Caught (.ok a : Except PyError α) := fun _ h => by cases h

theorem error {error : PyError} (h : Expression.caught error = true) :
    Caught (.error error : Except PyError α) := fun _ heq => by
  cases heq
  exact h

theorem bind {x : Except PyError α} {f : α → Except PyError β} (hx : Caught x)
    (hf : ∀ a, Caught (f a)) : Caught (x >>= f) := by
  cases x with
  | error e => exact fun error h => hx error (by cases h; rfl)
  | ok a => exact hf a

theorem map {x : Except PyError α} (hx : Caught x) (f : α → β) : Caught (x.map f) := by
  cases x with
  | error e => exact fun error h => hx error (by cases h; rfl)
  | ok a => exact ok (f a)

theorem ite {p : Prop} [Decidable p] {x y : Except PyError α} (hx : p → Caught x)
    (hy : ¬p → Caught y) : Caught (if p then x else y) := by
  split
  · next h => exact hx h
  · next h => exact hy h

end Caught

/-- What the runtime raises on values is an arithmetic, type or value error. -/
structure Python.Ordinary (py : Python) : Prop where
  int : ∀ value, Caught (py.int value)
  float : ∀ value, Caught (py.float value)
  decimal : ∀ text, Caught (py.decimal text)
  dateFromisoformat : ∀ text, Caught (py.dateFromisoformat text)
  datetimeFromisoformat : ∀ text, Caught (py.datetimeFromisoformat text)
  floatOperation : ∀ operator x y, Caught (py.floatOperation operator x y)
  decimalOperation : ∀ operator x y, Caught (py.decimalOperation operator x y)
  intDivide : ∀ i j, Caught (py.intDivide i j)
  otherOperation : ∀ operator left right, Caught (py.otherOperation operator left right)
  round : ∀ value digits, Caught (py.round value digits)

section Values

theorem order_caught (operator : String) (left right : SQLValue) :
    Caught (left.order operator right) := by
  unfold SQLValue.order
  split
  · exact .ok _
  · exact .ok _
  · exact .ok _
  · exact .ok _
  · split
    · exact .ok _
    · exact .ok _
    · exact .error rfl
  · split
    · exact .ite (fun _ => .ite (fun _ => .error rfl) fun _ => .ok _) fun _ => .ok _
    · exact .error rfl

theorem negateValue_caught (py : Python) (value : SQLValue) : Caught (negateValue py value) := by
  unfold negateValue
  split
  · exact .ok _
  · exact .ok _
  · split
    · exact .ok _
    · exact .error rfl

theorem absValue_caught (py : Python) (value : SQLValue) : Caught (absValue py value) := by
  unfold absValue
  split
  · exact .ok _
  · exact .ok _
  · split
    · exact .ok _
    · exact .error rfl

variable {py : Python} (hpy : py.Ordinary)

include hpy

theorem intOperation_caught (operator : BinaryOperator) (i j : ℤ) :
    Caught (intOperation py operator i j) := by
  unfold intOperation
  split
  · exact .ok _
  · exact .ok _
  · exact .ok _
  · exact (hpy.intDivide i j).map _
  · exact .ite (fun _ => .error rfl) fun _ => .ok _

theorem numericOperation_caught (left right : SQLValue) (operator : BinaryOperator) :
    Caught (numericOperation py left right operator) := by
  have hdecimal : Caught (do
      let leftNumber ← py.decimal (py.str left)
      let rightNumber ← py.decimal (py.str right)
      return SQLValue.decimal (← py.decimalOperation operator leftNumber rightNumber)) :=
    (hpy.decimal _).bind fun x => (hpy.decimal _).bind fun y =>
      (hpy.decimalOperation operator x y).bind fun _ => .ok _
  have hfloat : Caught (do
      let leftNumber ← py.float left
      let rightNumber ← py.float right
      return SQLValue.float (← py.floatOperation operator leftNumber rightNumber)) :=
    (hpy.float _).bind fun x => (hpy.float _).bind fun y =>
      (hpy.floatOperation operator x y).bind fun _ => .ok _
  unfold numericOperation
  split
  · exact hdecimal
  · exact hdecimal
  · exact hfloat
  · exact hfloat
  · split
    · exact intOperation_caught hpy operator _ _
    · exact hpy.otherOperation operator left right

theorem castValue_caught (target : DataType) (value : SQLValue) :
    Caught (castValue py target value) := by
  unfold castValue
  split
  · exact (hpy.int _).map _
  · exact (hpy.int _).map _
  · exact (hpy.float _).map _
  · exact (hpy.float _).map _
  · exact (hpy.decimal _).map _
  · exact .ok _
  · exact .ok _
  · exact (hpy.dateFromisoformat _).map _
  · exact (hpy.datetimeFromisoformat _).map _
  · exact .ok _
  · exact .ok _
  · exact .ok _

theorem binaryValue_caught (operator : BinaryOperator) (left right : SQLValue) :
    Caught (binaryValue py operator left right) := by
  unfold binaryValue
  split
  · exact .ok _
  · exact .ok _
  · refine .ite (fun _ => .ok _) fun _ => ?_
    split
    · exact .ok _
    · exact .ok _
    · exact ((order_caught _ _ _).map _).map _
    · exact ((order_caught _ _ _).map _).map _
    · exact ((order_caught _ _ _).map _).map _
    · exact ((order_caught _ _ _).map _).map _
    · exact numericOperation_caught hpy left right _

/-- The numbers of arguments that `_bind_scalar_function` lets pass. -/
structure FunctionArity (function : String) (count : ℕ) : Prop where
  one : function ∈ ["lower", "upper", "length", "abs"] → count = 1
  substring : function = "substring" → count = 2 ∨ count = 3
  round : function = "round" → count = 1 ∨ count = 2

omit hpy in
theorem FunctionArity.pos {function : String} {count : ℕ} (h : FunctionArity function count)
    (hfunction : function ∈ ["lower", "upper", "length", "abs", "round"]) : 0 < count := by
  simp only [List.mem_cons, List.not_mem_nil, or_false] at hfunction
  have hone : function ∈ ["lower", "upper", "length", "abs"] ∨ function = "round" := by
    simp only [List.mem_cons, List.not_mem_nil, or_false]
    tauto
  rcases hone with hone | hround
  · rw [h.one hone]
    exact one_pos
  · rcases h.round hround with h | h <;> omega

omit hpy in
theorem substringValue_caught {values : List SQLValue}
    (h : values.length = 2 ∨ values.length = 3) : Caught (substringValue py values) := by
  unfold substringValue
  split
  · split
    · exact .error rfl
    · dsimp only
      split
      · exact .ok _
      · split
        · exact .error rfl
        · exact .ok _
  · next hshort =>
    match values, hshort, h with
    | [], _, h => simp at h
    | [_], _, h => simp at h
    | text :: start :: rest, hshort, _ => exact absurd rfl (hshort text start rest)

theorem scalarFunctionValue_caught {name : String} {values : List SQLValue}
    (h : FunctionArity (py.lower name) values.length) :
    Caught (scalarFunctionValue py name values) := by
  unfold scalarFunctionValue
  refine .ite (fun _ => .ok _) fun _ => .ite (fun _ => .ok _) fun _ => ?_
  split
  · exact .ok _
  · exact .ok _
  · exact .ok _
  · exact .ok _
  · exact .error rfl
  · exact absValue_caught py _
  · exact .ok _
  · next hsubstring _ => exact substringValue_caught (h.substring hsubstring)
  · exact hpy.round _ _
  · exact hpy.round _ _
  · next hlower hupper _ _ hlength habs _ hround _ =>
    refine .ite (fun hmem => ?_) fun _ => .error rfl
    -- the functions that read their first argument have one
    obtain ⟨value, tail, hvalues⟩ := List.exists_cons_of_length_pos (h.pos hmem)
    simp only [List.mem_cons, List.not_mem_nil, or_false] at hmem
    rcases hmem with hname | hname | hname | hname | hname
    · exact absurd hvalues (hlower value tail hname)
    · exact absurd hvalues (hupper value tail hname)
    · exact absurd hvalues (hlength value tail hname)
    · exact absurd hvalues (habs value tail hname)
    · exact absurd hvalues (hround value tail hname)

end Values

namespace Expression

section Caught

variable {py : Python} {row : Row}

private theorem evaluateAll_caught {expressions : List Expression}
    (h : ∀ item ∈ expressions, Caught (item.evaluate py row)) :
    Caught (evaluateAll py row expressions) := by
  induction expressions with
  | nil => exact .ok _
  | cons item rest ih =>
    obtain ⟨hitem, hrest⟩ := List.forall_mem_cons.mp h
    exact hitem.bind fun _ => (ih hrest).bind fun _ => .ok _

private theorem evaluateOptions_caught {options : List Expression}
    (h : ∀ item ∈ options, Caught (item.evaluate py row)) (value : SQLValue)
    (negated sawNull : Bool) : Caught (evaluateOptions py row value negated sawNull options) := by
  induction options generalizing sawNull with
  | nil => exact .ok _
  | cons item rest ih =>
    obtain ⟨hitem, hrest⟩ := List.forall_mem_cons.mp h
    exact hitem.bind fun _ => .ite (fun _ => ih hrest true) fun _ =>
      .ite (fun _ => .ok _) fun _ => ih hrest sawNull

private theorem evaluateBranches_caught {branches : List (Expression × Expression)}
    (h : ∀ branch ∈ branches, Caught (branch.1.evaluate py row) ∧
      Caught (branch.2.evaluate py row)) : Caught (evaluateBranches py row branches) := by
  induction branches with
  | nil => exact .ok _
  | cons branch rest ih =>
    obtain ⟨hbranch, hrest⟩ := List.forall_mem_cons.mp h
    exact hbranch.1.bind fun _ => .ite (fun _ => hbranch.2.bind fun _ => .ok _) fun _ => ih hrest

/-- The functions have the numbers of arguments that the binder lets pass. -/
def Arity (py : Python) : Expression → Prop
  | .scalarFunction name arguments _ => FunctionArity (py.lower name) arguments.length
  | _ => True

/-- What the evaluation of a constant raises is caught. -/
theorem evaluate_caught (hpy : py.Ordinary) {expression : Expression}
    (hconstant : expression.isConstant = true)
    (harity : ∀ item ∈ expression.walk, item.Arity py) :
    Caught (expression.evaluate py row) := by
  induction expression using children_induction with
  | h expression ih =>
    rw [isConstant, Bool.not_eq_true', List.any_eq_false] at hconstant
    rw [walk_eq, List.forall_mem_cons] at hconstant harity
    have hparts : ∀ child ∈ expression.children, Caught (child.evaluate py row) := by
      intro child hchild
      have hwalk : ∀ item ∈ child.walk, item ∈ expression.children.flatMap walk := fun item hitem =>
        List.mem_flatMap.mpr ⟨child, hchild, hitem⟩
      refine ih child hchild ?_ fun item hitem => harity.2 item (hwalk item hitem)
      rw [isConstant, Bool.not_eq_true', List.any_eq_false]
      exact fun item hitem => hconstant.2 item (hwalk item hitem)
    cases expression with
    | literal => exact .ok _
    | column | aggregateFunction | windowFunction => exact absurd rfl hconstant.1
    | cast expression target implicit =>
      refine (hparts expression (List.mem_singleton_self _)).bind fun _ => ?_
      exact .ite (fun _ => .ok _) fun _ => castValue_caught hpy _ _
    | unary operator expression resultType =>
      refine (hparts expression (List.mem_singleton_self _)).bind fun _ => ?_
      refine .ite (fun _ => .ok _) fun _ => ?_
      cases operator with
      | not => exact .ok _
      | negate => exact negateValue_caught py _
    | isNull expression negated =>
      exact (hparts expression (List.mem_singleton_self _)).bind fun _ => .ok _
    | binary operator left right resultType =>
      obtain ⟨hleft, hright, -⟩ := by simpa only [children, List.forall_mem_cons] using hparts
      exact hleft.bind fun _ => hright.bind fun _ => binaryValue_caught hpy _ _ _
    | like left right negated =>
      obtain ⟨hleft, hright, -⟩ := by simpa only [children, List.forall_mem_cons] using hparts
      exact hleft.bind fun _ => hright.bind fun _ => .ite (fun _ => .ok _) fun _ => .ok _
    | between expression low high negated =>
      obtain ⟨hvalue, hlow, hhigh, -⟩ := by
        simpa only [children, List.forall_mem_cons] using hparts
      refine hvalue.bind fun _ => hlow.bind fun _ => hhigh.bind fun _ => ?_
      refine .ite (fun _ => .ok _) fun _ => ((order_caught _ _ _).map _).bind fun _ => ?_
      exact .ite (fun _ => ((order_caught _ _ _).map _).bind fun _ => .ok _) fun _ => .ok _
    | inList expression options negated =>
      obtain ⟨hvalue, hoptions⟩ := List.forall_mem_cons.mp hparts
      exact hvalue.bind fun _ => .ite (fun _ => .ok _) fun _ =>
        evaluateOptions_caught hoptions _ _ _
    | case branches default resultType =>
      obtain ⟨hbranches, hdefault⟩ := List.forall_mem_append.mp hparts
      have hpairs : ∀ branch ∈ branches, Caught (branch.1.evaluate py row) ∧
          Caught (branch.2.evaluate py row) := by
        intro branch hbranch
        have hmem : ∀ part ∈ [branch.1, branch.2], Caught (part.evaluate py row) :=
          fun part hpart => hbranches part (List.mem_flatMap.mpr ⟨branch, hbranch, hpart⟩)
        exact ⟨hmem _ List.mem_cons_self, hmem _ (List.mem_cons_of_mem _ List.mem_cons_self)⟩
      refine (evaluateBranches_caught hpairs).bind fun result => ?_
      cases result with
      | some value => exact .ok _
      | none => exact hdefault default (List.mem_singleton_self _)
    | scalarFunction name arguments resultType =>
      rw [evaluate]
      intro error herror
      cases hvalues : evaluateAll py row arguments with
      | error e =>
        rw [hvalues] at herror
        cases herror
        exact evaluateAll_caught hparts _ hvalues
      | ok values =>
        rw [hvalues] at herror
        refine scalarFunctionValue_caught hpy ?_ error herror
        rw [length_of_evaluateAll hvalues]
        exact harity.1

end Caught

/-! ### Folding an expression -/

variable {py : Python}

private theorem foldExpression_ok (hpy : py.Ordinary) {expression : Expression}
    (harity : ∀ item ∈ expression.walk, item.Arity py) :
    ∃ folded, foldExpression py expression = .ok folded := by
  unfold foldExpression
  cases simplifyBoolean expression with
  | some side => exact ⟨side, rfl⟩
  | none =>
    dsimp only
    split
    · exact ⟨_, rfl⟩
    · next hconstant =>
      simp only [Bool.or_eq_true, Bool.not_eq_true', not_or] at hconstant
      have hcaught : Caught (expression.evaluate py []) :=
        evaluate_caught hpy (Bool.of_not_eq_false hconstant.1) harity
      cases hvalue : expression.evaluate py [] with
      | ok value => exact ⟨_, rfl⟩
      | error error =>
        dsimp only
        rw [if_pos (hcaught error hvalue)]
        exact ⟨_, rfl⟩

/-- An expression without aggregates and windows, with the arguments its functions take. -/
structure Scalar (py : Python) (expression : Expression) : Prop where
  aggregate : expression.containsAggregate = false
  window : expression.containsWindow = false
  arity : ∀ item ∈ expression.walk, item.Arity py

theorem Scalar.root {expression : Expression} (h : expression.Scalar py) :
    expression.isAggregate = false ∧ expression.isWindow = false := by
  have hroot : expression ∈ expression.walk := by
    rw [walk_eq]
    exact List.mem_cons_self
  exact ⟨Bool.of_not_eq_true (List.any_eq_false.mp h.aggregate _ hroot),
    Bool.of_not_eq_true (List.any_eq_false.mp h.window _ hroot)⟩

/-- An expression is scalar if its root is and its parts are. -/
theorem scalar_iff {expression : Expression} : expression.Scalar py ↔
    (expression.isAggregate = false ∧ expression.isWindow = false ∧ expression.Arity py) ∧
      ∀ child ∈ expression.children, child.Scalar py := by
  constructor
  · intro h
    obtain ⟨haggregate, hwindow⟩ := h.root
    have harity := h.arity
    rw [walk_eq, List.forall_mem_cons] at harity
    refine ⟨⟨haggregate, hwindow, harity.1⟩, fun child hchild => ?_⟩
    have hwalk : ∀ item ∈ child.walk, item ∈ expression.walk := by
      intro item hitem
      rw [walk_eq expression]
      exact List.mem_cons_of_mem _ (List.mem_flatMap.mpr ⟨child, hchild, hitem⟩)
    exact ⟨List.any_eq_false.mpr fun item hitem =>
        List.any_eq_false.mp h.aggregate item (hwalk item hitem),
      List.any_eq_false.mpr fun item hitem => List.any_eq_false.mp h.window item (hwalk item hitem),
      fun item hitem => h.arity item (hwalk item hitem)⟩
  · rintro ⟨⟨haggregate, hwindow, harity⟩, hchildren⟩
    have hitem : ∀ item ∈ expression.walk, item = expression ∨
        ∃ child ∈ expression.children, item ∈ child.walk := by
      intro item hitem
      rw [walk_eq, List.mem_cons, List.mem_flatMap] at hitem
      exact hitem
    refine ⟨List.any_eq_false.mpr fun item hmem => ?_, List.any_eq_false.mpr fun item hmem => ?_,
      fun item hmem => ?_⟩
    · rcases hitem item hmem with rfl | ⟨child, hchild, hmem⟩
      · exact ne_true_of_eq_false haggregate
      · exact List.any_eq_false.mp (hchildren child hchild).aggregate item hmem
    · rcases hitem item hmem with rfl | ⟨child, hchild, hmem⟩
      · exact ne_true_of_eq_false hwindow
      · exact List.any_eq_false.mp (hchildren child hchild).window item hmem
    · rcases hitem item hmem with rfl | ⟨child, hchild, hmem⟩
      · exact harity
      · exact (hchildren child hchild).arity item hmem

/-- What is rebuilt from scalar parts is scalar. -/
theorem Rebuilt.scalar {R : Expression → Expression → Prop} {expression rebuilt : Expression}
    (h : Rebuilt R expression rebuilt) (hexpression : expression.Scalar py)
    (hR : ∀ item item', R item item' → item'.Scalar py) : rebuilt.Scalar py := by
  obtain ⟨⟨-, -, harity⟩, -⟩ := scalar_iff.mp hexpression
  refine scalar_iff.mpr ⟨?_, fun child hchild => ?_⟩
  · cases h with
    | scalarFunction name resultType harguments =>
      refine ⟨rfl, rfl, ?_⟩
      rw [Arity] at harity ⊢
      rw [← harguments.length_eq]
      exact harity
    | _ => exact ⟨rfl, rfl, trivial⟩
  · obtain ⟨item, -, hitem⟩ := ExceptState.exists_mem_of_forall₂ h.children hchild
    exact hR item child hitem

/-- A scalar expression is folded, to one that is its own folding. -/
theorem exists_folded (hpy : py.Ordinary) {expression : Expression}
    (h : expression.Scalar py) :
    ∃ folded, expression.mapExpression (foldExpression py) = .ok folded ∧
      folded.mapExpression (foldExpression py) = .ok folded ∧ folded.Scalar py := by
  induction expression using children_induction with
  | h expression ih =>
    obtain ⟨⟨haggregate, hwindow, -⟩, hchildren⟩ := scalar_iff.mp h
    obtain ⟨rebuilt, hrebuilt⟩ := exists_rebuilt haggregate hwindow fun child hchild =>
      ih child hchild (hchildren child hchild)
    have hscalar : rebuilt.Scalar py := hrebuilt.scalar h fun _ _ hitem => hitem.2.2
    have hmap : expression.mapExpression (foldExpression py) = foldExpression py rebuilt :=
      mapExpression_eq (hrebuilt.mono fun _ _ hitem => hitem.1)
    have hself : rebuilt.mapExpression (foldExpression py) = foldExpression py rebuilt :=
      mapExpression_eq (hrebuilt.right fun _ _ hitem => hitem.2.1)
    obtain ⟨folded, hfold⟩ := foldExpression_ok hpy hscalar.arity
    refine ⟨folded, hmap.trans hfold, ?_⟩
    rcases foldExpression_cases hfold with hside | ⟨-, rfl | ⟨-, value, -, rfl⟩⟩
    · -- a side is a part, and so folded already
      obtain ⟨item, -, -, hside, hscalar⟩ := ExceptState.exists_mem_of_forall₂ hrebuilt.children
        (simplifyBoolean_mem hside)
      exact ⟨hside, hscalar⟩
    · exact ⟨hself.trans hfold, hscalar⟩
    · refine ⟨?_, scalar_iff.mpr ⟨⟨rfl, rfl, trivial⟩, fun child hchild => by cases hchild⟩⟩
      rw [mapExpression]
      rfl

/-- The operands of every AND and OR of the expression are boolean on the row. -/
def BooleanOperands (py : Python) (row : Row) (expression : Expression) : Prop :=
  ∀ item ∈ expression.walk, item.BooleanSides py row

theorem BooleanOperands.child {row : Row} {expression child : Expression}
    (h : expression.BooleanOperands py row) (hchild : child ∈ expression.children) :
    child.BooleanOperands py row := by
  intro item hitem
  refine h item ?_
  rw [walk_eq]
  exact List.mem_cons_of_mem _ (List.mem_flatMap.mpr ⟨child, hchild, hitem⟩)

/-- AND and OR have boolean operands after their parts are folded too. -/
private theorem Rebuilt.booleanSides {row : Row} {expression rebuilt : Expression}
    (h : Rebuilt (Refines py row) expression rebuilt) {value : SQLValue}
    (hvalue : expression.evaluate py row = .ok value) (hsides : expression.BooleanSides py row) :
    rebuilt.BooleanSides py row := by
  have hoperand : ∀ {operand operand' : Expression}, Refines py row operand operand' →
      (∃ v, operand.evaluate py row = .ok v) → BooleanValued py row operand →
      BooleanValued py row operand' := by
    rintro operand operand' hrefines ⟨v, hv⟩ hboolean w hw
    rw [hrefines v hv, Except.ok.injEq] at hw
    exact hw ▸ hboolean v hv
  cases h with
  | binary operator resultType hl hr =>
    rw [evaluate] at hvalue
    obtain ⟨v, hv, hvalue⟩ := ExceptState.bind_eq_ok hvalue
    obtain ⟨w, hw, -⟩ := ExceptState.bind_eq_ok hvalue
    cases operator with
    | and => exact ⟨hoperand hl ⟨v, hv⟩ hsides.1, hoperand hr ⟨w, hw⟩ hsides.2⟩
    | or => exact ⟨hoperand hl ⟨v, hv⟩ hsides.1, hoperand hr ⟨w, hw⟩ hsides.2⟩
    | _ => trivial
  | _ => trivial

/-- The folded expression has the value of the expression. -/
theorem folded_refines (hpy : py.Ordinary) {row : Row} {expression folded : Expression}
    (h : expression.Scalar py) (hoperands : expression.BooleanOperands py row)
    (hfolded : expression.mapExpression (foldExpression py) = .ok folded) :
    Refines py row expression folded := by
  induction expression using children_induction generalizing folded with
  | h expression ih =>
    obtain ⟨⟨haggregate, hwindow, -⟩, hchildren⟩ := scalar_iff.mp h
    obtain ⟨rebuilt, hrebuilt⟩ := exists_rebuilt (R := fun item item' =>
        item.mapExpression (foldExpression py) = .ok item' ∧ Refines py row item item')
      haggregate hwindow fun child hchild => by
        obtain ⟨child', hchild', -⟩ := exists_folded hpy (hchildren child hchild)
        exact ⟨child', hchild', ih child hchild (hchildren child hchild)
          (hoperands.child hchild) hchild'⟩
    have hparts : Rebuilt (Refines py row) expression rebuilt :=
      hrebuilt.mono fun _ _ hitem => hitem.2
    rw [mapExpression_eq (hrebuilt.mono fun _ _ hitem => hitem.1)] at hfolded
    intro value hvalue
    have hroot : expression ∈ expression.walk := by
      rw [walk_eq]
      exact List.mem_cons_self
    exact foldExpression_refines (hparts.booleanSides hvalue (hoperands expression hroot)) hfolded
      value (hparts.refines value hvalue)

/-- Folding returns, gives an expression with the same value on every row on which the
original one evaluates, and changes nothing more. -/
theorem fold_preserves (hpy : py.Ordinary) {expression : Expression}
    (haggregate : expression.containsAggregate = false)
    (hwindow : expression.containsWindow = false)
    (harity : ∀ item ∈ expression.walk, item.Arity py) :
    ∃ folded, expression.mapExpression (foldExpression py) = .ok folded ∧
      (∀ row value, expression.BooleanOperands py row → expression.evaluate py row = .ok value →
        folded.evaluate py row = .ok value) ∧
      folded.mapExpression (foldExpression py) = .ok folded := by
  have hscalar : expression.Scalar py := ⟨haggregate, hwindow, harity⟩
  obtain ⟨folded, hfolded, hself, -⟩ := exists_folded hpy hscalar
  exact ⟨folded, hfolded, fun row value hoperands hvalue =>
    folded_refines hpy hscalar hoperands hfolded value hvalue, hself⟩

/-! ### A predicate with constant parts -/

theorem ordinary_ascii : Python.ascii.Ordinary where
  int value := by
    unfold Python.ascii
    dsimp only
    split
    · exact .ok _
    · exact .ok _
    · exact .error rfl
  float value := by
    unfold Python.ascii
    dsimp only
    split
    · exact .ok _
    · exact .error rfl
  decimal _ := .error rfl
  dateFromisoformat _ := .error rfl
  datetimeFromisoformat _ := .error rfl
  floatOperation _ _ _ := .error rfl
  decimalOperation _ _ _ := .error rfl
  intDivide _ _ := .error rfl
  otherOperation _ _ _ := .error rfl
  round _ _ := .ok _

def int64Literal (i : ℤ) : Expression := .literal (.int i) ⟨.int64, false⟩

/-- `t.x > i`, with the sum or remainder that stands for `i`. -/
def above (i : Expression) : Expression :=
  .binary .greaterThan (.column "x" "t" ⟨.int64, true⟩) i ⟨.boolean, true⟩

/-- `CASE WHEN t.x > 1 THEN TRUE ELSE 7 % 0 = 1 END` -/
def guarded : Expression :=
  .case [(above (int64Literal 1), .literal (.bool true) ⟨.boolean, false⟩)]
    (.binary .equal (.binary .modulo (int64Literal 7) (int64Literal 0) ⟨.int64, false⟩)
      (int64Literal 1) ⟨.boolean, false⟩) ⟨.boolean, false⟩

/-- `1 = 1 AND t.x > 1 + 1 AND CASE … END` -/
def constantParts : Expression :=
  .binary .and
    (.binary .and (.binary .equal (int64Literal 1) (int64Literal 1) ⟨.boolean, false⟩)
      (above (.binary .add (int64Literal 1) (int64Literal 1) ⟨.int64, false⟩)) ⟨.boolean, true⟩)
    guarded ⟨.boolean, true⟩

/-- What raises stays, and what is constant else is folded. -/
theorem fold_preserves_constantParts :
    ∃ folded, constantParts.mapExpression (foldExpression Python.ascii) = .ok folded ∧
      folded.evaluate Python.ascii [("t.x", .int 3)] = .ok (.bool true) ∧
      folded.mapExpression (foldExpression Python.ascii) = .ok folded := by
  have harity : ∀ item ∈ constantParts.walk, item.Arity Python.ascii := by
    simp only [constantParts, guarded, above, int64Literal, walk, walkBranches, List.cons_append,
      List.nil_append, List.append_nil, List.forall_mem_cons]
    simp [Arity]
  have haggregate : constantParts.containsAggregate = false := by decide
  obtain ⟨folded, hfolded, hvalue, hself⟩ :=
    fold_preserves ordinary_ascii haggregate (by decide) harity
  have hboolean : ∀ {operand : Expression},
      operand.evaluate Python.ascii [("t.x", .int 3)] = .ok (.bool true) →
        BooleanValued Python.ascii [("t.x", .int 3)] operand := by
    intro operand hoperand value hvalue
    rw [hoperand] at hvalue
    cases hvalue
    exact Or.inr ⟨true, rfl⟩
  have hoperands : constantParts.BooleanOperands Python.ascii [("t.x", .int 3)] := by
    simp only [BooleanOperands, constantParts, guarded, above, int64Literal, walk, walkBranches,
      List.cons_append, List.nil_append, List.append_nil, List.forall_mem_cons]
    refine ⟨⟨hboolean rfl, hboolean rfl⟩, ⟨hboolean rfl, hboolean rfl⟩, ?_⟩
    simp [BooleanSides]
  exact ⟨folded, hfolded, hvalue _ _ hoperands rfl, hself⟩

example : constantParts.mapExpression (foldExpression Python.ascii)
    = .ok (.binary .and (above (int64Literal 2)) guarded ⟨.boolean, true⟩) := by
  rfl

end Expression

end DistributedSql

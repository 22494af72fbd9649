/-
Which plans the cost model can estimate (`CostModel` in `optimizer/cost.py`).

All divisors but one are at least one, or tested for zero.  The equality of two columns is
taken to select `1 / max(ndv, ndv)` of the rows: that raises where both columns have no
distinct value, and is more than one where both have less than one.  A filter or a join
leaves a distinct count below one as it is at the scan.

Main results:
* `selectivity_spec` — which predicates have a selectivity between zero and one;
* `Estimator.bounded_iff` — which plans are estimated, with all selectivities and rows in
  their bounds;
* `equalColumns_raises` — an equality of columns of an empty table is not estimated.
-/
import DistributedSql.CostEstimation

namespace DistributedSql

/-! ### What an estimate satisfies -/

/-- An estimate of a column in its bounds. -/
structure ColumnEstimate.Valid (column : ColumnEstimate) : Prop where
  fraction_nonneg : 0 ≤ column.nullFraction
  fraction_le_one : column.nullFraction ≤ 1
  count_nonneg : 0 ≤ column.distinctCount
  size_nonneg : 0 ≤ column.averageSizeBytes

structure Cost.Valid (cost : Cost) : Prop where
  cpu_nonneg : 0 ≤ cost.cpu
  network_nonneg : 0 ≤ cost.network
  memory_nonneg : 0 ≤ cost.memory
  disk_nonneg : 0 ≤ cost.disk

/-- An estimate in its bounds. -/
structure CostedEstimate.Valid (estimate : CostedEstimate) : Prop where
  rows_nonneg : 0 ≤ estimate.rowCount
  size_nonneg : 0 ≤ estimate.sizeBytes
  columns_valid : ∀ name column, estimate.columns.get? name = some column → column.Valid
  cost_valid : estimate.cost.Valid

theorem Cost.Valid.add {left right : Cost} (hleft : left.Valid) (hright : right.Valid) :
    (left + right).Valid :=
  ⟨add_nonneg hleft.cpu_nonneg hright.cpu_nonneg,
    add_nonneg hleft.network_nonneg hright.network_nonneg,
    add_nonneg hleft.memory_nonneg hright.memory_nonneg,
    add_nonneg hleft.disk_nonneg hright.disk_nonneg⟩

theorem Cost.Valid.total_nonneg {cost : Cost} (h : cost.Valid) : 0 ≤ cost.total := by
  obtain ⟨hcpu, hnetwork, hmemory, hdisk⟩ := h
  unfold Cost.total
  positivity

/-! ### Division -/

theorem divide_eq {left right : ℚ} (h : right ≠ 0) : divide left right = .ok (left / right) :=
  if_neg h

theorem divide_eq_ok {left right result : ℚ} (h : divide left right = .ok result) :
    right ≠ 0 ∧ result = left / right := by
  unfold divide at h
  split at h
  · cases h
  next hne => exact ⟨hne, (Except.ok.inj h).symm⟩

/-- A number of at least one may be divided by. -/
theorem divide_max (left count : ℚ) : divide left (max count 1) = .ok (left / max count 1) :=
  divide_eq (zero_lt_one.trans_le (le_max_right count 1)).ne'

theorem max_one_pos (count : ℚ) : 0 < max count 1 := zero_lt_one.trans_le (le_max_right count 1)

/-! ### Selectivities in their bounds -/

/-- A computation that returns a number between zero and one. -/
def Fraction (result : Except PyError ℚ) : Prop := ∃ q, result = .ok q ∧ 0 ≤ q ∧ q ≤ 1

/-- A selectivity between zero and one. -/
def Selects (result : Except PyError (ℚ × String)) : Prop := Fraction (result.map Prod.fst)

theorem Selects.of_ok {q : ℚ} {evidence : String} (h : 0 ≤ q) (h' : q ≤ 1) :
    Selects (.ok (q, evidence)) := ⟨q, rfl, h, h'⟩

theorem Selects.exists {result : Except PyError (ℚ × String)} (h : Selects result) :
    ∃ q evidence, result = .ok (q, evidence) ∧ 0 ≤ q ∧ q ≤ 1 := by
  obtain ⟨q, hq, hbounds⟩ := h
  cases result with
  | error e => cases hq
  | ok pair =>
    cases hq
    exact ⟨pair.1, pair.2, rfl, hbounds⟩

theorem rangeFraction_spec (value : Number) {minimum maximum : ℚ} (h : minimum < maximum) :
    Fraction (rangeFraction value minimum maximum) := by
  cases value with
  | finite value =>
    refine ⟨min (max ((value - minimum) / (maximum - minimum)) 0) 1, ?_,
      le_min (le_max_right _ _) zero_le_one, min_le_right _ _⟩
    rw [rangeFraction, divide_eq (sub_ne_zero.mpr h.ne')]
    rfl
  | infinity negative =>
    refine ⟨_, rfl, ?_, ?_⟩ <;> split <;> norm_num
  | nan => exact ⟨0, rfl, le_refl 0, zero_le_one⟩

theorem rangeSelectivity_spec (operator : BinaryOperator) (value : SQLValue)
    (column : ColumnEstimate) : ∃ ranged, rangeSelectivity operator value column = .ok ranged ∧
      ∀ q, ranged = some q → 0 ≤ q ∧ q ≤ 1 := by
  unfold rangeSelectivity
  split
  · exact ⟨none, rfl, nofun⟩
  · split
    · split
      · exact ⟨none, rfl, nofun⟩
      next minimum maximum value hminimum hmaximum hvalue hlt =>
        obtain ⟨q, hq, hnonneg, hle⟩ := rangeFraction_spec value (not_le.mp hlt)
        rw [hq]
        refine ⟨_, rfl, fun p hp => ?_⟩
        cases hp
        split
        · exact ⟨sub_nonneg.mpr hle, sub_le_self 1 hnonneg⟩
        · exact ⟨hnonneg, hle⟩
    · exact ⟨none, rfl, nofun⟩

/-- A comparison with a literal selects a part of the rows without NULL. -/
theorem literalSelectivity_spec {column : ColumnEstimate} (h : column.Valid)
    (operator : BinaryOperator) (value : SQLValue) :
    Selects (literalSelectivity operator value column) := by
  have hnonneg : 0 ≤ 1 - column.nullFraction := sub_nonneg.mpr h.fraction_le_one
  have hle : 1 - column.nullFraction ≤ 1 := sub_le_self 1 h.fraction_nonneg
  have hpart : ∀ {q : ℚ} {evidence : String}, 0 ≤ q → q ≤ 1 →
      Selects (.ok ((1 - column.nullFraction) * q, evidence)) := fun hq hq' =>
    .of_ok (mul_nonneg hnonneg hq) (mul_le_one₀ hle hq hq')
  have hinverse : (max column.distinctCount 1)⁻¹ ≤ 1 :=
    inv_le_one_of_one_le₀ (le_max_right _ _)
  have hinverse' : 0 ≤ (max column.distinctCount 1)⁻¹ := inv_nonneg.mpr (max_one_pos _).le
  unfold literalSelectivity
  dsimp only
  split
  · split
    · exact hpart (by norm_num) (by norm_num)
    · rw [divide_max, div_eq_mul_inv]
      exact hpart hinverse' hinverse
  · split
    · exact hpart (by norm_num) (by norm_num)
    · rw [divide_max, one_div]
      exact hpart (sub_nonneg.mpr hinverse) (sub_le_self 1 hinverse')
  · obtain ⟨ranged, hranged, hbounds⟩ := rangeSelectivity_spec operator value column
    rw [hranged, ExceptState.ok_bind]
    cases ranged with
    | none => exact hpart (by norm_num) (by norm_num)
    | some q => exact hpart (hbounds q rfl).1 (hbounds q rfl).2

/-! ### Equalities of two columns -/

theorem CostedEstimate.Valid.columnEstimate {py : Python} {estimate : CostedEstimate}
    (h : estimate.Valid) {expression : Expression} {column : ColumnEstimate}
    (hcolumn : columnEstimate py estimate.columns.get? expression = some column) :
    column.Valid := by
  cases expression with
  | column name source type =>
    rcases Option.or_eq_some_iff.mp hcolumn with hcolumn | ⟨-, hcolumn⟩
    · exact h.columns_valid _ _ hcolumn
    · exact h.columns_valid _ _ hcolumn
  | _ => cases hcolumn

/-- The counts of a column at the estimate and at the scan: they agree if one is below one. -/
def SameBelowOne (column : ColumnEstimate) (count : ℚ) : Prop :=
  column.distinctCount < 1 ∨ count < 1 → column.distinctCount = count

/-- The columns of an estimate are those of the scans, with the counts below one. -/
def Tracks (columns : String → Option ColumnEstimate) (counts : String → Option ℚ) : Prop :=
  ∀ name, Option.Rel SameBelowOne (columns name) (counts name)

/-- An equality of two columns that both have less than one distinct value. -/
def LowEquality (py : Python) (counts : String → Option ℚ) : Expression → Prop
  | .binary operator left right _ => ∃ first second,
      equalityEstimates py counts operator left right = some (first, second) ∧
        first < 1 ∧ second < 1
  | _ => False

variable {py : Python} {columns : String → Option ColumnEstimate} {counts : String → Option ℚ}

private theorem Option.Rel.bind {α β γ δ : Type} {R : α → β → Prop} {S : γ → δ → Prop}
    {a : Option α} {b : Option β} {f : α → Option γ} {g : β → Option δ} (h : Option.Rel R a b)
    (hfg : ∀ a b, R a b → Option.Rel S (f a) (g b)) : Option.Rel S (a.bind f) (b.bind g) := by
  cases h with
  | some h => exact hfg _ _ h
  | none => exact .none

private theorem Option.Rel.or {α β : Type} {R : α → β → Prop} {a a' : Option α} {b b' : Option β}
    (h : Option.Rel R a b) (h' : Option.Rel R a' b') : Option.Rel R (a.or a') (b.or b') := by
  cases h with
  | some h => exact .some h
  | none => exact h'

theorem Tracks.lookupColumn (h : Tracks columns counts) (name source : String) :
    Option.Rel SameBelowOne (lookupColumn py columns name source)
      (lookupColumn py counts name source) :=
  Option.Rel.or (h _) (h _)

variable (py) in
theorem Tracks.columnEstimate (h : Tracks columns counts) (expression : Expression) :
    Option.Rel SameBelowOne (columnEstimate py columns expression)
      (columnEstimate py counts expression) := by
  cases expression with
  | column name source type => exact h.lookupColumn name source
  | _ => exact .none

variable (py) in
/-- The two columns of an equality are known to the estimate where they are known at the scans. -/
theorem Tracks.equalityEstimates (h : Tracks columns counts) (operator : BinaryOperator)
    (left right : Expression) :
    Option.Rel (fun columns counts => SameBelowOne columns.1 counts.1 ∧
        SameBelowOne columns.2 counts.2)
      (equalityEstimates py columns operator left right)
      (equalityEstimates py counts operator left right) := by
  unfold DistributedSql.equalityEstimates
  cases equalityColumns operator left right with
  | none => exact .none
  | some pair =>
    rw [Option.bind_some, Option.bind_some]
    refine Option.Rel.bind (h.lookupColumn pair.1.1 pair.1.2) fun first first' hfirst => ?_
    rw [Option.map_eq_bind, Option.map_eq_bind]
    refine Option.Rel.bind (h.lookupColumn pair.2.1 pair.2.2) fun second second' hsecond => ?_
    exact .some ⟨hfirst, hsecond⟩

theorem columns_stripCast (expression : Expression) :
    (stripCast expression).columns = expression.columns := by
  cases expression <;> rfl

/-- Where a column is compared with a literal there is only one column. -/
theorem equalityColumns_eq_none {operator : BinaryOperator} {left right : Expression}
    (h : (columnLiteral operator left right).isSome) : equalityColumns operator left right = none := by
  unfold columnLiteral at h
  unfold equalityColumns
  rw [← columns_stripCast left, ← columns_stripCast right]
  split at h
  next hleft hright =>
    rw [hleft, hright]
    cases operator <;> rfl
  next hleft hright =>
    rw [hleft, hright]
    cases operator <;> rfl
  next => cases h

private theorem rel_some {α β : Type} {R : α → β → Prop} {a : α} {b : Option β}
    (h : Option.Rel R (some a) b) : ∃ b', b = some b' ∧ R a b' := by
  cases h with
  | some h => exact ⟨_, rfl, h⟩

/-- One by a number is a selectivity if the number is not below one. -/
theorem selects_inverse_iff {count : ℚ} {evidence : String} (hnonneg : 0 ≤ count) :
    Selects (do return (← divide 1 count, evidence)) ↔ 1 ≤ count := by
  constructor
  · intro h
    obtain ⟨q, _, hq, -, hle⟩ := h.exists
    obtain ⟨q', hdivide, hq⟩ := ExceptState.bind_eq_ok hq
    cases hq
    obtain ⟨hne, rfl⟩ := divide_eq_ok hdivide
    exact (div_le_one (lt_of_le_of_ne hnonneg hne.symm)).mp hle
  · intro h
    rw [divide_eq (zero_lt_one.trans_le h).ne']
    exact .of_ok (by positivity) ((div_le_one (zero_lt_one.trans_le h)).mpr h)

/-- An operator other than AND and OR has a selectivity, exactly if it is no equality of two
columns without distinct values. -/
theorem binarySelectivity_iff {estimate : CostedEstimate} (hvalid : estimate.Valid)
    (htracks : Tracks estimate.columns.get? counts) (operator : BinaryOperator)
    (left right : Expression) (type : TypeInfo) :
    Selects (binarySelectivity py estimate operator left right) ↔
      ¬LowEquality py counts (.binary operator left right type) := by
  unfold binarySelectivity LowEquality
  dsimp only
  split
  next column value operator' hknown =>
    obtain ⟨⟨expression, rest⟩, hpair, hcolumn⟩ := Option.bind_eq_some_iff.mp hknown
    obtain ⟨_, hcolumn, heq⟩ := Option.map_eq_some_iff.mp hcolumn
    cases heq
    refine iff_of_true (literalSelectivity_spec (hvalid.columnEstimate hcolumn) _ _) ?_
    rintro ⟨first, second, hcolumns, -⟩
    rw [equalityEstimates, equalityColumns_eq_none (by rw [hpair]; rfl)] at hcolumns
    cases hcolumns
  next =>
    have hrel := htracks.equalityEstimates py operator left right
    split
    next first second hcolumns =>
      rw [hcolumns] at hrel
      obtain ⟨⟨low, low'⟩, hcounts, hfirst, hsecond⟩ := rel_some hrel
      have hnonneg : 0 ≤ max first.distinctCount second.distinctCount := by
        obtain ⟨names, -, hfound⟩ := Option.bind_eq_some_iff.mp hcolumns
        obtain ⟨_, hfirst, hfound⟩ := Option.bind_eq_some_iff.mp hfound
        obtain ⟨_, -, heq⟩ := Option.map_eq_some_iff.mp hfound
        cases heq
        exact le_max_of_le_left
          (hvalid.columnEstimate (show columnEstimate py _ (.column _ _ type) = _ from hfirst)).count_nonneg
      rw [selects_inverse_iff hnonneg, hcounts, ← not_lt, max_lt_iff, not_iff_not]
      constructor
      · rintro ⟨hlow, hlow'⟩
        exact ⟨low, low', rfl, (hfirst (Or.inl hlow)).symm.trans_lt hlow,
          (hsecond (Or.inl hlow')).symm.trans_lt hlow'⟩
      · rintro ⟨_, _, heq, hlow, hlow'⟩
        cases heq
        exact ⟨(hfirst (Or.inr hlow)).trans_lt hlow, (hsecond (Or.inr hlow')).trans_lt hlow'⟩
    next hcolumns =>
      rw [hcolumns] at hrel
      refine iff_of_true (.of_ok (by norm_num) (by norm_num)) ?_
      rintro ⟨first, second, hcounts, -⟩
      rw [hcounts] at hrel
      cases hrel

/-- The expressions that `_selectivity` comes to: through AND and OR. -/
def selectivityNodes : Expression → List Expression
  | .binary .and left right type =>
      .binary .and left right type :: (selectivityNodes left ++ selectivityNodes right)
  | .binary .or left right type =>
      .binary .or left right type :: (selectivityNodes left ++ selectivityNodes right)
  | expression => [expression]

/-- A part of the estimate's rows for the whole, where the parts are. -/
private theorem selects_and {estimate : CostedEstimate} {left right : Expression} {type : TypeInfo}
    (hleft : Selects (selectivity py estimate left))
    (hright : Selects (selectivity py estimate right)) :
    Selects (selectivity py estimate (.binary .and left right type)) := by
  obtain ⟨p, _, hp, hp0, hp1⟩ := hleft.exists
  obtain ⟨q, _, hq, hq0, hq1⟩ := hright.exists
  rw [selectivity, hp, hq]
  exact .of_ok (mul_nonneg hp0 hq0) (mul_le_one₀ hp1 hq0 hq1)

private theorem selects_or {estimate : CostedEstimate} {left right : Expression} {type : TypeInfo}
    (hleft : Selects (selectivity py estimate left))
    (hright : Selects (selectivity py estimate right)) :
    Selects (selectivity py estimate (.binary .or left right type)) := by
  obtain ⟨p, _, hp, hp0, hp1⟩ := hleft.exists
  obtain ⟨q, _, hq, hq0, hq1⟩ := hright.exists
  rw [selectivity, hp, hq]
  have hpq : p + q - p * q = 1 - (1 - p) * (1 - q) := by ring
  refine .of_ok ?_ ?_
  · rw [hpq]
    exact sub_nonneg.mpr (mul_le_one₀ (sub_le_self 1 hp0) (sub_nonneg.mpr hq1) (sub_le_self 1 hq0))
  · rw [hpq]
    exact sub_le_self 1 (mul_nonneg (sub_nonneg.mpr hp1) (sub_nonneg.mpr hq1))

private theorem self_mem (expression : Expression) : expression ∈ selectivityNodes expression := by
  unfold selectivityNodes
  split <;> exact List.mem_cons_self

/-- A part of a predicate other than a comparison has a selectivity. -/
private theorem selects_other {estimate : CostedEstimate} (hvalid : estimate.Valid)
    {predicate : Expression} (h : ∀ operator left right type,
      predicate ≠ .binary operator left right type) : Selects (selectivity py estimate predicate) := by
  have hdefault : Selects (.ok defaultSelectivity) := .of_ok (by norm_num) (by norm_num)
  cases predicate with
  | binary operator left right type => exact absurd rfl (h operator left right type)
  | isNull expression negated =>
    rw [selectivity]
    split
    next column hcolumn =>
      have hcolumn := hvalid.columnEstimate hcolumn
      split
      · exact .of_ok (sub_nonneg.mpr hcolumn.fraction_le_one) (sub_le_self 1 hcolumn.fraction_nonneg)
      · exact .of_ok hcolumn.fraction_nonneg hcolumn.fraction_le_one
    next => exact hdefault
  | inList expression options negated =>
    rw [selectivity]
    split
    next column hcolumn =>
      have hcolumn := hvalid.columnEstimate hcolumn
      have hquotient : (0 : ℚ) ≤ options.length / max column.distinctCount 1 :=
        div_nonneg (Nat.cast_nonneg _) (max_one_pos _).le
      rw [divide_max]
      exact .of_ok (mul_nonneg (le_min hquotient zero_le_one)
          (sub_nonneg.mpr hcolumn.fraction_le_one))
        (mul_le_one₀ (min_le_right _ _) (sub_nonneg.mpr hcolumn.fraction_le_one)
          (sub_le_self 1 hcolumn.fraction_nonneg))
    next => exact hdefault
  | between | like => exact .of_ok (by norm_num) (by norm_num)
  | literal value type =>
    rw [selectivity]
    split
    · exact .of_ok zero_le_one le_rfl
    · exact .of_ok le_rfl zero_le_one
  | _ => exact hdefault

/-- All selectivities of a predicate are between zero and one, exactly if none of its parts is
an equality of two columns with less than one distinct value. -/
theorem selectivity_spec {estimate : CostedEstimate} (hvalid : estimate.Valid)
    (htracks : Tracks estimate.columns.get? counts) (predicate : Expression) :
    (∀ node ∈ selectivityNodes predicate, Selects (selectivity py estimate node)) ↔
      ∀ node ∈ selectivityNodes predicate, ¬LowEquality py counts node := by
  have hnotLow : ∀ {operator : BinaryOperator} {left right : Expression} {type : TypeInfo},
      operator ≠ .equal → ¬LowEquality py counts (.binary operator left right type) := by
    rintro operator left right type hne ⟨first, second, hestimates, -⟩
    have hnone : equalityColumns operator left right = none := by
      cases operator with
      | equal => exact absurd rfl hne
      | _ => rfl
    rw [equalityEstimates, hnone] at hestimates
    cases hestimates
  induction predicate using selectivityNodes.induct with
  | case1 left right type ihl ihr =>
    rw [selectivityNodes, List.forall_mem_cons, List.forall_mem_cons, List.forall_mem_append,
      List.forall_mem_append]
    have hsides := and_congr ihl ihr
    refine ⟨fun h => ⟨hnotLow (by decide), hsides.mp h.2⟩, fun h => ⟨?_, hsides.mpr h.2⟩⟩
    obtain ⟨hleft, hright⟩ := hsides.mpr h.2
    exact selects_and (hleft _ (self_mem left)) (hright _ (self_mem right))
  | case2 left right type ihl ihr =>
    rw [selectivityNodes, List.forall_mem_cons, List.forall_mem_cons, List.forall_mem_append,
      List.forall_mem_append]
    have hsides := and_congr ihl ihr
    refine ⟨fun h => ⟨hnotLow (by decide), hsides.mp h.2⟩, fun h => ⟨?_, hsides.mpr h.2⟩⟩
    obtain ⟨hleft, hright⟩ := hsides.mpr h.2
    exact selects_or (hleft _ (self_mem left)) (hright _ (self_mem right))
  | case3 predicate hand hor =>
    have hself : selectivityNodes predicate = [predicate] := by
      rw [selectivityNodes.eq_def]
      split
      next left right type => exact absurd rfl (hand left right type)
      next left right type => exact absurd rfl (hor left right type)
      next => rfl
    rw [hself, List.forall_mem_singleton, List.forall_mem_singleton]
    by_cases hbinary : ∃ operator left right type, predicate = .binary operator left right type
    · obtain ⟨operator, left, right, type, rfl⟩ := hbinary
      have hselectivity : selectivity py estimate (.binary operator left right type)
          = binarySelectivity py estimate operator left right := by
        cases operator with
        | and => exact absurd rfl (hand left right type)
        | or => exact absurd rfl (hor left right type)
        | _ => rfl
      rw [hselectivity]
      exact binarySelectivity_iff hvalid htracks operator left right type
    · refine iff_of_true (selects_other hvalid fun operator left right type heq =>
        hbinary ⟨operator, left, right, type, heq⟩) ?_
      cases predicate with
      | binary operator left right type => exact absurd ⟨operator, left, right, type, rfl⟩ hbinary
      | _ => exact id

/-! ### Scans -/

/-- The fraction of NULLs in a column. -/
def scanFraction (rows : ℚ) (raw : Option ColumnStatistics) (field : SchemaField) : ℚ :=
  match raw.bind ColumnStatistics.nullCount with
  | some count => min (count / max rows 1) 1
  | none => if field.nullable then defaultNullFraction else 0

/-- The distinct values of a column, as far as the catalog tells. -/
def scanCount (py : Python) (tableName : String) (table : CatalogTable) (field : SchemaField) : ℚ :=
  let rows := (tableRows tableName table).1
  let raw := rawColumn py table field
  (distinctCount (tableName ++ "." ++ field.name) rows (scanFraction rows raw field) raw).1

theorem tableRows_nonneg (tableName : String) (table : CatalogTable) :
    0 ≤ (tableRows tableName table).1 := by
  unfold tableRows
  split
  · exact Nat.cast_nonneg _
  · exact Nat.cast_nonneg _
  · norm_num [defaultRowCount]

theorem nullFraction_eq (text : String) (rows : ℚ) (raw : Option ColumnStatistics)
    (field : SchemaField) :
    ∃ source, nullFraction text rows raw field = .ok (scanFraction rows raw field, source) := by
  unfold nullFraction scanFraction
  cases raw.bind ColumnStatistics.nullCount with
  | some count =>
    dsimp only
    rw [divide_max]
    exact ⟨_, rfl⟩
  | none => exact ⟨_, rfl⟩

theorem scanFraction_bounds (rows : ℚ) (raw : Option ColumnStatistics) (field : SchemaField) :
    0 ≤ scanFraction rows raw field ∧ scanFraction rows raw field ≤ 1 := by
  unfold scanFraction
  split
  · exact ⟨le_min (div_nonneg (Nat.cast_nonneg _) (max_one_pos _).le) zero_le_one, min_le_right _ _⟩
  · split
    · norm_num [defaultNullFraction]
    · norm_num

theorem typeWidth_nonneg (dataType : DataType) : 0 ≤ typeWidth dataType := by
  cases dataType <;> norm_num [typeWidth]

theorem scanColumn_spec (py : Python) (tableName : String) (table : CatalogTable)
    (field : SchemaField) : ∃ column, scanColumn py tableName table field = .ok column ∧
      column.Valid ∧ column.distinctCount = scanCount py tableName table field := by
  obtain ⟨source, hfraction⟩ := nullFraction_eq (tableName ++ "." ++ field.name)
    (tableRows tableName table).1 (rawColumn py table field) field
  obtain ⟨hnonneg, hle⟩ :=
    scanFraction_bounds (tableRows tableName table).1 (rawColumn py table field) field
  unfold scanColumn
  dsimp only
  rw [hfraction, ExceptState.ok_bind]
  refine ⟨_, rfl, ⟨hnonneg, hle, ?_, ?_⟩, rfl⟩
  · change 0 ≤ (distinctCount _ _ _ _).1
    unfold distinctCount
    split
    · exact le_min (Nat.cast_nonneg _) (le_max_right _ _)
    · exact le_max_right _ _
  · change 0 ≤ (match _ with | some size => ((size : ℚ≥0) : ℚ) | none => typeWidth field.dataType)
    split
    next size _ => exact size.2
    next => exact typeWidth_nonneg _

private theorem lookup_rel {α β : Type} {R : α → β → Prop} {items : List (String × α)}
    {items' : List (String × β)}
    (h : List.Forall₂ (fun item item' => item.1 = item'.1 ∧ R item.2 item'.2) items items')
    (name : String) : Option.Rel R (items.lookup name) (items'.lookup name) := by
  induction h with
  | nil => exact .none
  | @cons item item' _ _ hitem _ ih =>
    rw [List.lookup_cons, List.lookup_cons, hitem.1]
    split
    · exact .some hitem.2
    · exact ih

/-- The distinct counts that the columns of a plan have at their scans. -/
def Estimator.columnCounts (py : Python) (model : Estimator) :
    LogicalPlan → String → Option ℚ
  | .scan _ tableName tableAlias schema => fun name =>
      match model.catalog.get? (py.casefold tableName) with
      | none => none
      | some table => (schema.map fun field =>
          (scanKey py tableAlias field, scanCount py tableName table field)).reverse.lookup name
  | .filter _ input _ _ _ => model.columnCounts py input
  | .project _ input expressions _ => fun name =>
      (projectColumns py (model.columnCounts py input) expressions).reverse.lookup name
  | .aggregate _ _ _ _ _ => fun _ => none
  | .groupingSets _ _ _ _ _ => fun _ => none
  | .join _ left right _ _ _ _ _ => fun name =>
      (model.columnCounts py right name).or (model.columnCounts py left name)
  | .limit _ input _ _ => model.columnCounts py input
  | .order _ input _ _ => model.columnCounts py input
  | .window _ input _ _ => model.columnCounts py input

/-- A dictionary with related items is related to the list of them. -/
private theorem tracks_update {items : List (String × ColumnEstimate)} {items' : List (String × ℚ)}
    (h : List.Forall₂ (fun item item' => item.1 = item'.1 ∧ SameBelowOne item.2 item'.2)
      items items') :
    Tracks ((Dict.empty : Dict String ColumnEstimate).update items).get?
      fun name => items'.reverse.lookup name := by
  intro name
  rw [Dict.get?_update, Dict.get?_empty, Option.or_none]
  exact lookup_rel (List.rel_reverse h) name

private theorem valid_update {items : List (String × ColumnEstimate)}
    (h : ∀ item ∈ items, item.2.Valid) (name : String) (column : ColumnEstimate)
    (hcolumn : ((Dict.empty : Dict String ColumnEstimate).update items).get? name = some column) :
    column.Valid := by
  rcases Dict.mem_of_get?_update hcolumn with hmem | hnone
  · exact h _ hmem
  · cases hnone

theorem tableSize_nonneg (tableName : String) (table : CatalogTable) {rows : ℚ} (hrows : 0 ≤ rows)
    {columns : List ColumnEstimate} (h : ∀ column ∈ columns, column.Valid) :
    0 ≤ (tableSize tableName table rows columns).1 := by
  unfold tableSize
  split
  · exact Nat.cast_nonneg _
  · exact Nat.cast_nonneg _
  · refine mul_nonneg hrows (List.sum_nonneg fun size hsize => ?_)
    obtain ⟨column, hcolumn, rfl⟩ := List.mem_map.mp hsize
    exact (h column hcolumn).size_nonneg

/-- A registered table is estimated. -/
theorem Estimator.scan_spec (model : Estimator) (nodeId : String)
    {tableName tableAlias : String} {schema : Schema} {table : CatalogTable}
    (htable : model.catalog.get? (py.casefold tableName) = some table) :
    ∃ estimate, model.scan py tableName tableAlias schema = .ok estimate ∧ estimate.Valid ∧
      Tracks estimate.columns.get?
        (model.columnCounts py (.scan nodeId tableName tableAlias schema)) := by
  obtain ⟨columns, hcolumns, hall⟩ := ExceptState.exists_mapM_eq_ok
    (f := fun field => do
      return (scanKey py tableAlias field, ← scanColumn py tableName table field))
    (P := fun field (column : String × ColumnEstimate) => column.1 = scanKey py tableAlias field ∧
      column.2.Valid ∧ column.2.distinctCount = scanCount py tableName table field)
    (l := schema) fun field _ => by
      obtain ⟨column, hcolumn, hspec⟩ := scanColumn_spec py tableName table field
      refine ⟨(scanKey py tableAlias field, column), ?_, rfl, hspec⟩
      rw [hcolumn]
      rfl
  have hvalid : ∀ item ∈ columns, item.2.Valid := by
    intro item hitem
    obtain ⟨field, -, hfield⟩ := ExceptState.mem_of_mapM_eq_ok hcolumns hitem
    obtain ⟨column, hcolumn, hspec⟩ := scanColumn_spec py tableName table field
    rw [hcolumn] at hfield
    cases hfield
    exact hspec.1
  have hcounts : List.Forall₂ (fun item item' => item.1 = item'.1 ∧ SameBelowOne item.2 item'.2)
      columns (schema.map fun field =>
        (scanKey py tableAlias field, scanCount py tableName table field)) := by
    rw [List.forall₂_map_right_iff]
    exact hall.flip.imp fun item field hitem => ⟨hitem.1, fun _ => hitem.2.2⟩
  have hsize : 0 ≤ (tableSize tableName table (tableRows tableName table).1
      ((Dict.empty : Dict String ColumnEstimate).update columns).values).1 := by
    refine tableSize_nonneg tableName table (tableRows_nonneg tableName table) fun column hmem => ?_
    obtain ⟨⟨name, column⟩, hitem, rfl⟩ := List.mem_map.mp hmem
    exact valid_update hvalid name column (Dict.mem_items.mp hitem)
  have hrows := tableRows_nonneg tableName table
  rw [Estimator.scan, htable]
  dsimp only
  rw [hcolumns, ExceptState.ok_bind]
  refine ⟨_, rfl, ⟨hrows, hsize, valid_update hvalid,
    ⟨mul_nonneg hrows (by norm_num), le_rfl, le_rfl, hsize⟩⟩, ?_⟩
  rw [Estimator.columnCounts, htable]
  exact tracks_update hcounts

/-! ### Operators -/

variable {child left right : CostedEstimate} {rows : ℚ}

/-- The ratio of a part of the rows to all of them. -/
private theorem ratio_spec (hchild : child.Valid) (hrows : 0 ≤ rows) :
    ∃ ratio, rowRatio rows child = .ok ratio ∧ 0 ≤ ratio := by
  unfold rowRatio
  split
  next hne => exact ⟨_, divide_eq hne, div_nonneg hrows hchild.rows_nonneg⟩
  next => exact ⟨0, rfl, le_rfl⟩

theorem unaryEstimate_spec {cost : Cost} (hchild : child.Valid) (hrows : 0 ≤ rows)
    (hcost : cost.Valid) : ∃ estimate, unaryEstimate child rows cost = .ok estimate ∧
      estimate.Valid ∧ estimate.rowCount = rows ∧ estimate.columns = child.columns := by
  obtain ⟨ratio, hratio, hnonneg⟩ := ratio_spec hchild hrows
  rw [unaryEstimate, hratio]
  exact ⟨_, rfl, ⟨hrows, mul_nonneg hchild.size_nonneg hnonneg, hchild.columns_valid,
    hchild.cost_valid.add hcost⟩, rfl, rfl⟩

/-- A predicate that has any selectivity leaves no more rows than there were. -/
theorem filterEstimate_spec (hchild : child.Valid) (htracks : Tracks child.columns.get? counts)
    {predicate : Expression} {selected : ℚ} {evidence : String}
    (hselected : selectivity py child predicate = .ok (selected, evidence)) :
    ∃ estimate, filterEstimate py child predicate = .ok estimate ∧ estimate.Valid ∧
      estimate.rowCount ≤ child.rowCount ∧ Tracks estimate.columns.get? counts := by
  have hrows : 0 ≤ min (max (child.rowCount * selected) 0) child.rowCount :=
    le_min (le_max_right _ _) hchild.rows_nonneg
  obtain ⟨ratio, hratio, hnonneg⟩ := ratio_spec hchild hrows
  rw [filterEstimate, hselected, ExceptState.ok_bind]
  dsimp only
  rw [hratio]
  refine ⟨_, rfl, ⟨hrows, mul_nonneg hchild.size_nonneg hnonneg, fun name column hcolumn => ?_,
    hchild.cost_valid.add ⟨hchild.rows_nonneg, le_rfl, le_rfl, le_rfl⟩⟩, min_le_right _ _,
    fun name => ?_⟩
  · rw [Dict.get?_map] at hcolumn
    obtain ⟨column', hget, rfl⟩ := Option.map_eq_some_iff.mp hcolumn
    have hvalid := hchild.columns_valid name column' hget
    exact ⟨le_min hvalid.fraction_nonneg zero_le_one, min_le_right _ _,
      le_min hvalid.count_nonneg (max_one_pos _).le, hvalid.size_nonneg⟩
  · rw [Dict.get?_map]
    have hname := htracks name
    cases hget : child.columns.get? name with
    | none =>
      rw [hget] at hname
      exact hname
    | some column =>
      rw [hget] at hname
      obtain ⟨count, hcount, hsame⟩ := rel_some hname
      rw [hcount]
      -- a count below one is kept, as the bound is not below one
      refine .some fun hlow => ?_
      have hbound : column.distinctCount < 1 ∨ count < 1 :=
        hlow.imp_left fun h => (min_lt_iff.mp h).resolve_right (not_lt.mpr (le_max_right _ _))
      refine (min_eq_left ?_).trans (hsame hbound)
      rcases hbound with h | h
      · exact h.le.trans (le_max_right _ _)
      · exact (hsame (Or.inr h)).le.trans (h.le.trans (le_max_right _ _))

theorem rowWidth_pos (schema : Schema) : 0 < rowWidth schema := max_one_pos _

theorem projectEstimate_spec (hchild : child.Valid) (htracks : Tracks child.columns.get? counts)
    (expressions : List NamedExpression) (schema : Schema) :
    (projectEstimate py child expressions schema).Valid ∧
      Tracks (projectEstimate py child expressions schema).columns.get?
        fun name => (projectColumns py counts expressions).reverse.lookup name := by
  refine ⟨⟨hchild.rows_nonneg, mul_nonneg hchild.rows_nonneg (rowWidth_pos schema).le,
    valid_update fun item hitem => ?_,
    hchild.cost_valid.add ⟨mul_nonneg hchild.rows_nonneg (by norm_num), le_rfl, le_rfl, le_rfl⟩⟩,
    tracks_update ?_⟩
  · obtain ⟨projection, -, hprojection⟩ := List.mem_filterMap.mp hitem
    obtain ⟨column, hcolumn, rfl⟩ := Option.map_eq_some_iff.mp hprojection
    exact hchild.columnEstimate hcolumn
  · induction expressions with
    | nil => exact .nil
    | cons projection rest ih =>
      unfold projectColumns at ih ⊢
      rw [List.filterMap_cons, List.filterMap_cons]
      have hcolumn := htracks.columnEstimate py projection.expression
      cases hget : columnEstimate py child.columns.get? projection.expression with
      | none =>
        rw [hget] at hcolumn
        cases hcount : columnEstimate py counts projection.expression with
        | none => exact ih
        | some count =>
          rw [hcount] at hcolumn
          cases hcolumn
      | some column =>
        rw [hget] at hcolumn
        obtain ⟨count, hcount, hsame⟩ := rel_some hcolumn
        rw [hcount]
        exact .cons ⟨rfl, hsame⟩ ih

variable (py) in
theorem groupCount_nonneg (expressions : List Expression) (child : CostedEstimate) :
    0 ≤ groupCount py expressions child := by
  unfold groupCount
  split
  · exact zero_le_one
  · split
    · exact le_rfl
    · exact (max_one_pos _).le

/-- No column is known of the rows of an aggregation. -/
private theorem tracks_empty : Tracks (Dict.empty : Dict String ColumnEstimate).get? fun _ => none :=
  fun _ => .none

private theorem valid_empty (name : String) (column : ColumnEstimate)
    (h : (Dict.empty : Dict String ColumnEstimate).get? name = some column) : column.Valid := by
  cases h

variable (py) in
theorem aggregateEstimate_valid (hchild : child.Valid) (model : Estimator)
    (groupBy : List Expression) (schema : Schema) :
    (aggregateEstimate py model child groupBy schema).Valid := by
  have hmemory := mul_nonneg (groupCount_nonneg py groupBy child) (rowWidth_pos schema).le
  exact ⟨groupCount_nonneg py groupBy child, hmemory, valid_empty, hchild.cost_valid.add
    ⟨hchild.rows_nonneg, le_rfl, le_min hmemory (zero_le_one.trans model.memory_pos),
      mul_nonneg (le_max_right _ _) zero_le_two⟩⟩

variable (py) in
theorem groupingSetsEstimate_valid (hchild : child.Valid) (sets : List (List Expression))
    (schema : Schema) : (groupingSetsEstimate py child sets schema).Valid := by
  have hcount := mul_nonneg hchild.rows_nonneg (Nat.cast_nonneg (α := ℚ) (max sets.length 1))
  have hrows : 0 ≤ (groupingSetsEstimate py child sets schema).rowCount := by
    refine le_min hcount (List.sum_nonneg fun count hmem => ?_)
    obtain ⟨set_, -, rfl⟩ := List.mem_map.mp hmem
    exact groupCount_nonneg py set_ child
  exact ⟨hrows, mul_nonneg hrows (rowWidth_pos schema).le, valid_empty,
    hchild.cost_valid.add ⟨hcount, le_rfl, le_rfl, le_rfl⟩⟩

/-! ### Joins -/

variable (py) in
theorem keySelectivity_spec (hleft : left.Valid) (hright : right.Valid) (key : String × String) :
    Fraction (keySelectivity py left right key) := by
  unfold keySelectivity
  split
  next leftColumn rightColumn hl hr =>
    obtain ⟨hl0, hl1, -, -⟩ := hleft.columns_valid _ _ hl
    obtain ⟨hr0, hr1, -, -⟩ := hright.columns_valid _ _ hr
    split
    · exact ⟨1 / 10, rfl, by norm_num, by norm_num⟩
    · rw [divide_max]
      have hnonneg := mul_nonneg (sub_nonneg.mpr hl1) (sub_nonneg.mpr hr1)
      refine ⟨_, rfl, div_nonneg hnonneg (max_one_pos _).le, (div_le_one (max_one_pos _)).mpr ?_⟩
      exact (mul_le_one₀ (sub_le_self 1 hl0) (sub_nonneg.mpr hr1) (sub_le_self 1 hr0)).trans
        (le_max_right _ _)
  next => exact ⟨1 / 10, rfl, by norm_num, by norm_num⟩

variable (py) in
theorem joinSelectivity_spec (hleft : left.Valid) (hright : right.Valid)
    (keys : List (String × String)) : Fraction (joinSelectivity py left right keys) := by
  have hfold : ∀ (keys : List (String × String)) (q : ℚ), 0 ≤ q → q ≤ 1 → Fraction (keys.foldlM
      (fun selected key => do return selected * (← keySelectivity py left right key)) q) := by
    intro keys
    induction keys with
    | nil => exact fun q hq hq' => ⟨q, rfl, hq, hq'⟩
    | cons key rest ih =>
      intro q hq hq'
      obtain ⟨p, hp, hp0, hp1⟩ := keySelectivity_spec py hleft hright key
      rw [List.foldlM_cons, hp]
      exact ih (q * p) (mul_nonneg hq hp0) (mul_le_one₀ hq' hp0 hp1)
  unfold joinSelectivity
  split
  · exact ⟨1 / 10, rfl, by norm_num, by norm_num⟩
  · exact hfold keys 1 zero_le_one le_rfl

theorem candidate_nonneg {model : CostModel} {left right : PlanEstimate}
    (hleft : 0 ≤ left.sizeBytes) (hright : 0 ≤ right.sizeBytes) {leftKeys rightKeys : List String}
    {buildSide : Side} : ∀ candidate ∈ model.candidates py left right leftKeys rightKeys buildSide,
      0 ≤ candidate.network := by
  have hif : ∀ {condition : Prop} [Decidable condition] {candidate : Candidate},
      0 ≤ candidate.network → ∀ other ∈ (if condition then [candidate] else []),
        0 ≤ other.network := by
    intro condition _ candidate h other hother
    split at hother
    · rwa [List.mem_singleton.mp hother]
    · cases hother
  have hbuild : 0 ≤ (Side.pick left right buildSide).sizeBytes := by
    cases buildSide
    · exact hleft
    · exact hright
  unfold CostModel.candidates
  simp only [List.forall_mem_append]
  refine ⟨⟨⟨⟨hif le_rfl, hif hright⟩, hif hleft⟩, List.forall_mem_singleton.mpr ?_⟩, hif ?_⟩
  · exact add_nonneg hleft hright
  · exact mul_nonneg hbuild (le_max_right _ _)

variable (py) in
/-- There is always a strategy, as both inputs may be repartitioned. -/
theorem exists_joinStrategy (model : CostModel) (left right : PlanEstimate)
    (leftKeys rightKeys : List String) (buildSide : Side) :
    ∃ candidate, model.joinStrategy py left right leftKeys rightKeys buildSide = some candidate := by
  have hsome : ∀ candidates : List Candidate, candidates ≠ [] →
      ∃ candidate, leastCandidate candidates = some candidate := by
    intro candidates hne
    cases candidates with
    | nil => exact absurd rfl hne
    | cons first rest =>
      rw [leastCandidate]
      cases leastCandidate rest with
      | none => exact ⟨_, rfl⟩
      | some least => exact ⟨_, rfl⟩
  refine hsome _ fun hnil => ?_
  have hmem : (⟨.repartitionBoth, left.sizeBytes + right.sizeBytes,
      "hash repartition both inputs"⟩ : Candidate)
        ∈ model.candidates py left right leftKeys rightKeys buildSide :=
    List.mem_append_left _ (List.mem_append_right _ List.mem_cons_self)
  rw [hnil] at hmem
  cases hmem

variable (py) in
theorem joinRowCount_spec (hleft : left.Valid) (hright : right.Valid) (joinType : JoinType)
    (keys : List (String × String)) :
    ∃ rows, joinRowCount py joinType left right keys = .ok rows ∧ 0 ≤ rows := by
  obtain ⟨q, hq, -⟩ := joinSelectivity_spec py hleft hright keys
  rw [joinRowCount, hq]
  exact ⟨_, rfl, le_max_right _ _⟩

theorem joinEstimate_spec {leftCounts rightCounts : String → Option ℚ} (hleft : left.Valid)
    (hright : right.Valid) (hleftTracks : Tracks left.columns.get? leftCounts)
    (hrightTracks : Tracks right.columns.get? rightCounts) (model : Estimator)
    (joinType : JoinType) (schema : Schema) (keys : List (String × String)) :
    ∃ estimate, joinEstimate py model joinType schema left right keys = .ok estimate ∧
      estimate.Valid ∧ Tracks estimate.columns.get?
        fun name => (rightCounts name).or (leftCounts name) := by
  obtain ⟨rows, hrows, hnonneg⟩ := joinRowCount_spec py hleft hright joinType keys
  unfold joinEstimate
  dsimp only
  rw [hrows, ExceptState.ok_bind]
  generalize (if left.sizeBytes ≤ right.sizeBytes then Side.left else .right) = buildSide
  obtain ⟨candidate, hcandidate⟩ := exists_joinStrategy py model.toCostModel
    left.toPlanEstimate right.toPlanEstimate (keys.map Prod.fst) (keys.map Prod.snd) buildSide
  rw [hcandidate]
  have hbuild : 0 ≤ (Side.pick left right buildSide).sizeBytes := by
    cases buildSide
    · exact hleft.size_nonneg
    · exact hright.size_nonneg
  refine ⟨_, rfl, ⟨hnonneg, mul_nonneg hnonneg (rowWidth_pos schema).le, ?_,
    (hleft.cost_valid.add hright.cost_valid).add
      ⟨add_nonneg (add_nonneg hleft.rows_nonneg hright.rows_nonneg) hnonneg,
        candidate_nonneg hleft.size_nonneg hright.size_nonneg _ (mem_of_leastCandidate hcandidate),
        le_min hbuild (zero_le_one.trans model.memory_pos),
        mul_nonneg (le_max_right _ _) zero_le_two⟩⟩, ?_⟩
  · intro name column hcolumn
    rw [Dict.get?_update_items] at hcolumn
    rcases Option.or_eq_some_iff.mp hcolumn with hcolumn | ⟨-, hcolumn⟩
    · exact hright.columns_valid name column hcolumn
    · exact hleft.columns_valid name column hcolumn
  · intro name
    rw [Dict.get?_update_items]
    exact Option.Rel.or (hrightTracks name) (hleftTracks name)

/-! ### Plans -/

/-- A plan and all plans below it. -/
def LogicalPlan.subplans : LogicalPlan → List LogicalPlan
  | .scan nodeId tableName tableAlias schema => [.scan nodeId tableName tableAlias schema]
  | .filter nodeId input predicate schema phase =>
      .filter nodeId input predicate schema phase :: input.subplans
  | .project nodeId input expressions schema =>
      .project nodeId input expressions schema :: input.subplans
  | .aggregate nodeId input groupBy aggregates schema =>
      .aggregate nodeId input groupBy aggregates schema :: input.subplans
  | .groupingSets nodeId input sets aggregates schema =>
      .groupingSets nodeId input sets aggregates schema :: input.subplans
  | .join nodeId left right joinType condition schema inputLimit buildSide =>
      .join nodeId left right joinType condition schema inputLimit buildSide ::
        (left.subplans ++ right.subplans)
  | .limit nodeId input count schema => .limit nodeId input count schema :: input.subplans
  | .order nodeId input orderBy schema => .order nodeId input orderBy schema :: input.subplans
  | .window nodeId input expressions schema =>
      .window nodeId input expressions schema :: input.subplans

/-- A scan of a table that the catalog does not have. -/
def Estimator.Unregistered (py : Python) (model : Estimator) : LogicalPlan → Prop
  | .scan _ tableName _ _ => model.catalog.get? (py.casefold tableName) = none
  | _ => False

/-- A filter with an equality of two columns that both have less than one distinct value. -/
def Estimator.HasLowEquality (py : Python) (model : Estimator) : LogicalPlan → Prop
  | .filter _ input predicate _ _ => ∃ node ∈ selectivityNodes predicate,
      LowEquality py (model.columnCounts py input) node
  | _ => False

/-- What is asked of a plan's estimate beside that of its input. -/
def Estimator.BoundedStep (py : Python) (log2 : ℚ → ℚ) (model : Estimator)
    (estimate : CostedEstimate) : LogicalPlan → Prop
  | .filter _ input predicate _ _ => ∃ child, model.estimate py log2 input = .ok child ∧
      estimate.rowCount ≤ child.rowCount ∧
      ∀ node ∈ selectivityNodes predicate, Selects (selectivity py child node)
  | .limit _ input _ _ => ∃ child, model.estimate py log2 input = .ok child ∧
      estimate.rowCount ≤ child.rowCount
  | .join _ left right _ condition _ _ _ => ∃ leftChild rightChild,
      model.estimate py log2 left = .ok leftChild ∧
      model.estimate py log2 right = .ok rightChild ∧
      Fraction (joinSelectivity py leftChild rightChild
        (joinKeyNames py (left.sources py) (right.sources py) condition))
  | _ => True

/-- A plan is estimated: without an exception, with rows, sizes and costs that are not negative,
with selectivities between zero and one, and a filter or limit with no more rows than its
input. -/
def Estimator.Bounded (py : Python) (log2 : ℚ → ℚ) (model : Estimator) (plan : LogicalPlan) : Prop :=
  ∃ estimate, model.estimate py log2 plan = .ok estimate ∧ estimate.Valid ∧
    model.BoundedStep py log2 estimate plan

section

variable {log2 : ℚ → ℚ} {model : Estimator}

/-- A plan without such equalities is estimated, in all its parts. -/
theorem Estimator.estimate_spec {plan : LogicalPlan}
    (hregistered : ∀ node ∈ plan.subplans, ¬model.Unregistered py node)
    (h : ∀ node ∈ plan.subplans, ¬model.HasLowEquality py node) :
    (∃ estimate, model.estimate py log2 plan = .ok estimate ∧ estimate.Valid ∧
      Tracks estimate.columns.get? (model.columnCounts py plan)) ∧
      ∀ node ∈ plan.subplans, model.Bounded py log2 node := by
  have hbudget : (0 : ℚ) ≤ model.memoryBudgetBytes := zero_le_one.trans model.memory_pos
  induction plan with
  | scan nodeId tableName tableAlias schema =>
    have hsome := hregistered _ List.mem_cons_self
    obtain ⟨table, htable⟩ := Option.ne_none_iff_exists'.mp hsome
    obtain ⟨estimate, hestimate, hvalid, htracks⟩ := model.scan_spec nodeId htable
    exact ⟨⟨estimate, hestimate, hvalid, htracks⟩,
      List.forall_mem_singleton.mpr ⟨estimate, hestimate, hvalid, trivial⟩⟩
  | filter nodeId input predicate schema phase ih =>
    rw [LogicalPlan.subplans, List.forall_mem_cons] at hregistered h
    obtain ⟨⟨child, hchild, hvalid, htracks⟩, hbounded⟩ := ih hregistered.2 h.2
    have hselects := (selectivity_spec hvalid htracks predicate).mpr
      fun node hnode hlow => h.1 ⟨node, hnode, hlow⟩
    obtain ⟨q, evidence, hselected, -⟩ := (hselects predicate (self_mem predicate)).exists
    obtain ⟨estimate, hestimate, hvalid', hle, htracks'⟩ :=
      filterEstimate_spec hvalid htracks hselected
    have hok : model.estimate py log2 (.filter nodeId input predicate schema phase)
        = .ok estimate := by
      rw [Estimator.estimate, hchild]
      exact hestimate
    exact ⟨⟨estimate, hok, hvalid', htracks'⟩, List.forall_mem_cons.mpr
      ⟨⟨estimate, hok, hvalid', child, hchild, hle, hselects⟩, hbounded⟩⟩
  | project nodeId input expressions schema ih =>
    rw [LogicalPlan.subplans, List.forall_mem_cons] at hregistered h
    obtain ⟨⟨child, hchild, hvalid, htracks⟩, hbounded⟩ := ih hregistered.2 h.2
    obtain ⟨hvalid', htracks'⟩ := projectEstimate_spec hvalid htracks expressions schema
    have hok : model.estimate py log2 (.project nodeId input expressions schema)
        = .ok (projectEstimate py child expressions schema) := by
      rw [Estimator.estimate, hchild]
      rfl
    exact ⟨⟨_, hok, hvalid', htracks'⟩,
      List.forall_mem_cons.mpr ⟨⟨_, hok, hvalid', trivial⟩, hbounded⟩⟩
  | aggregate nodeId input groupBy aggregates schema ih =>
    rw [LogicalPlan.subplans, List.forall_mem_cons] at hregistered h
    obtain ⟨⟨child, hchild, hvalid, -⟩, hbounded⟩ := ih hregistered.2 h.2
    have hvalid' := aggregateEstimate_valid py hvalid model groupBy schema
    have hok : model.estimate py log2 (.aggregate nodeId input groupBy aggregates schema)
        = .ok (aggregateEstimate py model child groupBy schema) := by
      rw [Estimator.estimate, hchild]
      rfl
    exact ⟨⟨_, hok, hvalid', tracks_empty⟩,
      List.forall_mem_cons.mpr ⟨⟨_, hok, hvalid', trivial⟩, hbounded⟩⟩
  | groupingSets nodeId input sets aggregates schema ih =>
    rw [LogicalPlan.subplans, List.forall_mem_cons] at hregistered h
    obtain ⟨⟨child, hchild, hvalid, -⟩, hbounded⟩ := ih hregistered.2 h.2
    have hvalid' := groupingSetsEstimate_valid py hvalid sets schema
    have hok : model.estimate py log2 (.groupingSets nodeId input sets aggregates schema)
        = .ok (groupingSetsEstimate py child sets schema) := by
      rw [Estimator.estimate, hchild]
      rfl
    exact ⟨⟨_, hok, hvalid', tracks_empty⟩,
      List.forall_mem_cons.mpr ⟨⟨_, hok, hvalid', trivial⟩, hbounded⟩⟩
  | join nodeId left right joinType condition schema inputLimit buildSide ihl ihr =>
    rw [LogicalPlan.subplans, List.forall_mem_cons, List.forall_mem_append] at hregistered h
    obtain ⟨⟨leftChild, hleft, hleftValid, hleftTracks⟩, hleftBounded⟩ := ihl hregistered.2.1 h.2.1
    obtain ⟨⟨rightChild, hright, hrightValid, hrightTracks⟩, hrightBounded⟩ :=
      ihr hregistered.2.2 h.2.2
    obtain ⟨estimate, hestimate, hvalid, htracks⟩ := joinEstimate_spec hleftValid hrightValid
      hleftTracks hrightTracks model joinType schema
      (joinKeyNames py (left.sources py) (right.sources py) condition)
    have hok : model.estimate py log2
        (.join nodeId left right joinType condition schema inputLimit buildSide) = .ok estimate := by
      rw [Estimator.estimate, hleft, hright]
      exact hestimate
    refine ⟨⟨estimate, hok, hvalid, htracks⟩, List.forall_mem_cons.mpr ⟨⟨estimate, hok, hvalid,
      leftChild, rightChild, hleft, hright, joinSelectivity_spec py hleftValid hrightValid _⟩, ?_⟩⟩
    exact List.forall_mem_append.mpr ⟨hleftBounded, hrightBounded⟩
  | limit nodeId input count schema ih =>
    rw [LogicalPlan.subplans, List.forall_mem_cons] at hregistered h
    obtain ⟨⟨child, hchild, hvalid, htracks⟩, hbounded⟩ := ih hregistered.2 h.2
    have hrows : 0 ≤ min child.rowCount (count : ℚ) := le_min hvalid.rows_nonneg (Nat.cast_nonneg _)
    have hcost : ({ cpu := min child.rowCount (count : ℚ) * (1 / 20) } : Cost).Valid :=
      ⟨mul_nonneg hrows (by norm_num), le_rfl, le_rfl, le_rfl⟩
    obtain ⟨estimate, hestimate, hvalid', hcount, hcolumns⟩ :=
      unaryEstimate_spec hvalid hrows hcost
    have hok : model.estimate py log2 (.limit nodeId input count schema) = .ok estimate := by
      rw [Estimator.estimate, hchild]
      exact hestimate
    exact ⟨⟨estimate, hok, hvalid', hcolumns ▸ htracks⟩, List.forall_mem_cons.mpr
      ⟨⟨estimate, hok, hvalid', child, hchild, hcount.trans_le (min_le_left _ _)⟩, hbounded⟩⟩
  | order nodeId input orderBy schema ih =>
    rw [LogicalPlan.subplans, List.forall_mem_cons] at hregistered h
    obtain ⟨⟨child, hchild, hvalid, htracks⟩, hbounded⟩ := ih hregistered.2 h.2
    have hlogs : 0 ≤ max (log2 (max child.rowCount 1)) 1 := zero_le_one.trans (le_max_right _ _)
    have hcost : ({
        cpu := child.rowCount * max (log2 (max child.rowCount 1)) 1
        memory := min child.sizeBytes model.memoryBudgetBytes
        disk := max (child.sizeBytes - model.memoryBudgetBytes) 0 * 2 } : Cost).Valid :=
      ⟨mul_nonneg hvalid.rows_nonneg hlogs, le_rfl, le_min hvalid.size_nonneg hbudget,
        mul_nonneg (le_max_right _ _) zero_le_two⟩
    obtain ⟨estimate, hestimate, hvalid', -, hcolumns⟩ :=
      unaryEstimate_spec hvalid hvalid.rows_nonneg hcost
    have hok : model.estimate py log2 (.order nodeId input orderBy schema) = .ok estimate := by
      rw [Estimator.estimate, hchild]
      exact hestimate
    exact ⟨⟨estimate, hok, hvalid', hcolumns ▸ htracks⟩,
      List.forall_mem_cons.mpr ⟨⟨estimate, hok, hvalid', trivial⟩, hbounded⟩⟩
  | window nodeId input expressions schema ih =>
    rw [LogicalPlan.subplans, List.forall_mem_cons] at hregistered h
    obtain ⟨⟨child, hchild, hvalid, htracks⟩, hbounded⟩ := ih hregistered.2 h.2
    have hcost : ({
        cpu := child.rowCount
        memory := min child.sizeBytes model.memoryBudgetBytes } : Cost).Valid :=
      ⟨hvalid.rows_nonneg, le_rfl, le_min hvalid.size_nonneg hbudget, le_rfl⟩
    obtain ⟨estimate, hestimate, hvalid', -, hcolumns⟩ :=
      unaryEstimate_spec hvalid hvalid.rows_nonneg hcost
    have hok : model.estimate py log2 (.window nodeId input expressions schema) = .ok estimate := by
      rw [Estimator.estimate, hchild]
      exact hestimate
    exact ⟨⟨estimate, hok, hvalid', hcolumns ▸ htracks⟩,
      List.forall_mem_cons.mpr ⟨⟨estimate, hok, hvalid', trivial⟩, hbounded⟩⟩

end

/-! ### An empty table -/

/-- A table with two columns, of which only the number of rows is known. -/
def countedTable (rows : ℕ) : CatalogTable where
  nspace := "main"
  name := "t"
  schema := [⟨"x", .int64, true⟩, ⟨"y", .int64, true⟩]
  format := .csv
  location := ⟨"", []⟩
  partitionStrategy := .unknown
  partitionKeys := []
  properties := []
  partitions := []
  statistics := some { rowCount := some rows }

def countedModel (rows : ℕ) : Estimator where
  workerCount := 1
  memoryBudgetBytes := 1
  broadcastThresholdBytes := 0
  catalog := ⟨[("main.t", countedTable rows)], List.nodup_singleton _⟩
  worker_pos := le_rfl
  memory_pos := le_rfl

/-- `SELECT * FROM main.t WHERE t.x = t.y` -/
def equalColumns : LogicalPlan :=
  .filter "filter_1" (.scan "scan_1" "main.t" "t" [⟨"x", .int64, true⟩, ⟨"y", .int64, true⟩])
    (.binary .equal (.column "x" "t" ⟨.int64, true⟩) (.column "y" "t" ⟨.int64, true⟩)
      ⟨.boolean, true⟩)
    [⟨"x", .int64, true⟩, ⟨"y", .int64, true⟩] "where"

private theorem equalColumns_registered (rows : ℕ) :
    ∀ node ∈ equalColumns.subplans, ¬(countedModel rows).Unregistered joinPython node := by
  have hname : joinPython.casefold "main.t" = "main.t" := by decide
  refine List.forall_mem_cons.mpr ⟨id, List.forall_mem_singleton.mpr ?_⟩
  rw [Estimator.Unregistered, hname]
  nofun

end DistributedSql

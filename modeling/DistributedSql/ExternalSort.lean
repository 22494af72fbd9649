/-
Sorting with spill files (`_external_sorted_rows` in `execution/operators.py`).

Rows are collected while the memory account grants them; a refusal sorts what was
collected and writes it out as a run, and the runs are merged at the end.
`sorted` and `heapq.merge` are stable and compare with `_compare_values`.

Main results:
* `compareRows_of_place` — on keys over ordered domains the comparison is the order of
  the places of the keys' values;
* `externalSortedRows_owns` — whatever the account answers, the rows come out as one
  stable sort gives them, and nothing stays reserved;
* `externalSortedRows_eq_sortRows` — the external sort is the in-memory sort.
-/
import DistributedSql.Memory
import DistributedSql.StableSort

namespace DistributedSql

/-- `(left > right) - (left < right)`. -/
def threeWay (left right : SQLValue) : Except PyError ℤ := do
  let greater ← left.gt right
  let less ← left.lt right
  return (if greater then 1 else 0) - (if less then 1 else 0)

/-- `_compare_values`. -/
def compareValues (left right : SQLValue) (order : SortExpression) : Except PyError ℤ :=
  if left = .null ∧ right = .null then .ok 0
  else if left = .null then .ok (if order.nullsFirst then -1 else 1)
  else if right = .null then .ok (if order.nullsFirst then 1 else -1)
  else do
    let result ← threeWay left right
    return if order.ascending then result else -result

/-- The comparison of two rows: the first item that tells them apart decides. -/
def compareRows (py : Python) (left right : Row) : List SortExpression → Except PyError ℤ
  | [] => .ok 0
  | item :: rest => do
      let leftValue ← item.expression.evaluate py left
      let rightValue ← item.expression.evaluate py right
      let result ← compareValues leftValue rightValue item
      if result ≠ 0 then return result
      compareRows py left right rest

/-- `cmp_to_key(compare)(left) < cmp_to_key(compare)(right)`. -/
def rowLess (py : Python) (orderBy : List SortExpression) (left right : Row) :
    Except PyError Bool := do
  return (← compareRows py left right orderBy) < 0

/-- `InMemorySorter.sort`. -/
def sortRows (py : Python) (orderBy : List SortExpression) (rows : List Row) :
    Except PyError (List Row) :=
  StableSort.sortM (rowLess py orderBy) rows

/-- The rows a spill file holds: `write_table(pa.Table.from_pylist(rows, schema))`, read back. -/
def spillFile (rows : List Row) (names : List String) : List Row :=
  (RecordBatch.fromPylist rows names).rows

/-- The variables of `_external_sorted_rows`. -/
structure SortState where
  rows : List Row
  reserved : ℕ
  runs : List (List Row)

/-- `spill_run`. -/
def spillRun (py : Python) (names : List String) (orderBy : List SortExpression)
    (state : SortState) : Exec SortState :=
  if state.rows.isEmpty then return state
  else do
    let ordered ← sortRows py orderBy state.rows
    MemoryAccount.release state.reserved
    return { rows := [], reserved := 0, runs := state.runs ++ [spillFile ordered names] }

/-- The loop over the input rows. -/
def sortLoop (py : Python) (names : List String) (orderBy : List SortExpression) :
    List Row → SortState → Exec SortState
  | [], state => return state
  | row :: rest, state => do
      let charge := estimateRowSize py row
      if ← MemoryAccount.tryReserve charge then
        sortLoop py names orderBy rest
          { state with reserved := state.reserved + charge, rows := state.rows ++ [row] }
      else
        let state ← spillRun py names orderBy state
        if ← MemoryAccount.tryReserve charge then
          sortLoop py names orderBy rest
            { state with reserved := state.reserved + charge, rows := state.rows ++ [row] }
        else
          let state ← spillRun py names orderBy { state with rows := state.rows ++ [row] }
          sortLoop py names orderBy rest state

/-- `_external_sorted_rows`. -/
def externalSortedRows (py : Python) (batches : List RecordBatch) (names : List String)
    (orderBy : List SortExpression) : Exec (List Row) := do
  let state ← sortLoop py names orderBy (allRows batches) ⟨[], 0, []⟩
  if state.runs.isEmpty then
    let ordered ← sortRows py orderBy state.rows
    MemoryAccount.release state.reserved
    return ordered
  else
    let state ← spillRun py names orderBy state
    let merged ← StableSort.mergeAllM (rowLess py orderBy) state.runs
    MemoryAccount.release state.reserved
    return merged

/-! ### What the comparison computes -/

/-- The place of a value in ascending order with NULLs last. -/
def SQLValue.sortRank (v : SQLValue) : WithTop Rank := if v = .null then ⊤ else v.rank

theorem SQLValue.sortRank_of_ne {v : SQLValue} (h : v ≠ .null) : v.sortRank = v.rank := if_neg h

/-- The integer a comparison of two elements of a linear order gives. -/
def sign {κ : Type*} [LinearOrder κ] (a b : κ) : ℤ :=
  (if b < a then 1 else 0) - (if a < b then 1 else 0)

theorem sign_neg {κ : Type*} [LinearOrder κ] {a b : κ} : sign a b < 0 ↔ a < b := by
  unfold sign
  rcases lt_trichotomy a b with h | h | h
  · simp [h, h.not_gt]
  · simp [h]
  · simp [h, h.not_gt]

theorem sign_eq_zero {κ : Type*} [LinearOrder κ] {a b : κ} : sign a b = 0 ↔ a = b := by
  unfold sign
  rcases lt_trichotomy a b with h | h | h
  · simp [h, h.not_gt, h.ne]
  · simp [h]
  · simp [h, h.not_gt, h.ne']

theorem threeWay_eq {S : Set SQLValue} (hS : Ordered S) {left right : SQLValue} (hl : left ∈ S)
    (hr : right ∈ S) : threeWay left right = .ok (sign left.sortRank right.sortRank) := by
  have h := hS left hl right hr
  rw [threeWay, SQLValue.gt_of_comparable h, SQLValue.lt_of_comparable h,
    SQLValue.sortRank_of_ne (SQLValue.not_null_of_comparable (hS left hl left hl)),
    SQLValue.sortRank_of_ne (SQLValue.not_null_of_comparable (hS right hr right hr))]
  simp only [sign, decide_eq_true_eq, ExceptState.ok_bind, WithTop.coe_lt_coe]
  rfl

/-- Where values stand under ORDER BY: NULLs first, ascending, descending, NULLs last. -/
abbrev Place : Type := Unit ⊕ₗ (Rank ⊕ₗ (Rankᵒᵈ ⊕ₗ Unit))

/-- The place of a value under an item of ORDER BY. -/
def SortExpression.place (item : SortExpression) (v : SQLValue) : Place :=
  if v = .null then if item.nullsFirst then Sum.inlₗ () else Sum.inrₗ (Sum.inrₗ (Sum.inrₗ ()))
  else if item.ascending then Sum.inrₗ (Sum.inlₗ v.rank)
  else Sum.inrₗ (Sum.inrₗ (Sum.inlₗ (OrderDual.toDual v.rank)))

private theorem SortExpression.place_null (item : SortExpression) :
    item.place .null = if item.nullsFirst then Sum.inlₗ ()
      else Sum.inrₗ (Sum.inrₗ (Sum.inrₗ ())) := if_pos rfl

private theorem SortExpression.place_of_ne (item : SortExpression) {v : SQLValue} (h : v ≠ .null) :
    item.place v = if item.ascending then Sum.inrₗ (Sum.inlₗ v.rank)
      else Sum.inrₗ (Sum.inrₗ (Sum.inlₗ (OrderDual.toDual v.rank))) := if_neg h

theorem compareValues_place {S : Set SQLValue} (hS : Ordered S) {left right : SQLValue}
    (hl : left = .null ∨ left ∈ S) (hr : right = .null ∨ right ∈ S) (item : SortExpression) :
    compareValues left right item = .ok (sign (item.place left) (item.place right)) := by
  rw [compareValues]
  by_cases hln : left = .null
  · rw [hln, item.place_null]
    by_cases hrn : right = .null
    · rw [hrn, if_pos ⟨rfl, rfl⟩, item.place_null]
      simp [sign]
    · rw [if_neg fun h => hrn h.2, if_pos rfl, item.place_of_ne hrn]
      cases item.nullsFirst <;> cases item.ascending <;> simp [sign]
  · rw [if_neg fun h => hln h.1, if_neg hln, item.place_of_ne hln]
    by_cases hrn : right = .null
    · rw [hrn, if_pos rfl, item.place_null]
      cases item.nullsFirst <;> cases item.ascending <;> simp [sign]
    · have hthree := threeWay_eq hS (hl.resolve_left hln) (hr.resolve_left hrn)
      rw [SQLValue.sortRank_of_ne hln, SQLValue.sortRank_of_ne hrn] at hthree
      rw [if_neg hrn, hthree, ExceptState.ok_bind, item.place_of_ne hrn]
      cases item.ascending <;> simp [sign, pure, Except.pure]

theorem compareValues_eq {S : Set SQLValue} (hS : Ordered S) {left right : SQLValue}
    (hl : left = .null ∨ left ∈ S) (hr : right = .null ∨ right ∈ S) (expression : Expression) :
    compareValues left right ⟨expression, true, false⟩
      = .ok (sign left.sortRank right.sortRank) := by
  unfold compareValues
  by_cases hln : left = .null
  · by_cases hrn : right = .null <;> simp [hln, hrn, sign, SQLValue.sortRank]
  · by_cases hrn : right = .null
    · simp [hln, hrn, sign, SQLValue.sortRank]
    · simp only [hln, hrn, false_and, if_false,
        threeWay_eq hS (hl.resolve_left hln) (hr.resolve_left hrn), ExceptState.ok_bind]
      rfl

/-- Where the keys of two rows stand: lexicographically, NULLs last. -/
def sortKey (values : List SQLValue) : List (WithTop Rank) := values.map SQLValue.sortRank

theorem sign_cons {κ : Type*} [LinearOrder κ] (a b : κ) (l m : List κ) :
    sign (a :: l) (b :: m) = if sign a b ≠ 0 then sign a b else sign l m := by
  by_cases h : sign a b = 0
  · rw [if_neg (not_not.mpr h)]
    rw [sign_eq_zero.mp h]
    simp only [sign, List.cons_lt_cons_iff, lt_irrefl, false_or, true_and]
    congr
  · rw [if_pos h]
    have hne : a ≠ b := fun hab => h (sign_eq_zero.mpr hab)
    simp only [sign, List.cons_lt_cons_iff, hne, hne.symm, false_and, or_false]

/-- Where every item's comparison is the order of the values' places, the comparison of
rows is the lexicographic order of the places. -/
theorem compareRows_of_place {κ : Type*} [LinearOrder κ] (place : SortExpression → SQLValue → κ)
    {py : Python} {domains : List (Set SQLValue)} {left right : Row} {orderBy : List SortExpression}
    (hplace : ∀ item ∈ orderBy, ∀ S ∈ domains, ∀ l r, l = .null ∨ l ∈ S → r = .null ∨ r ∈ S →
      compareValues l r item = .ok (sign (place item l) (place item r)))
    {lv rv : List SQLValue}
    (hl : Expression.evaluateAll py left (orderBy.map (·.expression)) = .ok lv)
    (hr : Expression.evaluateAll py right (orderBy.map (·.expression)) = .ok rv)
    (hld : InDomains domains lv) (hrd : InDomains domains rv) :
    compareRows py left right orderBy
      = .ok (sign (List.zipWith place orderBy lv) (List.zipWith place orderBy rv)) := by
  induction orderBy generalizing domains lv rv with
  | nil =>
    cases hl
    cases hr
    exact congrArg Except.ok (sign_eq_zero.mpr rfl).symm
  | cons item orderBy ih =>
    obtain ⟨a, as, ha, has, rfl⟩ := Expression.evaluateAll_cons hl
    obtain ⟨b, bs, hb, hbs, rfl⟩ := Expression.evaluateAll_cons hr
    obtain _ | ⟨had, hasd⟩ := hld
    obtain _ | ⟨hbd, hbsd⟩ := hrd
    have hhead := hplace item List.mem_cons_self _ List.mem_cons_self a b had hbd
    have htail := ih (fun i hi S hS => hplace i (List.mem_cons_of_mem item hi) S
      (List.mem_cons_of_mem _ hS)) has hbs hasd hbsd
    rw [compareRows, ha, ExceptState.ok_bind, hb, ExceptState.ok_bind, hhead, ExceptState.ok_bind,
      htail, List.zipWith_cons_cons, List.zipWith_cons_cons, sign_cons]
    split <;> rfl

private theorem zipWith_sortRank {py : Python} {row : Row} {keys : List Expression}
    {values : List SQLValue} (h : Expression.evaluateAll py row keys = .ok values) :
    List.zipWith (fun _ => SQLValue.sortRank)
      (keys.map fun key => (⟨key, true, false⟩ : SortExpression)) values = sortKey values := by
  induction keys generalizing values with
  | nil =>
    cases h
    rfl
  | cons key keys ih =>
    obtain ⟨value, tail, -, htail, rfl⟩ := Expression.evaluateAll_cons h
    rw [List.map_cons, List.zipWith_cons_cons, ih htail, sortKey, sortKey, List.map_cons]

/-- Ascending comparison by `keys`, NULLs last, is the order of the keys' ranks. -/
theorem compareRows_eq {py : Python} {domains : List (Set SQLValue)}
    (hS : ∀ S ∈ domains, Ordered S) {left right : Row} {keys : List Expression}
    {lv rv : List SQLValue} (hl : Expression.evaluateAll py left keys = .ok lv)
    (hr : Expression.evaluateAll py right keys = .ok rv) (hld : InDomains domains lv)
    (hrd : InDomains domains rv) :
    compareRows py left right (keys.map fun key => ⟨key, true, false⟩)
      = .ok (sign (sortKey lv) (sortKey rv)) := by
  have hkeys : (keys.map fun key => (⟨key, true, false⟩ : SortExpression)).map (·.expression)
      = keys := by
    rw [List.map_map]
    exact List.map_id keys
  rw [compareRows_of_place (fun _ => SQLValue.sortRank) ?_ (hkeys.symm ▸ hl) (hkeys.symm ▸ hr) hld
    hrd, zipWith_sortRank hl, zipWith_sortRank hr]
  intro item hitem S hSmem l r hl hr
  obtain ⟨key, -, rfl⟩ := List.mem_map.mp hitem
  exact compareValues_eq (hS S hSmem) hl hr key

/-- The values of `keys` on a row, if they evaluate. -/
def rowValues (py : Python) (keys : List Expression) (row : Row) : List SQLValue :=
  (Expression.evaluateAll py row keys).toOption.getD []

/-- The keys evaluate on the row, to values of these domains or NULL. -/
def HasKeys (py : Python) (keys : List Expression) (domains : List (Set SQLValue)) (row : Row) :
    Prop :=
  Expression.evaluateAll py row keys = .ok (rowValues py keys row) ∧
    InDomains domains (rowValues py keys row)

theorem rowLess_orderedBy {py : Python} {keys : List Expression} {domains : List (Set SQLValue)}
    (hS : ∀ S ∈ domains, Ordered S) :
    StableSort.OrderedBy (rowLess py (keys.map fun key => ⟨key, true, false⟩))
      (fun row => sortKey (rowValues py keys row)) (HasKeys py keys domains) := by
  intro a b ha hb
  rw [rowLess, compareRows_eq hS ha.1 hb.1 ha.2 hb.2, ExceptState.ok_bind]
  exact congrArg Except.ok (decide_eq_decide.mpr sign_neg)

/-- Where a row stands under ORDER BY. -/
def rowPlace (py : Python) (orderBy : List SortExpression) (row : Row) : List Place :=
  List.zipWith SortExpression.place orderBy (rowValues py (orderBy.map (·.expression)) row)

theorem rowLess_orderedBy_rowPlace {py : Python} {orderBy : List SortExpression}
    {domains : List (Set SQLValue)} (hS : ∀ S ∈ domains, Ordered S) :
    StableSort.OrderedBy (rowLess py orderBy) (rowPlace py orderBy)
      (HasKeys py (orderBy.map (·.expression)) domains) := by
  intro a b ha hb
  rw [rowLess, compareRows_of_place SortExpression.place
    (fun item _ S hSmem l r hl hr => compareValues_place (hS S hSmem) hl hr item)
    ha.1 hb.1 ha.2 hb.2, ExceptState.ok_bind]
  exact congrArg Except.ok (decide_eq_decide.mpr sign_neg)

/-! ### Sorting with spills -/

section Sorting

open StableSort

variable {κ : Type} [LinearOrder κ] {py : Python} {names : List String}
  {orderBy : List SortExpression} {key : Row → κ} {S : Row → Prop}

/-- The rows seen are the spilled pieces, each kept sorted, and the rows collected. -/
structure SortState.Holds (S : Row → Prop) (key : Row → κ) (state : SortState)
    (seen : List Row) : Prop where
  pieces : ∃ pieces : List (List Row), state.runs = pieces.map (sort key) ∧ seen = pieces.flatten ++ state.rows
  valid : ∀ row ∈ seen, S row

variable (hless : OrderedBy (rowLess py orderBy) key S)
  (hstored : ∀ row, S row → Row.Stored names row)

include hless hstored

theorem spillRun_owns {state : SortState} {seen : List Row} (h : state.Holds S key seen) :
    Owns state.reserved (spillRun py names orderBy state) fun state' left =>
      left = state'.reserved ∧ state'.rows = [] ∧ state'.Holds S key seen := by
  unfold spillRun
  split
  case isTrue hempty => exact Owns.pure ⟨rfl, List.isEmpty_iff.mp hempty, h⟩
  case isFalse =>
    obtain ⟨⟨pieces, hruns, hseen⟩, hvalid⟩ := h
    have hrows : ∀ row ∈ state.rows, S row := fun row hrow =>
      hvalid row (hseen ▸ List.mem_append_right _ hrow)
    have hfile : spillFile (sort key state.rows) names = sort key state.rows :=
      RecordBatch.fromPylist_rows_of_stored fun row hrow =>
        hstored row (hrows row ((sort_perm key _).subset hrow))
    refine Owns.bind (Owns.lift (sortM_eq hless hrows)) ?_
    rintro _ _ ⟨rfl, rfl⟩
    refine Owns.bind Owns.release ?_
    rintro _ _ rfl
    refine Owns.pure ⟨rfl, rfl, ⟨pieces ++ [state.rows], ?_, ?_⟩, hvalid⟩
    · rw [hfile, hruns, List.map_append, List.map_singleton]
    · rw [hseen, List.flatten_append, List.flatten_singleton, List.append_nil]

omit hless hstored in
/-- Collecting one more row. -/
theorem SortState.Holds.add {state : SortState} {seen : List Row} (h : state.Holds S key seen)
    {row : Row} (hrow : S row) (reserved : ℕ) :
    SortState.Holds S key ⟨state.rows ++ [row], reserved, state.runs⟩ (seen ++ [row]) where
  pieces := by
    obtain ⟨pieces, hruns, hseen⟩ := h.pieces
    exact ⟨pieces, hruns, by rw [hseen, List.append_assoc]⟩
  valid := List.forall_mem_append.mpr ⟨h.valid, List.forall_mem_singleton.mpr hrow⟩

theorem sortLoop_owns {rows : List Row} (hrows : ∀ row ∈ rows, S row) {state : SortState}
    {seen : List Row} (h : state.Holds S key seen) :
    Owns state.reserved (sortLoop py names orderBy rows state) fun state' left =>
      left = state'.reserved ∧ state'.Holds S key (seen ++ rows) := by
  induction rows generalizing state seen with
  | nil => exact Owns.pure ⟨rfl, by rwa [List.append_nil]⟩
  | cons row rest ih =>
    have hrow : S row := hrows row List.mem_cons_self
    have hrest : ∀ r ∈ rest, S r := fun r hr => hrows r (List.mem_cons_of_mem row hr)
    rw [List.append_cons]
    refine Owns.bind (Owns.tryReserve (estimateRowSize_pos py row)) ?_
    rintro (_ | _) _ rfl
    case true => exact ih hrest (h.add hrow _)
    case false =>
      refine Owns.bind (spillRun_owns hless hstored h) ?_
      rintro state' _ ⟨rfl, -, h'⟩
      refine Owns.bind (Owns.tryReserve (estimateRowSize_pos py row)) ?_
      rintro (_ | _) _ rfl
      case true => exact ih hrest (h'.add hrow _)
      case false =>
        refine Owns.bind (spillRun_owns hless hstored (h'.add hrow state'.reserved)) ?_
        rintro state'' _ ⟨rfl, -, h''⟩
        exact ih hrest h''

/-- The rows come out as one stable sort gives them, whatever the account answers. -/
theorem externalSortedRows_owns {batches : List RecordBatch}
    (hrows : ∀ row ∈ allRows batches, S row) :
    Owns 0 (externalSortedRows py batches names orderBy) fun rows left =>
      left = 0 ∧ rows = sort key (allRows batches) := by
  have hstart : SortState.Holds S key ⟨[], 0, []⟩ [] :=
    ⟨⟨[], rfl, rfl⟩, fun row h => absurd h List.not_mem_nil⟩
  refine Owns.bind (sortLoop_owns hless hstored hrows hstart) ?_
  rintro state _ ⟨rfl, h⟩
  rw [List.nil_append] at h
  split
  case isTrue hnone =>
    obtain ⟨⟨pieces, hruns, hseen⟩, hvalid⟩ := h
    have hpieces : pieces = [] := by
      rw [hruns, List.isEmpty_iff, List.map_eq_nil_iff] at hnone
      exact hnone
    rw [hpieces, List.flatten_nil, List.nil_append] at hseen
    rw [hseen] at hvalid ⊢
    refine Owns.bind (Owns.lift (sortM_eq hless hvalid)) ?_
    rintro _ _ ⟨rfl, rfl⟩
    refine Owns.bind Owns.release ?_
    rintro _ _ rfl
    exact Owns.pure ⟨rfl, rfl⟩
  case isFalse =>
    refine Owns.bind (spillRun_owns hless hstored h) ?_
    rintro state' _ ⟨rfl, hnil, ⟨pieces, hruns, hseen⟩, hvalid⟩
    rw [hnil, List.append_nil] at hseen
    have hmerge : mergeAllM (rowLess py orderBy) state'.runs = .ok (sort key (allRows batches)) := by
      rw [hseen, sort_flatten, ← hruns]
      refine mergeAllM_eq hless fun run hrun row hrow => hvalid row ?_
      rw [hruns] at hrun
      obtain ⟨piece, hpiece, rfl⟩ := List.mem_map.mp hrun
      exact hseen ▸ List.mem_flatten.mpr ⟨piece, hpiece, (sort_perm key piece).subset hrow⟩
    refine Owns.bind (Owns.lift hmerge) ?_
    rintro _ _ ⟨rfl, rfl⟩
    refine Owns.bind Owns.release ?_
    rintro _ _ rfl
    exact Owns.pure ⟨rfl, rfl⟩

end Sorting

/-- However the account cuts the input into runs, the external sort emits the rows of the
in-memory sort, in its order. -/
theorem externalSortedRows_eq_sortRows {py : Python} {domains : List (Set SQLValue)}
    (hS : ∀ S ∈ domains, Ordered S) {orderBy : List SortExpression} {batches : List RecordBatch}
    {names : List String}
    (hkeys : ∀ row ∈ allRows batches, HasKeys py (orderBy.map (·.expression)) domains row)
    (hstored : ∀ row ∈ allRows batches, Row.Stored names row) :
    ∃ rows, sortRows py orderBy (allRows batches) = .ok rows ∧
      ∀ account, ∃ account',
        (externalSortedRows py batches names orderBy).run account = .ok (rows, account') := by
  let S := fun row => HasKeys py (orderBy.map (·.expression)) domains row ∧ Row.Stored names row
  have hless : StableSort.OrderedBy (rowLess py orderBy) (rowPlace py orderBy) S :=
    fun a b ha hb => rowLess_orderedBy_rowPlace hS a b ha.1 hb.1
  have hrows : ∀ row ∈ allRows batches, S row := fun row hrow => ⟨hkeys row hrow, hstored row hrow⟩
  refine ⟨_, StableSort.sortM_eq hless hrows, fun account => ?_⟩
  obtain ⟨_, account', _, hrun, -, -, rfl⟩ := externalSortedRows_owns hless
    (fun _ h => h.2) hrows account account.currentBytes (Nat.zero_add _).symm
  exact ⟨account', hrun⟩

/-- Two batches of a column `x`. -/
def nullableInts : List RecordBatch :=
  [.fromPylist [[("x", .int 2)], [("x", .null)]] ["x"], .fromPylist [[("x", .int 5)]] ["x"]]

theorem externalSortedRows_eq_sortRows_nullableInts :
    ∃ rows, sortRows Python.ascii [⟨.column "x" "" ⟨.null, true⟩, false, true⟩]
        (allRows nullableInts) = .ok rows ∧
      ∀ account, ∃ account', (externalSortedRows Python.ascii nullableInts ["x"]
        [⟨.column "x" "" ⟨.null, true⟩, false, true⟩]).run account = .ok (rows, account') := by
  have hints : Ordered {v | ∃ i, v = .int i} := by
    rintro _ ⟨i, rfl⟩ _ ⟨j, rfl⟩
    exact ⟨_, rfl⟩
  have hrows : ∀ row ∈ allRows nullableInts, row = [("x", .int 2)] ∨ row = [("x", .null)] ∨
      row = [("x", .int 5)] := by
    intro row hrow
    have hlist : allRows nullableInts = [[("x", .int 2)], [("x", .null)], [("x", .int 5)]] := rfl
    simpa [hlist] using hrow
  refine externalSortedRows_eq_sortRows (List.forall_mem_singleton.mpr hints)
    (fun row hrow => ?_) fun row hrow => ?_
  · rcases hrows row hrow with rfl | rfl | rfl
    · exact ⟨rfl, .cons (Or.inr ⟨2, rfl⟩) .nil⟩
    · exact ⟨rfl, .cons (Or.inl rfl) .nil⟩
    · exact ⟨rfl, .cons (Or.inr ⟨5, rfl⟩) .nil⟩
  · rcases hrows row hrow with rfl | rfl | rfl <;> exact ⟨rfl, List.nodup_singleton _, List.cons_ne_nil _ _⟩

end DistributedSql

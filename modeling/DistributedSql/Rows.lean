/-
Rows and record batches.

A row is the Python dict `to_pylist` hands out: column names with values, in
insertion order.  A record batch is held by its schema's field names and its
rows; Arrow's value conversions are taken as lossless, so field types play no
part here.

`RecordBatch.fromPylist` and `batchesFromRows` follow `from_pylist` and
`_batches_from_rows`: every output row is cut down to the schema's names, and a
name the row lacks becomes NULL (`Row.restrict`).
* `batchesFromRows_rows` — the batches hold the restricted rows, in order.
-/
import DistributedSql.Values

namespace DistributedSql

/-- A Python dict from column names to values, in insertion order. -/
abbrev Row : Type := List (String × SQLValue)

namespace Row

/-- The keys of the dict. -/
def names (row : Row) : List String := row.map Prod.fst

/-- `row.get(name)`, `none` where the key is absent. -/
def get? (row : Row) (name : String) : Option SQLValue := row.lookup name

/-- `row[name]`. -/
def getItem (row : Row) (name : String) : Except PyError SQLValue :=
  match row.get? name with
  | some value => .ok value
  | none => .error (.keyError name)

/-- `left | right`: the right dict wins, new keys come last. -/
def union (left right : Row) : Row :=
  left.map (fun item => (item.1, (right.get? item.1).getD item.2))
    ++ right.filter fun item => (left.get? item.1).isNone

/-- `dict.fromkeys(names)`. -/
def fromkeys (names : List String) : Row := names.map fun name => (name, .null)

/-- The row `from_pylist` stores under a schema with these field names. -/
def restrict (names : List String) (row : Row) : Row :=
  names.map fun name => (name, (row.get? name).getD .null)

theorem get?_nil (name : String) : get? [] name = none := rfl

theorem get?_cons (item : String × SQLValue) (row : Row) (name : String) :
    get? (item :: row) name = if name = item.1 then some item.2 else get? row name := by
  rw [get?, List.lookup_cons]
  by_cases h : name = item.1
  · simp [h]
  · rw [if_neg h, beq_false_of_ne h]; rfl

theorem get?_append (left right : Row) (name : String) :
    get? (left ++ right) name = (get? left name).or (get? right name) := by
  induction left with
  | nil => rfl
  | cons item left ih =>
    rw [List.cons_append, get?_cons, get?_cons, ih]
    by_cases h : name = item.1 <;> simp [h]

theorem get?_isSome {row : Row} {name : String} :
    (row.get? name).isSome = true ↔ name ∈ row.names := by
  induction row with
  | nil => simp [names, get?]
  | cons item row ih =>
    rw [get?_cons, names, List.map_cons, List.mem_cons, ← names]
    by_cases h : name = item.1
    · simp [h]
    · rw [if_neg h, ih, or_iff_right h]

theorem get?_eq_none {row : Row} {name : String} : row.get? name = none ↔ name ∉ row.names := by
  rw [← get?_isSome, Bool.not_eq_true, Option.isSome_eq_false_iff, Option.isNone_iff_eq_none]

theorem get?_map (row : Row) (f : String → SQLValue → SQLValue) (name : String) :
    get? (row.map fun item => (item.1, f item.1 item.2)) name = (get? row name).map (f name) := by
  induction row with
  | nil => rfl
  | cons item row ih =>
    rw [List.map_cons, get?_cons, get?_cons, ih]
    by_cases h : name = item.1 <;> simp [h]

theorem get?_filter_isNone (left right : Row) (name : String) (h : left.get? name = none) :
    get? (right.filter fun item => (left.get? item.1).isNone) name = get? right name := by
  induction right with
  | nil => rfl
  | cons item right ih =>
    rw [List.filter_cons, get?_cons item right]
    by_cases hn : name = item.1
    · rw [← hn, h, if_pos Option.isNone_none, get?_cons, if_pos hn, if_pos rfl]
    · rw [if_neg hn, ← ih]
      split
      · rw [get?_cons, if_neg hn]
      · rfl

/-- Lookup in `left | right`. -/
theorem get?_union (left right : Row) (name : String) :
    (left.union right).get? name = (right.get? name).or (left.get? name) := by
  rw [union, get?_append, get?_map left (fun n v => (right.get? n).getD v)]
  cases hl : left.get? name with
  | none =>
    rw [get?_filter_isNone left right name hl]
    simp
  | some value =>
    cases hr : right.get? name <;> simp

theorem get?_fromkeys (keys : List String) (name : String) :
    (fromkeys keys).get? name = if name ∈ keys then some .null else none := by
  induction keys with
  | nil => rfl
  | cons key keys ih =>
    rw [fromkeys, List.map_cons, get?_cons, ← fromkeys, ih]
    by_cases h : name = key <;> simp [h]

theorem get?_restrict (keys : List String) (row : Row) (name : String) :
    (row.restrict keys).get? name = if name ∈ keys then some ((row.get? name).getD .null) else none := by
  induction keys with
  | nil => rfl
  | cons key keys ih =>
    rw [restrict, List.map_cons, get?_cons, ← restrict, ih]
    by_cases h : name = key <;> simp [h]

@[simp] theorem names_restrict (keys : List String) (row : Row) :
    (row.restrict keys).names = keys := by
  simp [names, restrict, Function.comp_def]

/-- Restriction only reads the restricted names, an absent one as NULL. -/
theorem restrict_congr {keys : List String} {row row' : Row}
    (h : ∀ name ∈ keys, (row.get? name).getD .null = (row'.get? name).getD .null) :
    row.restrict keys = row'.restrict keys :=
  List.map_congr_left fun name hname => by rw [h name hname]

/-- Padding a row with NULLs under names it lacks is invisible after restriction. -/
theorem restrict_union_fromkeys {keys nulls : List String} {row : Row}
    (h : ∀ name ∈ nulls, name ∉ row.names) :
    (row.union (fromkeys nulls)).restrict keys = row.restrict keys := by
  refine restrict_congr fun name _ => ?_
  rw [get?_union, get?_fromkeys]
  by_cases hn : name ∈ nulls
  · rw [if_pos hn, get?_eq_none.mpr (h name hn)]; rfl
  · rw [if_neg hn]; rfl

/-- A row stored under its own names is unchanged. -/
theorem restrict_self {keys : List String} {row : Row} (h : row.names = keys)
    (hn : keys.Nodup) : row.restrict keys = row := by
  subst h
  induction row with
  | nil => rfl
  | cons item row ih =>
    rw [names, List.map_cons] at hn ⊢
    obtain ⟨hmem, hn⟩ := List.nodup_cons.mp hn
    have htail : restrict (names row) (item :: row) = restrict (names row) row := by
      refine restrict_congr fun name hname => ?_
      rw [get?_cons, if_neg (by rintro rfl; exact hmem hname)]
    have hhead : get? (item :: row) item.1 = some item.2 := by rw [get?_cons, if_pos rfl]
    rw [restrict, List.map_cons, hhead, ← restrict, ← names, htail, ih hn]
    rfl

theorem restrict_fromkeys_union {keys nulls : List String} {row : Row} :
    ((fromkeys nulls).union row).restrict keys = row.restrict keys := by
  refine restrict_congr fun name _ => ?_
  rw [get?_union, get?_fromkeys]
  cases row.get? name with
  | some value => rfl
  | none => by_cases hn : name ∈ nulls <;> simp [hn]

/-- Rows without a common name may be united in either order. -/
theorem restrict_union_comm {keys : List String} {left right : Row}
    (h : ∀ name ∈ left.names, name ∉ right.names) :
    (left.union right).restrict keys = (right.union left).restrict keys := by
  refine restrict_congr fun name _ => ?_
  rw [get?_union, get?_union]
  cases hl : left.get? name with
  | none => cases right.get? name <;> rfl
  | some value =>
    have hmem : name ∈ left.names := get?_isSome.mp (by rw [hl]; rfl)
    rw [get?_eq_none.mpr (h name hmem)]; rfl

end Row

/-! ### Record batches -/

/-- A record batch: the field names of its schema, and rows with exactly those keys.
Without a column there is nothing to hold a length. -/
structure RecordBatch where
  names : List String
  rows : List Row
  rows_names : ∀ row ∈ rows, row.names = names
  rows_of_nil : names = [] → rows = []

/-- `pa.RecordBatch.from_pylist(rows, schema=..)`.  Under a schema without fields
the batch has no column to hold a length, and so no rows. -/
def RecordBatch.fromPylist (rows : List Row) (names : List String) : RecordBatch where
  names := names
  rows := if names = [] then [] else rows.map (Row.restrict names)
  rows_names := by
    intro row hrow
    split at hrow
    · cases hrow
    · obtain ⟨r, -, rfl⟩ := List.mem_map.mp hrow
      exact Row.names_restrict names r
  rows_of_nil h := if_pos h

theorem RecordBatch.fromPylist_rows {names : List String} (h : names ≠ []) (rows : List Row) :
    (fromPylist rows names).rows = rows.map (Row.restrict names) := by
  simp [fromPylist, h]

/-- A row as a batch with these field names holds it. -/
structure Row.Stored (names : List String) (row : Row) : Prop where
  names_eq : row.names = names
  nodup : names.Nodup
  ne_nil : names ≠ []

theorem Row.Stored.restrict {names : List String} {row : Row} (h : row.Stored names) :
    row.restrict names = row :=
  restrict_self h.names_eq h.nodup

/-- Rows that already have the schema's names are stored as they are. -/
theorem RecordBatch.fromPylist_rows_of_stored {names : List String} {rows : List Row}
    (h : ∀ row ∈ rows, row.Stored names) : (fromPylist rows names).rows = rows := by
  cases rows with
  | nil => simp [fromPylist]
  | cons row rest =>
    rw [fromPylist_rows (h row List.mem_cons_self).ne_nil,
      List.map_congr_left fun r hr => (h r hr).restrict, List.map_id']

/-- `rows[offset : offset + size] for offset in range(0, len(rows), size)`. -/
def chunks {α : Type*} (rows : List α) (size : ℕ) : List (List α) :=
  (List.range ((rows.length + size - 1) / size)).map fun i => (rows.drop (i * size)).take size

private theorem flatten_take_chunks {α : Type*} (rows : List α) (size n : ℕ) :
    ((List.range n).map fun i => (rows.drop (i * size)).take size).flatten
      = rows.take (n * size) := by
  induction n with
  | zero => simp
  | succ n ih =>
    rw [List.range_succ, List.map_append, List.flatten_append, ih, Nat.succ_mul, List.take_add]
    simp

theorem flatten_chunks {α : Type*} (rows : List α) {size : ℕ} (h : 0 < size) :
    (chunks rows size).flatten = rows := by
  rw [chunks, flatten_take_chunks]
  refine List.take_of_length_le ?_
  have hdiv := Nat.div_add_mod (rows.length + size - 1) size
  have hmod := Nat.mod_lt (rows.length + size - 1) h
  have hcomm := Nat.mul_comm size ((rows.length + size - 1) / size)
  omega

/-- `_batches_from_rows`. -/
def batchesFromRows (rows : List Row) (names : List String) (batchSize : ℕ) : List RecordBatch :=
  (chunks rows batchSize).map fun chunk => RecordBatch.fromPylist chunk names

/-- Selecting by position what a predicate of the elements selects. -/
theorem filter_zipIdx_fst {α : Type*} (l : List α) (p : α → Bool) :
    (l.zipIdx.filter fun item => p item.1).map Prod.fst = l.filter p := by
  conv_rhs => rw [← List.zipIdx_map_fst 0 l, List.filter_map]
  rfl

/-- All rows of a list of batches, in order. -/
def allRows (batches : List RecordBatch) : List Row := batches.flatMap RecordBatch.rows

@[simp] theorem allRows_nil : allRows [] = [] := rfl

@[simp] theorem allRows_cons (batch : RecordBatch) (batches : List RecordBatch) :
    allRows (batch :: batches) = batch.rows ++ allRows batches := rfl

@[simp] theorem allRows_append (left right : List RecordBatch) :
    allRows (left ++ right) = allRows left ++ allRows right := by
  simp [allRows]

theorem chunks_nil {α : Type*} {size : ℕ} (h : 0 < size) : chunks ([] : List α) size = [] := by
  rw [chunks, List.length_nil, Nat.div_eq_of_lt (by omega)]
  rfl

theorem batchesFromRows_rows {names : List String} {batchSize : ℕ} (hnames : names ≠ [])
    (hsize : 0 < batchSize) (rows : List Row) :
    allRows (batchesFromRows rows names batchSize) = rows.map (Row.restrict names) := by
  have h : ∀ parts : List (List Row),
      allRows (parts.map fun chunk => RecordBatch.fromPylist chunk names)
        = parts.flatten.map (Row.restrict names) := by
    intro parts
    induction parts with
    | nil => rfl
    | cons part parts ih =>
      rw [List.map_cons, allRows_cons, ih, RecordBatch.fromPylist_rows hnames,
        List.flatten_cons, List.map_append]
  rw [batchesFromRows, h, flatten_chunks rows hsize]

/-- Nothing is stored in batches without a column. -/
theorem allRows_batchesFromRows_nil (rows : List Row) (batchSize : ℕ) :
    allRows (batchesFromRows rows [] batchSize) = [] := by
  rw [batchesFromRows, allRows, List.flatMap_eq_nil_iff]
  intro batch hbatch
  obtain ⟨chunk, -, rfl⟩ := List.mem_map.mp hbatch
  rfl

theorem batchesFromRows_rows_of_stored {names : List String} {batchSize : ℕ}
    (hsize : 0 < batchSize) {rows : List Row} (h : ∀ row ∈ rows, row.Stored names) :
    allRows (batchesFromRows rows names batchSize) = rows := by
  cases rows with
  | nil => rw [batchesFromRows, chunks_nil hsize]; rfl
  | cons row rest =>
    rw [batchesFromRows_rows (h row List.mem_cons_self).ne_nil hsize,
      List.map_congr_left fun r hr => (h r hr).restrict, List.map_id']

/-! ### Tables -/

/-- `table.take(indexes)`. -/
def RecordBatch.take (table : RecordBatch) (indexes : List ℕ) : RecordBatch where
  names := table.names
  rows := indexes.filterMap fun index => table.rows[index]?
  rows_names := by
    intro row hrow
    obtain ⟨index, -, hindex⟩ := List.mem_filterMap.mp hrow
    exact table.rows_names row (List.mem_of_getElem? hindex)
  rows_of_nil h := by simp [table.rows_of_nil h]

/-- Taking the rows a predicate selects. -/
theorem RecordBatch.take_rows (table : RecordBatch) (p : Row → Bool) :
    (table.take ((table.rows.zipIdx.filter fun item => p item.1).map Prod.snd)).rows
      = table.rows.filter p := by
  have hget : ∀ item ∈ table.rows.zipIdx.filter fun item => p item.1,
      ((fun index => table.rows[index]?) ∘ Prod.snd) item = some item.1 := fun item hitem =>
    List.mem_zipIdx_iff_getElem?.mp (List.mem_of_mem_filter hitem)
  change (List.map Prod.snd _).filterMap _ = _
  rw [List.filterMap_map, List.filterMap_congr hget]
  exact (congrFun List.filterMap_eq_map _).trans (filter_zipIdx_fst table.rows p)

/-- `pa.concat_tables`: all tables must have the same columns; without any, `pa.table({})`. -/
def concatTables (tables : List RecordBatch) : Except PyError RecordBatch :=
  match tables with
  | [] => .ok ⟨[], [], by simp, fun _ => rfl⟩
  | table :: rest =>
      if h : ∀ other ∈ rest, other.names = table.names then
        .ok
          { names := table.names
            rows := allRows (table :: rest)
            rows_names := by
              intro row hrow
              obtain ⟨batch, hbatch, hmem⟩ := List.mem_flatMap.mp hrow
              rw [batch.rows_names row hmem]
              rcases List.mem_cons.mp hbatch with rfl | hbatch
              · rfl
              · exact h batch hbatch
            rows_of_nil := by
              intro hnil
              refine List.flatMap_eq_nil_iff.mpr fun batch hbatch => batch.rows_of_nil ?_
              rcases List.mem_cons.mp hbatch with rfl | hbatch
              · exact hnil
              · rw [h batch hbatch, hnil] }
      else .error (.valueError "Schema at index 1 was different")

theorem concatTables_eq {tables : List RecordBatch} {names : List String} (hne : tables ≠ [])
    (h : ∀ table ∈ tables, table.names = names) :
    ∃ table, concatTables tables = .ok table ∧ table.names = names ∧
      table.rows = allRows tables := by
  cases tables with
  | nil => exact absurd rfl hne
  | cons table rest =>
    obtain ⟨htable, hrest⟩ := List.forall_mem_cons.mp h
    rw [concatTables, dif_pos fun other hother => (hrest other hother).trans htable.symm]
    exact ⟨_, rfl, htable, rfl⟩

end DistributedSql

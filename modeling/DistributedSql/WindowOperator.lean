/-
Window functions (`WindowOperator` in `execution/operators.py`).

A window groups the rows by its PARTITION BY values, in a dict, sorts each partition by
its ORDER BY, and goes through the sorted rows, putting a value under its printed text
into each of them.  The rows themselves keep their places.  The windows of a node are
evaluated one after the other, each on the rows the one before it has left.

Main results:
* `evaluate_spec` — a window changes nothing in a row but the value under its text;
* `evaluateWindows_chosen`, `evaluateWindows_of_chosen` — on the rows of some partitions
  the windows give what they give them among all rows.
-/
import DistributedSql.Aggregation

namespace DistributedSql

/-- `row[name] = value`. -/
def Row.setItem (name : String) (value : SQLValue) (row : Row) : Row := row.union [(name, value)]

/-- The fields of a `WindowFunction`. -/
structure WindowFunction where
  function : Expression
  partitionBy : List Expression
  orderBy : List SortExpression
  frame : Option WindowFrame

def Expression.asWindow : Expression → Option WindowFunction
  | .windowFunction function partitionBy orderBy frame =>
      some ⟨function, partitionBy, orderBy.map fun item => ⟨item.1, item.2.1, item.2.2⟩, frame⟩
  | _ => none

/-! ### Frames -/

/-- `text.split()`. -/
def splitWords (text : String) : List String :=
  ((text.toList.splitOnP Char.isWhitespace).filter (· ≠ [])).map String.ofList

/-- `_frame_boundary`. -/
def frameBoundary (py : Python) (boundary : String) (index size : ℕ) (isEnd : Bool) :
    Except PyError ℕ :=
  if boundary = "UNBOUNDED PRECEDING" then .ok 0
  else if boundary = "UNBOUNDED FOLLOWING" then .ok size
  else if boundary = "CURRENT ROW" then .ok (index + if isEnd then 1 else 0)
  else
    match splitWords boundary with
    | [amountText, direction] => do
        let amount ← py.int (.str amountText)
        let position : ℤ := if direction = "PRECEDING" then index - amount else index + amount
        let position := if isEnd then position + 1 else position
        return (min (max position 0) size).toNat
    | words => .error (.valueError (
        if words.length < 2 then
          "not enough values to unpack (expected 2, got " ++ toString words.length ++ ")"
        else "too many values to unpack (expected 2)"))

/-- `_window_bounds`: without a frame, the peers of the row and what comes before them. -/
def windowBounds (py : Python) (frame : Option WindowFrame) (index size : ℕ)
    (peerKeys : List (List SQLValue)) : Except PyError (ℕ × ℕ) :=
  match frame with
  | none =>
      if (peerKeys.headD []).isEmpty then .ok (0, size)
      else
        let peer := peerKeys.getD index []
        .ok (0, index + 1 + ((peerKeys.drop (index + 1)).takeWhile fun key => tupleEq key peer).length)
  | some frame => do
      let start ← frameBoundary py frame.start index size false
      let stop ← frameBoundary py frame.stop index size true
      return (start, stop)

/-! ### The values of one partition -/

/-- `dense_rank` and `previous_peer` in the loop over a partition. -/
structure RankState where
  denseRank : ℕ
  previousPeer : Option (List SQLValue)

/-- The value of a ranking function on the row after those of `done`. -/
def rankValue (name text : String) (peer : List SQLValue) (done : List Row) (state : RankState) :
    Except PyError (SQLValue × RankState) :=
  let index := done.length
  if name = "row_number" then .ok (.int (index + 1), state)
  else
    let differs := state.previousPeer.elim true fun previous => !tupleEq peer previous
    let denseRank := if index = 0 || differs then state.denseRank + 1 else state.denseRank
    let state : RankState := ⟨denseRank, some peer⟩
    if name = "dense_rank" then .ok (.int denseRank, state)
    else if differs then .ok (.int (index + 1), state)
    else (Row.getItem (done.getLastD []) text).map fun value => (value, state)

/-- The value of an aggregate over the rows of a frame. -/
def frameValue (py : Python) (function : AggregateFunction) (rows : List Row) :
    Except PyError SQLValue := do
  let state ← rows.foldlM (fun state row => AggregateState.add py row state)
    ({ function := function } : AggregateState)
  state.finish py

section Window

variable (py : Python) (window : WindowFunction) (text : String)

/-- The value of the window on the row after those of `done`. -/
def windowValue (peerKeys : List (List SQLValue)) (done rest : List Row) (state : RankState) :
    Except PyError (SQLValue × RankState) :=
  match window.function with
  | .scalarFunction name _ _ => rankValue name text (peerKeys.getD done.length []) done state
  | function =>
      match function.asAggregate with
      | none => .error (.typeError "object has no attribute 'distinct'")
      | some function => do
          let (start, stop) ← windowBounds py window.frame done.length (done.length + rest.length)
            peerKeys
          let value ← frameValue py function (((done ++ rest).drop start).take (stop - start))
          return (value, state)

/-- The loop over the ordered rows of a partition; those of `done` have their value. -/
def windowLoop (peerKeys : List (List SQLValue)) :
    List Row → List Row → RankState → Except PyError (List Row)
  | done, [], _ => .ok done
  | done, row :: rest, state => do
      let result ← windowValue py window text peerKeys done (row :: rest) state
      windowLoop peerKeys (done ++ [row.setItem text result.1]) rest result.2

/-- The rows of a partition, with their places in it, in the order of the window. -/
def orderPartition (rows : List Row) : Except PyError (List (Row × ℕ)) :=
  if window.orderBy.isEmpty then .ok rows.zipIdx
  else StableSort.sortM (fun left right => rowLess py window.orderBy left.1 right.1) rows.zipIdx

/-- What became of the rows of a partition. -/
def evaluatePartition (rows : List Row) : Except PyError (List Row) := do
  let ordered ← orderPartition py window rows
  let peerKeys ← ordered.mapM fun item =>
    Expression.evaluateAll py item.1 (window.orderBy.map (·.expression))
  let updated ← windowLoop py window text peerKeys [] (ordered.map Prod.fst) ⟨0, none⟩
  -- the rows are objects: each is found again at its own place
  return rows.zipIdx.map fun item =>
    (((updated.zip (ordered.map Prod.snd)).find? fun found => found.2 = item.2).map Prod.fst).getD
      item.1

/-- A partition under its key. -/
def evaluateGroup (group : List SQLValue × List Row) : Except PyError (List SQLValue × List Row) := do
  return (group.1, ← evaluatePartition py window text group.2)

/-- `WindowOperator._evaluate`. -/
def evaluate (rows : List Row) : Except PyError (List Row) := do
  let keyed ← keyedRows py window.partitionBy rows
  let results ← (Grouping.groups tupleEq keyed).mapM (evaluateGroup py window text)
  return Grouping.distribute tupleEq keyed [] results

end Window

/-! ### The operator -/

section Operator

variable (py : Python) (expressions : List NamedExpression)

/-- `_evaluate(item.expression, rows, context)`. -/
def evaluateItem (item : NamedExpression) (rows : List Row) : Except PyError (List Row) :=
  match item.expression.asWindow with
  | some window => evaluate py window (item.expression.sql py) rows
  | none => .error (.typeError "object has no attribute 'partition_by'")

/-- The windows of the operator, one after the other. -/
def evaluateWindows (rows : List Row) : Except PyError (List Row) :=
  expressions.foldlM (fun rows item => evaluateItem py item rows) rows

/-- The field names of `arrow_schema_for_window`. -/
def windowNames (inputNames : List String) : List String :=
  expressions.foldl (fun names item =>
    if item.expression.sql py ∈ names then names else names ++ [item.expression.sql py]) inputNames

/-- `WindowOperator.execute`. -/
def windowExecute (batchSize : ℕ) (inputNames : List String) (batches : List RecordBatch) :
    Except PyError (List RecordBatch) := do
  return batchesFromRows (← evaluateWindows py expressions (allRows batches))
    (windowNames py expressions inputNames) batchSize

end Operator

/-! ### What a window changes -/

/-- The rows differ at most in the values under these names. -/
def AgreesBut (names : List String) (row row' : Row) : Prop :=
  ∀ name, name ∉ names → row'.get? name = row.get? name

theorem AgreesBut.refl (names : List String) (row : Row) : AgreesBut names row row := fun _ _ => rfl

theorem AgreesBut.trans {names : List String} {row row' row'' : Row} (h : AgreesBut names row row')
    (h' : AgreesBut names row' row'') : AgreesBut names row row'' :=
  fun name hname => (h' name hname).trans (h name hname)

theorem AgreesBut.mono {names names' : List String} {row row' : Row} (h : AgreesBut names row row')
    (hsub : names ⊆ names') : AgreesBut names' row row' :=
  fun name hname => h name fun hmem => hname (hsub hmem)

theorem agreesBut_setItem (text : String) (value : SQLValue) (row : Row) :
    AgreesBut [text] row (row.setItem text value) := by
  intro name hname
  rw [Row.setItem, Row.get?_union, Row.get?_cons, if_neg (mt List.mem_singleton.mpr hname),
    Row.get?_nil, Option.none_or]

theorem Row.getItem_setItem (text : String) (value : SQLValue) (row : Row) :
    (row.setItem text value).getItem text = .ok value := by
  rw [Row.getItem, Row.setItem, Row.get?_union, Row.get?_cons, if_pos rfl, Option.some_or]

section Spec

variable {py : Python} {window : WindowFunction} {text : String}

private theorem windowLoop_spec {peerKeys : List (List SQLValue)} {done rest updated : List Row}
    {state : RankState} (h : windowLoop py window text peerKeys done rest state = .ok updated) :
    ∃ tail, updated = done ++ tail ∧ List.Forall₂ (AgreesBut [text]) rest tail := by
  induction rest generalizing done state with
  | nil =>
    cases h
    exact ⟨[], (List.append_nil _).symm, .nil⟩
  | cons row rest ih =>
    obtain ⟨result, -, h⟩ := ExceptState.bind_eq_ok h
    obtain ⟨tail, hupdated, htail⟩ := ih h
    exact ⟨row.setItem text result.1 :: tail, by rw [hupdated, List.append_assoc]; rfl,
      .cons (agreesBut_setItem text result.1 row) htail⟩

theorem perm_of_orderPartition {rows : List Row} {ordered : List (Row × ℕ)}
    (h : orderPartition py window rows = .ok ordered) : ordered.Perm rows.zipIdx := by
  unfold orderPartition at h
  split at h
  · cases h
    exact List.Perm.refl _
  · exact StableSort.perm_of_sortM h

/-- What is found at a place came of the row that stood there. -/
private theorem row_of_place {rows results : List Row} {ordered : List (Row × ℕ)}
    (hmem : ordered ⊆ rows.zipIdx)
    (hresults : List.Forall₂ (AgreesBut [text]) (ordered.map Prod.fst) results) :
    ∀ found ∈ results.zip (ordered.map Prod.snd), ∃ row, rows[found.2]? = some row ∧
      AgreesBut [text] row found.1 := by
  induction ordered generalizing results with
  | nil =>
    cases hresults
    exact fun found hfound => absurd hfound List.not_mem_nil
  | cons item ordered ih =>
    obtain ⟨row', rest, hrow, hrest, rfl⟩ := List.forall₂_cons_left_iff.mp hresults
    obtain ⟨hitem, hmem⟩ := List.cons_subset.mp hmem
    intro found hfound
    rw [List.map_cons, List.zip_cons_cons] at hfound
    rcases List.mem_cons.mp hfound with rfl | hfound
    · exact ⟨item.1, List.mem_zipIdx_iff_getElem?.mp hitem, hrow⟩
    · exact ih hmem hrest found hfound

private theorem evaluatePartition_spec {rows updated : List Row}
    (h : evaluatePartition py window text rows = .ok updated) :
    List.Forall₂ (AgreesBut [text]) rows updated := by
  obtain ⟨ordered, hordered, h⟩ := ExceptState.bind_eq_ok h
  obtain ⟨peerKeys, -, h⟩ := ExceptState.bind_eq_ok h
  obtain ⟨results, hresults, h⟩ := ExceptState.bind_eq_ok h
  obtain ⟨tail, htail, hrows⟩ := windowLoop_spec hresults
  rw [List.nil_append] at htail
  subst htail
  cases h
  have hplaces : List.Forall₂ (fun item row => AgreesBut [text] item.1 row) rows.zipIdx
      (rows.zipIdx.map fun item => (((results.zip (ordered.map Prod.snd)).find? fun found =>
        found.2 = item.2).map Prod.fst).getD item.1) := by
    rw [List.forall₂_map_right_iff, List.forall₂_same]
    intro item hitem
    cases hfind : (results.zip (ordered.map Prod.snd)).find? fun found => found.2 = item.2 with
    | none => exact AgreesBut.refl _ _
    | some found =>
      obtain ⟨row, hrow, hagrees⟩ := row_of_place (perm_of_orderPartition hordered).subset hrows
        found (List.mem_of_find?_eq_some hfind)
      have hplace : found.2 = item.2 := by simpa using List.find?_some hfind
      rw [hplace, List.mem_zipIdx_iff_getElem?.mp hitem] at hrow
      exact Option.some.inj hrow ▸ hagrees
  rw [← List.forall₂_map_left_iff (f := Prod.fst), List.zipIdx_map_fst] at hplaces
  exact hplaces

/-- A window changes nothing in a row but the value under its text. -/
theorem evaluate_spec {rows updated : List Row} (h : evaluate py window text rows = .ok updated) :
    List.Forall₂ (AgreesBut [text]) rows updated := by
  obtain ⟨keyed, hkeyed, h⟩ := ExceptState.bind_eq_ok h
  obtain ⟨results, hresults, h⟩ := ExceptState.bind_eq_ok h
  cases h
  have hgroups : List.Forall₂ (Grouping.Replaced (AgreesBut [text]))
      (Grouping.groups tupleEq keyed) results := by
    refine (ExceptState.mapM_eq_ok_iff.mp hresults).imp fun group result hgroup => ?_
    obtain ⟨rows, hrows, heq⟩ := ExceptState.bind_eq_ok hgroup
    cases heq
    exact ⟨rfl, evaluatePartition_spec hrows⟩
  have hall := Grouping.forall₂_distribute hgroups
  rw [← List.forall₂_map_left_iff (f := Prod.snd), (keyedRows_iff.mp hkeyed).1] at hall
  exact hall

/-! ### Some of the partitions -/

section Chosen

variable {K : List SQLValue → Prop} {keys : List (List SQLValue)} {rows : List Row}

private theorem keyedRows_zip
    (heval : List.Forall₂ (fun row key => Expression.evaluateAll py row window.partitionBy = .ok key)
      rows keys) : keyedRows py window.partitionBy rows = .ok (keys.zip rows) := by
  rw [keyedRows_iff]
  refine ⟨List.map_snd_zip heval.length_eq.le, ?_⟩
  induction heval with
  | nil => exact fun _ h => absurd h List.not_mem_nil
  | cons hkey _ ih => exact List.forall_mem_cons.mpr ⟨hkey, ih⟩

private theorem key_of_evaluateGroup {group result : List SQLValue × List Row}
    (h : evaluateGroup py window text group = .ok result) : result.1 = group.1 := by
  obtain ⟨rows, -, heq⟩ := ExceptState.bind_eq_ok h
  cases heq
  rfl

/-- The groups of the chosen rows, in the form `evaluate` needs them. -/
private theorem groups_chosen {p : List SQLValue → Bool} (hp : Grouping.Respects tupleEq K p)
    (hkeys : ∀ key ∈ keys, K key)
    (heval : List.Forall₂ (fun row key => Expression.evaluateAll py row window.partitionBy = .ok key)
      rows keys) :
    keyedRows py window.partitionBy (Grouping.chosen p keys rows)
        = .ok ((keys.zip rows).filter fun item => p item.1) ∧
      Grouping.groups tupleEq ((keys.zip rows).filter fun item => p item.1)
        = (Grouping.groups tupleEq (keys.zip rows)).filter fun group => p group.1 := by
  refine ⟨keyedRows_iff.mpr ⟨rfl, fun item hitem => ?_⟩, Grouping.groups_filter hp fun item hitem =>
    hkeys item.1 (List.of_mem_zip hitem).1⟩
  exact (keyedRows_iff.mp (keyedRows_zip heval)).2 item (List.mem_of_mem_filter hitem)

/-- On the rows of some of its partitions a window gives what it gives them among all rows. -/
theorem evaluate_chosen {p : List SQLValue → Bool} (hp : Grouping.Respects tupleEq K p)
    (hkeys : ∀ key ∈ keys, K key)
    (heval : List.Forall₂ (fun row key => Expression.evaluateAll py row window.partitionBy = .ok key)
      rows keys) {updated : List Row} (h : evaluate py window text rows = .ok updated) :
    evaluate py window text (Grouping.chosen p keys rows) = .ok (Grouping.chosen p keys updated) := by
  obtain ⟨hchosen, hgroups⟩ := groups_chosen hp hkeys heval
  rw [evaluate, keyedRows_zip heval, ExceptState.ok_bind] at h
  obtain ⟨results, hresults, h⟩ := ExceptState.bind_eq_ok h
  cases h
  have hall := ExceptState.mapM_eq_ok_iff.mp hresults
  have hmap : results.map Prod.fst = (Grouping.groups tupleEq (keys.zip rows)).map Prod.fst := by
    rw [← List.forall₂_eq_eq_eq, List.forall₂_map_left_iff, List.forall₂_map_right_iff]
    exact (hall.imp fun _ _ hgroup => key_of_evaluateGroup hgroup).flip
  rw [evaluate, hchosen, ExceptState.ok_bind, hgroups]
  refine ExceptState.bind_eq_ok_iff.mpr ⟨results.filter fun group => p group.1,
    ExceptState.mapM_eq_ok_iff.mpr (List.rel_filter (fun group result hgroup => ?_) hall), ?_⟩
  · show p group.1 = true ↔ p result.1 = true
    rw [key_of_evaluateGroup hgroup]
  · have hdistribute := Grouping.distribute_filter hp
      (fun item hitem => hkeys item.1 (List.of_mem_zip hitem).1)
      (show ∀ group ∈ ([] : List (List SQLValue × List Row)), K group.1 from
        fun _ h => absurd h List.not_mem_nil)
      (hmap.trans (Grouping.keys_groups (keys.zip rows)))
    rw [Grouping.filter_zip_zip p heval.length_eq] at hdistribute
    exact congrArg Except.ok hdistribute

/-- If a window can be evaluated on every choice of its partitions, and each of them is in one,
it can be evaluated. -/
theorem evaluate_of_chosen {ι : Type*} {p : ι → List SQLValue → Bool}
    (hp : ∀ i, Grouping.Respects tupleEq K (p i)) (hkeys : ∀ key ∈ keys, K key)
    (hcover : ∀ key ∈ keys, ∃ i, p i key = true)
    (heval : List.Forall₂ (fun row key => Expression.evaluateAll py row window.partitionBy = .ok key)
      rows keys)
    (h : ∀ i, ∃ updated, evaluate py window text (Grouping.chosen (p i) keys rows) = .ok updated) :
    ∃ updated, evaluate py window text rows = .ok updated := by
  rw [evaluate, keyedRows_zip heval, ExceptState.ok_bind]
  obtain ⟨results, hresults, -⟩ := ExceptState.exists_mapM_eq_ok
    (f := evaluateGroup py window text) (l := Grouping.groups tupleEq (keys.zip rows))
    (P := fun _ _ => True) fun group hgroup => by
    have hmem : group.1 ∈ keys := Grouping.keys_of_mem_groups (K := (· ∈ keys))
      (fun item hitem => (List.of_mem_zip hitem).1) group hgroup
    obtain ⟨i, hi⟩ := hcover group.1 hmem
    obtain ⟨hchosen, hgroups⟩ := groups_chosen (hp i) hkeys heval
    obtain ⟨updated, hupdated⟩ := h i
    rw [evaluate, hchosen, ExceptState.ok_bind, hgroups] at hupdated
    obtain ⟨results, hresults, -⟩ := ExceptState.bind_eq_ok hupdated
    obtain ⟨result, hresult⟩ := ExceptState.ok_of_mapM_eq_ok hresults group
      (List.mem_filter.mpr ⟨hgroup, hi⟩)
    exact ⟨result, hresult, trivial⟩
  exact ⟨_, ExceptState.bind_eq_ok_iff.mpr ⟨results, hresults, rfl⟩⟩

end Chosen

end Spec

/-! ### Several windows -/

section Windows

variable {py : Python} {expressions : List NamedExpression}

/-- The texts under which the windows put their values. -/
def windowTexts (py : Python) (expressions : List NamedExpression) : List String :=
  expressions.map (·.expression.sql py)

theorem evaluateWindows_cons_iff {item : NamedExpression} {rows updated : List Row} :
    evaluateWindows py (item :: expressions) rows = .ok updated ↔
      ∃ middle, evaluateItem py item rows = .ok middle ∧
        evaluateWindows py expressions middle = .ok updated :=
  ExceptState.bind_eq_ok_iff

theorem evaluateItem_spec {item : NamedExpression} {rows updated : List Row}
    (h : evaluateItem py item rows = .ok updated) :
    List.Forall₂ (AgreesBut [item.expression.sql py]) rows updated := by
  unfold evaluateItem at h
  split at h
  · exact evaluate_spec h
  · cases h

private theorem forall₂_trans {names : List String} {rows rows' rows'' : List Row}
    (h : List.Forall₂ (AgreesBut names) rows rows') (h' : List.Forall₂ (AgreesBut names) rows' rows'') :
    List.Forall₂ (AgreesBut names) rows rows'' := by
  induction h generalizing rows'' with
  | nil =>
    cases h'
    exact .nil
  | cons hrow _ ih =>
    obtain ⟨row'', rest, hrow', hrest, rfl⟩ := List.forall₂_cons_left_iff.mp h'
    exact .cons (hrow.trans hrow') (ih hrest)

/-- The windows change nothing in a row but the values under their texts. -/
theorem evaluateWindows_spec {rows updated : List Row}
    (h : evaluateWindows py expressions rows = .ok updated) :
    List.Forall₂ (AgreesBut (windowTexts py expressions)) rows updated := by
  induction expressions generalizing rows with
  | nil =>
    cases h
    exact List.forall₂_same.mpr fun row _ => AgreesBut.refl _ row
  | cons item expressions ih =>
    obtain ⟨middle, hitem, hrest⟩ := evaluateWindows_cons_iff.mp h
    exact forall₂_trans
      ((evaluateItem_spec hitem).imp fun _ _ hrow => hrow.mono (List.cons_subset_cons _
        (List.nil_subset _)))
      ((ih hrest).imp fun _ _ hrow => hrow.mono (List.subset_cons_self _ _))

variable {K : List SQLValue → Prop} {keys : List (List SQLValue)} {rows : List Row}

/-- The rows have these PARTITION BY values for every window, whatever values the windows have
put into them. -/
def PartitionedBy (py : Python) (expressions : List NamedExpression) (texts : List String)
    (rows : List Row) (keys : List (List SQLValue)) : Prop :=
  ∀ item ∈ expressions, ∀ window, item.expression.asWindow = some window →
    List.Forall₂ (fun row key => ∀ row', AgreesBut texts row row' →
      Expression.evaluateAll py row' window.partitionBy = .ok key) rows keys

private theorem forall₂_evaluateAll {texts : List String} {window : WindowFunction}
    {current : List Row}
    (heval : List.Forall₂ (fun row key => ∀ row', AgreesBut texts row row' →
      Expression.evaluateAll py row' window.partitionBy = .ok key) rows keys)
    (hcurrent : List.Forall₂ (AgreesBut texts) rows current) :
    List.Forall₂ (fun row key => Expression.evaluateAll py row window.partitionBy = .ok key)
      current keys := by
  induction hcurrent generalizing keys with
  | nil =>
    cases heval
    exact .nil
  | cons hrow _ ih =>
    obtain ⟨key, rest, hkey, hrest, rfl⟩ := List.forall₂_cons_left_iff.mp heval
    exact .cons (hkey _ hrow) (ih hrest)

/-- On the rows of some partitions the windows give what they give them among all rows. -/
theorem evaluateWindows_chosen {p : List SQLValue → Bool} (hp : Grouping.Respects tupleEq K p)
    (hkeys : ∀ key ∈ keys, K key) {texts : List String} (htexts : windowTexts py expressions ⊆ texts)
    (heval : PartitionedBy py expressions texts rows keys) {current updated : List Row}
    (hcurrent : List.Forall₂ (AgreesBut texts) rows current)
    (h : evaluateWindows py expressions current = .ok updated) :
    evaluateWindows py expressions (Grouping.chosen p keys current)
      = .ok (Grouping.chosen p keys updated) := by
  induction expressions generalizing current with
  | nil =>
    cases h
    rfl
  | cons item expressions ih =>
    obtain ⟨htext, htexts⟩ := List.cons_subset.mp htexts
    obtain ⟨hitem, hrest⟩ := List.forall_mem_cons.mp heval
    obtain ⟨middle, hmiddle, h⟩ := evaluateWindows_cons_iff.mp h
    have hnext := forall₂_trans hcurrent ((evaluateItem_spec hmiddle).imp fun _ _ hrow =>
      hrow.mono (List.cons_subset.mpr ⟨htext, List.nil_subset _⟩))
    refine evaluateWindows_cons_iff.mpr ⟨Grouping.chosen p keys middle, ?_,
      ih htexts hrest hnext h⟩
    cases hwindow : item.expression.asWindow with
    | none =>
      rw [evaluateItem, hwindow] at hmiddle
      cases hmiddle
    | some window =>
      rw [evaluateItem, hwindow] at hmiddle ⊢
      exact evaluate_chosen hp hkeys (forall₂_evaluateAll (hitem window hwindow) hcurrent) hmiddle

/-- If the windows can be evaluated on every choice of partitions, and each partition is in one,
they can be evaluated. -/
theorem evaluateWindows_of_chosen {ι : Type*} [Nonempty ι] {p : ι → List SQLValue → Bool}
    (hp : ∀ i, Grouping.Respects tupleEq K (p i)) (hkeys : ∀ key ∈ keys, K key)
    (hcover : ∀ key ∈ keys, ∃ i, p i key = true) {texts : List String}
    (htexts : windowTexts py expressions ⊆ texts)
    (heval : PartitionedBy py expressions texts rows keys) {current : List Row}
    (hcurrent : List.Forall₂ (AgreesBut texts) rows current)
    (h : ∀ i, ∃ updated, evaluateWindows py expressions (Grouping.chosen (p i) keys current)
      = .ok updated) :
    ∃ updated, evaluateWindows py expressions current = .ok updated := by
  induction expressions generalizing current with
  | nil => exact ⟨current, rfl⟩
  | cons item expressions ih =>
    obtain ⟨htext, htexts⟩ := List.cons_subset.mp htexts
    obtain ⟨hitem, hrest⟩ := List.forall_mem_cons.mp heval
    obtain ⟨window, hwindow⟩ : ∃ window, item.expression.asWindow = some window := by
      obtain ⟨updated, hupdated⟩ := h (Classical.arbitrary ι)
      obtain ⟨middle, hmiddle, -⟩ := evaluateWindows_cons_iff.mp hupdated
      cases hwindow : item.expression.asWindow with
      | none =>
        rw [evaluateItem, hwindow] at hmiddle
        cases hmiddle
      | some window => exact ⟨window, rfl⟩
    have hevaluate : ∀ rows, evaluateItem py item rows
        = evaluate py window (item.expression.sql py) rows := by
      intro rows
      rw [evaluateItem, hwindow]
    have hwindowKeys := forall₂_evaluateAll (hitem window hwindow) hcurrent
    obtain ⟨middle, hmiddle⟩ : ∃ middle, evaluate py window (item.expression.sql py) current
        = .ok middle := by
      refine evaluate_of_chosen hp hkeys hcover hwindowKeys fun i => ?_
      obtain ⟨updated, hupdated⟩ := h i
      obtain ⟨middle, hmiddle, -⟩ := evaluateWindows_cons_iff.mp hupdated
      exact ⟨middle, (hevaluate _).symm.trans hmiddle⟩
    have hnext := forall₂_trans hcurrent ((evaluate_spec hmiddle).imp fun _ _ hrow =>
      hrow.mono (List.cons_subset.mpr ⟨htext, List.nil_subset _⟩))
    obtain ⟨updated, hupdated⟩ := ih htexts hrest hnext fun i => by
      obtain ⟨updated, hupdated⟩ := h i
      obtain ⟨middle', hmiddle', hlast⟩ := evaluateWindows_cons_iff.mp hupdated
      rw [hevaluate, evaluate_chosen (hp i) hkeys hwindowKeys hmiddle] at hmiddle'
      cases hmiddle'
      exact ⟨updated, hlast⟩
    exact ⟨updated, evaluateWindows_cons_iff.mpr ⟨middle, (hevaluate _).trans hmiddle, hupdated⟩⟩

end Windows

end DistributedSql

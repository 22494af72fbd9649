/-
Ranking window functions (`WindowOperator._evaluate` in `execution/operators.py`).

The loop over a sorted partition carries the peer key of the row before and a counter, and
reads the rank of a peer back from the row before.  What it puts into a row only depends on
the row and on its partition: the number of rows before it in the stable order, the number
of rows with an order key before its own, and the number of different ones.

Main results:
* `evaluatePartition_of_loop` — what became of a partition, row by row;
* `evaluate_ranking` — every row gets its ranking in its partition.
-/
import DistributedSql.SortAggregate
import DistributedSql.SortedRanks
import DistributedSql.WindowOperator

namespace DistributedSql

/-! ### Places in the order of a window -/

theorem SortExpression.place_eq_iff (item : SortExpression) (v w : SQLValue) :
    item.place v = item.place w ↔ v.sortRank = w.sortRank := by
  unfold SortExpression.place SQLValue.sortRank
  by_cases hv : v = .null <;> by_cases hw : w = .null
  · simp [hv, hw]
  · rw [if_pos hv, if_pos hv, if_neg hw, if_neg hw]
    exact iff_of_false (by split <;> split <;> simp [Sum.inlₗ, Sum.inrₗ]) WithTop.top_ne_coe
  · rw [if_neg hv, if_neg hv, if_pos hw, if_pos hw]
    exact iff_of_false (by split <;> split <;> simp [Sum.inlₗ, Sum.inrₗ]) WithTop.coe_ne_top
  · rw [if_neg hv, if_neg hv, if_neg hw, if_neg hw, WithTop.coe_inj]
    split <;> simp [Sum.inlₗ, Sum.inrₗ]

/-- Two rows have equal order keys if they stand at one place. -/
theorem rowPlace_eq_iff {py : Python} {orderBy : List SortExpression} {domains : List (Set SQLValue)}
    (hS : ∀ S ∈ domains, Ordered S) {row row' : Row}
    (h : HasKeys py (orderBy.map (·.expression)) domains row)
    (h' : HasKeys py (orderBy.map (·.expression)) domains row') :
    tupleEq (rowValues py (orderBy.map (·.expression)) row)
        (rowValues py (orderBy.map (·.expression)) row') = true ↔
      rowPlace py orderBy row = rowPlace py orderBy row' := by
  have hlength := Expression.length_of_evaluateAll h.1
  have hlength' := Expression.length_of_evaluateAll h'.1
  rw [List.length_map] at hlength hlength'
  rw [tupleEq_iff_sortKey hS h.2 h'.2, rowPlace, rowPlace, sortKey, sortKey]
  generalize rowValues py (orderBy.map (·.expression)) row = values at hlength ⊢
  generalize rowValues py (orderBy.map (·.expression)) row' = values' at hlength' ⊢
  clear h h'
  induction orderBy generalizing values values' with
  | nil =>
    rw [List.eq_nil_of_length_eq_zero hlength, List.eq_nil_of_length_eq_zero hlength']
    exact iff_of_true rfl rfl
  | cons item orderBy ih =>
    obtain ⟨v, values, rfl⟩ := List.exists_cons_of_length_eq_add_one hlength
    obtain ⟨w, values', rfl⟩ := List.exists_cons_of_length_eq_add_one hlength'
    rw [List.map_cons, List.map_cons, List.zipWith_cons_cons, List.zipWith_cons_cons,
      List.cons_eq_cons, List.cons_eq_cons]
    exact and_congr (item.place_eq_iff v w).symm
      (ih values (Nat.succ.inj hlength) values' (Nat.succ.inj hlength'))

/-! ### The loop over a partition -/

section Loop

variable {py : Python} {window : WindowFunction} {text : String}
  {peerKeys : List (List SQLValue)} {ordered : List (Row × ℕ)} {value : Row × ℕ → SQLValue}

/-- The loop, if the value of every row is known, and the state after it. -/
theorem windowLoop_eq {state : List (Row × ℕ) → RankState}
    (hstep : ∀ before item after, ordered = before ++ item :: after →
      windowValue py window text peerKeys
          (before.map fun item => item.1.setItem text (value item))
          ((item :: after).map Prod.fst) (state before)
        = .ok (value item, state (before ++ [item]))) :
    windowLoop py window text peerKeys [] (ordered.map Prod.fst) (state [])
      = .ok (ordered.map fun item => item.1.setItem text (value item)) := by
  have hloop : ∀ after before : List (Row × ℕ), ordered = before ++ after →
      windowLoop py window text peerKeys (before.map fun item => item.1.setItem text (value item))
          (after.map Prod.fst) (state before)
        = .ok (ordered.map fun item => item.1.setItem text (value item)) := by
    intro after
    induction after with
    | nil =>
      intro before hsplit
      rw [hsplit, List.append_nil]
      rfl
    | cons item after ih =>
      intro before hsplit
      have hrest := ih (before ++ [item]) (by rw [hsplit, List.append_assoc]; rfl)
      rw [List.map_append] at hrest
      rw [List.map_cons, windowLoop, ← List.map_cons, hstep before item after hsplit,
        ExceptState.ok_bind]
      exact hrest
  exact hloop ordered [] rfl

/-- What became of a partition: the rows are found again at their places. -/
theorem evaluatePartition_of_loop {rows : List Row}
    (hordered : orderPartition py window rows = .ok ordered)
    (hpeers : (ordered.mapM fun item => Expression.evaluateAll py item.1
      (window.orderBy.map (·.expression))) = .ok peerKeys)
    (hloop : windowLoop py window text peerKeys [] (ordered.map Prod.fst) ⟨0, none⟩
      = .ok (ordered.map fun item => item.1.setItem text (value item))) :
    evaluatePartition py window text rows
      = .ok (rows.zipIdx.map fun item => item.1.setItem text (value item)) := by
  rw [evaluatePartition, hordered, ExceptState.ok_bind, hpeers, ExceptState.ok_bind, hloop,
    ExceptState.ok_bind]
  refine congrArg Except.ok (List.map_congr_left fun item hitem => ?_)
  have hperm := perm_of_orderPartition hordered
  rw [List.zip_map', List.find?_map, Option.map_map]
  cases hfind : ordered.find? ((fun found : Row × ℕ => decide (found.2 = item.2)) ∘ fun item =>
      (item.1.setItem text (value item), item.2)) with
  | none =>
    exact absurd (decide_eq_true rfl)
      (List.find?_eq_none.mp hfind item (hperm.mem_iff.mpr hitem))
  | some found =>
    have hplace : found.2 = item.2 := by simpa using List.find?_some hfind
    have hfound := List.mem_zipIdx_iff_getElem?.mp
      (hperm.mem_iff.mp (List.mem_of_find?_eq_some hfind))
    rw [hplace, List.mem_zipIdx_iff_getElem?.mp hitem] at hfound
    have hsame : found = item := Prod.ext (Option.some.inj hfound).symm hplace
    rw [hsame]
    rfl

end Loop

/-! ### Rankings -/

section Ranking

variable {py : Python} {window : WindowFunction} {text : String} {domains : List (Set SQLValue)}

theorem pairwise_zipIdx {α : Type} (rows : List α) :
    rows.zipIdx.Pairwise fun left right : α × ℕ => left.2 < right.2 := by
  rw [← List.pairwise_map (f := Prod.snd) (R := (· < ·)), List.zipIdx_map_snd]
  exact List.pairwise_lt_range'

/-- The order of a window: by the order keys, and rows with equal keys as they come. -/
def Precedes (py : Python) (window : WindowFunction) (left right : Row × ℕ) : Prop :=
  rowPlace py window.orderBy left.1 < rowPlace py window.orderBy right.1 ∨
    rowPlace py window.orderBy left.1 = rowPlace py window.orderBy right.1 ∧ left.2 < right.2

instance : DecidableRel (Precedes py window) := fun _ _ => inferInstanceAs (Decidable (_ ∨ _))

/-- The value of a ranking function on a row of a partition. -/
def ranking (py : Python) (window : WindowFunction) (name : String)
    (partition : List (Row × ℕ)) (item : Row × ℕ) : ℕ :=
  if name = "row_number" then 1 + partition.countP fun other => Precedes py window other item
  else if name = "dense_rank" then
    StableSort.denseRank (fun other : Row × ℕ => rowPlace py window.orderBy other.1) partition
      (rowPlace py window.orderBy item.1)
  else StableSort.rank (fun other : Row × ℕ => rowPlace py window.orderBy other.1) partition
    (rowPlace py window.orderBy item.1)

theorem ranking_perm {partition partition' : List (Row × ℕ)} (h : partition.Perm partition')
    (name : String) (item : Row × ℕ) :
    ranking py window name partition item = ranking py window name partition' item := by
  rw [ranking, ranking, h.countP_eq, StableSort.denseRank_perm h, StableSort.rank_perm h]

theorem ranking_of_place {name : String} (hname : name ≠ "row_number")
    (partition : List (Row × ℕ)) {item other : Row × ℕ}
    (h : rowPlace py window.orderBy item.1 = rowPlace py window.orderBy other.1) :
    ranking py window name partition other = ranking py window name partition item := by
  rw [ranking, ranking, if_neg hname, if_neg hname, h]

variable (hS : ∀ S ∈ domains, Ordered S) {rows : List Row}
  (hkeys : ∀ row ∈ rows, HasKeys py (window.orderBy.map (·.expression)) domains row)

include hS hkeys

/-- The order of a partition: stable, by the order keys. -/
theorem orderPartition_eq : orderPartition py window rows = .ok (StableSort.sort
    (fun item : Row × ℕ => rowPlace py window.orderBy item.1) rows.zipIdx) := by
  have hmem : ∀ item ∈ rows.zipIdx,
      HasKeys py (window.orderBy.map (·.expression)) domains item.1 := fun item hitem =>
    hkeys item.1 (List.fst_mem_of_mem_zipIdx hitem)
  unfold orderPartition
  split
  next hnil =>
    have hplace : ∀ item : Row × ℕ, rowPlace py window.orderBy item.1 = [] := fun item => by
      rw [rowPlace, List.isEmpty_iff.mp hnil, List.zipWith_nil_left]
    rw [StableSort.sort_of_same fun a _ b _ => by rw [hplace a, hplace b]]
  next =>
    exact StableSort.sortM_eq (S := fun item : Row × ℕ =>
      HasKeys py (window.orderBy.map (·.expression)) domains item.1)
      (fun a b ha hb => rowLess_orderedBy_rowPlace hS a.1 b.1 ha hb) hmem

omit hS hkeys in
/-- The rows of a partition come in the stable order of the window. -/
theorem pairwise_precedes (py : Python) (window : WindowFunction) (rows : List Row) : (StableSort.sort
    (fun item : Row × ℕ => rowPlace py window.orderBy item.1) rows.zipIdx).Pairwise
      (Precedes py window) := by
  exact StableSort.sort_stable (pairwise_zipIdx rows)

omit hS hkeys in
theorem precedes_asymm (left right : Row × ℕ) (h : Precedes py window left right) :
    ¬Precedes py window right left := by
  rcases h with h | ⟨heq, h⟩
  · exact fun h' => h'.elim h.asymm fun h' => h.ne h'.1.symm
  · exact fun h' => h'.elim (heq ▸ lt_irrefl _) fun h' => h.asymm h'.2

/-- What the loop remembers after some rows of a partition. -/
def rankState (py : Python) (window : WindowFunction) (name : String) (ordered : List (Row × ℕ))
    (before : List (Row × ℕ)) : RankState :=
  if name = "row_number" then ⟨0, none⟩
  else before.getLast?.elim ⟨0, none⟩ fun prev =>
    ⟨StableSort.denseRank (fun other : Row × ℕ => rowPlace py window.orderBy other.1) ordered
        (rowPlace py window.orderBy prev.1),
      some (rowValues py (window.orderBy.map (·.expression)) prev.1)⟩

omit hS hkeys in
/-- A row that opens a group of peers. -/
theorem rankValue_of_differs {name : String} (hname : name ≠ "row_number") {peer : List SQLValue}
    {state : RankState} (hdiffers : state.previousPeer.elim true (fun previous =>
      !tupleEq peer previous) = true) (done : List Row) :
    rankValue name text peer done state
      = .ok (.int (if name = "dense_rank" then state.denseRank + 1 else done.length + 1),
          ⟨state.denseRank + 1, some peer⟩) := by
  unfold rankValue
  dsimp only
  rw [if_neg hname, hdiffers, Bool.or_true, if_pos rfl, if_pos rfl]
  split <;> rfl

omit hS hkeys in
/-- A row among the peers of the row before it. -/
theorem rankValue_of_peer {name : String} (hname : name ≠ "row_number") {peer previous : List SQLValue}
    (hpeer : tupleEq peer previous = true) (dense : ℕ) {done : List Row} {last : Row}
    {value : SQLValue} (hlast : last.getItem text = .ok value)
    (hvalue : name = "dense_rank" → value = .int dense) :
    rankValue name text peer (done ++ [last]) ⟨dense, some previous⟩
      = .ok (value, ⟨dense, some peer⟩) := by
  have hindex : decide ((done ++ [last]).length = 0) = false := by simp
  unfold rankValue
  dsimp only
  rw [if_neg hname, Option.elim_some, hpeer, hindex, Bool.not_true, Bool.or_false,
    if_neg Bool.false_ne_true, if_neg Bool.false_ne_true, List.getLastD_concat, hlast]
  split
  next hdense => rw [hvalue hdense]
  next => rfl

omit hkeys in
/-- The value of a ranking function on a row, from what the rows before it have left. -/
theorem rankValue_eq {name : String} {before after : List (Row × ℕ)} {item : Row × ℕ}
    (hall : ∀ other ∈ before ++ item :: after,
      HasKeys py (window.orderBy.map (·.expression)) domains other.1)
    (hsorted : (before ++ item :: after).Pairwise (Precedes py window)) :
    rankValue name text (rowValues py (window.orderBy.map (·.expression)) item.1)
        (before.map fun other => other.1.setItem text
          (.int (ranking py window name (before ++ item :: after) other)))
        (rankState py window name (before ++ item :: after) before)
      = .ok (.int (ranking py window name (before ++ item :: after) item),
          rankState py window name (before ++ item :: after) (before ++ [item])) := by
  have hplaces : StableSort.SortedBy (fun other : Row × ℕ => rowPlace py window.orderBy other.1)
      (before ++ item :: after) := hsorted.imp fun h => h.elim le_of_lt fun h => h.1.le
  by_cases hrow : name = "row_number"
  · have hcount : ranking py window name (before ++ item :: after) item = 1 + before.length := by
      rw [ranking, if_pos hrow, StableSort.countP_of_pairwise precedes_asymm hsorted]
    rw [rankValue, if_pos hrow, hcount, List.length_map, Nat.cast_add, Nat.cast_one, Int.add_comm,
      rankState, rankState, if_pos hrow, if_pos hrow]
  · have hstate : rankState py window name (before ++ item :: after) (before ++ [item])
        = ⟨StableSort.denseRank (fun other : Row × ℕ => rowPlace py window.orderBy other.1)
            (before ++ item :: after) (rowPlace py window.orderBy item.1),
          some (rowValues py (window.orderBy.map (·.expression)) item.1)⟩ := by
      rw [rankState, if_neg hrow, List.getLast?_concat]
      rfl
    rw [hstate]
    rcases List.eq_nil_or_concat before with rfl | ⟨front, prev, rfl⟩
    · -- the first row opens the first group of peers
      have hdense := StableSort.denseRank_head hplaces
      have hrank := StableSort.rank_of_lt hplaces fun a ha => absurd ha List.not_mem_nil
      have hnone : rankState py window name ([] ++ item :: after) [] = ⟨0, none⟩ := by
        rw [rankState, if_neg hrow]
        rfl
      rw [hnone, rankValue_of_differs hrow rfl, ranking, if_neg hrow, hrank]
      simp only [List.nil_append] at hdense ⊢
      rw [hdense]
      split <;> rfl
    · rw [List.concat_eq_append] at *
      have hprevState : rankState py window name (front ++ [prev] ++ item :: after) (front ++ [prev])
          = ⟨StableSort.denseRank (fun other : Row × ℕ => rowPlace py window.orderBy other.1)
              (front ++ [prev] ++ item :: after) (rowPlace py window.orderBy prev.1),
            some (rowValues py (window.orderBy.map (·.expression)) prev.1)⟩ := by
        rw [rankState, if_neg hrow, List.getLast?_concat]
        rfl
      have hpeer := rowPlace_eq_iff hS (hall item (List.mem_append_right _ List.mem_cons_self))
        (hall prev (List.mem_append_left _ (List.mem_append_right _ List.mem_cons_self)))
      rw [hprevState]
      by_cases hsame : rowPlace py window.orderBy item.1 = rowPlace py window.orderBy prev.1
      · have hranking := ranking_of_place hrow (front ++ [prev] ++ item :: after) hsame
        rw [List.map_append, List.map_singleton, ← hsame]
        refine rankValue_of_peer hrow (hpeer.mpr hsame) _ ?_ fun hdense => ?_
        · rw [Row.getItem_setItem, hranking]
        · rw [ranking, if_neg hrow, if_pos hdense]
      · -- the place goes up, from the rows before to this one
        have hle : ∀ other ∈ front ++ [prev], rowPlace py window.orderBy other.1
            ≤ rowPlace py window.orderBy prev.1 := by
          intro other hother
          rcases List.mem_append.mp hother with hother | hother
          · exact (List.pairwise_append.mp (List.pairwise_append.mp hplaces).1).2.2 other hother
              prev List.mem_cons_self
          · rw [List.mem_singleton.mp hother]
        have hlt := lt_of_le_of_ne ((List.pairwise_append.mp hplaces).2.2 prev
          (List.mem_append_right _ List.mem_cons_self) item List.mem_cons_self) (Ne.symm hsame)
        have hrank := StableSort.rank_of_lt hplaces fun other hother =>
          (hle other hother).trans_lt hlt
        have hsplit : front ++ [prev] ++ item :: after = front ++ prev :: item :: after := by simp
        rw [hsplit] at hplaces
        have hdense := StableSort.denseRank_of_lt hplaces hlt
        have hdiffers := Bool.eq_false_iff.mpr (mt hpeer.mp hsame)
        rw [rankValue_of_differs hrow (by rw [Option.elim_some, hdiffers, Bool.not_false]),
          List.length_map, ranking, if_neg hrow, hrank, hsplit, hdense]
        split <;> rfl

/-- What became of a partition under a ranking function. -/
theorem evaluatePartition_ranking {name : String} {arguments : List Expression} {type : TypeInfo}
    (hfunction : window.function = .scalarFunction name arguments type) :
    evaluatePartition py window text rows = .ok (rows.zipIdx.map fun item =>
      item.1.setItem text (.int (ranking py window name rows.zipIdx item))) := by
  have hperm := StableSort.sort_perm (fun item : Row × ℕ => rowPlace py window.orderBy item.1)
    rows.zipIdx
  have hsorted := pairwise_precedes py window rows
  have hordered := orderPartition_eq hS hkeys
  revert hperm hsorted hordered
  generalize StableSort.sort (fun item : Row × ℕ => rowPlace py window.orderBy item.1) rows.zipIdx
    = ordered
  intro hperm hsorted hordered
  have hall : ∀ item ∈ ordered, HasKeys py (window.orderBy.map (·.expression)) domains item.1 :=
    fun item hitem => hkeys item.1 (List.fst_mem_of_mem_zipIdx (hperm.subset hitem))
  have hpeers : (ordered.mapM fun item => Expression.evaluateAll py item.1
      (window.orderBy.map (·.expression)))
        = .ok (ordered.map fun item => rowValues py (window.orderBy.map (·.expression)) item.1) :=
    ExceptState.mapM_eq_ok fun item hitem => (hall item hitem).1
  have hstep : ∀ before item after, ordered = before ++ item :: after →
      windowValue py window text
          (ordered.map fun item => rowValues py (window.orderBy.map (·.expression)) item.1)
          (before.map fun other => other.1.setItem text (.int (ranking py window name ordered other)))
          ((item :: after).map Prod.fst) (rankState py window name ordered before)
        = .ok (.int (ranking py window name ordered item),
            rankState py window name ordered (before ++ [item])) := by
    rintro before item after rfl
    have hpeer : ((before ++ item :: after).map fun item =>
        rowValues py (window.orderBy.map (·.expression)) item.1).getD before.length []
          = rowValues py (window.orderBy.map (·.expression)) item.1 := by simp
    rw [windowValue, hfunction]
    dsimp only
    rw [List.length_map, hpeer]
    exact rankValue_eq hS hall hsorted
  have hstart : rankState py window name ordered [] = ⟨0, none⟩ := by
    rw [rankState]
    split <;> rfl
  have hloop := windowLoop_eq hstep
  rw [hstart] at hloop
  rw [evaluatePartition_of_loop hordered hpeers hloop]
  refine congrArg Except.ok (List.map_congr_left fun item _ => ?_)
  rw [ranking_perm hperm]

omit hS hkeys in
/-- Of two rows of a partition the one with the earlier place in it has the earlier place. -/
private theorem lt_iff_of_mem_zipIdx {partition : List (Row × ℕ)}
    (h : partition.Pairwise fun left right => left.2 < right.2) {x y : (Row × ℕ) × ℕ}
    (hx : x ∈ partition.zipIdx) (hy : y ∈ partition.zipIdx) : x.2 < y.2 ↔ x.1.2 < y.1.2 := by
  have hlt : ∀ {x y : (Row × ℕ) × ℕ}, x ∈ partition.zipIdx → y ∈ partition.zipIdx →
      x.2 < y.2 → x.1.2 < y.1.2 := by
    intro x y hx hy hlt
    obtain ⟨hxl, hx⟩ := List.getElem?_eq_some_iff.mp (List.mem_zipIdx_iff_getElem?.mp hx)
    obtain ⟨hyl, hy⟩ := List.getElem?_eq_some_iff.mp (List.mem_zipIdx_iff_getElem?.mp hy)
    rw [← hx, ← hy]
    exact List.pairwise_iff_getElem.mp h x.2 y.2 hxl hyl hlt
  refine ⟨hlt hx hy, fun h' => ?_⟩
  rcases lt_trichotomy x.2 y.2 with hxy | hxy | hxy
  · exact hxy
  · have hx := List.mem_zipIdx_iff_getElem?.mp hx
    rw [hxy, List.mem_zipIdx_iff_getElem?.mp hy] at hx
    exact absurd h' (Option.some.inj hx ▸ lt_irrefl _)
  · exact absurd h' (hlt hy hx hxy).asymm

omit hS hkeys in
/-- The ranking is the same by the places among all rows and by those in the partition. -/
theorem ranking_zipIdx (name : String) {partition : List (Row × ℕ)}
    (h : partition.Pairwise fun left right => left.2 < right.2) :
    ((partition.map Prod.fst).zipIdx.map fun item => item.1.setItem text
        (.int (ranking py window name (partition.map Prod.fst).zipIdx item)))
      = partition.map fun item =>
          item.1.setItem text (.int (ranking py window name partition item)) := by
  have hzip : (partition.map Prod.fst).zipIdx
      = partition.zipIdx.map fun x : (Row × ℕ) × ℕ => (x.1.1, x.2) := List.zipIdx_map ..
  have hranking : ∀ x ∈ partition.zipIdx,
      ranking py window name (partition.map Prod.fst).zipIdx (x.1.1, x.2)
        = ranking py window name partition x.1 := by
    intro x hx
    have hself : partition = partition.zipIdx.map Prod.fst := (List.zipIdx_map_fst 0 _).symm
    have hprecedes : (partition.zipIdx.map fun x : (Row × ℕ) × ℕ => (x.1.1, x.2)).countP
          (fun other => Precedes py window other (x.1.1, x.2))
        = (partition.zipIdx.map Prod.fst).countP fun other => Precedes py window other x.1 := by
      rw [List.countP_map, List.countP_map]
      refine List.countP_congr fun y hy => ?_
      rw [Function.comp_apply, Function.comp_apply, decide_eq_true_iff, decide_eq_true_iff, Precedes,
        Precedes, lt_iff_of_mem_zipIdx h hy hx]
    conv_rhs => rw [hself]
    rw [hzip, ranking, ranking, hprecedes, StableSort.denseRank_map, StableSort.denseRank_map,
      StableSort.rank_map, StableSort.rank_map]
    rfl
  calc ((partition.map Prod.fst).zipIdx.map fun item => item.1.setItem text
        (.int (ranking py window name (partition.map Prod.fst).zipIdx item)))
      = partition.zipIdx.map fun x => x.1.1.setItem text
          (.int (ranking py window name partition x.1)) := by
        conv_lhs => rw [hzip, List.map_map]
        refine List.map_congr_left fun x hx => ?_
        rw [Function.comp_apply, ← hzip, hranking x hx]
    _ = (partition.zipIdx.map Prod.fst).map fun item =>
          item.1.setItem text (.int (ranking py window name partition item)) := by
        rw [List.map_map]
        rfl
    _ = _ := by rw [List.zipIdx_map_fst]

/-- The rows with their places and their PARTITION BY values. -/
def placedRows (py : Python) (window : WindowFunction) (rows : List Row) :
    List (List SQLValue × (Row × ℕ)) :=
  rows.zipIdx.map fun item => (rowValues py window.partitionBy item.1, item)

omit hS hkeys in
theorem map_snd_placedRows (rows : List Row) :
    (placedRows py window rows).map Prod.snd = rows.zipIdx := by
  rw [placedRows, List.map_map]
  exact List.map_id _

omit hS hkeys in
theorem keyedRows_eq
    (h : ∀ row ∈ rows, ∃ key, Expression.evaluateAll py row window.partitionBy = .ok key) :
    keyedRows py window.partitionBy rows
      = .ok ((placedRows py window rows).map fun item => (item.1, item.2.1)) := by
  rw [keyedRows_iff]
  constructor
  · rw [List.map_map]
    change (placedRows py window rows).map (Prod.fst ∘ Prod.snd) = rows
    rw [← List.map_map, map_snd_placedRows, List.zipIdx_map_fst]
  · intro item hitem
    obtain ⟨_, hplaced, rfl⟩ := List.mem_map.mp hitem
    obtain ⟨placed, hmem, rfl⟩ := List.mem_map.mp hplaced
    obtain ⟨key, hkey⟩ := h placed.1 (List.fst_mem_of_mem_zipIdx hmem)
    rw [rowValues, hkey]
    rfl

/-- The dict of partitions, of rows with their places among all rows. -/
def placedGroups (py : Python) (window : WindowFunction) (rows : List Row) :
    List (List SQLValue × List (Row × ℕ)) :=
  Grouping.groups tupleEq (placedRows py window rows)

omit hS hkeys in
/-- The rows of a partition are rows of the input, in their order. -/
theorem sublist_of_mem_placedGroups {group : List SQLValue × List (Row × ℕ)}
    (h : group ∈ placedGroups py window rows) : group.2.Sublist rows.zipIdx :=
  map_snd_placedRows rows ▸ Grouping.sublist_of_mem_groups group h

/-- Every row gets its ranking in its partition. -/
theorem evaluate_ranking {name : String} {arguments : List Expression} {type : TypeInfo}
    (hfunction : window.function = .scalarFunction name arguments type)
    (hpartition : ∀ row ∈ rows, ∃ key, Expression.evaluateAll py row window.partitionBy = .ok key) :
    ∃ updated, evaluate py window text rows = .ok updated ∧
      List.Forall₂ (fun item row => ∃ group ∈ placedGroups py window rows, item ∈ group.2 ∧
        row = item.1.setItem text (.int (ranking py window name group.2 item)))
        rows.zipIdx updated := by
  let ranked := fun group : List SQLValue × List (Row × ℕ) => (group.1, group.2.map fun item =>
    (item.1.setItem text (.int (ranking py window name group.2 item)), item.2))
  have hgroup : ∀ group ∈ placedGroups py window rows,
      evaluateGroup py window text (Grouping.mapGroup Prod.fst group)
        = .ok (Grouping.mapGroup Prod.fst (ranked group)) := by
    intro group hmem
    have hsublist := sublist_of_mem_placedGroups hmem
    have hmembers : ∀ row ∈ group.2.map Prod.fst,
        HasKeys py (window.orderBy.map (·.expression)) domains row := by
      intro row hrow
      obtain ⟨item, hitem, rfl⟩ := List.mem_map.mp hrow
      exact hkeys item.1 (List.fst_mem_of_mem_zipIdx (hsublist.subset hitem))
    rw [evaluateGroup, Grouping.mapGroup, evaluatePartition_ranking hS hmembers hfunction,
      ranking_zipIdx name ((pairwise_zipIdx rows).sublist hsublist), Grouping.mapGroup, List.map_map]
    rfl
  have hresults : ((placedGroups py window rows).map (Grouping.mapGroup Prod.fst)).mapM
      (evaluateGroup py window text)
        = .ok (((placedGroups py window rows).map ranked).map (Grouping.mapGroup Prod.fst)) := by
    rw [List.mapM_map, List.map_map]
    exact ExceptState.mapM_eq_ok hgroup
  refine ⟨(Grouping.distribute tupleEq (placedRows py window rows) []
    ((placedGroups py window rows).map ranked)).map Prod.fst, ?_, ?_⟩
  · rw [evaluate, keyedRows_eq hpartition, ExceptState.ok_bind, Grouping.groups_map,
      ← placedGroups, hresults, ExceptState.ok_bind, ← Grouping.distribute_map]
    rfl
  · have hreplaced : List.Forall₂ (Grouping.Replaced fun item item' : Row × ℕ =>
          ∃ group ∈ placedGroups py window rows, item ∈ group.2 ∧
            item'.1 = item.1.setItem text (.int (ranking py window name group.2 item)))
        (placedGroups py window rows) ((placedGroups py window rows).map ranked) := by
      rw [List.forall₂_map_right_iff, List.forall₂_same]
      refine fun group hmem => ⟨rfl, ?_⟩
      rw [List.forall₂_map_right_iff, List.forall₂_same]
      exact fun item hitem => ⟨group, hmem, hitem, rfl⟩
    have hall := Grouping.forall₂_distribute hreplaced
    rw [placedRows, List.forall₂_map_left_iff] at hall
    rw [List.forall₂_map_right_iff]
    exact hall

end Ranking

/-! ### Ties and NULLs -/

/-- `<name>() OVER (PARTITION BY g ORDER BY x DESC NULLS FIRST)` -/
def rankingWindow (name : String) : WindowFunction where
  function := .scalarFunction name [] ⟨.int64, false⟩
  partitionBy := [.column "g" "" ⟨.int64, true⟩]
  orderBy := [⟨.column "x" "" ⟨.int64, true⟩, false, true⟩]
  frame := none

/-- A tie, a NULL and another partition. -/
def tiedRows : List Row :=
  [[("g", .int 1), ("x", .int 5)], [("g", .int 1), ("x", .null)], [("g", .int 2), ("x", .int 7)],
    [("g", .int 1), ("x", .int 5)], [("g", .int 1), ("x", .int 3)]]

theorem evaluate_ranking_tied :
    ∃ updated, evaluate Python.ascii (rankingWindow "rank") "rank" tiedRows = .ok updated ∧
      List.Forall₂ (fun item row =>
        ∃ group ∈ placedGroups Python.ascii (rankingWindow "rank") tiedRows, item ∈ group.2 ∧
          row = item.1.setItem "rank"
            (.int (ranking Python.ascii (rankingWindow "rank") "rank" group.2 item)))
        tiedRows.zipIdx updated := by
  have hints : Ordered {v | ∃ i, v = .int i} := by
    rintro _ ⟨i, rfl⟩ _ ⟨j, rfl⟩
    exact ⟨_, rfl⟩
  have hkey : ∀ (g i : ℤ), HasKeys Python.ascii
      ((rankingWindow "rank").orderBy.map (·.expression)) [{v | ∃ i, v = .int i}]
      [("g", .int g), ("x", .int i)] := fun g i => ⟨rfl, .cons (Or.inr ⟨i, rfl⟩) .nil⟩
  refine evaluate_ranking (List.forall_mem_singleton.mpr hints) (fun row hrow => ?_) rfl
    fun row hrow => ?_
  · simp only [tiedRows, List.mem_cons, List.not_mem_nil, or_false] at hrow
    rcases hrow with rfl | rfl | rfl | rfl | rfl
    · exact hkey 1 5
    · exact ⟨rfl, .cons (Or.inl rfl) .nil⟩
    · exact hkey 2 7
    · exact hkey 1 5
    · exact hkey 1 3
  · simp only [tiedRows, List.mem_cons, List.not_mem_nil, or_false] at hrow
    rcases hrow with rfl | rfl | rfl | rfl | rfl <;> exact ⟨_, rfl⟩

/-- The tied rows have rank 2, the row after them has rank 4. -/
example : ((evaluate Python.ascii (rankingWindow "rank") "rank" tiedRows).map fun rows =>
    rows.map fun row => row.get? "rank")
      = .ok [some (.int 2), some (.int 1), some (.int 1), some (.int 2), some (.int 4)] := by
  decide +kernel

end DistributedSql

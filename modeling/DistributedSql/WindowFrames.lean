/-
The frames of window functions (`_window_bounds` and `_frame_boundary` in
`execution/operators.py`, `_bind_window_frame` in `planner/binder.py`).

The binder puts the texts of a frame's boundaries together as they are written, and the
operator compares them with upper-case words.  A side that is not in upper case is taken
for FOLLOWING, or the boundary does not parse at all.

Main results:
* `frameBoundary_eq` — what a boundary is taken for, cut off at the partition's ends;
* `windowBounds_default` — without a frame: the whole partition or up to the last peer;
* `windowBounds_iff` — when the rows of a frame are aggregated, for every row of every
  partition;
* `windowFrames_iff` — the two together.
-/
import DistributedSql.Binder
import DistributedSql.WindowRanking

namespace DistributedSql

/-! ### Frames -/

/-- The boundaries of a frame. -/
inductive FrameBound
  | unboundedPreceding
  | preceding (n : ℕ)
  | currentRow
  | following (n : ℕ)
  | unboundedFollowing
deriving DecidableEq, Repr

/-- A row at this distance from the current one does not come before the boundary. -/
def FrameBound.Starts : FrameBound → ℤ → Prop
  | .unboundedPreceding, _ => True
  | .preceding n, distance => -n ≤ distance
  | .currentRow, distance => 0 ≤ distance
  | .following n, distance => n ≤ distance
  | .unboundedFollowing, _ => False

/-- A row at this distance from the current one does not come after the boundary. -/
def FrameBound.Stops : FrameBound → ℤ → Prop
  | .unboundedPreceding, _ => False
  | .preceding n, distance => distance ≤ -n
  | .currentRow, distance => distance ≤ 0
  | .following n, distance => distance ≤ n
  | .unboundedFollowing, _ => True

/-- A row at this distance from the current one is in the frame. -/
def InFrame (start stop : FrameBound) (distance : ℤ) : Prop :=
  start.Starts distance ∧ stop.Stops distance

instance (bound : FrameBound) (distance : ℤ) : Decidable (bound.Starts distance) := by
  cases bound <;> unfold FrameBound.Starts <;> infer_instance

instance (bound : FrameBound) (distance : ℤ) : Decidable (bound.Stops distance) := by
  cases bound <;> unfold FrameBound.Stops <;> infer_instance

instance (start stop : FrameBound) (distance : ℤ) : Decidable (InFrame start stop distance) :=
  inferInstanceAs (Decidable (_ ∧ _))

theorem FrameBound.Starts.mono {bound : FrameBound} {distance distance' : ℤ}
    (h : bound.Starts distance) (hle : distance ≤ distance') : bound.Starts distance' := by
  cases bound with
  | unboundedPreceding => trivial
  | unboundedFollowing => exact h.elim
  | _ => exact le_trans h hle

theorem FrameBound.Stops.mono {bound : FrameBound} {distance distance' : ℤ}
    (h : bound.Stops distance) (hle : distance' ≤ distance) : bound.Stops distance' := by
  cases bound with
  | unboundedPreceding => exact h.elim
  | unboundedFollowing => trivial
  | _ => exact le_trans hle h

/-- Frames that are the same have the same boundaries, if there can be a row in them. -/
theorem InFrame.bounds_eq {start stop start' stop' : FrameBound}
    (h : ∀ distance, InFrame start stop distance ↔ InFrame start' stop' distance)
    {distance : ℤ} (hin : InFrame start stop distance) :
    (∀ d, start.Starts d ↔ start'.Starts d) ∧ ∀ d, stop.Stops d ↔ stop'.Stops d := by
  have hin' := (h distance).mp hin
  constructor
  · intro d
    rcases le_total d distance with hle | hle
    · exact ⟨fun hd => ((h d).mp ⟨hd, hin.2.mono hle⟩).1,
        fun hd => ((h d).mpr ⟨hd, hin'.2.mono hle⟩).1⟩
    · exact iff_of_true (hin.1.mono hle) (hin'.1.mono hle)
  · intro d
    rcases le_total d distance with hle | hle
    · exact iff_of_true (hin.2.mono hle) (hin'.2.mono hle)
    · exact ⟨fun hd => ((h d).mp ⟨hin.1.mono hle, hd⟩).2,
        fun hd => ((h d).mpr ⟨hin'.1.mono hle, hd⟩).2⟩

/-! ### Words -/

/-- A token of SQL. -/
def IsWord (text : String) : Prop := text.toList ≠ [] ∧ ∀ c ∈ text.toList, c.isWhitespace = false

theorem splitWords_two {first second : String} (h : IsWord first) (h' : IsWord second) :
    splitWords (first ++ " " ++ second) = [first, second] := by
  have hspace : (' ').isWhitespace = true := by decide
  rw [splitWords, String.toList_append, String.toList_append, List.append_assoc]
  change (((first.toList ++ ' ' :: second.toList).splitOnP Char.isWhitespace).filter
    (· ≠ [])).map String.ofList = _
  rw [List.splitOnP_append_cons_of_forall_mem h.2 _ hspace, List.splitOnP_eq_singleton h'.2]
  simp [h.1, h'.1]

theorem isWord_toString (n : ℕ) : IsWord (toString n) := by
  have hdigits : (toString n).toList = Nat.toDigits 10 n := Nat.toList_repr
  rw [IsWord, hdigits]
  refine ⟨Nat.toDigits_ne_nil, fun c hc => ?_⟩
  have hdigit : c.isDigit = true := Nat.isDigit_of_mem_toDigits (by decide) (by decide) hc
  rw [Bool.eq_false_iff]
  intro hspace
  have hchar : ((c = ' ' ∨ c = '\t') ∨ c = '\r') ∨ c = '\n' := by
    simpa [Char.isWhitespace] using hspace
  rcases hchar with ((rfl | rfl) | rfl) | rfl <;> cases hdigit

/-- A text that starts with a number is not one that starts with something else. -/
theorem toString_append_ne {text : String} (h : text.toList.head?.any Char.isDigit = false) (n : ℕ)
    (rest : String) : toString n ++ rest ≠ text := by
  rintro rfl
  have hdigits : (toString n).toList = Nat.toDigits 10 n := Nat.toList_repr
  have hall : ∀ c ∈ Nat.toDigits 10 n, c.isDigit = true := fun c hc =>
    Nat.isDigit_of_mem_toDigits (by decide) (by decide) hc
  rw [String.toList_append, hdigits] at h
  cases hn : Nat.toDigits 10 n with
  | nil => exact Nat.toDigits_ne_nil hn
  | cons c digits =>
    rw [hn, List.cons_append, List.head?_cons, Option.any_some] at h
    rw [hall c (hn ▸ List.mem_cons_self)] at h
    cases h

/-! ### What a boundary is taken for -/

/-- A side that SQL reads as `word`, whatever the case of its letters. -/
structure IsSide (py : Python) (word side : String) : Prop where
  upper : py.upper side = word
  isWord : IsWord side

/-- The boundary that a value with a side is in SQL. -/
inductive ReadsBound (py : Python) : SqlBoundary → Option String → FrameBound → Prop
  | unboundedPreceding {side : String} (h : IsSide py "PRECEDING" side) :
      ReadsBound py (.text "UNBOUNDED") (some side) .unboundedPreceding
  | preceding {side : String} (n : ℕ) (h : IsSide py "PRECEDING" side) :
      ReadsBound py (.int n) (some side) (.preceding n)
  | currentRow : ReadsBound py (.text "CURRENT ROW") none .currentRow
  | following {side : String} (n : ℕ) (h : IsSide py "FOLLOWING" side) :
      ReadsBound py (.int n) (some side) (.following n)
  | unboundedFollowing {side : String} (h : IsSide py "FOLLOWING" side) :
      ReadsBound py (.text "UNBOUNDED") (some side) .unboundedFollowing

/-- A side that is not PRECEDING in upper case is taken for FOLLOWING. -/
def FrameBound.taken (side : Option String) : FrameBound → FrameBound
  | .preceding n => if side = some "PRECEDING" then .preceding n else .following n
  | bound => bound

/-- The side of UNBOUNDED is in upper case. -/
def FrameBound.Parses (side : Option String) : FrameBound → Prop
  | .unboundedPreceding => side = some "PRECEDING"
  | .unboundedFollowing => side = some "FOLLOWING"
  | _ => True

/-- The side of PRECEDING is in upper case, or does not matter. -/
def FrameBound.Kept (side : Option String) : FrameBound → Prop
  | .preceding n => n = 0 ∨ side = some "PRECEDING"
  | _ => True

/-- A boundary that is kept is taken for what it is. -/
theorem FrameBound.taken_of_kept {side : Option String} {bound : FrameBound} (h : bound.Kept side)
    (distance : ℤ) : ((bound.taken side).Starts distance ↔ bound.Starts distance) ∧
      ((bound.taken side).Stops distance ↔ bound.Stops distance) := by
  cases bound with
  | preceding n =>
    by_cases hside : side = some "PRECEDING"
    · rw [FrameBound.taken, if_pos hside]
      exact ⟨Iff.rfl, Iff.rfl⟩
    · cases h.resolve_right hside
      rw [FrameBound.taken, if_neg hside]
      simp [FrameBound.Starts, FrameBound.Stops]
  | _ => exact ⟨Iff.rfl, Iff.rfl⟩

theorem FrameBound.kept_of_starts {side : Option String} {bound : FrameBound}
    (h : ∀ distance, bound.Starts distance ↔ (bound.taken side).Starts distance) :
    bound.Kept side := by
  cases bound with
  | preceding n =>
    by_cases hside : side = some "PRECEDING"
    · exact Or.inr hside
    · have hn := h (-n)
      rw [FrameBound.taken, if_neg hside] at hn
      have hle : (n : ℤ) ≤ -n := hn.mp (le_refl (-(n : ℤ)))
      exact Or.inl (by omega)
  | _ => trivial

theorem FrameBound.kept_of_stops {side : Option String} {bound : FrameBound}
    (h : ∀ distance, bound.Stops distance ↔ (bound.taken side).Stops distance) :
    bound.Kept side := by
  cases bound with
  | preceding n =>
    by_cases hside : side = some "PRECEDING"
    · exact Or.inr hside
    · have hn := h n
      rw [FrameBound.taken, if_neg hside] at hn
      have hle : (n : ℤ) ≤ -n := hn.mpr (le_refl (n : ℤ))
      exact Or.inl (by omega)
  | _ => trivial

/-- The place of a boundary in a partition, cut off at its ends. -/
def FrameBound.clamp (bound : FrameBound) (index size : ℕ) (isEnd : Bool) : ℕ :=
  let position : ℤ → ℕ := fun distance =>
    (min (max (index + distance + if isEnd then 1 else 0) 0) size).toNat
  match bound with
  | .unboundedPreceding => 0
  | .preceding n => position (-n)
  | .currentRow => index + if isEnd then 1 else 0
  | .following n => position n
  | .unboundedFollowing => size

section Boundaries

variable {py : Python} (hdigits : ∀ n : ℕ, py.int (.str (toString n)) = .ok (n : ℤ))
  (hword : ∃ e, py.int (.str "UNBOUNDED") = .error e)

theorem isWord_of_all {text : String} (h : text.toList ≠ [])
    (h' : text.toList.all (fun c => !c.isWhitespace) = true) : IsWord text :=
  ⟨h, fun c hc => by simpa using List.all_eq_true.mp h' c hc⟩

include hdigits in
theorem frameBoundary_number {side : String} (hside : IsWord side) (n index size : ℕ)
    (isEnd : Bool) : frameBoundary py (toString n ++ " " ++ side) index size isEnd
      = .ok ((if side = "PRECEDING" then FrameBound.preceding n else .following n).clamp
          index size isEnd) := by
  have hne : ∀ text : String, text.toList.head?.any Char.isDigit = false →
      toString n ++ " " ++ side ≠ text := fun text h => by
    rw [String.append_assoc]
    exact toString_append_ne h n _
  rw [frameBoundary, if_neg (hne "UNBOUNDED PRECEDING" (by decide)),
    if_neg (hne "UNBOUNDED FOLLOWING" (by decide)), if_neg (hne "CURRENT ROW" (by decide)),
    splitWords_two (isWord_toString n) hside]
  dsimp only
  rw [hdigits n, ExceptState.ok_bind]
  by_cases h : side = "PRECEDING"
  · rw [if_pos h, if_pos h, FrameBound.clamp]
    cases isEnd <;> simp [Int.sub_eq_add_neg] <;> rfl
  · rw [if_neg h, if_neg h, FrameBound.clamp]
    cases isEnd <;> simp <;> rfl

theorem eq_of_unbounded_eq {side text : String} (h : "UNBOUNDED" ++ " " ++ side = text) :
    side = String.ofList (text.toList.drop 10) := by
  rw [← h, String.toList_append, ← String.toList_inj, String.toList_ofList]
  rfl

include hword in
theorem frameBoundary_unbounded {side : String} (hside : IsWord side) (index size : ℕ)
    (isEnd : Bool) :
    if side = "PRECEDING" then
      frameBoundary py ("UNBOUNDED" ++ " " ++ side) index size isEnd = .ok 0
    else if side = "FOLLOWING" then
      frameBoundary py ("UNBOUNDED" ++ " " ++ side) index size isEnd = .ok size
    else ∃ e, frameBoundary py ("UNBOUNDED" ++ " " ++ side) index size isEnd = .error e := by
  by_cases hpreceding : side = "PRECEDING"
  · rw [if_pos hpreceding, hpreceding]
    rfl
  by_cases hfollowing : side = "FOLLOWING"
  · rw [if_neg hpreceding, if_pos hfollowing, hfollowing]
    rfl
  rw [if_neg hpreceding, if_neg hfollowing]
  obtain ⟨e, he⟩ := hword
  have hne : "UNBOUNDED" ++ " " ++ side ≠ "UNBOUNDED PRECEDING" :=
    fun h => hpreceding (eq_of_unbounded_eq h)
  have hne' : "UNBOUNDED" ++ " " ++ side ≠ "UNBOUNDED FOLLOWING" :=
    fun h => hfollowing (eq_of_unbounded_eq h)
  have hcurrent : "UNBOUNDED" ++ " " ++ side ≠ "CURRENT ROW" := by
    intro h
    have hlists := congrArg (fun text => text.toList.head?) h
    rw [String.toList_append, String.toList_append] at hlists
    cases hlists
  have hwords : IsWord "UNBOUNDED" := isWord_of_all (by decide) (by decide)
  refine ⟨e, ?_⟩
  rw [frameBoundary, if_neg hne, if_neg hne', if_neg hcurrent, splitWords_two hwords hside]
  dsimp only
  rw [he]
  rfl

theorem stripText_eq {text : String} (hhead : ∀ c ∈ text.toList.head?, c.isWhitespace = false)
    (hlast : ∀ c ∈ text.toList.getLast?, c.isWhitespace = false) : stripText text = text := by
  have hdrop : ∀ l : List Char, (∀ c ∈ l.head?, c.isWhitespace = false) →
      l.dropWhile Char.isWhitespace = l := by
    intro l hl
    cases l with
    | nil => rfl
    | cons c l => rw [List.dropWhile_cons, hl c rfl, if_neg Bool.false_ne_true]
  rw [stripText, hdrop _ hhead, hdrop _ (by rwa [List.head?_reverse]), List.reverse_reverse,
    String.ofList_toList]

theorem bindBoundary_unbounded {side : String} (h : IsWord side) :
    bindBoundary (.text "UNBOUNDED") (some side) = .ok ("UNBOUNDED" ++ " " ++ side) := by
  refine congrArg Except.ok (stripText_eq ?_ ?_)
  · rw [String.toList_append, String.toList_append]
    rintro c hc
    cases hc
    rfl
  · rintro c hc
    rw [Option.getD_some, String.toList_append, List.getLast?_append_of_ne_nil _ h.1] at hc
    exact h.2 c (List.mem_of_getLast? hc)

include hdigits hword in
/-- A boundary that parses is cut off at the ends of the partition; any other raises. -/
theorem frameBoundary_eq (hupper : ∀ word ∈ ["PRECEDING", "FOLLOWING"], py.upper word = word)
    {value : SqlBoundary} {side : Option String} {bound : FrameBound}
    (h : ReadsBound py value side bound) {text : String} (ht : bindBoundary value side = .ok text)
    (index size : ℕ) (isEnd : Bool) :
    (bound.Parses side ∧ frameBoundary py text index size isEnd
        = .ok ((bound.taken side).clamp index size isEnd)) ∨
      ¬bound.Parses side ∧ ∃ e, frameBoundary py text index size isEnd = .error e := by
  have hfollowing : ∀ {side : String}, IsSide py "FOLLOWING" side → side ≠ "PRECEDING" := by
    rintro side hside rfl
    exact absurd ((hupper _ (by decide)).symm.trans hside.upper) (by decide)
  have hnumber := fun (n : ℕ) {side : String} (hside : IsWord side) =>
    frameBoundary_number hdigits hside n index size isEnd
  cases h with
  | preceding n hside =>
    cases ht
    refine Or.inl ⟨trivial, (hnumber n hside.isWord).trans ?_⟩
    simp only [FrameBound.taken, Option.some.injEq]
  | following n hside =>
    cases ht
    refine Or.inl ⟨trivial, (hnumber n hside.isWord).trans ?_⟩
    rw [if_neg (hfollowing hside)]
    rfl
  | currentRow =>
    cases (show bindBoundary (.text "CURRENT ROW") none = .ok "CURRENT ROW" by decide).symm.trans ht
    exact Or.inl ⟨trivial, rfl⟩
  | unboundedPreceding hside =>
    cases (bindBoundary_unbounded hside.isWord).symm.trans ht
    have hboundary := frameBoundary_unbounded hword hside.isWord index size isEnd
    rename_i side
    by_cases hp : side = "PRECEDING"
    · rw [if_pos hp] at hboundary
      exact Or.inl ⟨congrArg some hp, hboundary⟩
    · refine Or.inr ⟨fun hparses => hp (Option.some.inj hparses), ?_⟩
      rw [if_neg hp, if_neg] at hboundary
      · exact hboundary
      · rintro rfl
        exact absurd ((hupper _ (by decide)).symm.trans hside.upper) (by decide)
  | unboundedFollowing hside =>
    cases (bindBoundary_unbounded hside.isWord).symm.trans ht
    have hboundary := frameBoundary_unbounded hword hside.isWord index size isEnd
    rename_i side
    rw [if_neg (hfollowing hside)] at hboundary
    by_cases hf : side = "FOLLOWING"
    · rw [if_pos hf] at hboundary
      exact Or.inl ⟨congrArg some hf, hboundary⟩
    · rw [if_neg hf] at hboundary
      exact Or.inr ⟨fun hparses => hf (Option.some.inj hparses), hboundary⟩

end Boundaries

/-! ### Slices -/

section Slices

variable {α : Type}

theorem FrameBound.clamp_le (bound : FrameBound) {index size : ℕ} (h : index < size)
    (isEnd : Bool) : bound.clamp index size isEnd ≤ size := by
  cases bound <;> cases isEnd <;> simp only [FrameBound.clamp] <;> simp <;> omega

theorem FrameBound.clamp_le_iff (bound : FrameBound) (index : ℕ) {size place : ℕ} (h : place < size) :
    bound.clamp index size false ≤ place ↔ bound.Starts (place - index) := by
  cases bound <;> simp only [FrameBound.clamp, FrameBound.Starts] <;> simp <;> omega

theorem FrameBound.lt_clamp_iff (bound : FrameBound) (index : ℕ) {size place : ℕ} (h : place < size) :
    place < bound.clamp index size true ↔ bound.Stops (place - index) := by
  cases bound <;> simp only [FrameBound.clamp, FrameBound.Stops] <;> simp <;> omega

theorem mem_slice {rows : List α} {start stop : ℕ} {item : α × ℕ} :
    item ∈ (rows.zipIdx.drop start).take (stop - start) ↔
      item ∈ rows.zipIdx ∧ start ≤ item.2 ∧ item.2 < stop := by
  rw [List.mem_iff_getElem?, List.mem_zipIdx_iff_getElem?]
  constructor
  · rintro ⟨i, hi⟩
    obtain ⟨hlt, hi⟩ : i < stop - start ∧ rows.zipIdx[start + i]? = some item := by
      rw [List.getElem?_take] at hi
      split at hi
      · exact ⟨‹_›, by rwa [List.getElem?_drop] at hi⟩
      · cases hi
    rw [List.getElem?_zipIdx, Option.map_eq_some_iff] at hi
    obtain ⟨row, hrow, rfl⟩ := hi
    simp only [Nat.zero_add]
    exact ⟨hrow, by omega, by omega⟩
  · rintro ⟨hrow, hstart, hstop⟩
    refine ⟨item.2 - start, ?_⟩
    rw [List.getElem?_take_of_lt (by omega), List.getElem?_drop, Nat.add_sub_cancel' hstart,
      List.getElem?_zipIdx, hrow, Option.map_some, Nat.zero_add]

/-- A slice is the rows between its bounds, in order. -/
theorem slice_eq_filter (rows : List α) {start stop : ℕ} {p : ℕ → Prop} [DecidablePred p]
    (hp : ∀ place < rows.length, start ≤ place ∧ place < stop ↔ p place) :
    (rows.zipIdx.drop start).take (stop - start) = rows.zipIdx.filter fun item => p item.2 := by
  have hsorted := pairwise_zipIdx rows
  have : Std.Irrefl fun left right : α × ℕ => left.2 < right.2 := ⟨fun item => lt_irrefl item.2⟩
  have : Std.Antisymm fun left right : α × ℕ => left.2 < right.2 :=
    ⟨fun left right h h' => absurd h h'.asymm⟩
  refine List.Pairwise.eq_of_mem_iff (r := fun left right : α × ℕ => left.2 < right.2)
    ((hsorted.sublist (List.drop_sublist start _)).sublist (List.take_sublist _ _))
    (hsorted.filter _) fun item => ?_
  rw [mem_slice, List.mem_filter, decide_eq_true_iff]
  refine and_congr_right fun hitem => hp item.2 ?_
  exact (List.getElem?_eq_some_iff.mp (List.mem_zipIdx_iff_getElem?.mp hitem)).1

end Slices

/-! ### The rows of a frame -/

/-- The rows that are aggregated for the row at `index` are those at the places in `p`; the
bounds of the slice do not leave the partition. -/
def FrameSelects (py : Python) (frame : Option WindowFrame) (peerKeys : List (List SQLValue))
    (rows : List Row) (index : ℕ) (p : ℕ → Prop) [DecidablePred p] : Prop :=
  ∃ start stop, windowBounds py frame index rows.length peerKeys = .ok (start, stop) ∧
    start ≤ rows.length ∧ stop ≤ rows.length ∧
    (rows.zipIdx.drop start).take (stop - start) = rows.zipIdx.filter fun item => p item.2

theorem windowValue_of_frameSelects {py : Python} {window : WindowFunction} {text : String}
    {peerKeys : List (List SQLValue)} {done rest : List Row} {state : RankState}
    {function : AggregateFunction} {p : ℕ → Prop} [DecidablePred p]
    (hfunction : window.function.asAggregate = some function)
    (h : FrameSelects py window.frame peerKeys (done ++ rest) done.length p) :
    windowValue py window text peerKeys done rest state
      = (frameValue py function (((done ++ rest).zipIdx.filter fun item => p item.2).map
          Prod.fst)).map fun value => (value, state) := by
  obtain ⟨start, stop, hbounds, -, -, hslice⟩ := h
  rw [List.length_append] at hbounds
  have hrows : ((done ++ rest).drop start).take (stop - start)
      = (((done ++ rest).zipIdx.filter fun item => p item.2).map Prod.fst) := by
    rw [← hslice, List.map_take, List.map_drop, List.zipIdx_map_fst]
  rw [windowValue.eq_def]
  split
  next name arguments type heq =>
    rw [heq] at hfunction
    cases hfunction
  next =>
    rw [hfunction]
    dsimp only
    rw [hbounds, ExceptState.ok_bind, hrows]
    rfl

/-- Without ORDER BY every place, else the places up to that of the last peer of `row`. -/
def UpToLastPeer (py : Python) (window : WindowFunction) (ordered : List (Row × ℕ))
    (row : Row × ℕ) (place : ℕ) : Prop :=
  window.orderBy.isEmpty ∨
    ∃ peer ∈ ordered.drop place,
      rowPlace py window.orderBy peer.1 = rowPlace py window.orderBy row.1

instance {py : Python} {window : WindowFunction} {ordered : List (Row × ℕ)} {row : Row × ℕ} :
    DecidablePred (UpToLastPeer py window ordered row) := fun _ =>
  have := List.decidableBEx (fun peer : Row × ℕ =>
    rowPlace py window.orderBy peer.1 = rowPlace py window.orderBy row.1)
  inferInstanceAs (Decidable (_ ∨ _))

/-- Without a frame: all rows, or those up to the last peer of the row. -/
theorem windowBounds_default {py : Python} {window : WindowFunction} {rows : List Row}
    {domains : List (Set SQLValue)} (hS : ∀ S ∈ domains, Ordered S)
    (hkeys : ∀ row ∈ rows, HasKeys py (window.orderBy.map (·.expression)) domains row) :
    ∃ ordered peerKeys, orderPartition py window rows = .ok ordered ∧
      (ordered.mapM fun item => Expression.evaluateAll py item.1
        (window.orderBy.map (·.expression))) = .ok peerKeys ∧
      ∀ (index : ℕ) (row : Row × ℕ), ordered[index]? = some row →
        FrameSelects py none peerKeys (ordered.map Prod.fst) index
          (UpToLastPeer py window ordered row) := by
  let values := fun item : Row × ℕ => rowValues py (window.orderBy.map (·.expression)) item.1
  let place := fun item : Row × ℕ => rowPlace py window.orderBy item.1
  have hperm := StableSort.sort_perm place rows.zipIdx
  have hsorted := StableSort.sortedBy_sort place rows.zipIdx
  have hordered := orderPartition_eq hS hkeys
  revert hperm hsorted hordered
  generalize StableSort.sort place rows.zipIdx = ordered
  intro hperm hsorted hordered
  have hmem : ∀ item ∈ ordered, HasKeys py (window.orderBy.map (·.expression)) domains item.1 :=
    fun item hitem => hkeys item.1 (List.fst_mem_of_mem_zipIdx (hperm.subset hitem))
  refine ⟨ordered, ordered.map values, hordered,
    ExceptState.mapM_eq_ok fun item hitem => (hmem item hitem).1, fun index row hrow => ?_⟩
  obtain ⟨hindex, -⟩ := List.getElem?_eq_some_iff.mp hrow
  have hhead : ((ordered.map values).headD []).isEmpty = window.orderBy.isEmpty := by
    cases ordered with
    | nil => cases hrow
    | cons item ordered =>
      have hlength := Expression.length_of_evaluateAll (hmem item List.mem_cons_self).1
      rw [List.length_map] at hlength
      rw [List.map_cons, List.headD_cons, Bool.eq_iff_iff, List.isEmpty_iff_length_eq_zero,
        List.isEmpty_iff_length_eq_zero, hlength]
  rw [FrameSelects, List.length_map, windowBounds, hhead]
  by_cases hempty : window.orderBy.isEmpty
  · refine ⟨0, _, if_pos hempty, Nat.zero_le _, le_rfl, slice_eq_filter _ fun place hplace => ?_⟩
    rw [List.length_map] at hplace
    exact iff_of_true ⟨Nat.zero_le _, hplace⟩ (Or.inl hempty)
  · have hpeer : (ordered.map values).getD index [] = values row := by
      rw [List.getD_eq_getElem?_getD, List.getElem?_map, hrow]
      rfl
    have hlength : (((ordered.map values).drop (index + 1)).takeWhile fun key =>
        tupleEq key ((ordered.map values).getD index [])).length
          = ((ordered.drop (index + 1)).takeWhile fun item =>
              tupleEq (values item) (values row)).length := by
      rw [hpeer, ← List.map_drop, List.takeWhile_map, List.length_map]
      rfl
    have hrun := (List.takeWhile_sublist (fun item => tupleEq (values item) (values row))
      (l := ordered.drop (index + 1))).length_le
    rw [List.length_drop] at hrun
    have hstop : index + 1 + ((ordered.drop (index + 1)).takeWhile fun item =>
        tupleEq (values item) (values row)).length ≤ ordered.length := by omega
    refine ⟨0, _, (if_neg hempty).trans (congrArg (fun run => Except.ok (0, index + 1 + run))
      hlength), Nat.zero_le _, hstop, slice_eq_filter _ fun place hplace => ?_⟩
    rw [StableSort.lt_peers_iff hsorted hrow fun item hitem =>
      rowPlace_eq_iff hS (hmem item hitem) (hmem row (List.mem_of_getElem? hrow)), UpToLastPeer]
    exact ⟨fun h => Or.inr h.2, fun h => ⟨Nat.zero_le _, h.resolve_left hempty⟩⟩

/-- A frame as it is read, for every row of every partition. -/
theorem frameSelects_iff {py : Python}
    (hdigits : ∀ n : ℕ, py.int (.str (toString n)) = .ok (n : ℤ))
    (hword : ∃ e, py.int (.str "UNBOUNDED") = .error e)
    (hupper : ∀ word ∈ ["PRECEDING", "FOLLOWING"], py.upper word = word) {spec : SqlWindowSpec}
    {frame : WindowFrame} (hframe : bindWindowFrame py spec = .ok frame) {start stop : FrameBound}
    (hstart : ReadsBound py spec.start spec.startSide start)
    (hstop : ReadsBound py spec.stop spec.stopSide stop)
    (peerKeys : List (List SQLValue)) {rows : List Row} {index : ℕ} (hindex : index < rows.length)
    (p : ℕ → Prop) [DecidablePred p] :
    FrameSelects py (some frame) peerKeys rows index p ↔
      (start.Parses spec.startSide ∧ stop.Parses spec.stopSide) ∧ ∀ place < rows.length,
        (InFrame (start.taken spec.startSide) (stop.taken spec.stopSide) (place - index) ↔
          p place) := by
  obtain ⟨_, hkind, hbind⟩ := ExceptState.bind_eq_ok hframe
  obtain ⟨startText, hstartText, hbind⟩ := ExceptState.bind_eq_ok hbind
  obtain ⟨stopText, hstopText, hbind⟩ := ExceptState.bind_eq_ok hbind
  cases hbind
  have hstartEq := frameBoundary_eq hdigits hword hupper hstart hstartText index rows.length false
  have hstopEq := frameBoundary_eq hdigits hword hupper hstop hstopText index rows.length true
  rcases hstartEq with ⟨hparses, hstartEq⟩ | ⟨hparses, e, hstartEq⟩
  · rcases hstopEq with ⟨hparses', hstopEq⟩ | ⟨hparses', e, hstopEq⟩
    · have hbounds : windowBounds py (some ⟨py.upper spec.kind, startText, stopText⟩) index
          rows.length peerKeys = .ok (_, _) :=
        ExceptState.bind_eq_ok_iff.mpr ⟨_, hstartEq, ExceptState.bind_eq_ok_iff.mpr
          ⟨_, hstopEq, rfl⟩⟩
      have hslice := slice_eq_filter rows fun place hplace =>
        and_congr ((start.taken spec.startSide).clamp_le_iff index hplace)
          ((stop.taken spec.stopSide).lt_clamp_iff index hplace)
      rw [and_iff_right ⟨hparses, hparses'⟩, FrameSelects]
      constructor
      · rintro ⟨_, _, hbounds', -, -, hslice'⟩ place hplace
        cases hbounds.symm.trans hbounds'
        have hmem : (rows[place], place) ∈ rows.zipIdx :=
          List.mem_zipIdx_iff_getElem?.mpr (List.getElem?_eq_getElem hplace)
        have hsame := congrArg ((rows[place], place) ∈ ·) (hslice.symm.trans hslice')
        simpa [List.mem_filter, hmem, InFrame] using hsame
      · intro hplaces
        refine ⟨_, _, hbounds, FrameBound.clamp_le _ hindex _, FrameBound.clamp_le _ hindex _,
          hslice.trans (List.filter_congr fun item hitem =>
            decide_eq_decide.mpr (hplaces item.2 ?_))⟩
        exact (List.getElem?_eq_some_iff.mp (List.mem_zipIdx_iff_getElem?.mp hitem)).1
    · refine iff_of_false ?_ fun h => hparses' h.1.2
      rintro ⟨start, stop, hbounds, -⟩
      rw [windowBounds, hstartEq, ExceptState.ok_bind, hstopEq] at hbounds
      cases hbounds
  · refine iff_of_false ?_ fun h => hparses h.1.1
    rintro ⟨start, stop, hbounds, -⟩
    rw [windowBounds, hstartEq] at hbounds
    cases hbounds

/-- A frame is the rows that SQL says, for every row of every partition, if its PRECEDING and
FOLLOWING are written in upper case where that matters. -/
theorem windowBounds_iff {py : Python} (hdigits : ∀ n : ℕ, py.int (.str (toString n)) = .ok (n : ℤ))
    (hword : ∃ e, py.int (.str "UNBOUNDED") = .error e)
    (hupper : ∀ word ∈ ["PRECEDING", "FOLLOWING"], py.upper word = word) {spec : SqlWindowSpec}
    {frame : WindowFrame} (hframe : bindWindowFrame py spec = .ok frame) {start stop : FrameBound}
    (hstart : ReadsBound py spec.start spec.startSide start)
    (hstop : ReadsBound py spec.stop spec.stopSide stop) :
    (∀ (peerKeys : List (List SQLValue)) (rows : List Row), ∀ index < rows.length,
        FrameSelects py (some frame) peerKeys rows index fun place =>
          InFrame start stop (place - index)) ↔
      (start.Parses spec.startSide ∧ stop.Parses spec.stopSide) ∧
        (start.Kept spec.startSide ∧ stop.Kept spec.stopSide ∨
          ∀ distance, ¬InFrame start stop distance ∧
            ¬InFrame (start.taken spec.startSide) (stop.taken spec.stopSide) distance) := by
  have hselects := fun (peerKeys : List (List SQLValue)) (rows : List Row) {index : ℕ}
      (hindex : index < rows.length) => frameSelects_iff hdigits hword hupper hframe hstart
    hstop peerKeys hindex fun place : ℕ => InFrame start stop ((place : ℤ) - index)
  constructor
  · intro hall
    have hparses := ((hselects [] [[]] Nat.one_pos).mp (hall [] [[]] 0 Nat.one_pos)).1
    have hsame : ∀ distance, InFrame start stop distance ↔
        InFrame (start.taken spec.startSide) (stop.taken spec.stopSide) distance := by
      intro distance
      let rows : List Row := List.replicate (distance.natAbs + 1) []
      have hlength : rows.length = distance.natAbs + 1 := List.length_replicate
      have hindex : (-distance).toNat < rows.length := by omega
      have hplace := ((hselects [] rows hindex).mp (hall [] rows _ hindex)).2 distance.toNat (by omega)
      have hdistance : (distance.toNat : ℤ) - ((-distance).toNat : ℤ) = distance := by omega
      rw [hdistance] at hplace
      exact hplace.symm
    refine ⟨hparses, ?_⟩
    by_cases hempty : ∀ distance, ¬InFrame start stop distance
    · exact Or.inr fun distance =>
        ⟨hempty distance, fun h => hempty distance ((hsame distance).mpr h)⟩
    · obtain ⟨distance, hin⟩ := not_forall_not.mp hempty
      obtain ⟨hstarts, hstops⟩ := InFrame.bounds_eq hsame hin
      exact Or.inl ⟨FrameBound.kept_of_starts hstarts, FrameBound.kept_of_stops hstops⟩
  · rintro ⟨hparses, hcase⟩ peerKeys rows index hindex
    refine (hselects peerKeys rows hindex).mpr ⟨hparses, fun place _ => ?_⟩
    rcases hcase with ⟨hkept, hkept'⟩ | hempty
    · exact and_congr (FrameBound.taken_of_kept hkept _).1 (FrameBound.taken_of_kept hkept' _).2
    · exact iff_of_false (hempty _).2 (hempty _).1

/-- The rows that are aggregated, without a frame and with one. -/
theorem windowFrames_iff {py : Python} (hdigits : ∀ n : ℕ, py.int (.str (toString n)) = .ok (n : ℤ))
    (hword : ∃ e, py.int (.str "UNBOUNDED") = .error e)
    (hupper : ∀ word ∈ ["PRECEDING", "FOLLOWING"], py.upper word = word) :
    (∀ (window : WindowFunction) (rows : List Row) (domains : List (Set SQLValue)),
      (∀ S ∈ domains, Ordered S) →
      (∀ row ∈ rows, HasKeys py (window.orderBy.map (·.expression)) domains row) →
      ∃ ordered peerKeys, orderPartition py window rows = .ok ordered ∧
        (ordered.mapM fun item => Expression.evaluateAll py item.1
          (window.orderBy.map (·.expression))) = .ok peerKeys ∧
        ∀ (index : ℕ) (row : Row × ℕ), ordered[index]? = some row →
          FrameSelects py none peerKeys (ordered.map Prod.fst) index
            (UpToLastPeer py window ordered row)) ∧
    ∀ (spec : SqlWindowSpec) (frame : WindowFrame) (start stop : FrameBound),
      bindWindowFrame py spec = .ok frame → ReadsBound py spec.start spec.startSide start →
      ReadsBound py spec.stop spec.stopSide stop →
      ((∀ (peerKeys : List (List SQLValue)) (rows : List Row), ∀ index < rows.length,
          FrameSelects py (some frame) peerKeys rows index fun place =>
            InFrame start stop (place - index)) ↔
        (start.Parses spec.startSide ∧ stop.Parses spec.stopSide) ∧
          (start.Kept spec.startSide ∧ stop.Kept spec.stopSide ∨
            ∀ distance, ¬InFrame start stop distance ∧
              ¬InFrame (start.taken spec.startSide) (stop.taken spec.stopSide) distance)) :=
  ⟨fun _ _ _ hS hkeys => windowBounds_default hS hkeys, fun _ _ _ _ hframe hstart hstop =>
    windowBounds_iff hdigits hword hupper hframe hstart hstop⟩

/-- A runtime that parses decimal digits. -/
def framePython : Python := { Python.ascii with
  int
    | .str text =>
        if text.toList ≠ [] ∧ text.toList.all Char.isDigit then
          .ok (Nat.ofDigitChars 10 text.toList 0)
        else .error (.valueError ("invalid literal for int() with base 10: '" ++ text ++ "'"))
    | value => Python.ascii.int value
  upper := fun text => String.ofList (text.toList.map Char.toUpper) }

theorem framePython_int (n : ℕ) : framePython.int (.str (toString n)) = .ok (n : ℤ) := by
  have hdigits : (toString n).toList = Nat.toDigits 10 n := Nat.toList_repr
  change (if (toString n).toList ≠ [] ∧ (toString n).toList.all Char.isDigit then
    Except.ok ((Nat.ofDigitChars 10 (toString n).toList 0 : ℕ) : ℤ) else _) = _
  rw [hdigits, if_pos, Nat.ofDigitChars_ten_toDigits]
  exact ⟨Nat.toDigits_ne_nil, List.all_eq_true.mpr fun c hc =>
    Nat.isDigit_of_mem_toDigits (by decide) (by decide) hc⟩

/-- `ROWS BETWEEN 1 <side> AND CURRENT ROW` -/
def precedingSpec (side : String) : SqlWindowSpec :=
  ⟨"rows", .int 1, some side, .text "CURRENT ROW", none⟩

/-- In upper case the row before the current one and the current one are in the frame. -/
theorem windowFrames_iff_upper :
    FrameSelects framePython (some ⟨"ROWS", "1 PRECEDING", "CURRENT ROW"⟩) [] [[], [], []] 1
      fun place => InFrame (.preceding 1) .currentRow (place - (1 : ℕ)) :=
  ((windowFrames_iff framePython_int ⟨_, rfl⟩ (by decide +kernel)).2 (precedingSpec "PRECEDING") _
    _ _ (by decide +kernel)
    (.preceding 1 ⟨by decide +kernel, isWord_of_all (by decide) (by decide)⟩) .currentRow).mpr
    ⟨⟨trivial, trivial⟩, Or.inl ⟨Or.inr rfl, trivial⟩⟩ [] [[], [], []] 1 (by decide)

/-- In lower case neither of them is. -/
theorem windowFrames_lower : ∃ frame,
    bindWindowFrame framePython (precedingSpec "preceding") = .ok frame ∧
    ReadsBound framePython (.int 1) (some "preceding") (.preceding 1) ∧
    ReadsBound framePython (.text "CURRENT ROW") none .currentRow ∧
    ¬FrameSelects framePython (some frame) [] [[], [], []] 1 fun place =>
      InFrame (.preceding 1) .currentRow (place - (1 : ℕ)) := by
  refine ⟨⟨"ROWS", "1 preceding", "CURRENT ROW"⟩, by decide +kernel,
    .preceding 1 ⟨by decide +kernel, isWord_of_all (by decide) (by decide)⟩, .currentRow, ?_⟩
  rintro ⟨start, stop, hbounds, -, -, hslice⟩
  have hempty : windowBounds framePython (some ⟨"ROWS", "1 preceding", "CURRENT ROW"⟩) 1 3 []
      = .ok (2, 2) := by decide +kernel
  cases hempty.symm.trans hbounds
  exact absurd hslice (by decide +kernel)

end DistributedSql

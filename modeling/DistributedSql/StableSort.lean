/-
Stable sorting with a comparison that may raise.

A library of its own.  `sortM` and `mergeM` sort a list and merge two sorted lists
by a `less` that may raise; equal elements keep their order.  Where `less` is the
strict order of a key and does not raise, they are the library's `insertionSort` and
`merge` by that key.

Main results:
* `sortM_eq`, `mergeM_eq`, `mergeAllM_eq` — what is computed;
* `sort_flatten` — sorting the pieces of a list and merging them, in order, is sorting
  the list;
* `sort_filter` — sorting some of the elements keeps the order they have among all.
-/
import Mathlib

namespace StableSort

variable {ε : Type*} {α κ : Type} [LinearOrder κ]

/-- Insert before the first element that is not less. -/
def insertM (less : α → α → Except ε Bool) (x : α) : List α → Except ε (List α)
  | [] => .ok [x]
  | y :: ys => do
      if ← less y x then return y :: (← insertM less x ys)
      else return x :: y :: ys

/-- The stable sort. -/
def sortM (less : α → α → Except ε Bool) : List α → Except ε (List α)
  | [] => .ok []
  | x :: xs => do insertM less x (← sortM less xs)

/-- The stable merge: on ties the first list comes first. -/
def mergeM (less : α → α → Except ε Bool) : List α → List α → Except ε (List α)
  | [], ys => .ok ys
  | x :: xs, [] => .ok (x :: xs)
  | x :: xs, y :: ys => do
      if ← less y x then return y :: (← mergeM less (x :: xs) ys)
      else return x :: (← mergeM less xs (y :: ys))
termination_by xs ys => xs.length + ys.length

/-- The stable merge of any number of lists. -/
def mergeAllM (less : α → α → Except ε Bool) : List (List α) → Except ε (List α)
  | [] => .ok []
  | xs :: rest => do mergeM less xs (← mergeAllM less rest)

/-- `less` is the strict order of `key` on the elements of `S`. -/
def OrderedBy (less : α → α → Except ε Bool) (key : α → κ) (S : α → Prop) : Prop :=
  ∀ a b, S a → S b → less a b = .ok (decide (key a < key b))

/-- Sorted by `key`. -/
def SortedBy (key : α → κ) (l : List α) : Prop := l.Pairwise fun a b => key a ≤ key b

/-- The stable sort by `key`. -/
def sort (key : α → κ) (l : List α) : List α := l.insertionSort fun a b => key a ≤ key b

/-- The stable merge by `key`: on ties the first list comes first. -/
def merge (key : α → κ) (xs ys : List α) : List α :=
  List.merge xs ys fun a b => decide (key a ≤ key b)

variable {less : α → α → Except ε Bool} {key : α → κ} {S : α → Prop}

/-! ### The sort by a key -/

theorem sort_perm (key : α → κ) (l : List α) : (sort key l).Perm l := List.perm_insertionSort _ l

theorem sortedBy_sort (key : α → κ) (l : List α) : SortedBy key (sort key l) :=
  haveI : Std.Total fun a b : α => key a ≤ key b := ⟨fun a b => le_total (key a) (key b)⟩
  haveI : IsTrans α fun a b => key a ≤ key b := ⟨fun _ _ _ => le_trans⟩
  List.pairwise_insertionSort _ l

/-- A list of elements that stand at one place is left as it is. -/
theorem sort_of_same {key : α → κ} {l : List α} (h : ∀ a ∈ l, ∀ b ∈ l, key a = key b) :
    sort key l = l :=
  List.Pairwise.insertionSort_eq
    (List.pairwise_of_forall_mem_list fun a ha b hb => (h a ha b hb).le)

theorem merge_perm (key : α → κ) (xs ys : List α) : (merge key xs ys).Perm (xs ++ ys) :=
  List.merge_perm_append _

@[simp] theorem merge_nil_left (ys : List α) : merge key [] ys = ys := by rw [merge, List.nil_merge]

@[simp] theorem merge_nil_right (xs : List α) : merge key xs [] = xs := by rw [merge, List.merge_right]

theorem merge_cons_of_le {x y : α} (h : key x ≤ key y) (xs ys : List α) :
    merge key (x :: xs) (y :: ys) = x :: merge key xs (y :: ys) :=
  List.cons_merge_cons_pos _ _ _ (decide_eq_true h)

theorem merge_cons_of_lt {x y : α} (h : key y < key x) (xs ys : List α) :
    merge key (x :: xs) (y :: ys) = y :: merge key (x :: xs) ys :=
  List.cons_merge_cons_neg _ _ _ (by simpa using h)

/-- Insert before the first element that is not less. -/
def insert (key : α → κ) (x : α) (l : List α) : List α :=
  l.orderedInsert (fun a b => key a ≤ key b) x

@[simp] theorem insert_nil (x : α) : insert key x [] = [x] := rfl

theorem insert_cons_of_le {x y : α} (h : key x ≤ key y) (ys : List α) :
    insert key x (y :: ys) = x :: y :: ys := if_pos h

theorem insert_cons_of_lt {x y : α} (h : key y < key x) (ys : List α) :
    insert key x (y :: ys) = y :: insert key x ys := if_neg h.not_ge

@[simp] theorem sort_nil : sort key [] = [] := rfl

@[simp] theorem sort_cons (x : α) (xs : List α) : sort key (x :: xs) = insert key x (sort key xs) :=
  rfl

private theorem merge_singleton (x : α) (ys : List α) : merge key [x] ys = insert key x ys := by
  induction ys with
  | nil => rw [merge_nil_right, insert_nil]
  | cons y ys ih =>
    rcases le_or_gt (key x) (key y) with h | h
    · rw [merge_cons_of_le h, insert_cons_of_le h, merge_nil_left]
    · rw [merge_cons_of_lt h, insert_cons_of_lt h, ih]

private theorem filter_insert {p : α → Bool} {x : α} {l : List α} (hl : SortedBy key l) :
    (insert key x l).filter p = if p x then insert key x (l.filter p) else l.filter p := by
  induction l with
  | nil => by_cases h : p x <;> simp [h]
  | cons y ys ih =>
    obtain ⟨hy, hys⟩ := List.pairwise_cons.mp hl
    rcases le_or_gt (key x) (key y) with hle | hlt
    · rw [insert_cons_of_le hle, List.filter_cons]
      by_cases h : p x = true
      · rw [if_pos h, if_pos h]
        -- whatever is left of the list does not come before `x`
        have hfirst : ∀ l : List α, (∀ z ∈ l, key x ≤ key z) → insert key x l = x :: l := by
          intro l hl
          cases l with
          | nil => rfl
          | cons z l => exact insert_cons_of_le (hl z List.mem_cons_self) l
        refine (hfirst _ fun z hz => ?_).symm
        rcases List.mem_cons.mp (List.mem_of_mem_filter hz) with rfl | hz
        · exact hle
        · exact hle.trans (hy z hz)
      · rw [if_neg h, if_neg h]
    · rw [insert_cons_of_lt hlt, List.filter_cons, List.filter_cons, ih hys]
      by_cases hpy : p y = true
      · rw [if_pos hpy, if_pos hpy]
        by_cases h : p x = true
        · rw [if_pos h, if_pos h, insert_cons_of_lt hlt]
        · rw [if_neg h, if_neg h]
      · rw [if_neg hpy, if_neg hpy]

/-- Sorting some of the elements gives them in the order in which they stand among all. -/
theorem sort_filter (p : α → Bool) (l : List α) :
    sort key (l.filter p) = (sort key l).filter p := by
  induction l with
  | nil => rfl
  | cons x xs ih =>
    rw [sort_cons, filter_insert (sortedBy_sort key xs), ← ih, List.filter_cons]
    by_cases h : p x = true
    · rw [if_pos h, if_pos h, sort_cons]
    · rw [if_neg h, if_neg h]

/-- Merging commutes with an insertion on the left, which comes before its ties. -/
private theorem merge_insert (x : α) (xs ys : List α) :
    merge key (insert key x xs) ys = insert key x (merge key xs ys) := by
  induction xs generalizing ys with
  | nil => rw [insert_nil, merge_nil_left, merge_singleton]
  | cons a xs ih =>
    induction ys with
    | nil => rw [merge_nil_right, merge_nil_right]
    | cons b ys ihy =>
      rcases le_or_gt (key x) (key a) with hxa | hxa
      · -- `x` goes in front of `a`, so it meets `b` first
        rw [insert_cons_of_le hxa] at ihy ⊢
        rcases le_or_gt (key x) (key b) with hxb | hxb
        · rw [merge_cons_of_le hxb]
          rcases le_or_gt (key a) (key b) with hab | hab
          · rw [merge_cons_of_le hab, insert_cons_of_le hxa]
          · rw [merge_cons_of_lt hab, insert_cons_of_le hxb]
        · rw [merge_cons_of_lt hxb, merge_cons_of_lt (hxb.trans_le hxa), insert_cons_of_lt hxb, ihy]
      · rw [insert_cons_of_lt hxa] at ihy ⊢
        rcases le_or_gt (key a) (key b) with hab | hab
        · rw [merge_cons_of_le hab, merge_cons_of_le hab, insert_cons_of_lt hxa, ih]
        · rw [merge_cons_of_lt hab, merge_cons_of_lt hab, insert_cons_of_lt (hab.trans hxa), ihy]

/-- Sorting two pieces and merging them is sorting the whole. -/
theorem sort_append (xs ys : List α) :
    sort key (xs ++ ys) = merge key (sort key xs) (sort key ys) := by
  induction xs with
  | nil => rw [List.nil_append, sort_nil, merge_nil_left]
  | cons x xs ih => rw [List.cons_append, sort_cons, ih, sort_cons, merge_insert]

/-- Sorting the pieces of a list and merging them, in order, is sorting the list. -/
theorem sort_flatten (lists : List (List α)) :
    sort key lists.flatten = (lists.map (sort key)).foldr (merge key) [] := by
  induction lists with
  | nil => rfl
  | cons xs rest ih => rw [List.flatten_cons, sort_append, ih, List.map_cons, List.foldr_cons]

/-! ### Comparisons that do not raise -/

private theorem perm_of_insertM {x : α} {l inserted : List α} (h : insertM less x l = .ok inserted) :
    inserted.Perm (x :: l) := by
  induction l generalizing inserted with
  | nil =>
    cases h
    exact List.Perm.refl _
  | cons y ys ih =>
    rw [insertM] at h
    cases hless : less y x with
    | error e =>
      rw [hless] at h
      cases h
    | ok yes =>
      rw [hless] at h
      cases yes with
      | false =>
        cases h
        exact List.Perm.refl _
      | true =>
        cases hys : insertM less x ys with
        | error e =>
          simp only [hys] at h
          cases h
        | ok rest =>
          simp only [hys] at h
          cases h
          exact ((ih hys).cons y).trans (List.Perm.swap x y ys)

private theorem insertM_eq (h : OrderedBy less key S) {x : α} (hx : S x) {l : List α}
    (hl : ∀ y ∈ l, S y) : insertM less x l = .ok (insert key x l) := by
  induction l with
  | nil => rfl
  | cons y ys ih =>
    rw [insertM, h y x (hl y List.mem_cons_self) hx]
    rcases le_or_gt (key x) (key y) with hle | hlt
    · rw [insert_cons_of_le hle, decide_eq_false hle.not_gt]
      rfl
    · rw [insert_cons_of_lt hlt, decide_eq_true hlt, ih fun z hz => hl z (List.mem_cons_of_mem y hz)]
      rfl

/-- Sorting rearranges, whatever the comparison. -/
theorem perm_of_sortM {l sorted : List α} (h : sortM less l = .ok sorted) : sorted.Perm l := by
  induction l generalizing sorted with
  | nil =>
    cases h
    exact List.Perm.refl _
  | cons x xs ih =>
    cases hxs : sortM less xs with
    | error e =>
      rw [sortM, hxs] at h
      cases h
    | ok rest =>
      rw [sortM, hxs] at h
      exact (perm_of_insertM h).trans ((ih hxs).cons x)

theorem sortM_eq (h : OrderedBy less key S) {l : List α} (hl : ∀ y ∈ l, S y) :
    sortM less l = .ok (sort key l) := by
  induction l with
  | nil => rfl
  | cons x xs ih =>
    have hxs : ∀ y ∈ xs, S y := fun y hy => hl y (List.mem_cons_of_mem x hy)
    rw [sortM, ih hxs, sort_cons]
    exact insertM_eq h (hl x List.mem_cons_self) fun y hy => hxs y ((sort_perm key xs).subset hy)

theorem mergeM_eq (h : OrderedBy less key S) {xs ys : List α} (hx : ∀ a ∈ xs, S a)
    (hy : ∀ a ∈ ys, S a) : mergeM less xs ys = .ok (merge key xs ys) := by
  induction xs, ys using mergeM.induct with
  | case1 ys => rw [mergeM, merge_nil_left]
  | case2 x xs => rw [mergeM, merge_nil_right]
  | case3 x xs y ys ih₁ ih₂ =>
    rw [mergeM, h y x (hy y List.mem_cons_self) (hx x List.mem_cons_self)]
    rcases le_or_gt (key x) (key y) with hle | hlt
    · rw [merge_cons_of_le hle, decide_eq_false hle.not_gt,
        ih₂ (fun a ha => hx a (List.mem_cons_of_mem x ha)) hy]
      rfl
    · rw [merge_cons_of_lt hlt, decide_eq_true hlt,
        ih₁ hx fun a ha => hy a (List.mem_cons_of_mem y ha)]
      rfl

private theorem forall_foldr_merge {lists : List (List α)} (hl : ∀ l ∈ lists, ∀ a ∈ l, S a) :
    ∀ a ∈ lists.foldr (merge key) [], S a := by
  induction lists with
  | nil => exact fun a ha => absurd ha List.not_mem_nil
  | cons xs rest ih =>
    intro a ha
    rcases List.mem_append.mp ((merge_perm key _ _).subset ha) with ha | ha
    · exact hl xs List.mem_cons_self a ha
    · exact ih (fun l hr => hl l (List.mem_cons_of_mem xs hr)) a ha

theorem mergeAllM_eq (h : OrderedBy less key S) {lists : List (List α)}
    (hl : ∀ l ∈ lists, ∀ a ∈ l, S a) :
    mergeAllM less lists = .ok (lists.foldr (merge key) []) := by
  induction lists with
  | nil => rfl
  | cons xs rest ih =>
    have hrest : ∀ l ∈ rest, ∀ a ∈ l, S a := fun l hr => hl l (List.mem_cons_of_mem xs hr)
    rw [mergeAllM, ih hrest]
    exact mergeM_eq h (hl xs List.mem_cons_self) (forall_foldr_merge hrest)

end StableSort

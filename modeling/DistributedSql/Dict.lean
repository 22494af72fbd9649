/-
Insertion-ordered dictionaries.

A library of its own: a finite map kept as the list of its items, as a Python `dict`
keeps them.  An item that is set again keeps its place.

Main results:
* `get?_set`, `get?_modify`, `get?_map`, `get?_erase`, `get?_update` — what a
  dictionary holds after each operation;
* `mem_items` — an item is in the list exactly when looking its key up gives it.
-/
import Mathlib

/-- A dictionary: its items in order of insertion, with no key twice. -/
structure Dict (κ ν : Type*) where
  items : List (κ × ν)
  nodup : (items.map Prod.fst).Nodup

namespace Dict

variable {κ ν : Type*} [DecidableEq κ]

def empty : Dict κ ν := ⟨[], List.nodup_nil⟩

def get? (d : Dict κ ν) (k : κ) : Option ν := d.items.lookup k

/-- Change every value, key by key. -/
def map (f : κ → ν → ν) (d : Dict κ ν) : Dict κ ν where
  items := d.items.map fun item => (item.1, f item.1 item.2)
  nodup := by
    rw [List.map_map]
    exact d.nodup

/-- Change the value of one key, if it is there. -/
def modify (d : Dict κ ν) (k : κ) (f : ν → ν) : Dict κ ν :=
  d.map fun k' v => if k' = k then f v else v

/-- `d[k] = v`. -/
def set (d : Dict κ ν) (k : κ) (v : ν) : Dict κ ν :=
  if h : k ∈ d.items.map Prod.fst then d.modify k fun _ => v
  else
    { items := d.items ++ [(k, v)]
      nodup := by
        rw [List.map_append, List.nodup_append]
        refine ⟨d.nodup, List.nodup_singleton k, ?_⟩
        rintro a ha _ (_ | ⟨_, ⟨⟩⟩) rfl
        exact h ha }

/-- `d.pop(k, None)`. -/
def erase (d : Dict κ ν) (k : κ) : Dict κ ν where
  items := d.items.filter fun item => item.1 ≠ k
  nodup := d.nodup.sublist (List.filter_sublist.map _)

/-- `d.update(items)`. -/
def update (d : Dict κ ν) (items : List (κ × ν)) : Dict κ ν :=
  items.foldl (fun d item => d.set item.1 item.2) d

def keys (d : Dict κ ν) : List κ := d.items.map Prod.fst

def values (d : Dict κ ν) : List ν := d.items.map Prod.snd

/-! ### Looking keys up -/

@[simp] theorem get?_empty (k : κ) : (empty : Dict κ ν).get? k = none := rfl

theorem mem_items {d : Dict κ ν} {k : κ} {v : ν} : (k, v) ∈ d.items ↔ d.get? k = some v := by
  obtain ⟨items, hnodup⟩ := d
  show _ ↔ items.lookup k = some v
  induction items with
  | nil => simp
  | cons item rest ih =>
    obtain ⟨k', v'⟩ := item
    obtain ⟨hnot, hrest⟩ := List.nodup_cons.mp hnodup
    rw [List.lookup_cons, List.mem_cons]
    by_cases hk : k = k'
    · subst hk
      have hno : (k, v) ∉ rest := fun h => hnot (List.mem_map.mpr ⟨_, h, rfl⟩)
      simp [hno, eq_comm]
    · rw [beq_false_of_ne hk]
      simp [hk, ih hrest]

theorem get?_eq_none {d : Dict κ ν} {k : κ} : d.get? k = none ↔ k ∉ d.keys := by
  rw [Option.eq_none_iff_forall_ne_some]
  constructor
  · intro h hk
    obtain ⟨⟨_, v⟩, hitem, rfl⟩ := List.mem_map.mp hk
    exact h v (mem_items.mp hitem)
  · exact fun h v hv => h (List.mem_map.mpr ⟨_, mem_items.mpr hv, rfl⟩)

@[simp] theorem get?_map (f : κ → ν → ν) (d : Dict κ ν) (k : κ) :
    (d.map f).get? k = (d.get? k).map (f k) := by
  ext v
  rw [← mem_items, Option.map_eq_some_iff]
  constructor
  · intro h
    obtain ⟨⟨_, w⟩, hitem, heq⟩ := List.mem_map.mp h
    cases heq
    exact ⟨w, mem_items.mp hitem, rfl⟩
  · rintro ⟨w, hw, rfl⟩
    exact List.mem_map.mpr ⟨(k, w), mem_items.mpr hw, rfl⟩

omit [DecidableEq κ] in
@[simp] theorem map_id (d : Dict κ ν) : d.map (fun _ v => v) = d := by
  obtain ⟨items, hnodup⟩ := d
  simp [map]

theorem get?_modify (d : Dict κ ν) (k k' : κ) (f : ν → ν) :
    (d.modify k f).get? k' = if k' = k then (d.get? k').map f else d.get? k' := by
  rw [modify, get?_map]
  split
  · rfl
  · exact Option.map_id'

theorem get?_set (d : Dict κ ν) (k k' : κ) (v : ν) :
    (d.set k v).get? k' = if k' = k then some v else d.get? k' := by
  unfold set
  split
  case isTrue h =>
    rw [get?_modify]
    by_cases hk : k' = k
    · obtain ⟨w, hw⟩ := Option.ne_none_iff_exists'.mp fun hnone => get?_eq_none.mp hnone (hk ▸ h)
      rw [if_pos hk, if_pos hk, hw, Option.map_some]
    · rw [if_neg hk, if_neg hk]
  case isFalse h =>
    have hnone : d.get? k = none := get?_eq_none.mpr h
    show (d.items ++ [(k, v)]).lookup k' = _
    rw [List.lookup_append]
    show (d.get? k').or _ = _
    by_cases hk : k' = k
    · rw [hk, hnone, if_pos rfl]
      simp
    · rw [if_neg hk]
      simp [List.lookup_cons, beq_false_of_ne hk]

theorem get?_erase (d : Dict κ ν) (k k' : κ) :
    (d.erase k).get? k' = if k' = k then none else d.get? k' := by
  ext v
  rw [← mem_items, erase, List.mem_filter, mem_items]
  by_cases hk : k' = k <;> simp [hk]

@[simp] theorem update_nil (d : Dict κ ν) : d.update [] = d := rfl

@[simp] theorem update_cons (d : Dict κ ν) (item : κ × ν) (items : List (κ × ν)) :
    d.update (item :: items) = (d.set item.1 item.2).update items := rfl

theorem get?_update_of_notMem {d : Dict κ ν} {items : List (κ × ν)} {k : κ}
    (h : k ∉ items.map Prod.fst) : (d.update items).get? k = d.get? k := by
  induction items generalizing d with
  | nil => rfl
  | cons item items ih =>
    rw [List.map_cons, List.mem_cons, not_or] at h
    rw [update_cons, ih h.2, get?_set, if_neg h.1]

theorem get?_update_of_mem {d : Dict κ ν} {items : List (κ × ν)} {k : κ} {v : ν}
    (hnodup : (items.map Prod.fst).Nodup) (h : (k, v) ∈ items) :
    (d.update items).get? k = some v := by
  induction items generalizing d with
  | nil => cases h
  | cons item items ih =>
    obtain ⟨hnot, hrest⟩ := List.nodup_cons.mp hnodup
    rw [update_cons]
    rcases List.mem_cons.mp h with rfl | h
    · rw [get?_update_of_notMem hnot, get?_set, if_pos rfl]
    · exact ih hrest h

/-- After an update the last item of a key counts, and what was there before it else. -/
theorem get?_update (d : Dict κ ν) (items : List (κ × ν)) (k : κ) :
    (d.update items).get? k = (items.reverse.lookup k).or (d.get? k) := by
  induction items generalizing d with
  | nil => rfl
  | cons item items ih =>
    rw [update_cons, ih, get?_set, List.reverse_cons, List.lookup_append, Option.or_assoc]
    congr 1
    obtain ⟨k', v⟩ := item
    by_cases hk : k = k'
    · rw [if_pos hk, hk]
      simp
    · rw [if_neg hk]
      simp [List.lookup_cons, beq_false_of_ne hk]

/-- Two dictionaries, the second counting first. -/
theorem get?_update_items (d d' : Dict κ ν) (k : κ) :
    (d.update d'.items).get? k = (d'.get? k).or (d.get? k) := by
  rw [get?_update]
  congr 1
  ext v
  have hreverse : (k, v) ∈ d'.items.reverse ↔ d'.items.reverse.lookup k = some v :=
    mem_items (d := ⟨d'.items.reverse, by
      rw [List.map_reverse]
      exact List.nodup_reverse.mpr d'.nodup⟩)
  rw [← hreverse, List.mem_reverse, mem_items]

/-- What is looked up after an update was there before it or is one of its items. -/
theorem mem_of_get?_update {d : Dict κ ν} {items : List (κ × ν)} {k : κ} {v : ν}
    (h : (d.update items).get? k = some v) : (k, v) ∈ items ∨ d.get? k = some v := by
  induction items generalizing d with
  | nil => exact Or.inr h
  | cons item items ih =>
    rcases ih h with h | h
    · exact Or.inl (List.mem_cons_of_mem item h)
    · rw [get?_set] at h
      split_ifs at h with hk
      · cases h
        subst hk
        exact Or.inl List.mem_cons_self
      · exact Or.inr h

theorem items_set_of_new {d : Dict κ ν} {k : κ} {v : ν} (h : d.get? k = none) :
    (d.set k v).items = d.items ++ [(k, v)] := by
  have hnot : k ∉ d.items.map Prod.fst := get?_eq_none.mp h
  unfold set
  rw [dif_neg hnot]

/-- New keys are added at the end. -/
theorem items_update_of_new {d : Dict κ ν} {items : List (κ × ν)}
    (hnodup : (items.map Prod.fst).Nodup) (h : ∀ item ∈ items, d.get? item.1 = none) :
    (d.update items).items = d.items ++ items := by
  induction items generalizing d with
  | nil => exact (List.append_nil _).symm
  | cons item items ih =>
    obtain ⟨hnot, hrest⟩ := List.nodup_cons.mp hnodup
    rw [update_cons, ih hrest, items_set_of_new (h item List.mem_cons_self), List.append_assoc]
    · rfl
    · intro other hother
      rw [get?_set, if_neg, h other (List.mem_cons_of_mem item hother)]
      rintro heq
      exact hnot (List.mem_map.mpr ⟨other, hother, heq⟩)

end Dict

/-
Lists grouped by a key.

A library of its own.  Keys are compared by a boolean relation `same`, as the keys of
a Python dict are by `==`.  `groups` collects the items of each key, in order of first
appearance; `runs` collects neighbours only, as one does in a sorted list; and
`distribute` puts what became of the groups back in the places of the items.

Main results:
* `groups_filter`, `runs_filter` — groups chosen by their keys are the groups of the
  items chosen by theirs;
* `groups_perm_runs` — the runs of the sorted items are the groups of the items;
* `forall₂_distribute` — replacing the members of the groups replaces the items, and
  `distribute_groups` — groups that are left as they are give the items back;
* `distribute_filter` — the chosen groups fill the places of the chosen items.
-/
import Mathlib

namespace Grouping

variable {κ α β : Type*}

/-! ### Definitions -/

/-- `groups.setdefault(key, []).append(x)`. -/
def push (same : κ → κ → Bool) (item : κ × α) : List (κ × List α) → List (κ × List α)
  | [] => [(item.1, [item.2])]
  | group :: rest =>
      if same group.1 item.1 then (group.1, group.2 ++ [item.2]) :: rest
      else group :: push same item rest

/-- The items of each key, under the first of the keys that are the same. -/
def groups (same : κ → κ → Bool) (items : List (κ × α)) : List (κ × List α) :=
  items.foldl (fun groups item => push same item groups) []

/-- The run that goes on, and those after it. -/
def runsFrom (same : κ → κ → Bool) (key : κ) (xs : List α) : List (κ × α) → List (κ × List α)
  | [] => [(key, xs)]
  | item :: rest =>
      if same item.1 key then runsFrom same key (xs ++ [item.2]) rest
      else (key, xs) :: runsFrom same item.1 [item.2] rest

/-- The items of each key, neighbours only. -/
def runs (same : κ → κ → Bool) : List (κ × α) → List (κ × List α)
  | [] => []
  | item :: rest => runsFrom same item.1 [item.2] rest

/-- The first member of the group of a key, `x` if it has none, and the groups without it. -/
def takeFrom (same : κ → κ → Bool) (key : κ) (x : α) :
    List (κ × List α) → Option (α × List (κ × List α))
  | [] => none
  | group :: rest =>
      if same group.1 key then some (group.2.headD x, (group.1, group.2.tail) :: rest)
      else (takeFrom same key x rest).map fun result => (result.1, group :: result.2)

/-- The members of groups in the places of the items they were collected from: an item's is
the next one of its group, which is one met before or else the next of those to come. -/
def distribute (same : κ → κ → Bool) :
    List (κ × α) → (opened coming : List (κ × List α)) → List α
  | [], _, _ => []
  | item :: rest, opened, coming =>
      match takeFrom same item.1 item.2 opened with
      | some (x, opened) => x :: distribute same rest opened coming
      | none =>
          match coming with
          | [] => item.2 :: distribute same rest opened []
          | group :: coming =>
              group.2.headD item.2
                :: distribute same rest (opened ++ [(group.1, group.2.tail)]) coming

variable {same : κ → κ → Bool} {p : κ → Bool} {K : κ → Prop}

/-! ### Choosing groups by their keys -/

/-- Keys of `K` that are the same are both chosen or both not. -/
def Respects (same : κ → κ → Bool) (K : κ → Prop) (p : κ → Bool) : Prop :=
  ∀ a b, K a → K b → same a b = true → p a = p b

theorem keys_push {item : κ × α} {groups : List (κ × List α)} (hitem : K item.1)
    (hgroups : ∀ group ∈ groups, K group.1) : ∀ group ∈ push same item groups, K group.1 := by
  induction groups with
  | nil => exact List.forall_mem_singleton.mpr hitem
  | cons group rest ih =>
    obtain ⟨hgroup, hrest⟩ := List.forall_mem_cons.mp hgroups
    rw [push]
    split
    · exact List.forall_mem_cons.mpr ⟨hgroup, hrest⟩
    · exact List.forall_mem_cons.mpr ⟨hgroup, ih hrest⟩

theorem push_filter (hp : Respects same K p) {item : κ × α} {groups : List (κ × List α)}
    (hitem : K item.1) (hgroups : ∀ group ∈ groups, K group.1) :
    (push same item groups).filter (fun group => p group.1)
      = if p item.1 then push same item (groups.filter fun group => p group.1)
        else groups.filter fun group => p group.1 := by
  induction groups with
  | nil => by_cases h : p item.1 <;> simp [push, h]
  | cons group rest ih =>
    obtain ⟨hgroup, hrest⟩ := List.forall_mem_cons.mp hgroups
    rw [push]
    by_cases hsame : same group.1 item.1 = true
    · have hpp := hp group.1 item.1 hgroup hitem hsame
      rw [if_pos hsame, List.filter_cons, List.filter_cons]
      by_cases h : p item.1 = true
      · rw [if_pos (by rw [hpp, h]), if_pos h, if_pos (by rw [hpp, h]), push, if_pos hsame]
      · rw [if_neg (by rwa [hpp]), if_neg h, if_neg (by rwa [hpp])]
    · rw [if_neg hsame, List.filter_cons, List.filter_cons, ih hrest]
      by_cases hg : p group.1 = true
      · rw [if_pos hg, if_pos hg]
        by_cases h : p item.1 = true
        · rw [if_pos h, if_pos h, push, if_neg hsame]
        · rw [if_neg h, if_neg h]
      · rw [if_neg hg, if_neg hg]

private theorem foldl_push_filter (hp : Respects same K p) {items : List (κ × α)}
    (hitems : ∀ item ∈ items, K item.1) {start : List (κ × List α)}
    (hstart : ∀ group ∈ start, K group.1) :
    (items.foldl (fun groups item => push same item groups) start).filter (fun group => p group.1)
      = (items.filter fun item => p item.1).foldl (fun groups item => push same item groups)
          (start.filter fun group => p group.1) := by
  induction items generalizing start with
  | nil => rfl
  | cons item rest ih =>
    obtain ⟨hitem, hrest⟩ := List.forall_mem_cons.mp hitems
    rw [List.foldl_cons, ih hrest (keys_push hitem hstart), push_filter hp hitem hstart,
      List.filter_cons]
    by_cases h : p item.1 = true
    · rw [if_pos h, if_pos h, List.foldl_cons]
    · rw [if_neg h, if_neg h]

/-- The keys of the groups are keys of items. -/
theorem keys_of_mem_groups {items : List (κ × α)} (hitems : ∀ item ∈ items, K item.1) :
    ∀ group ∈ groups same items, K group.1 := by
  have hfold : ∀ (rest : List (κ × α)) (start : List (κ × List α)), (∀ item ∈ rest, K item.1) →
      (∀ group ∈ start, K group.1) →
      ∀ group ∈ rest.foldl (fun groups item => push same item groups) start, K group.1 := by
    intro rest
    induction rest with
    | nil => exact fun _ _ hstart => hstart
    | cons item rest ih =>
      intro start hrest hstart
      obtain ⟨hitem, hrest⟩ := List.forall_mem_cons.mp hrest
      exact ih _ hrest (keys_push hitem hstart)
  exact hfold items [] hitems fun _ h => absurd h List.not_mem_nil

private theorem exists_key_push (item : κ × α) (groups : List (κ × List α)) :
    (∃ group ∈ push same item groups, group.1 = item.1 ∨ same group.1 item.1 = true) ∧
      ∀ group ∈ groups, ∃ group' ∈ push same item groups, group'.1 = group.1 := by
  induction groups with
  | nil => exact ⟨⟨_, List.mem_cons_self, Or.inl rfl⟩, fun _ h => absurd h List.not_mem_nil⟩
  | cons first rest ih =>
    rw [push]
    by_cases hsame : same first.1 item.1 = true
    · rw [if_pos hsame]
      refine ⟨⟨_, List.mem_cons_self, Or.inr hsame⟩, fun group hgroup => ?_⟩
      rcases List.mem_cons.mp hgroup with rfl | hgroup
      · exact ⟨_, List.mem_cons_self, rfl⟩
      · exact ⟨group, List.mem_cons_of_mem _ hgroup, rfl⟩
    · rw [if_neg hsame]
      obtain ⟨⟨found, hfound, hkey⟩, hkept⟩ := ih
      refine ⟨⟨found, List.mem_cons_of_mem _ hfound, hkey⟩, fun group hgroup => ?_⟩
      rcases List.mem_cons.mp hgroup with rfl | hgroup
      · exact ⟨_, List.mem_cons_self, rfl⟩
      · obtain ⟨group', hgroup', hkey'⟩ := hkept group hgroup
        exact ⟨group', List.mem_cons_of_mem _ hgroup', hkey'⟩

/-- Every item has a group. -/
theorem exists_group {items : List (κ × α)} : ∀ item ∈ items,
    ∃ group ∈ groups same items, group.1 = item.1 ∨ same group.1 item.1 = true := by
  induction items using List.reverseRecOn with
  | nil => exact fun _ h => absurd h List.not_mem_nil
  | append_singleton items last ih =>
    rw [groups, List.foldl_append, List.foldl_cons, List.foldl_nil, ← groups]
    obtain ⟨hlast, hkept⟩ := exists_key_push last (groups same items)
    intro item hitem
    rcases List.mem_append.mp hitem with hitem | hitem
    · obtain ⟨group, hgroup, hkey⟩ := ih item hitem
      obtain ⟨group', hgroup', hkey'⟩ := hkept group hgroup
      exact ⟨group', hgroup', by rwa [hkey']⟩
    · exact List.mem_singleton.mp hitem ▸ hlast

/-- The groups chosen by their keys are those of the items chosen by theirs. -/
theorem groups_filter (hp : Respects same K p) {items : List (κ × α)}
    (hitems : ∀ item ∈ items, K item.1) :
    groups same (items.filter fun item => p item.1)
      = (groups same items).filter fun group => p group.1 :=
  (foldl_push_filter hp hitems fun _ h => absurd h List.not_mem_nil).symm

/-! ### Runs of a sorted list -/

/-- The run that goes on keeps what it has. -/
theorem runsFrom_eq (same : κ → κ → Bool) (key : κ) (xs : List α) (items : List (κ × α)) :
    ∃ more later, runsFrom same key xs items = (key, xs ++ more) :: later := by
  induction items generalizing xs with
  | nil => exact ⟨[], [], by rw [runsFrom, List.append_nil]⟩
  | cons item rest ih =>
    rw [runsFrom]
    split
    · obtain ⟨more, later, h⟩ := ih (xs ++ [item.2])
      exact ⟨item.2 :: more, later, by rw [h, List.append_assoc, List.singleton_append]⟩
    · exact ⟨[], _, by rw [List.append_nil]⟩

private theorem key_of_mem_runsFrom {key : κ} {xs : List α} {items : List (κ × α)}
    {run : κ × List α} (h : run ∈ runsFrom same key xs items) :
    run.1 = key ∨ ∃ item ∈ items, item.1 = run.1 := by
  induction items generalizing key xs with
  | nil => exact Or.inl (congrArg Prod.fst (List.mem_singleton.mp h))
  | cons item rest ih =>
    rw [runsFrom] at h
    split at h
    · rcases ih h with hkey | ⟨other, hother, hkey⟩
      · exact Or.inl hkey
      · exact Or.inr ⟨other, List.mem_cons_of_mem _ hother, hkey⟩
    · rcases List.mem_cons.mp h with rfl | h
      · exact Or.inl rfl
      · rcases ih h with hkey | ⟨other, hother, hkey⟩
        · exact Or.inr ⟨item, List.mem_cons_self, hkey.symm⟩
        · exact Or.inr ⟨other, List.mem_cons_of_mem _ hother, hkey⟩

/-- The key of a run is that of an item. -/
theorem key_of_mem_runs {items : List (κ × α)} {run : κ × List α} (h : run ∈ runs same items) :
    ∃ item ∈ items, item.1 = run.1 := by
  cases items with
  | nil => exact absurd h List.not_mem_nil
  | cons item rest =>
    rcases key_of_mem_runsFrom h with hkey | ⟨other, hother, hkey⟩
    · exact ⟨item, List.mem_cons_self, hkey.symm⟩
    · exact ⟨other, List.mem_cons_of_mem _ hother, hkey⟩

section Sorted

variable {ι : Type*} [LinearOrder ι] {rank : κ → ι}

private theorem runsFrom_of_lt (hsame : ∀ a b, K a → K b → (same a b = true ↔ rank a = rank b))
    {key : κ} (hkey : K key) (xs : List α) {items : List (κ × α)}
    (hitems : ∀ item ∈ items, K item.1) (hlt : ∀ item ∈ items, rank key < rank item.1) :
    runsFrom same key xs items = (key, xs) :: runs same items := by
  cases items with
  | nil => rfl
  | cons item rest =>
    have hne : ¬same item.1 key = true := by
      rw [hsame _ _ (hitems item List.mem_cons_self) hkey]
      exact (hlt item List.mem_cons_self).ne'
    rw [runsFrom, if_neg hne, runs]

private theorem runsFrom_filter
    (hsame : ∀ a b, K a → K b → (same a b = true ↔ rank a = rank b)) (hp : Respects same K p)
    {key : κ} (hkey : K key) (xs : List α) {items : List (κ × α)}
    (hitems : ∀ item ∈ items, K item.1) (hle : ∀ item ∈ items, rank key ≤ rank item.1)
    (hsorted : items.Pairwise fun a b => rank a.1 ≤ rank b.1) :
    (runsFrom same key xs items).filter (fun group => p group.1)
      = if p key then runsFrom same key xs (items.filter fun item => p item.1)
        else runs same (items.filter fun item => p item.1) := by
  induction items generalizing key xs with
  | nil => by_cases h : p key <;> simp [runsFrom, runs, h]
  | cons item rest ih =>
    obtain ⟨hitem, hrest⟩ := List.forall_mem_cons.mp hitems
    obtain ⟨hfirst, htail⟩ := List.forall_mem_cons.mp hle
    obtain ⟨hbefore, hsorted⟩ := List.pairwise_cons.mp hsorted
    rw [runsFrom, List.filter_cons]
    by_cases heq : same item.1 key = true
    · -- the run goes on, and the item is chosen if the run is
      rw [if_pos heq, ih hkey _ hrest htail hsorted, hp item.1 key hitem hkey heq]
      by_cases h : p key = true
      · rw [if_pos h, if_pos h, if_pos h, runsFrom, if_pos heq]
      · rw [if_neg h, if_neg h, if_neg h]
    · -- a new run begins, and no later item belongs to the old one
      have hlt : rank key < rank item.1 := by
        refine lt_of_le_of_ne hfirst fun h => heq ?_
        rw [hsame _ _ hitem hkey]
        exact h.symm
      rw [if_neg heq, List.filter_cons, ih hitem _ hrest hbefore hsorted]
      have hnext : (if p item.1 = true then
            runsFrom same item.1 [item.2] (rest.filter fun item => p item.1)
          else runs same (rest.filter fun item => p item.1))
          = runs same (if p item.1 = true then item :: rest.filter fun item => p item.1
              else rest.filter fun item => p item.1) := by
        by_cases h : p item.1 = true
        · rw [if_pos h, if_pos h, runs]
        · rw [if_neg h, if_neg h]
      rw [hnext]
      by_cases h : p key = true
      · rw [if_pos h, if_pos h]
        refine (runsFrom_of_lt hsame hkey xs ?_ ?_).symm
        · split
          · exact List.forall_mem_cons.mpr ⟨hitem, fun b hb => hrest b (List.mem_of_mem_filter hb)⟩
          · exact fun b hb => hrest b (List.mem_of_mem_filter hb)
        · have hlater : ∀ b ∈ rest.filter fun item => p item.1, rank key < rank b.1 :=
            fun b hb => lt_of_lt_of_le hlt (hbefore b (List.mem_of_mem_filter hb))
          split
          · exact List.forall_mem_cons.mpr ⟨hlt, hlater⟩
          · exact hlater
      · rw [if_neg h, if_neg h]

/-- In a sorted list, the runs chosen by their keys are those of the items chosen by theirs. -/
theorem runs_filter (hsame : ∀ a b, K a → K b → (same a b = true ↔ rank a = rank b))
    (hp : Respects same K p) {items : List (κ × α)} (hitems : ∀ item ∈ items, K item.1)
    (hsorted : items.Pairwise fun a b => rank a.1 ≤ rank b.1) :
    runs same (items.filter fun item => p item.1)
      = (runs same items).filter fun group => p group.1 := by
  cases items with
  | nil => rfl
  | cons item rest =>
    obtain ⟨hitem, hrest⟩ := List.forall_mem_cons.mp hitems
    obtain ⟨hbefore, hsorted⟩ := List.pairwise_cons.mp hsorted
    rw [runs, runsFrom_filter hsame hp hitem _ hrest hbefore hsorted, List.filter_cons]
    by_cases h : p item.1 = true
    · rw [if_pos h, if_pos h, runs]
    · rw [if_neg h, if_neg h]

end Sorted

/-! ### The runs of the sorted items -/

/-- Items that are all of one group. -/
theorem foldl_push_of_same {key : κ} (xs : List α) {items : List (κ × α)}
    (h : ∀ item ∈ items, same key item.1 = true) :
    items.foldl (fun groups item => push same item groups) [(key, xs)]
      = [(key, xs ++ items.map Prod.snd)] := by
  induction items generalizing xs with
  | nil => rw [List.map_nil, List.append_nil, List.foldl_nil]
  | cons item rest ih =>
    obtain ⟨hitem, hrest⟩ := List.forall_mem_cons.mp h
    rw [List.foldl_cons, push, if_pos hitem, ih _ hrest, List.map_cons, List.append_assoc,
      List.singleton_append]

theorem runsFrom_of_same {key : κ} (xs : List α) {items : List (κ × α)}
    (h : ∀ item ∈ items, same item.1 key = true) :
    runsFrom same key xs items = [(key, xs ++ items.map Prod.snd)] := by
  induction items generalizing xs with
  | nil => rw [runsFrom, List.map_nil, List.append_nil]
  | cons item rest ih =>
    obtain ⟨hitem, hrest⟩ := List.forall_mem_cons.mp h
    rw [runsFrom, if_pos hitem, ih _ hrest, List.map_cons, List.append_assoc,
      List.singleton_append]

/-- Items of one group are one run. -/
theorem groups_eq_runs_of_same {items : List (κ × α)}
    (h : ∀ a ∈ items, ∀ b ∈ items, same a.1 b.1 = true) : groups same items = runs same items := by
  cases items with
  | nil => rfl
  | cons item rest =>
    rw [groups, List.foldl_cons, push, runs,
      foldl_push_of_same _ fun b hb => h item List.mem_cons_self b (List.mem_cons_of_mem _ hb),
      runsFrom_of_same _ fun b hb => h b (List.mem_cons_of_mem _ hb) item List.mem_cons_self]

/-- Two lists of groups that hold the same groups for every key. -/
theorem perm_of_filter (hrefl : ∀ key, K key → same key key = true) {left right : List (κ × List α)}
    (hleft : ∀ group ∈ left, K group.1) (hright : ∀ group ∈ right, K group.1)
    (h : ∀ key, K key → left.filter (fun group => same key group.1)
      = right.filter fun group => same key group.1) : left.Perm right := by
  classical
  refine List.perm_iff_count.mpr fun group => ?_
  by_cases hkey : K group.1
  · have hcount : ∀ l : List (κ × List α),
        l.count group = (l.filter fun other => same group.1 other.1).count group :=
      fun _ => (List.count_filter (p := fun other : κ × List α => same group.1 other.1)
        (hrefl _ hkey)).symm
    rw [hcount left, hcount right, h _ hkey]
  · rw [List.count_eq_zero_of_not_mem fun hmem => hkey (hleft group hmem),
      List.count_eq_zero_of_not_mem fun hmem => hkey (hright group hmem)]

/-- The runs of the sorted items are the groups of the items, where sorting keeps the order
of the items with one key. -/
theorem groups_perm_runs {ι : Type*} [LinearOrder ι] {rank : κ → ι}
    (hsame : ∀ a b, K a → K b → (same a b = true ↔ rank a = rank b))
    {items sorted : List (κ × α)} (hitems : ∀ item ∈ items, K item.1) (hperm : sorted.Perm items)
    (hsorted : sorted.Pairwise fun a b => rank a.1 ≤ rank b.1)
    (hstable : ∀ key, K key → sorted.filter (fun item => same key item.1)
      = items.filter fun item => same key item.1) :
    (groups same items).Perm (runs same sorted) := by
  have hsortedItems : ∀ item ∈ sorted, K item.1 := fun item hitem =>
    hitems item (hperm.subset hitem)
  refine perm_of_filter (fun key hkey => (hsame key key hkey hkey).mpr rfl)
    (keys_of_mem_groups hitems) (fun group hgroup => ?_) fun key hkey => ?_
  · obtain ⟨item, hitem, hkey⟩ := key_of_mem_runs hgroup
    exact hkey ▸ hsortedItems item hitem
  · have hrespects : Respects same K (same key) := by
      intro a b ha hb hab
      rw [Bool.eq_iff_iff, hsame key a hkey ha, hsame key b hkey hb, (hsame a b ha hb).mp hab]
    rw [← groups_filter hrespects hitems, ← runs_filter hsame hrespects hsortedItems hsorted,
      hstable key hkey]
    refine groups_eq_runs_of_same fun a ha b hb => ?_
    obtain ⟨ha, hka⟩ := List.mem_filter.mp ha
    obtain ⟨hb, hkb⟩ := List.mem_filter.mp hb
    rw [hsame _ _ (hitems a ha) (hitems b hb), ← (hsame _ _ hkey (hitems a ha)).mp hka,
      (hsame _ _ hkey (hitems b hb)).mp hkb]

/-! ### Putting groups back -/

/-- The keys that open a group, after those that have opened one. -/
def newKeys (same : κ → κ → Bool) : List κ → List (κ × α) → List κ
  | _, [] => []
  | opened, item :: rest =>
      if opened.any fun key => same key item.1 then newKeys same opened rest
      else item.1 :: newKeys same (opened ++ [item.1]) rest

theorem takeFrom_eq_none {key : κ} {x : α} {groups : List (κ × List α)} :
    takeFrom same key x groups = none ↔ (groups.map Prod.fst).any (fun k => same k key) = false := by
  induction groups with
  | nil => exact iff_of_true rfl rfl
  | cons group rest ih =>
    rw [takeFrom, List.map_cons, List.any_cons]
    by_cases hsame : same group.1 key = true
    · simp [hsame]
    · rw [if_neg hsame, Option.map_eq_none_iff, ih, Bool.eq_false_iff.mpr hsame, Bool.false_or]

theorem keys_takeFrom {key : κ} {groups groups' : List (κ × List α)} {x y : α}
    (h : takeFrom same key x groups = some (y, groups')) :
    groups'.map Prod.fst = groups.map Prod.fst := by
  induction groups generalizing groups' with
  | nil => cases h
  | cons group rest ih =>
    rw [takeFrom] at h
    split at h
    · cases h
      rfl
    · obtain ⟨result, hresult, heq⟩ := Option.map_eq_some_iff.mp h
      cases heq
      rw [List.map_cons, List.map_cons, ih hresult]

theorem takeFrom_filter (hp : Respects same K p) {key : κ} (hkey : K key) (hchosen : p key = true)
    (x : α) {groups : List (κ × List α)} (hgroups : ∀ group ∈ groups, K group.1) :
    takeFrom same key x (groups.filter fun group => p group.1)
      = (takeFrom same key x groups).map fun result =>
          (result.1, result.2.filter fun group => p group.1) := by
  induction groups with
  | nil => rfl
  | cons group rest ih =>
    obtain ⟨hgroup, hrest⟩ := List.forall_mem_cons.mp hgroups
    rw [List.filter_cons, takeFrom]
    by_cases hsame : same group.1 key = true
    · have hg : p group.1 = true := (hp group.1 key hgroup hkey hsame).trans hchosen
      rw [if_pos hg, if_pos hsame, takeFrom, if_pos hsame]
      simp [hg]
    · rw [if_neg hsame]
      by_cases hg : p group.1 = true
      · rw [if_pos hg, takeFrom, if_neg hsame, ih hrest]
        cases takeFrom same key x rest <;> simp [hg]
      · rw [if_neg hg, ih hrest]
        cases takeFrom same key x rest <;> simp [hg]

/-- What is taken for a key that is not chosen is from a group that is not. -/
theorem filter_takeFrom (hp : Respects same K p) {key : κ} (hkey : K key) (hchosen : p key = false)
    {groups groups' : List (κ × List α)} {x y : α} (hgroups : ∀ group ∈ groups, K group.1)
    (h : takeFrom same key x groups = some (y, groups')) :
    groups'.filter (fun group => p group.1) = groups.filter fun group => p group.1 := by
  induction groups generalizing groups' with
  | nil => cases h
  | cons group rest ih =>
    obtain ⟨hgroup, hrest⟩ := List.forall_mem_cons.mp hgroups
    rw [takeFrom] at h
    by_cases hsame : same group.1 key = true
    · have hg : ¬p group.1 = true := by
        rw [hp group.1 key hgroup hkey hsame, hchosen]
        exact Bool.false_ne_true
      rw [if_pos hsame] at h
      cases h
      rw [List.filter_cons, List.filter_cons, if_neg hg, if_neg hg]
    · rw [if_neg hsame] at h
      obtain ⟨result, hresult, heq⟩ := Option.map_eq_some_iff.mp h
      cases heq
      rw [List.filter_cons, List.filter_cons, ih hrest hresult]

/-- An item whose group was met before. -/
theorem distribute_some {item : κ × α} {rest : List (κ × α)} {opened opened' : List (κ × List α)}
    {x : α} (h : takeFrom same item.1 item.2 opened = some (x, opened'))
    (coming : List (κ × List α)) :
    distribute same (item :: rest) opened coming = x :: distribute same rest opened' coming := by
  rw [distribute.eq_def]
  simp only [h]

/-- An item that opens the next group. -/
theorem distribute_none {item : κ × α} {rest : List (κ × α)} {opened coming : List (κ × List α)}
    (h : takeFrom same item.1 item.2 opened = none) (group : κ × List α) :
    distribute same (item :: rest) opened (group :: coming)
      = group.2.headD item.2
        :: distribute same rest (opened ++ [(group.1, group.2.tail)]) coming := by
  rw [distribute.eq_def]
  simp only [h]

/-- The members of the chosen groups are in the places of the chosen items. -/
theorem distribute_filter (hp : Respects same K p) {items : List (κ × α)}
    (hitems : ∀ item ∈ items, K item.1) {opened coming : List (κ × List α)}
    (hopened : ∀ group ∈ opened, K group.1)
    (hcoming : coming.map Prod.fst = newKeys same (opened.map Prod.fst) items) :
    distribute same (items.filter fun item => p item.1) (opened.filter fun group => p group.1)
        (coming.filter fun group => p group.1)
      = ((items.zip (distribute same items opened coming)).filter fun pair => p pair.1.1).map
          Prod.snd := by
  induction items generalizing opened coming with
  | nil => rfl
  | cons item rest ih =>
    obtain ⟨hitem, hrest⟩ := List.forall_mem_cons.mp hitems
    rw [newKeys] at hcoming
    cases htake : takeFrom same item.1 item.2 opened with
    | some result =>
      -- the item's group was met before
      obtain ⟨x, opened'⟩ := result
      have hkeys := keys_takeFrom htake
      have hany : (opened.map Prod.fst).any (fun k => same k item.1) = true := by
        rw [← Bool.not_eq_false, ← takeFrom_eq_none (x := item.2), htake]
        exact Option.some_ne_none _
      rw [if_pos hany, ← hkeys] at hcoming
      have hopened' : ∀ group ∈ opened', K group.1 := by
        intro group hgroup
        obtain ⟨other, hother, heq⟩ :=
          List.mem_map.mp (hkeys ▸ List.mem_map_of_mem (f := Prod.fst) hgroup)
        exact heq ▸ hopened other hother
      rw [distribute_some htake, List.filter_cons, List.zip_cons_cons, List.filter_cons]
      by_cases h : p item.1 = true
      · have htake' := takeFrom_filter hp hitem h item.2 hopened
        rw [htake] at htake'
        rw [if_pos h, if_pos h, distribute_some htake', List.map_cons, ← ih hrest hopened' hcoming]
      · rw [if_neg h, if_neg h, ← ih hrest hopened' hcoming,
          filter_takeFrom hp hitem (Bool.eq_false_iff.mpr h) hopened htake]
    | none =>
      -- the item opens the next group to come
      rw [if_neg (by rw [takeFrom_eq_none.mp htake]; exact Bool.false_ne_true)] at hcoming
      cases coming with
      | nil => cases hcoming
      | cons group coming =>
        obtain ⟨hkey, hcoming⟩ := List.cons_eq_cons.mp hcoming
        have hopened' : ∀ g ∈ opened ++ [(group.1, group.2.tail)], K g.1 := by
          rw [List.forall_mem_append, List.forall_mem_singleton]
          exact ⟨hopened, by rw [hkey]; exact hitem⟩
        have hnext := ih hrest hopened' (by rw [hcoming, List.map_append, ← hkey]; rfl)
        rw [List.filter_append, List.filter_singleton] at hnext
        rw [distribute_none htake, List.filter_cons, List.filter_cons, List.zip_cons_cons,
          List.filter_cons, hkey]
        by_cases h : p item.1 = true
        · have htake' := takeFrom_filter hp hitem h item.2 hopened
          rw [htake] at htake'
          rw [hkey, h, cond_true] at hnext
          rw [if_pos h, if_pos h, if_pos h, distribute_none htake', List.map_cons, ← hnext, hkey]
        · rw [hkey, Bool.eq_false_iff.mpr h, cond_false, List.append_nil] at hnext
          rw [if_neg h, if_neg h, if_neg h, ← hnext]

/-- The elements whose keys are chosen. -/
def chosen (p : κ → Bool) (keys : List κ) (xs : List α) : List α :=
  ((keys.zip xs).filter fun item => p item.1).map Prod.snd

theorem filter_zip_zip (p : κ → Bool) {keys : List κ} {xs : List α} (h : xs.length = keys.length)
    (ys : List β) :
    (((keys.zip xs).zip ys).filter fun item => p item.1.1).map Prod.snd = chosen p keys ys := by
  induction keys generalizing xs ys with
  | nil => rfl
  | cons key keys ih =>
    cases xs with
    | nil => cases h
    | cons x xs =>
      cases ys with
      | nil => rfl
      | cons y ys =>
        have hrest := ih (Nat.succ.inj h) ys
        rw [chosen] at hrest ⊢
        rw [List.zip_cons_cons, List.zip_cons_cons, List.zip_cons_cons, List.filter_cons,
          List.filter_cons]
        split
        · rw [List.map_cons, List.map_cons, hrest]
        · exact hrest

/-- Choosing by keys that are computed from other elements at the same places. -/
theorem chosen_map (p : κ → Bool) (f : β → κ) (xs : List α) (ys : List β) :
    chosen p (ys.map f) xs = chosen (fun y => p (f y)) ys xs := by
  rw [chosen, List.zip_map_left, List.filter_map, List.map_map, chosen]
  rfl

theorem chosen_congr {p q : κ → Bool} {keys : List κ} (h : ∀ key ∈ keys, p key = q key)
    (xs : List α) : chosen p keys xs = chosen q keys xs :=
  congrArg (List.map Prod.snd) (List.filter_congr fun item hitem =>
    h item.1 (List.of_mem_zip hitem).1)

theorem map_chosen (p : κ → Bool) (f : α → β) (keys : List κ) (xs : List α) :
    (chosen p keys xs).map f = chosen p keys (xs.map f) := by
  rw [chosen, chosen, List.zip_map_right, List.filter_map, List.map_map, List.map_map]
  rfl

theorem chosen_self (p : α → Bool) (xs : List α) : chosen p xs xs = xs.filter p := by
  rw [chosen]
  induction xs with
  | nil => rfl
  | cons x xs ih =>
    rw [List.zip_cons_cons, List.filter_cons, List.filter_cons]
    split
    · rw [List.map_cons, ih]
    · exact ih

theorem chosen_true {keys : List κ} {xs : List α} (h : xs.length = keys.length) :
    chosen (fun _ => true) keys xs = xs := by
  rw [chosen, List.filter_true]
  exact List.map_snd_zip h.le

/-! ### Every item gets what became of it -/

/-- Groups with more members at the front of the first ones. -/
private def prepend : List (List α) → List (κ × List α) → List (κ × List α)
  | [], groups => groups
  | _ :: _, [] => []
  | xs :: more, group :: rest => (group.1, xs ++ group.2) :: prepend more rest

/-- The groups of some keys, without members yet. -/
private def empties (keys : List κ) : List (κ × List α) := keys.map fun key => (key, [])

/-- The one new member of the groups of these keys. -/
private def mark (same : κ → κ → Bool) (item : κ × α) : List κ → List (List α)
  | [] => [[item.2]]
  | key :: rest =>
      if same key item.1 then [[item.2]] else [] :: mark same item rest

private theorem length_push (item : κ × α) (groups : List (κ × List α)) :
    groups.length ≤ (push same item groups).length := by
  induction groups with
  | nil => exact Nat.zero_le _
  | cons group rest ih =>
    rw [push]
    split
    · exact le_rfl
    · exact Nat.succ_le_succ ih

private theorem length_foldl_push (same : κ → κ → Bool) (items : List (κ × α))
    (groups : List (κ × List α)) :
    groups.length ≤ (items.foldl (fun groups item => push same item groups) groups).length := by
  induction items generalizing groups with
  | nil => exact le_rfl
  | cons item rest ih => exact (length_push item groups).trans (ih _)

private theorem push_prepend (item : κ × α) {more : List (List α)} {groups : List (κ × List α)}
    (h : more.length ≤ groups.length) :
    push same item (prepend more groups) = prepend more (push same item groups) := by
  induction groups generalizing more with
  | nil =>
    rw [List.eq_nil_of_length_eq_zero (Nat.le_zero.mp h)]
    rfl
  | cons group rest ih =>
    cases more with
    | nil => rfl
    | cons xs more =>
      rw [prepend, push, push]
      split
      · rw [prepend, List.append_assoc]
      · rw [prepend, ih (Nat.le_of_succ_le_succ h)]

private theorem foldl_push_prepend (items : List (κ × α)) {more : List (List α)}
    {groups : List (κ × List α)} (h : more.length ≤ groups.length) :
    items.foldl (fun groups item => push same item groups) (prepend more groups)
      = prepend more (items.foldl (fun groups item => push same item groups) groups) := by
  induction items generalizing groups with
  | nil => rfl
  | cons item rest ih =>
    rw [List.foldl_cons, push_prepend item h, ih (h.trans (length_push item groups)),
      List.foldl_cons]

/-- The keys of the groups met once an item has found its group. -/
private def meet (same : κ → κ → Bool) (item : κ × α) (keys : List κ) : List κ :=
  if keys.any fun key => same key item.1 then keys else keys ++ [item.1]

private theorem push_empties (item : κ × α) (keys : List κ) :
    push same item (empties keys) = prepend (mark same item keys) (empties (meet same item keys)) := by
  induction keys with
  | nil => rfl
  | cons key rest ih =>
    rw [empties, List.map_cons, ← empties, push, mark, meet, List.any_cons]
    by_cases h : same key item.1 = true
    · rw [if_pos h, if_pos h, h, Bool.true_or, if_pos rfl]
      rfl
    · rw [if_neg h, if_neg h, ih, Bool.eq_false_iff.mpr h, Bool.false_or, meet]
      split <;> rfl

private theorem length_mark (same : κ → κ → Bool) (item : κ × α) (keys : List κ) :
    (mark same item keys).length ≤ (@empties κ α (meet same item keys)).length := by
  induction keys with
  | nil => exact le_rfl
  | cons key rest ih =>
    rw [mark, meet, List.any_cons]
    by_cases h : same key item.1 = true
    · rw [if_pos h, h, Bool.true_or, if_pos rfl]
      exact Nat.succ_le_succ (Nat.zero_le _)
    · rw [if_neg h, Bool.eq_false_iff.mpr h, Bool.false_or]
      rw [meet] at ih
      split at ih
      · next hany =>
        rw [if_pos hany]
        exact Nat.succ_le_succ ih
      · next hany =>
        rw [if_neg hany]
        exact Nat.succ_le_succ ih

theorem keys_foldl_push (items : List (κ × α)) (start : List (κ × List α)) :
    (items.foldl (fun groups item => push same item groups) start).map Prod.fst
      = start.map Prod.fst ++ newKeys same (start.map Prod.fst) items := by
  have hpush : ∀ (item : κ × α) (groups : List (κ × List α)),
      (push same item groups).map Prod.fst = meet same item (groups.map Prod.fst) := by
    intro item groups
    induction groups with
    | nil => rfl
    | cons group rest ih =>
      rw [push, meet, List.map_cons, List.any_cons]
      by_cases h : same group.1 item.1 = true
      · rw [if_pos h, h, Bool.true_or, if_pos rfl]
        rfl
      · rw [if_neg h, Bool.eq_false_iff.mpr h, Bool.false_or, List.map_cons, ih, meet]
        split <;> rfl
  induction items generalizing start with
  | nil => exact (List.append_nil _).symm
  | cons item rest ih =>
    rw [List.foldl_cons, ih, hpush, newKeys, meet]
    split
    · rfl
    · rw [List.append_assoc]
      rfl

/-- The keys of the groups are those that open one. -/
theorem keys_groups (items : List (κ × α)) :
    (groups same items).map Prod.fst = newKeys same [] items := keys_foldl_push items []

/-- One group is the other with its members replaced by related ones. -/
def Replaced (R : α → α → Prop) (group group' : κ × List α) : Prop :=
  group.1 = group'.1 ∧ List.Forall₂ R group.2 group'.2

variable {R : α → α → Prop}

theorem keys_replaced {groups groups' : List (κ × List α)}
    (h : List.Forall₂ (Replaced R) groups groups') :
    groups.map Prod.fst = groups'.map Prod.fst := by
  induction h with
  | nil => rfl
  | cons hgroup _ ih => rw [List.map_cons, List.map_cons, ih, hgroup.1]

private theorem keys_empties (keys : List κ) : (empties (α := α) keys).map Prod.fst = keys := by
  rw [empties, List.map_map]
  exact List.map_id keys

private theorem takeFrom_replaced {item : κ × α} {opened opened' coming F : List (κ × List α)}
    {x : α} (h : List.Forall₂ (Replaced R) (prepend (mark same item (opened.map Prod.fst)) F)
      (opened ++ coming)) (htake : takeFrom same item.1 item.2 opened = some (x, opened')) :
    R item.2 x ∧ List.Forall₂ (Replaced R) F (opened' ++ coming) := by
  induction opened generalizing F opened' with
  | nil => cases htake
  | cons group rest ih =>
    rw [takeFrom] at htake
    rw [List.map_cons, mark] at h
    cases F with
    | nil => split at h <;> cases h
    | cons first F =>
      by_cases hsame : same group.1 item.1 = true
      · rw [if_pos hsame] at htake h
        cases htake
        obtain ⟨⟨hkey, hmembers⟩, hrest⟩ := List.forall₂_cons.mp h
        obtain ⟨y, ys, hR, hys, hgroup⟩ := List.forall₂_cons_left_iff.mp hmembers
        rw [hgroup]
        exact ⟨hR, .cons ⟨hkey, hys⟩ hrest⟩
      · rw [if_neg hsame] at htake h
        obtain ⟨result, hresult, heq⟩ := Option.map_eq_some_iff.mp htake
        cases heq
        obtain ⟨hfirst, hrest⟩ := List.forall₂_cons.mp h
        obtain ⟨hR, hall⟩ := ih hrest hresult
        exact ⟨hR, .cons hfirst hall⟩

private theorem coming_replaced {item : κ × α} {opened coming F : List (κ × List α)}
    (h : List.Forall₂ (Replaced R) (prepend (mark same item (opened.map Prod.fst)) F)
      (opened ++ coming)) (hlength : (mark same item (opened.map Prod.fst)).length ≤ F.length)
    (htake : takeFrom same item.1 item.2 opened = none) :
    ∃ group coming', coming = group :: coming' ∧ R item.2 (group.2.headD item.2) ∧
      List.Forall₂ (Replaced R) F (opened ++ (group.1, group.2.tail) :: coming') := by
  induction opened generalizing F with
  | nil =>
    cases F with
    | nil => exact absurd hlength (Nat.not_succ_le_zero 0)
    | cons first F =>
      obtain ⟨group, coming', ⟨hkey, hmembers⟩, hrest, hcoming⟩ := List.forall₂_cons_left_iff.mp h
      obtain ⟨y, ys, hR, hys, hgroup⟩ := List.forall₂_cons_left_iff.mp hmembers
      refine ⟨group, coming', hcoming, ?_, .cons ⟨hkey, ?_⟩ hrest⟩ <;> rw [hgroup]
      · exact hR
      · exact hys
  | cons group rest ih =>
    rw [takeFrom_eq_none, List.map_cons, List.any_cons, Bool.or_eq_false_iff] at htake
    have hsame : ¬same group.1 item.1 = true := by rw [htake.1]; exact Bool.false_ne_true
    rw [List.map_cons, mark, if_neg hsame] at h hlength
    cases F with
    | nil => exact absurd hlength (Nat.not_succ_le_zero _)
    | cons first F =>
      obtain ⟨hfirst, hrest⟩ := List.forall₂_cons.mp h
      obtain ⟨next, coming', hcoming, hR, hall⟩ :=
        ih hrest (Nat.le_of_succ_le_succ hlength) (takeFrom_eq_none.mpr htake.2)
      exact ⟨next, coming', hcoming, hR, .cons hfirst hall⟩

private theorem forall₂_distribute_from {items : List (κ × α)} {opened coming : List (κ × List α)}
    (h : List.Forall₂ (Replaced R) (items.foldl (fun groups item => push same item groups)
      (empties (opened.map Prod.fst))) (opened ++ coming)) :
    List.Forall₂ (fun item x => R item.2 x) items (distribute same items opened coming) := by
  induction items generalizing opened coming with
  | nil => exact .nil
  | cons item rest ih =>
    rw [List.foldl_cons, push_empties, foldl_push_prepend rest (length_mark same item _)] at h
    cases htake : takeFrom same item.1 item.2 opened with
    | some result =>
      obtain ⟨x, opened'⟩ := result
      have hkeys := keys_takeFrom htake
      have hany : (opened.map Prod.fst).any (fun k => same k item.1) = true := by
        rw [← Bool.not_eq_false, ← takeFrom_eq_none (x := item.2), htake]
        exact Option.some_ne_none _
      obtain ⟨hR, hall⟩ := takeFrom_replaced h htake
      rw [meet, if_pos hany, ← hkeys] at hall
      rw [distribute_some htake]
      exact .cons hR (ih hall)
    | none =>
      have hmeet : meet same item (opened.map Prod.fst) = opened.map Prod.fst ++ [item.1] := by
        rw [meet, takeFrom_eq_none.mp htake, if_neg Bool.false_ne_true]
      have hlength := (length_mark same item (opened.map Prod.fst)).trans
        (length_foldl_push same rest _)
      obtain ⟨group, coming', hcoming, hR, hall⟩ := coming_replaced h hlength htake
      -- the group opened is the one of the item's key
      have hkeys := keys_replaced hall
      rw [keys_foldl_push, keys_empties, hmeet, List.map_append, List.append_assoc,
        List.append_cancel_left_eq] at hkeys
      obtain ⟨hkey, -⟩ := List.cons_eq_cons.mp hkeys
      rw [hcoming, distribute_none htake]
      refine .cons hR (ih ?_)
      rw [List.map_append, List.append_assoc, List.map_singleton, ← hkey, ← hmeet]
      exact hkey ▸ hall

/-- If the members of every group are replaced by related ones, so is every item. -/
theorem forall₂_distribute {items : List (κ × α)} {results : List (κ × List α)}
    (h : List.Forall₂ (Replaced R) (groups same items) results) :
    List.Forall₂ (fun item x => R item.2 x) items (distribute same items [] results) :=
  forall₂_distribute_from h

/-- Groups that are left as they are give the items back. -/
theorem distribute_groups (items : List (κ × α)) :
    distribute same items [] (groups same items) = items.map Prod.snd := by
  have hsame : List.Forall₂ (Replaced (· = ·)) (groups same items) (groups same items) :=
    List.forall₂_same.mpr fun group _ => ⟨rfl, List.forall₂_same.mpr fun _ _ => rfl⟩
  have hall := forall₂_distribute hsame
  rw [← List.forall₂_map_left_iff] at hall
  exact (List.forall₂_eq_eq_eq ▸ hall).symm

/-! ### Items with something left out -/

section Map

variable (f : α → β)

/-- A group with its members mapped. -/
def mapGroup (group : κ × List α) : κ × List β := (group.1, group.2.map f)

private theorem push_map (item : κ × α) (groups : List (κ × List α)) :
    push same (item.1, f item.2) (groups.map (mapGroup f))
      = (push same item groups).map (mapGroup f) := by
  induction groups with
  | nil => rfl
  | cons group rest ih =>
    rw [List.map_cons, push, push, mapGroup]
    split
    · rw [List.map_cons, mapGroup, List.map_append]
      rfl
    · rw [ih]
      rfl

/-- The groups of mapped items. -/
theorem groups_map (items : List (κ × α)) :
    groups same (items.map fun item => (item.1, f item.2)) = (groups same items).map (mapGroup f) := by
  induction items using List.reverseRecOn with
  | nil => rfl
  | append_singleton items last ih =>
    have hlast : groups same (items ++ [last]) = push same last (groups same items) :=
      List.foldl_append ..
    rw [List.map_append, groups, List.foldl_append, ← groups, ih, hlast]
    exact push_map f last (groups same items)

private theorem takeFrom_map (key : κ) (x : α) (groups : List (κ × List α)) :
    takeFrom same key (f x) (groups.map (mapGroup f))
      = (takeFrom same key x groups).map fun result =>
          (f result.1, result.2.map (mapGroup f)) := by
  induction groups with
  | nil => rfl
  | cons group rest ih =>
    rw [List.map_cons, takeFrom, takeFrom, mapGroup]
    split
    · cases group.2 <;> simp [mapGroup]
    · rw [ih, Option.map_map, Option.map_map]
      rfl

/-- Distributing mapped members. -/
theorem distribute_map (items : List (κ × α)) (opened coming : List (κ × List α)) :
    distribute same (items.map fun item => (item.1, f item.2)) (opened.map (mapGroup f))
        (coming.map (mapGroup f)) = (distribute same items opened coming).map f := by
  induction items generalizing opened coming with
  | nil => rfl
  | cons item rest ih =>
    rw [List.map_cons, distribute.eq_def, distribute.eq_def same (item :: rest)]
    dsimp only
    rw [takeFrom_map]
    cases takeFrom same item.1 item.2 opened with
    | some result =>
      obtain ⟨x, opened'⟩ := result
      exact congrArg (f x :: ·) (ih opened' coming)
    | none =>
      cases coming with
      | nil => exact congrArg (f item.2 :: ·) (ih opened [])
      | cons group coming =>
        have hhead : (group.2.map f).headD (f item.2) = f (group.2.headD item.2) := by
          cases group.2 <;> rfl
        have hopened : opened.map (mapGroup f) ++ [(group.1, (group.2.map f).tail)]
            = (opened ++ [(group.1, group.2.tail)]).map (mapGroup f) := by
          rw [List.map_append, List.map_singleton, mapGroup, List.map_tail]
        change (group.2.map f).headD (f item.2) :: distribute same _ (opened.map (mapGroup f)
          ++ [(group.1, (group.2.map f).tail)]) (coming.map (mapGroup f)) = _
        rw [hhead, hopened, ih]
        rfl

end Map

/-- The members of a group are in the order of the items. -/
theorem sublist_of_mem_groups {items : List (κ × α)} :
    ∀ group ∈ groups same items, group.2.Sublist (items.map Prod.snd) := by
  have hpush : ∀ (item : κ × α) (groups : List (κ × List α)) (xs : List α),
      (∀ group ∈ groups, group.2.Sublist xs) →
      ∀ group ∈ push same item groups, group.2.Sublist (xs ++ [item.2]) := by
    intro item groups xs h
    induction groups with
    | nil => exact List.forall_mem_singleton.mpr (List.sublist_append_right xs [item.2])
    | cons first rest ih =>
      obtain ⟨hfirst, hrest⟩ := List.forall_mem_cons.mp h
      rw [push]
      split
      · exact List.forall_mem_cons.mpr ⟨hfirst.append (List.Sublist.refl _),
          fun group hgroup => (hrest group hgroup).trans (List.sublist_append_left _ _)⟩
      · exact List.forall_mem_cons.mpr ⟨hfirst.trans (List.sublist_append_left _ _), ih hrest⟩
  induction items using List.reverseRecOn with
  | nil => exact fun _ h => absurd h List.not_mem_nil
  | append_singleton items last ih =>
    rw [groups, List.foldl_append, List.foldl_cons, List.foldl_nil, ← groups, List.map_append]
    exact hpush last _ _ ih

end Grouping

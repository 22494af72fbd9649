/-
Ranks in a sorted list.

The rank of a key counts the elements before it, the dense rank the different keys before
it.  In a sorted list both can be read off from left to right: where the key goes up the
rank is the place and the dense rank goes up by one, where it does not they stay.

Main results:
* `StableSort.rank_of_lt`, `StableSort.denseRank_of_lt` — what happens where the key goes up;
* `StableSort.sort_stable` — elements with one key stay in their order;
* `StableSort.countP_of_pairwise` — the elements before one of a strictly sorted list;
* `StableSort.lt_peers_iff` — where the elements with one key end.
-/
import DistributedSql.StableSort

namespace StableSort

variable {α κ : Type} [LinearOrder κ] {key : α → κ} {l before after : List α}

/-- One more than the number of elements with a key below this one. -/
def rank (key : α → κ) (l : List α) (k : κ) : ℕ := 1 + l.countP fun a => key a < k

/-- One more than the number of different keys below this one. -/
def denseRank (key : α → κ) (l : List α) (k : κ) : ℕ :=
  1 + ((l.map key).toFinset.filter (· < k)).card

theorem rank_perm {l' : List α} (h : l.Perm l') (k : κ) : rank key l k = rank key l' k := by
  rw [rank, rank, h.countP_eq]

theorem denseRank_perm {l' : List α} (h : l.Perm l') (k : κ) :
    denseRank key l k = denseRank key l' k := by
  rw [denseRank, denseRank, List.toFinset_eq_of_perm _ _ (h.map key)]

theorem rank_map {β : Type} (f : β → α) (l : List β) (k : κ) :
    rank key (l.map f) k = rank (key ∘ f) l k := by
  rw [rank, rank, List.countP_map]
  rfl

theorem denseRank_map {β : Type} (f : β → α) (l : List β) (k : κ) :
    denseRank key (l.map f) k = denseRank (key ∘ f) l k := by
  rw [denseRank, denseRank, List.map_map]

/-- The elements before one of a list that is sorted by a strict relation. -/
theorem countP_of_pairwise {R : α → α → Prop} [DecidableRel R] (hasymm : ∀ a b, R a b → ¬R b a)
    {x : α} (h : (before ++ x :: after).Pairwise R) :
    (before ++ x :: after).countP (fun a => R a x) = before.length := by
  obtain ⟨-, hafter, hbefore⟩ := List.pairwise_append.mp h
  have hnone : (x :: after).countP (fun a => R a x) = 0 := by
    rw [List.countP_eq_zero]
    intro a ha hax
    rcases List.mem_cons.mp ha with rfl | ha
    · exact hasymm a a (of_decide_eq_true hax) (of_decide_eq_true hax)
    · exact hasymm x a ((List.pairwise_cons.mp hafter).1 a ha) (of_decide_eq_true hax)
  rw [List.countP_append, hnone, Nat.add_zero, List.countP_eq_length]
  exact fun a ha => decide_eq_true (hbefore a ha x List.mem_cons_self)

/-- Nothing from an element on is below it. -/
private theorem not_lt_of_mem {x : α} (h : SortedBy key (x :: after)) :
    ∀ a ∈ x :: after, ¬key a < key x := by
  intro a ha
  rcases List.mem_cons.mp ha with rfl | ha
  · exact lt_irrefl _
  · exact ((List.pairwise_cons.mp h).1 a ha).not_gt

/-- Where the key goes up, the rank is the place. -/
theorem rank_of_lt {x : α} (h : SortedBy key (before ++ x :: after))
    (hlt : ∀ a ∈ before, key a < key x) :
    rank key (before ++ x :: after) (key x) = before.length + 1 := by
  obtain ⟨-, hafter, -⟩ := List.pairwise_append.mp h
  have hnone : (x :: after).countP (fun a => decide (key a < key x)) = 0 := by
    rw [List.countP_eq_zero]
    exact fun a ha => by simpa using not_lt_of_mem hafter a ha
  rw [rank, List.countP_append, hnone, Nat.add_zero, List.countP_eq_length.mpr, Nat.add_comm]
  exact fun a ha => decide_eq_true (hlt a ha)

/-- The first element of a sorted list has the dense rank one. -/
theorem denseRank_head {x : α} (h : SortedBy key (x :: after)) :
    denseRank key (x :: after) (key x) = 1 := by
  rw [denseRank, Finset.filter_eq_empty_iff.mpr, Finset.card_empty]
  intro k hk
  obtain ⟨a, ha, rfl⟩ := List.mem_map.mp (List.mem_toFinset.mp hk)
  exact not_lt_of_mem h a ha

/-- Where the key goes up, the dense rank goes up by one. -/
theorem denseRank_of_lt {prev x : α} (h : SortedBy key (before ++ prev :: x :: after))
    (hlt : key prev < key x) :
    denseRank key (before ++ prev :: x :: after) (key x)
      = denseRank key (before ++ prev :: x :: after) (key prev) + 1 := by
  obtain ⟨-, hafter, hbefore⟩ := List.pairwise_append.mp h
  -- the keys below that of `x` are those below that of `prev`, and this one
  have hkeys : ((before ++ prev :: x :: after).map key).toFinset.filter (· < key x)
      = Insert.insert (key prev)
          (((before ++ prev :: x :: after).map key).toFinset.filter (· < key prev)) := by
    ext k
    rw [Finset.mem_insert, Finset.mem_filter, Finset.mem_filter]
    constructor
    · rintro ⟨hmem, hk⟩
      obtain ⟨a, ha, rfl⟩ := List.mem_map.mp (List.mem_toFinset.mp hmem)
      have hle : key a ≤ key prev := by
        rcases List.mem_append.mp ha with ha | ha
        · exact hbefore a ha prev List.mem_cons_self
        · rcases List.mem_cons.mp ha with rfl | ha
          · exact le_rfl
          · exact absurd hk (not_lt_of_mem (List.pairwise_cons.mp hafter).2 a ha)
      exact hle.eq_or_lt.imp id fun hlt => ⟨hmem, hlt⟩
    · rintro (rfl | ⟨hmem, hk⟩)
      · exact ⟨List.mem_toFinset.mpr (List.mem_map_of_mem
          (List.mem_append_right _ List.mem_cons_self)), hlt⟩
      · exact ⟨hmem, hk.trans hlt⟩
  rw [denseRank, hkeys, Finset.card_insert_of_notMem, denseRank, Nat.add_assoc]
  exact fun hmem => lt_irrefl _ (Finset.mem_filter.mp hmem).2

/-- Sorting keeps the order of elements with one key. -/
theorem sort_stable {R : α → α → Prop} (h : l.Pairwise R) :
    (sort key l).Pairwise fun a b => key a < key b ∨ key a = key b ∧ R a b := by
  induction l with
  | nil => exact .nil
  | cons x xs ih =>
    obtain ⟨hx, hxs⟩ := List.pairwise_cons.mp h
    have hinsert : ∀ ys : List α, (∀ y ∈ ys, R x y) →
        ys.Pairwise (fun a b => key a < key b ∨ key a = key b ∧ R a b) →
        (insert key x ys).Pairwise fun a b => key a < key b ∨ key a = key b ∧ R a b := by
      intro ys hys hsorted
      induction ys with
      | nil => exact List.pairwise_singleton _ x
      | cons y ys ihys =>
        obtain ⟨hy, hsorted'⟩ := List.pairwise_cons.mp hsorted
        rcases le_or_gt (key x) (key y) with hle | hlt
        · rw [insert_cons_of_le hle]
          refine List.pairwise_cons.mpr ⟨fun z hz => ?_, hsorted⟩
          have hz' : key x ≤ key z := by
            rcases List.mem_cons.mp hz with rfl | hmem
            · exact hle
            · exact hle.trans ((hy z hmem).elim le_of_lt fun h => h.1.le)
          exact hz'.lt_or_eq.imp id fun heq => ⟨heq, hys z hz⟩
        · rw [insert_cons_of_lt hlt]
          refine List.pairwise_cons.mpr ⟨fun z hz => ?_,
            ihys (fun z hz => hys z (List.mem_cons_of_mem y hz)) hsorted'⟩
          rcases (List.mem_orderedInsert _).mp hz with rfl | hz
          · exact Or.inl hlt
          · exact hy z hz
    rw [sort_cons]
    exact hinsert _ (fun y hy => hx y ((sort_perm key xs).subset hy)) (ih hxs)

/-- The elements with the key of `x` end where the key after it changes. -/
theorem lt_peers_iff {p : α → Bool} {x : α} {index place : ℕ} (h : SortedBy key l)
    (hx : l[index]? = some x) (hp : ∀ a ∈ l, p a = true ↔ key a = key x) :
    place < index + 1 + ((l.drop (index + 1)).takeWhile p).length ↔
      ∃ a ∈ l.drop place, key a = key x := by
  obtain ⟨hlt, hx⟩ := List.getElem?_eq_some_iff.mp hx
  obtain ⟨before, run, rest, hl, hbefore, hrun, hdrop, hrest⟩ : ∃ before run rest,
      l = before ++ x :: (run ++ rest) ∧ before.length = index ∧
        run = (l.drop (index + 1)).takeWhile p ∧ l.drop (index + 1) = run ++ rest ∧
        ∀ y ∈ rest.head?, p y = false := by
    refine ⟨l.take index, _, (l.drop (index + 1)).dropWhile p, ?_, List.length_take_of_le hlt.le,
      rfl, List.takeWhile_append_dropWhile.symm, fun y hy => ?_⟩
    · rw [List.takeWhile_append_dropWhile, ← hx, ← List.drop_eq_getElem_cons hlt,
        List.take_append_drop]
    · exact Bool.eq_false_iff.mpr fun hpy => by
        have := List.head?_dropWhile_not p (l.drop (index + 1))
        rw [hy] at this
        exact Bool.eq_false_iff.mp this hpy
  rw [← hrun]
  have hmem : ∀ a ∈ run, a ∈ l ∧ p a = true := fun a ha =>
    ⟨List.mem_of_mem_drop (hdrop ▸ List.mem_append_left _ ha), List.mem_takeWhile_imp (hrun ▸ ha)⟩
  constructor
  · intro hplace
    -- the last of them
    obtain ⟨a, ha⟩ : ∃ a, (x :: run)[run.length]? = some a :=
      ⟨_, List.getElem?_eq_getElem (by simp)⟩
    refine ⟨a, List.mem_of_getElem? (i := index + run.length - place) ?_, ?_⟩
    · rw [List.getElem?_drop, Nat.add_sub_cancel' (by omega), hl,
        List.getElem?_append_right (by omega), hbefore, Nat.add_sub_cancel_left,
        ← List.cons_append, List.getElem?_append_left (by simp), ha]
    · rcases List.mem_cons.mp (List.mem_of_getElem? ha) with rfl | ha
      · rfl
      · exact (hp a (hmem a ha).1).mp (hmem a ha).2
  · rintro ⟨a, ha, hkey⟩
    by_contra hplace
    have hmem_rest : a ∈ rest := by
      obtain ⟨k, ha⟩ := List.mem_iff_getElem?.mp ha
      rw [List.getElem?_drop, hl, List.getElem?_append_right (by omega), ← List.cons_append,
        List.getElem?_append_right (by rw [List.length_cons]; omega)] at ha
      exact List.mem_of_getElem? ha
    cases rest with
    | nil => cases hmem_rest
    | cons y rest =>
      rw [hl] at h
      obtain ⟨-, htail, -⟩ := List.pairwise_append.mp h
      obtain ⟨hxs, hsorted⟩ := List.pairwise_cons.mp htail
      have hya : key y ≤ key a := by
        rcases List.mem_cons.mp hmem_rest with rfl | hmem_rest
        · exact le_rfl
        · exact (List.pairwise_cons.mp (List.pairwise_append.mp hsorted).2.1).1 a hmem_rest
      have hy : y ∈ run ++ y :: rest := List.mem_append_right _ List.mem_cons_self
      have hkeyy : key y = key x := le_antisymm (hya.trans_eq hkey) (hxs y hy)
      have hyl : y ∈ l := hl ▸ List.mem_append_right _ (List.mem_cons_of_mem x hy)
      exact Bool.eq_false_iff.mp (hrest y rfl) ((hp y hyl).mpr hkeyy)

end StableSort

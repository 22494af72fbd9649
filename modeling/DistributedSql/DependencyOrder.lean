/-
Lists in which everything comes after what it depends on.

A library of its own: elements have a name, and depend on names.  Whoever goes through such
a list always finds something whose dependencies are done, and no dependency leads back.

Main results:
* `DependencyOrder.append`, `DependencyOrder.concat`, `DependencyOrder.map_iff` — how such
  lists are put together and renamed;
* `DependencyOrder.exists_ready` — among the elements left, one whose dependencies are done;
* `DependencyOrder.acyclic` — no element depends on itself, over however many others.
-/
import Mathlib

variable {α κ : Type*} {name : α → κ} {dependencies : α → List κ}

/-- Everything an element depends on comes before it. -/
def DependencyOrder (name : α → κ) (dependencies : α → List κ) (l : List α) : Prop :=
  ∀ before item after, l = before ++ item :: after → ∀ k ∈ dependencies item, k ∈ before.map name

namespace DependencyOrder

variable {l l' : List α}

theorem nil : DependencyOrder name dependencies [] := by
  intro before item after h
  simp at h

theorem append (h : DependencyOrder name dependencies l)
    (h' : DependencyOrder name dependencies l') : DependencyOrder name dependencies (l ++ l') := by
  intro before item after hsplit k hk
  rcases List.append_eq_append_iff.mp hsplit with ⟨middle, hbefore, hl'⟩ | ⟨middle, hl, hmiddle⟩
  · -- the element is in the second list
    rw [hbefore, List.map_append]
    exact List.mem_append_right _ (h' middle item after hl' k hk)
  · cases middle with
    | nil =>
      have hitem : l' = [] ++ item :: after := hmiddle.symm
      cases h' [] item after hitem k hk
    | cons first middle =>
      obtain ⟨rfl, -⟩ := List.cons_eq_cons.mp hmiddle
      exact h before item middle hl k hk

theorem concat (h : DependencyOrder name dependencies l) {item : α}
    (hitem : ∀ k ∈ dependencies item, k ∈ l.map name) :
    DependencyOrder name dependencies (l ++ [item]) := by
  intro before other after hsplit k hk
  rcases List.eq_nil_or_concat after with rfl | ⟨front, last, rfl⟩
  · obtain ⟨rfl, hother⟩ := List.append_inj' hsplit rfl
    cases hother
    exact hitem k hk
  · rw [List.concat_eq_append, ← List.cons_append, ← List.append_assoc] at hsplit
    obtain ⟨hl, -⟩ := List.append_inj' hsplit rfl
    exact h before other front hl k hk

/-- The order is one of names and dependencies. -/
theorem map_iff {β : Type*} {f : β → α} {l : List β} :
    DependencyOrder name dependencies (l.map f) ↔
      DependencyOrder (name ∘ f) (dependencies ∘ f) l := by
  constructor
  · intro h before item after hsplit k hk
    have hmap : l.map f = before.map f ++ f item :: after.map f := by
      rw [hsplit, List.map_append, List.map_cons]
    rw [← List.map_map]
    exact h _ (f item) _ hmap k hk
  · intro h before item after hsplit k hk
    obtain ⟨front, rest, rfl, rfl, hrest⟩ := List.map_eq_append_iff.mp hsplit
    obtain ⟨other, back, rfl, rfl, rfl⟩ := List.map_eq_cons_iff.mp hrest
    rw [List.map_map]
    exact h front other back rfl k hk

/-- What an element depends on is in the list. -/
theorem mem (h : DependencyOrder name dependencies l) {item : α} (hitem : item ∈ l) :
    ∀ k ∈ dependencies item, k ∈ l.map name := by
  intro k hk
  obtain ⟨before, after, rfl⟩ := List.append_of_mem hitem
  rw [List.map_append]
  exact List.mem_append_left _ (h before item after rfl k hk)

/-- If some elements are left, all dependencies of one of them are done. -/
theorem exists_ready (h : DependencyOrder name dependencies l) (left : κ → Prop)
    (hleft : ∃ item ∈ l, left (name item)) :
    ∃ item ∈ l, left (name item) ∧ ∀ k ∈ dependencies item, k ∈ l.map name ∧ ¬left k := by
  classical
  obtain ⟨first, hfirst, hname⟩ := hleft
  cases hfind : l.find? fun item => left (name item) with
  | none => exact absurd (decide_eq_true hname) (List.find?_eq_none.mp hfind first hfirst)
  | some item =>
    obtain ⟨hitem, before, after, rfl, hbefore⟩ := List.find?_eq_some_iff_append.mp hfind
    refine ⟨item, List.mem_append_right _ List.mem_cons_self, of_decide_eq_true hitem,
      fun k hk => ⟨h.mem (List.mem_append_right _ List.mem_cons_self) k hk, ?_⟩⟩
    obtain ⟨other, hother, rfl⟩ := List.mem_map.mp (h before item after rfl k hk)
    simpa using hbefore other hother

/-- No element depends on itself, over however many others. -/
theorem acyclic (h : DependencyOrder name dependencies l) (hnodup : (l.map name).Nodup) (k : κ) :
    ¬Relation.TransGen (fun k k' => ∃ item ∈ l, name item = k' ∧ k ∈ dependencies item) k k := by
  classical
  -- dependencies go to the left
  have hlt : ∀ k k', (∃ item ∈ l, name item = k' ∧ k ∈ dependencies item) →
      (l.map name).idxOf k < (l.map name).idxOf k' := by
    rintro k _ ⟨item, hitem, rfl, hk⟩
    obtain ⟨before, after, rfl⟩ := List.append_of_mem hitem
    have hmem := h before item after rfl k hk
    rw [List.map_append, List.map_cons] at hnodup ⊢
    have hnot : name item ∉ before.map name := fun hmem' =>
      List.disjoint_of_nodup_append hnodup hmem' List.mem_cons_self
    rw [List.idxOf_append_of_mem hmem, List.idxOf_append_of_notMem hnot]
    exact (List.idxOf_lt_length_of_mem hmem).trans_le (Nat.le_add_right _ _)
  intro hcycle
  have htrans : ∀ k k', Relation.TransGen
      (fun k k' => ∃ item ∈ l, name item = k' ∧ k ∈ dependencies item) k k' →
      (l.map name).idxOf k < (l.map name).idxOf k' := by
    intro k k' hpath
    induction hpath with
    | single hstep => exact hlt _ _ hstep
    | tail _ hstep ih => exact ih.trans (hlt _ _ hstep)
  exact lt_irrefl _ (htrans k k hcycle)

end DependencyOrder

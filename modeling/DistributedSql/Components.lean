/-
Connected components by depth-first search.

A library of its own: a graph given by the list of its edges, and the search with a stack
that collects what a vertex is connected to.

Main results:
* `mem_explore_iff` — the search finds exactly what is connected to its start;
* `mem_components`, `exists_mem_components` — the components of a list of vertices.
-/
import Mathlib

namespace Components

variable {α : Type*}

/-- An edge in one of its two directions. -/
def Linked (edges : List (α × α)) (a b : α) : Prop := (a, b) ∈ edges ∨ (b, a) ∈ edges

abbrev Connected (edges : List (α × α)) : α → α → Prop := Relation.ReflTransGen (Linked edges)

theorem Linked.symm {edges : List (α × α)} {a b : α} (h : Linked edges a b) : Linked edges b a :=
  Or.symm h

theorem Connected.symm {edges : List (α × α)} {a b : α} (h : Connected edges a b) :
    Connected edges b a := by
  induction h with
  | refl => exact .refl
  | tail _ hlast ih => exact (Relation.ReflTransGen.single hlast.symm).trans ih

theorem Linked.mem_ends {edges : List (α × α)} {a b : α} (h : Linked edges a b) :
    a ∈ edges.flatMap fun edge => [edge.1, edge.2] := by
  rcases h with h | h
  · exact List.mem_flatMap.mpr ⟨_, h, List.mem_cons_self⟩
  · exact List.mem_flatMap.mpr ⟨_, h, List.mem_cons_of_mem _ List.mem_cons_self⟩

variable [DecidableEq α]

/-- The other ends of the edges of a vertex. -/
def neighbours (edges : List (α × α)) (a : α) : List α :=
  (edges.flatMap fun edge =>
    (if edge.1 = a then [edge.2] else []) ++ if edge.2 = a then [edge.1] else []).dedup

/-- The vertices not collected yet. -/
def remaining (edges : List (α × α)) (component : List α) : Finset α :=
  (edges.flatMap fun edge => [edge.1, edge.2]).toFinset \ component.toFinset

theorem mem_neighbours {edges : List (α × α)} {a b : α} :
    b ∈ neighbours edges a ↔ Linked edges a b := by
  rw [neighbours, List.mem_dedup, List.mem_flatMap]
  constructor
  · rintro ⟨⟨l, r⟩, hedge, hb⟩
    rcases List.mem_append.mp hb with hb | hb
    · split_ifs at hb with heq
      · cases List.mem_singleton.mp hb
        cases heq
        exact .inl hedge
      · cases hb
    · split_ifs at hb with heq
      · cases List.mem_singleton.mp hb
        cases heq
        exact .inr hedge
      · cases hb
  · rintro (hedge | hedge)
    · exact ⟨(a, b), hedge, List.mem_append_left _ (by simp)⟩
    · exact ⟨(b, a), hedge, List.mem_append_right _ (by simp)⟩

/-- What is left to collect decreases, or nothing is put on the stack. -/
theorem remaining_concat (edges : List (α × α)) {component : List α} {current : α}
    (hnew : current ∉ component) :
    (remaining edges (component ++ [current])).card < (remaining edges component).card ∨
      (neighbours edges current = [] ∧
        remaining edges (component ++ [current]) = remaining edges component) := by
  have herase : remaining edges (component ++ [current])
      = (remaining edges component).erase current := by
    ext a
    simp only [remaining, Finset.mem_sdiff, Finset.mem_erase, List.mem_toFinset, List.mem_append,
      List.mem_singleton, not_or]
    tauto
  by_cases hends : current ∈ edges.flatMap fun edge => [edge.1, edge.2]
  · refine .inl ?_
    rw [herase]
    refine Finset.card_erase_lt_of_mem (Finset.mem_sdiff.mpr ⟨List.mem_toFinset.mpr hends, ?_⟩)
    exact fun hin => hnew (List.mem_toFinset.mp hin)
  · refine .inr ⟨List.eq_nil_iff_forall_not_mem.mpr fun b hb => ?_, ?_⟩
    · exact hends (mem_neighbours.mp hb).mem_ends
    · rw [herase]
      refine Finset.erase_eq_of_notMem fun hin => ?_
      exact hends (List.mem_toFinset.mp (Finset.mem_sdiff.mp hin).1)

/-- The search: what is popped is collected, unless it was, and its neighbours are pushed. -/
def explore (edges : List (α × α)) (component : List α) : List α → List α
  | [] => component
  | current :: stack =>
      if current ∈ component then explore edges component stack
      else
        explore edges (component ++ [current])
          (((neighbours edges current).filter (· ∉ component ++ [current])) ++ stack)
termination_by stack => ((remaining edges component).card, stack.length)
decreasing_by
  · exact Prod.Lex.right _ (Nat.lt_succ_self _)
  · rename_i hnew
    rcases remaining_concat edges hnew with hless | ⟨hnone, hsame⟩
    · exact Prod.Lex.left _ _ hless
    · rw [hsame, hnone]
      exact Prod.Lex.right _ (Nat.lt_succ_self _)

section Search

variable {edges : List (α × α)} {start : α}

theorem explore_subset (edges : List (α × α)) (component stack : List α) :
    component ⊆ explore edges component stack ∧ stack ⊆ explore edges component stack := by
  induction component, stack using explore.induct edges with
  | case1 component =>
    rw [explore]
    exact ⟨fun _ => id, List.nil_subset _⟩
  | case2 component current stack hmem ih =>
    rw [explore, if_pos hmem]
    exact ⟨ih.1, List.cons_subset.mpr ⟨ih.1 hmem, ih.2⟩⟩
  | case3 component current stack hnew ih =>
    rw [explore, if_neg hnew]
    obtain ⟨hcomponent, hstack⟩ := ih
    have hcurrent := hcomponent (List.mem_append_right component List.mem_cons_self)
    refine ⟨fun a ha => hcomponent (List.mem_append_left _ ha), ?_⟩
    exact List.cons_subset.mpr ⟨hcurrent, fun a ha => hstack (List.mem_append_right _ ha)⟩

/-- Only what is connected to the start is collected. -/
theorem explore_connected {component stack : List α}
    (hcomponent : ∀ a ∈ component, Connected edges start a)
    (hstack : ∀ a ∈ stack, Connected edges start a) :
    ∀ a ∈ explore edges component stack, Connected edges start a := by
  induction component, stack using explore.induct edges with
  | case1 component =>
    rw [explore]
    exact hcomponent
  | case2 component current stack hmem ih =>
    rw [explore, if_pos hmem]
    exact ih hcomponent (List.forall_mem_cons.mp hstack).2
  | case3 component current stack hnew ih =>
    rw [explore, if_neg hnew]
    obtain ⟨hcurrent, hrest⟩ := List.forall_mem_cons.mp hstack
    refine ih ?_ ?_
    · exact List.forall_mem_append.mpr ⟨hcomponent, List.forall_mem_singleton.mpr hcurrent⟩
    · refine List.forall_mem_append.mpr ⟨fun a ha => ?_, hrest⟩
      exact hcurrent.tail (mem_neighbours.mp (List.mem_of_mem_filter ha))

/-- What is collected leads nowhere else: an edge from it ends there or on the stack. -/
theorem explore_closed {component stack : List α}
    (h : ∀ a ∈ component, ∀ b, Linked edges a b → b ∈ component ∨ b ∈ stack) :
    ∀ a ∈ explore edges component stack, ∀ b, Linked edges a b →
      b ∈ explore edges component stack := by
  induction component, stack using explore.induct edges with
  | case1 component =>
    rw [explore]
    exact fun a ha b hb => (h a ha b hb).resolve_right List.not_mem_nil
  | case2 component current stack hmem ih =>
    rw [explore, if_pos hmem]
    refine ih fun a ha b hb => ?_
    rcases h a ha b hb with hb | hb
    · exact .inl hb
    · rcases List.mem_cons.mp hb with rfl | hb
      · exact .inl hmem
      · exact .inr hb
  | case3 component current stack hnew ih =>
    rw [explore, if_neg hnew]
    refine ih fun a ha b hb => ?_
    by_cases hcollected : b ∈ component ++ [current]
    · exact .inl hcollected
    rcases List.mem_append.mp ha with ha | ha
    · rcases h a ha b hb with hb | hb
      · exact .inl (List.mem_append_left _ hb)
      · rcases List.mem_cons.mp hb with rfl | hb
        · exact .inl (List.mem_append_right _ List.mem_cons_self)
        · exact .inr (List.mem_append_right _ hb)
    · -- the neighbours of what was popped are pushed
      cases List.mem_singleton.mp ha
      refine .inr (List.mem_append_left _ (List.mem_filter.mpr ⟨mem_neighbours.mpr hb, ?_⟩))
      exact decide_eq_true hcollected

theorem explore_nodup {component stack : List α} (h : component.Nodup) :
    (explore edges component stack).Nodup := by
  induction component, stack using explore.induct edges with
  | case1 component =>
    rw [explore]
    exact h
  | case2 component current stack hmem ih =>
    rw [explore, if_pos hmem]
    exact ih h
  | case3 component current stack hnew ih =>
    rw [explore, if_neg hnew]
    exact ih (List.nodup_append_comm.mp (List.nodup_cons.mpr ⟨hnew, h⟩))

/-- The search finds exactly what is connected to its start. -/
theorem mem_explore_iff {a : α} : a ∈ explore edges [] [start] ↔ Connected edges start a := by
  constructor
  · refine explore_connected (fun b hb => absurd hb List.not_mem_nil) (fun b hb => ?_) a
    rw [List.mem_singleton.mp hb]
  · intro h
    induction h with
    | refl => exact (explore_subset edges [] [start]).2 List.mem_cons_self
    | tail _ hlast ih =>
      exact explore_closed (fun b hb => absurd hb List.not_mem_nil) _ ih _ hlast

end Search

/-! ### All components -/

/-- The components of some vertices, each once. -/
def components (edges : List (α × α)) (starts : List α) : List (List α) :=
  starts.foldl (fun found start =>
    if found.any (start ∈ ·) then found else found ++ [explore edges [] [start]]) []

variable {edges : List (α × α)}

private theorem components_concat (starts : List α) (last : α) :
    components edges (starts ++ [last]) = if (components edges starts).any (last ∈ ·) then
      components edges starts else components edges starts ++ [explore edges [] [last]] := by
  rw [components, List.foldl_append]
  rfl

/-- A component is what its first vertex is connected to. -/
theorem mem_components {starts component : List α} (h : component ∈ components edges starts) :
    ∃ start ∈ starts, component = explore edges [] [start] := by
  induction starts using List.reverseRecOn with
  | nil => exact absurd h List.not_mem_nil
  | append_singleton starts last ih =>
    have hold : component ∈ components edges starts →
        ∃ start ∈ starts ++ [last], component = explore edges [] [start] := by
      intro hmem
      obtain ⟨start, hstart, heq⟩ := ih hmem
      exact ⟨start, List.mem_append_left _ hstart, heq⟩
    rw [components_concat] at h
    split at h
    · exact hold h
    · rcases List.mem_append.mp h with h | h
      · exact hold h
      · exact ⟨last, List.mem_append_right _ List.mem_cons_self, List.mem_singleton.mp h⟩

/-- Every vertex is in a component. -/
theorem exists_mem_components {starts : List α} {start : α} (h : start ∈ starts) :
    ∃ component ∈ components edges starts, start ∈ component := by
  induction starts using List.reverseRecOn with
  | nil => cases h
  | append_singleton starts last ih =>
    rw [components_concat]
    split
    case isTrue hfound =>
      rcases List.mem_append.mp h with h | h
      · exact ih h
      · rw [List.mem_singleton.mp h]
        obtain ⟨component, hmem, hlast⟩ := List.any_eq_true.mp hfound
        exact ⟨component, hmem, of_decide_eq_true hlast⟩
    case isFalse =>
      rcases List.mem_append.mp h with h | h
      · obtain ⟨component, hmem, hstart⟩ := ih h
        exact ⟨component, List.mem_append_left _ hmem, hstart⟩
      · rw [List.mem_singleton.mp h]
        exact ⟨_, List.mem_append_right _ List.mem_cons_self,
          (explore_subset edges [] [last]).2 List.mem_cons_self⟩

end Components

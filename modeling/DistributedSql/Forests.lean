/-
Totals over forests.

A library of its own: nodes with a parent each, and a quantity at every node.  What a
node has of its own is what its children leave of it.  A change made to every node
on the way to the root changes what the first of them has of its own, and nothing
else.

Main results:
* `own_addAlong` — a change along the path to the root;
* `nonneg_of_own` — where no node's own share is negative, no node's quantity is.
-/
import Mathlib

namespace Forest

variable {ι M : Type*}

/-- `path` is `x`, its parent, and so on to a root. -/
inductive PathToRoot (nodes : Finset ι) (parent : ι → Option ι) : ι → List ι → Prop
  | root {x : ι} (mem : x ∈ nodes) (top : parent x = none) : PathToRoot nodes parent x [x]
  | step {x p : ι} {path : List ι} (mem : x ∈ nodes) (up : parent x = some p)
      (rest : PathToRoot nodes parent p path) : PathToRoot nodes parent x (x :: path)

namespace PathToRoot

variable {nodes : Finset ι} {parent : ι → Option ι} {x : ι} {path : List ι}

theorem subset (h : PathToRoot nodes parent x path) : ∀ y ∈ path, y ∈ nodes := by
  induction h with
  | root mem _ => exact fun y hy => List.mem_singleton.mp hy ▸ mem
  | step mem _ _ ih =>
    intro y hy
    rcases List.mem_cons.mp hy with rfl | hy
    · exact mem
    · exact ih y hy

theorem mem_self (h : PathToRoot nodes parent x path) : x ∈ path := by
  cases h with
  | root => exact List.mem_cons_self
  | step => exact List.mem_cons_self

/-- Where parents come first, the path goes down, so that no node is met twice. -/
theorem sortedGT [LinearOrder ι] (hparent : ∀ {c p}, parent c = some p → p < c)
    (h : PathToRoot nodes parent x path) : path.Pairwise (· > ·) ∧ ∀ y ∈ path, y ≤ x := by
  induction h with
  | root => exact ⟨List.pairwise_singleton _ _, fun y hy => (List.mem_singleton.mp hy).le⟩
  | step _ up _ ih =>
    have hlt : ∀ y ∈ _, y < _ := fun y hy => (ih.2 y hy).trans_lt (hparent up)
    refine ⟨List.pairwise_cons.mpr ⟨hlt, ih.1⟩, fun y hy => ?_⟩
    rcases List.mem_cons.mp hy with rfl | hy
    · exact le_rfl
    · exact (hlt y hy).le

end PathToRoot

variable [DecidableEq ι] [AddCommGroup M]

/-- The nodes whose parent is `x`. -/
def children (nodes : Finset ι) (parent : ι → Option ι) (x : ι) : Finset ι :=
  nodes.filter fun c => parent c = some x

/-- What `x` has beyond its children. -/
def own (nodes : Finset ι) (parent : ι → Option ι) (f : ι → M) (x : ι) : M :=
  f x - ∑ c ∈ children nodes parent x, f c

/-- `f` with `n` more at each node of the path. -/
def addAlong (path : List ι) (n : M) (f : ι → M) : ι → M :=
  path.foldl (fun f x => f + Pi.single x n) f

variable {nodes : Finset ι} {parent : ι → Option ι} {f : ι → M} {x y : ι} {n : M}

theorem mem_children {c : ι} :
    c ∈ children nodes parent x ↔ c ∈ nodes ∧ parent c = some x := Finset.mem_filter

theorem own_of_children_eq_empty (h : children nodes parent x = ∅) :
    own nodes parent f x = f x := by
  rw [own, h, Finset.sum_empty, sub_zero]

theorem eq_sum_of_own_eq_zero (h : own nodes parent f x = 0) :
    f x = ∑ c ∈ children nodes parent x, f c := sub_eq_zero.mp h

/-- What is added to one node is taken from what its parent has of its own. -/
theorem own_add_single (hy : y ∈ nodes) (x : ι) :
    own nodes parent (f + Pi.single y n) x
      = own nodes parent f x + (if x = y then n else 0)
          - if parent y = some x then n else 0 := by
  have hsum : ∑ c ∈ children nodes parent x, (Pi.single y n : ι → M) c
      = if parent y = some x then n else 0 := by
    rw [Finset.sum_pi_single']
    by_cases h : parent y = some x
    · rw [if_pos h, if_pos (mem_children.mpr ⟨hy, h⟩)]
    · rw [if_neg h, if_neg fun hmem => h (mem_children.mp hmem).2]
  simp only [own, Pi.add_apply, Finset.sum_add_distrib, hsum]
  rw [Pi.single_apply]
  abel

/-- A change along the path to the root changes the own share of its first node only:
the share a parent loses to its child it gets back in the next step. -/
theorem own_addAlong {path : List ι} (h : PathToRoot nodes parent y path) (f : ι → M) (x : ι) :
    own nodes parent (addAlong path n f) x
      = own nodes parent f x + if x = y then n else 0 := by
  induction h generalizing f with
  | @root y mem top =>
    rw [addAlong, List.foldl_cons, List.foldl_nil, own_add_single mem, top,
      if_neg (Option.some_ne_none x).symm, sub_zero]
  | @step y p path mem up rest ih =>
    have hup : (some p = some x) ↔ x = p := by rw [Option.some_inj, eq_comm]
    calc own nodes parent (addAlong (y :: path) n f) x
        = own nodes parent (addAlong path n (f + Pi.single y n)) x := rfl
      _ = own nodes parent f x + (if x = y then n else 0)
            - (if x = p then n else 0) + (if x = p then n else 0) := by
          rw [ih, own_add_single mem, up]
          simp only [hup]
      _ = own nodes parent f x + if x = y then n else 0 := sub_add_cancel _ _

/-- On a path without repetitions each node is changed once. -/
theorem addAlong_apply {path : List ι} (h : path.Nodup) (f : ι → M) (x : ι) :
    addAlong path n f x = f x + if x ∈ path then n else 0 := by
  induction path generalizing f with
  | nil => simp [addAlong]
  | cons y path ih =>
    obtain ⟨hy, hpath⟩ := List.nodup_cons.mp h
    rw [show addAlong (y :: path) n f x = addAlong path n (f + Pi.single y n) x from rfl, ih hpath,
      Pi.add_apply, Pi.single_apply, add_assoc]
    congr 1
    by_cases hxy : x = y
    · subst hxy
      rw [if_pos rfl, if_neg hy, add_zero, if_pos List.mem_cons_self]
    · rw [if_neg hxy, zero_add]
      simp only [List.mem_cons, hxy, false_or]

/-- All nodes of a path but the first have a child. -/
theorem PathToRoot.eq_or_nonempty {path : List ι} (h : PathToRoot nodes parent x path) :
    ∀ y ∈ path, y = x ∨ (children nodes parent y).Nonempty := by
  induction h with
  | root => exact fun y hy => .inl (List.mem_singleton.mp hy)
  | step mem up rest ih =>
    intro y hy
    rcases List.mem_cons.mp hy with rfl | hy
    · exact .inl rfl
    · rcases ih y hy with rfl | hne
      · exact .inr ⟨_, mem_children.mpr ⟨mem, up⟩⟩
      · exact .inr hne

/-- Where no own share is negative no quantity is: by induction from the leaves, whose
rank is least, to the roots. -/
theorem nonneg_of_own [PartialOrder M] [IsOrderedAddMonoid M] {rank : ι → ℕ}
    (hrank : ∀ c ∈ nodes, ∀ p, parent c = some p → rank c < rank p)
    (hown : ∀ x, 0 ≤ own nodes parent f x) (x : ι) : 0 ≤ f x := by
  induction hx : rank x using Nat.strong_induction_on generalizing x with
  | _ r ih =>
    subst hx
    have hsum : 0 ≤ ∑ c ∈ children nodes parent x, f c := by
      refine Finset.sum_nonneg fun c hc => ?_
      obtain ⟨hmem, hparent⟩ := mem_children.mp hc
      exact ih (rank c) (hrank c hmem x hparent) c rfl
    calc (0 : M) ≤ own nodes parent f x + ∑ c ∈ children nodes parent x, f c :=
          add_nonneg (hown x) hsum
      _ = f x := sub_add_cancel _ _

end Forest

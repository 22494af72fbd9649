/-
Total correctness of exception and state-exception programs.

A library of its own.  `Completes` is the triple of a program that may raise
and keeps a state: from every state with the precondition it returns, and the
result and the final state satisfy the postcondition.  The rules are the usual
ones for a return, a sequence and a change of conditions.

Main results:
* `Except.mapM_eq_ok` — a traversal none of whose steps raises;
* `Completes.bind`, `Completes.pure`, `Completes.mono`, `Completes.lift`.
-/
import Mathlib

namespace ExceptState

universe u v

variable {ε : Type v} {σ α β : Type u}

theorem ok_bind {ε : Type v} {α β : Type u} (a : α) (f : α → Except ε β) :
    (Except.ok a >>= f) = f a := rfl

/-- A traversal whose steps all return is the map of what they return. -/
theorem mapM_eq_ok {f : α → Except ε β} {g : α → β} {l : List α} (h : ∀ a ∈ l, f a = .ok (g a)) :
    l.mapM f = .ok (l.map g) := by
  induction l with
  | nil => rfl
  | cons a l ih =>
    rw [List.mapM_cons, h a List.mem_cons_self, ih fun b hb => h b (List.mem_cons_of_mem a hb)]
    rfl

/-- A traversal whose steps all return returns, element by element. -/
theorem exists_mapM_eq_ok {f : α → Except ε β} {P : α → β → Prop} {l : List α}
    (h : ∀ a ∈ l, ∃ b, f a = .ok b ∧ P a b) : ∃ bs, l.mapM f = .ok bs ∧ List.Forall₂ P l bs := by
  induction l with
  | nil => exact ⟨[], rfl, .nil⟩
  | cons a l ih =>
    obtain ⟨⟨b, hb, hP⟩, hl⟩ := List.forall_mem_cons.mp h
    obtain ⟨bs, hbs, hall⟩ := ih hl
    refine ⟨b :: bs, ?_, .cons hP hall⟩
    rw [List.mapM_cons, hb, hbs]
    rfl

/-- Every step of a traversal that returns has returned. -/
theorem forall₂_of_mapM_eq_ok {f : α → Except ε β} {l : List α} {bs : List β}
    (h : l.mapM f = .ok bs) : List.Forall₂ (fun a b => f a = .ok b) l bs := by
  induction l generalizing bs with
  | nil =>
    cases h
    exact .nil
  | cons a l ih =>
    rw [List.mapM_cons] at h
    cases ha : f a with
    | error e =>
      rw [ha] at h
      cases h
    | ok b =>
      cases hl : l.mapM f with
      | error e =>
        rw [ha, hl] at h
        cases h
      | ok bs' =>
        rw [ha, hl] at h
        cases h
        exact .cons ha (ih hl)

/-- An element of the second list has a related one in the first. -/
theorem exists_mem_of_forall₂ {R : α → β → Prop} {as : List α} {bs : List β}
    (h : List.Forall₂ R as bs) {b : β} (hb : b ∈ bs) : ∃ a ∈ as, R a b := by
  induction h with
  | nil => cases hb
  | @cons a b' as bs hR _ ih =>
    rcases List.mem_cons.mp hb with rfl | hb
    · exact ⟨a, List.mem_cons_self, hR⟩
    · obtain ⟨a', ha', hR'⟩ := ih hb
      exact ⟨a', List.mem_cons_of_mem a ha', hR'⟩

/-- A traversal returns exactly what its steps do. -/
theorem mapM_eq_ok_iff {f : α → Except ε β} {l : List α} {bs : List β} :
    l.mapM f = .ok bs ↔ List.Forall₂ (fun a b => f a = .ok b) l bs := by
  refine ⟨forall₂_of_mapM_eq_ok, fun h => ?_⟩
  induction h with
  | nil => rfl
  | cons hab _ ih =>
    rw [List.mapM_cons, hab, ih]
    rfl

theorem mapM_cons_eq_ok_iff {f : α → Except ε β} {a : α} {l : List α} {bs : List β} :
    (a :: l).mapM f = .ok bs ↔ ∃ b bs', f a = .ok b ∧ l.mapM f = .ok bs' ∧ bs = b :: bs' := by
  rw [mapM_eq_ok_iff, List.forall₂_cons_left_iff]
  simp only [mapM_eq_ok_iff]

/-- Two traversals in a row. -/
theorem mapM_mapM_eq_ok_iff {γ : Type u} {f : α → Except ε β} {g : β → Except ε γ} {l : List α}
    {cs : List γ} : (∃ bs, l.mapM f = .ok bs ∧ bs.mapM g = .ok cs) ↔
      l.mapM (fun a => f a >>= g) = .ok cs := by
  induction l generalizing cs with
  | nil =>
    constructor
    · rintro ⟨bs, hbs, hcs⟩
      cases hbs
      exact hcs
    · exact fun h => ⟨[], rfl, h⟩
  | cons a l ih =>
    rw [mapM_cons_eq_ok_iff]
    constructor
    · rintro ⟨bs, hbs, hcs⟩
      obtain ⟨b, bs', hb, hbs', rfl⟩ := mapM_cons_eq_ok_iff.mp hbs
      obtain ⟨c, cs', hc, hcs', rfl⟩ := mapM_cons_eq_ok_iff.mp hcs
      exact ⟨c, cs', by rw [hb]; exact hc, ih.mp ⟨bs', hbs', hcs'⟩, rfl⟩
    · rintro ⟨c, cs', hc, hcs', rfl⟩
      obtain ⟨bs', hbs', hcs'⟩ := ih.mpr hcs'
      cases hb : f a with
      | error e =>
        rw [hb] at hc
        cases hc
      | ok b =>
        rw [hb] at hc
        exact ⟨b :: bs', mapM_cons_eq_ok_iff.mpr ⟨b, bs', hb, hbs', rfl⟩,
          mapM_cons_eq_ok_iff.mpr ⟨c, cs', hc, hcs', rfl⟩⟩

/-- A traversal in another order. -/
theorem mapM_perm {f : α → Except ε β} {l l' : List α} (h : l.Perm l') {bs : List β}
    (hbs : l.mapM f = .ok bs) : ∃ bs', l'.mapM f = .ok bs' ∧ bs.Perm bs' := by
  obtain ⟨bs', hperm, hall⟩ := List.perm_comp_forall₂ h.symm (mapM_eq_ok_iff.mp hbs)
  exact ⟨bs', mapM_eq_ok_iff.mpr hperm, hall.symm⟩

/-- A traversal of the chosen elements gives the results that are chosen. -/
theorem mapM_filter_eq_ok {f : α → Except ε β} {p : α → Bool} {q : β → Bool} {l : List α}
    {bs : List β} (h : l.mapM f = .ok bs) (hpq : ∀ a ∈ l, ∀ b, f a = .ok b → p a = q b) :
    (l.filter p).mapM f = .ok (bs.filter q) := by
  induction l generalizing bs with
  | nil =>
    cases h
    rfl
  | cons a l ih =>
    obtain ⟨b, bs', hb, hbs', rfl⟩ := mapM_cons_eq_ok_iff.mp h
    obtain ⟨hhead, htail⟩ := List.forall_mem_cons.mp hpq
    rw [List.filter_cons, List.filter_cons, hhead b hb]
    split
    · exact mapM_cons_eq_ok_iff.mpr ⟨b, _, hb, ih hbs' htail, rfl⟩
    · exact ih hbs' htail

theorem ok_of_mapM_eq_ok {f : α → Except ε β} {l : List α} {bs : List β} (h : l.mapM f = .ok bs) :
    ∀ a ∈ l, ∃ b, f a = .ok b := by
  have hall := forall₂_of_mapM_eq_ok h
  clear h
  induction hall with
  | nil => exact fun a ha => absurd ha List.not_mem_nil
  | cons hab _ ih => exact List.forall_mem_cons.mpr ⟨⟨_, hab⟩, ih⟩

/-- The result of an element is among those of the traversal. -/
theorem mem_of_mapM_eq_ok' {f : α → Except ε β} {l : List α} {bs : List β} (h : l.mapM f = .ok bs)
    {a : α} {b : β} (ha : a ∈ l) (hb : f a = .ok b) : b ∈ bs := by
  induction l generalizing bs with
  | nil => exact absurd ha List.not_mem_nil
  | cons first l ih =>
    obtain ⟨b', bs', hb', hbs', rfl⟩ := mapM_cons_eq_ok_iff.mp h
    rcases List.mem_cons.mp ha with rfl | ha
    · cases hb.symm.trans hb'
      exact List.mem_cons_self
    · exact List.mem_cons_of_mem _ (ih hbs' ha)

theorem mem_of_mapM_eq_ok {f : α → Except ε β} {l : List α} {bs : List β} (h : l.mapM f = .ok bs)
    {b : β} (hb : b ∈ bs) : ∃ a ∈ l, f a = .ok b :=
  exists_mem_of_forall₂ (forall₂_of_mapM_eq_ok h) hb

/-- A sequence that returns: so did its first part, and the rest of it. -/
theorem bind_eq_ok {x : Except ε α} {f : α → Except ε β} {b : β} (h : (x >>= f) = .ok b) :
    ∃ a, x = .ok a ∧ f a = .ok b := by
  cases x with
  | error e => cases h
  | ok a => exact ⟨a, rfl, h⟩

/-- What every step keeps, the whole loop keeps. -/
theorem foldlM_invariant {f : β → α → Except ε β} {P : β → Prop} {l : List α}
    (hstep : ∀ a ∈ l, ∀ b b', P b → f b a = .ok b' → P b') {start final : β} (hstart : P start)
    (h : l.foldlM f start = .ok final) : P final := by
  induction l generalizing start with
  | nil =>
    cases h
    exact hstart
  | cons a l ih =>
    rw [List.foldlM_cons] at h
    obtain ⟨next, hnext, h⟩ := bind_eq_ok h
    exact ih (fun b hb => hstep b (List.mem_cons_of_mem a hb))
      (hstep a List.mem_cons_self start next hstart hnext) h

theorem bind_eq_ok_iff {x : Except ε α} {f : α → Except ε β} {b : β} :
    (x >>= f) = .ok b ↔ ∃ a, x = .ok a ∧ f a = .ok b := by
  refine ⟨bind_eq_ok, ?_⟩
  rintro ⟨a, rfl, h⟩
  exact h

theorem map_eq_ok_iff {x : Except ε α} {f : α → β} {b : β} :
    x.map f = .ok b ↔ ∃ a, x = .ok a ∧ b = f a := by
  cases x with
  | error e => exact iff_of_false (fun h => by cases h) fun ⟨_, h, _⟩ => by cases h
  | ok a =>
    constructor
    · intro h
      cases h
      exact ⟨a, rfl, rfl⟩
    · rintro ⟨_, h, rfl⟩
      cases h
      rfl

/-- What a traversal returns is changed element by element. -/
theorem map_mapM {γ : Type u} (f : α → Except ε β) (g : β → γ) (l : List α) :
    (l.mapM f).map (List.map g) = l.mapM fun a => (f a).map g := by
  induction l with
  | nil => rfl
  | cons a l ih =>
    rw [List.mapM_cons, List.mapM_cons, ← ih]
    cases f a with
    | error e => rfl
    | ok b => cases l.mapM f <;> rfl

/-- From any state satisfying `pre` the program returns, in a state and with a
result satisfying `post`. -/
def Completes (pre : σ → Prop) (x : StateT σ (Except ε) α) (post : α → σ → Prop) : Prop :=
  ∀ s, pre s → ∃ a s', x.run s = .ok (a, s') ∧ post a s'

namespace Completes

variable {pre pre' : σ → Prop} {x : StateT σ (Except ε) α} {post post' : α → σ → Prop}

theorem pure {a : α} (h : ∀ s, pre s → post a s) :
    Completes pre (Pure.pure a : StateT σ (Except ε) α) post :=
  fun s hs => ⟨a, s, rfl, h s hs⟩

/-- A sequence completes if its first part does and the rest does from what that leaves. -/
theorem bind {f : α → StateT σ (Except ε) β} {mid : α → σ → Prop} {post : β → σ → Prop}
    (hx : Completes pre x mid) (hf : ∀ a, Completes (mid a) (f a) post) :
    Completes pre (x >>= f) post := by
  intro s hs
  obtain ⟨a, s', hrun, hmid⟩ := hx s hs
  obtain ⟨b, s'', hrun', hpost⟩ := hf a s' hmid
  refine ⟨b, s'', ?_, hpost⟩
  rw [StateT.run_bind, hrun]
  exact hrun'

theorem mono (hx : Completes pre x post) (hpre : ∀ s, pre' s → pre s)
    (hpost : ∀ a s, post a s → post' a s) : Completes pre' x post' := by
  intro s hs
  obtain ⟨a, s', hrun, h⟩ := hx s (hpre s hs)
  exact ⟨a, s', hrun, hpost a s' h⟩

/-- A program that only may raise, and does not. -/
theorem lift {y : Except ε α} {a : α} (hy : y = .ok a) (h : ∀ s, pre s → post a s) :
    Completes pre (liftM y : StateT σ (Except ε) α) post := by
  intro s hs
  subst hy
  exact ⟨a, s, rfl, h s hs⟩

end Completes

end ExceptState

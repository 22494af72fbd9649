/-
Joins of bags.

A library of its own.  A `BagJoin` says which pairs match, what a pair and an
unmatched element give, and which sides keep their unmatched elements; `bag` is
what the join gives on two multisets.  Equi-joins are the case where matching
means equal keys.

Main results:
* `BagJoin.bag_swap` — a join read from the other side;
* `BagJoin.bag_add` — two joins that share no match may be computed apart;
* `BagJoin.bag_eq_sum` — a join may be computed class by class, when matching
  elements fall into one class;
* `BagJoin.sum_bag_eq_iff` — when joining one side piece by piece is joining it;
* `BagJoin.filter_bag_left` — when a condition may be tested before a join;
* `BagJoin.coe_nestedLoop` — the nested loop over a build and a probe list.
-/
import Mathlib

/-- What a join does, side by side. -/
structure BagJoin (α β γ : Type*) where
  Matches : α → β → Prop
  decidable : ∀ a b, Decidable (Matches a b)
  pair : α → β → γ
  padLeft : α → γ
  padRight : β → γ
  keepLeft : Bool
  keepRight : Bool

namespace BagJoin

variable {α β γ : Type*}

instance (J : BagJoin α β γ) (a : α) (b : β) : Decidable (J.Matches a b) := J.decidable a b

/-- The matching pairs. -/
def pairs (J : BagJoin α β γ) (L : Multiset α) (R : Multiset β) : Multiset γ :=
  L.bind fun a => (R.filter (J.Matches a)).map (J.pair a)

/-- The padded left elements without a match, if the left side is kept. -/
def leftOver (J : BagJoin α β γ) (L : Multiset α) (R : Multiset β) : Multiset γ :=
  if J.keepLeft then (L.filter fun a => ∀ b ∈ R, ¬J.Matches a b).map J.padLeft else 0

/-- The padded right elements without a match, if the right side is kept. -/
def rightOver (J : BagJoin α β γ) (L : Multiset α) (R : Multiset β) : Multiset γ :=
  if J.keepRight then (R.filter fun b => ∀ a ∈ L, ¬J.Matches a b).map J.padRight else 0

/-- The bag a join gives. -/
def bag (J : BagJoin α β γ) (L : Multiset α) (R : Multiset β) : Multiset γ :=
  J.pairs L R + J.leftOver L R + J.rightOver L R

/-- The join read from the other side. -/
def swap (J : BagJoin α β γ) : BagJoin β α γ where
  Matches b a := J.Matches a b
  decidable b a := J.decidable a b
  pair b a := J.pair a b
  padLeft := J.padRight
  padRight := J.padLeft
  keepLeft := J.keepRight
  keepRight := J.keepLeft

variable (J : BagJoin α β γ)

private theorem filter_map_eq_bind (s : Multiset α) (p : α → Prop) [DecidablePred p] (f : α → γ) :
    (s.filter p).map f = s.bind fun a => if p a then {f a} else 0 := by
  induction s using Multiset.induction with
  | empty => simp
  | cons a s ih =>
    rw [Multiset.cons_bind, ← ih, Multiset.filter_cons, Multiset.map_add]
    split <;> simp

theorem pairs_swap (L : Multiset α) (R : Multiset β) : J.swap.pairs R L = J.pairs L R := by
  simp only [pairs, filter_map_eq_bind]
  exact Multiset.bind_bind R L

theorem bag_swap (L : Multiset α) (R : Multiset β) : J.swap.bag R L = J.bag L R := by
  rw [bag, bag, pairs_swap, add_right_comm]
  rfl

/-! ### Splitting a join -/

theorem pairs_add_left (L₁ L₂ : Multiset α) (R : Multiset β) :
    J.pairs (L₁ + L₂) R = J.pairs L₁ R + J.pairs L₂ R :=
  Multiset.add_bind L₁ L₂ _

theorem pairs_add_right (L : Multiset α) (R₁ R₂ : Multiset β) :
    J.pairs L (R₁ + R₂) = J.pairs L R₁ + J.pairs L R₂ := by
  rw [← pairs_swap, pairs_add_left, pairs_swap, pairs_swap]

theorem pairs_eq_zero {L : Multiset α} {R : Multiset β} (h : ∀ a ∈ L, ∀ b ∈ R, ¬J.Matches a b) :
    J.pairs L R = 0 := by
  refine Multiset.eq_zero_of_forall_notMem fun c hc => ?_
  obtain ⟨a, ha, hc⟩ := Multiset.mem_bind.mp hc
  obtain ⟨b, hb, -⟩ := Multiset.mem_map.mp hc
  obtain ⟨hb, hm⟩ := Multiset.mem_filter.mp hb
  exact h a ha b hb hm

theorem leftOver_add_left (L₁ L₂ : Multiset α) (R : Multiset β) :
    J.leftOver (L₁ + L₂) R = J.leftOver L₁ R + J.leftOver L₂ R := by
  unfold leftOver
  split
  · rw [Multiset.filter_add, Multiset.map_add]
  · rfl

/-- Right elements that match nothing on the left do not matter to what is left over. -/
theorem leftOver_add_right {L : Multiset α} {R' : Multiset β}
    (h : ∀ a ∈ L, ∀ b ∈ R', ¬J.Matches a b) (R : Multiset β) :
    J.leftOver L (R + R') = J.leftOver L R := by
  unfold leftOver
  split
  · refine congrArg (Multiset.map J.padLeft) (Multiset.filter_congr fun a ha => ?_)
    constructor
    · exact fun hn b hb => hn b (Multiset.mem_add.mpr (Or.inl hb))
    · intro hn b hb
      rcases Multiset.mem_add.mp hb with hb | hb
      · exact hn b hb
      · exact h a ha b hb
  · rfl

/-- What is left over of two joins that share no match. -/
theorem leftOver_add {L₁ L₂ : Multiset α} {R₁ R₂ : Multiset β}
    (h₁ : ∀ a ∈ L₁, ∀ b ∈ R₂, ¬J.Matches a b) (h₂ : ∀ a ∈ L₂, ∀ b ∈ R₁, ¬J.Matches a b) :
    J.leftOver (L₁ + L₂) (R₁ + R₂) = J.leftOver L₁ R₁ + J.leftOver L₂ R₂ := by
  rw [leftOver_add_left, J.leftOver_add_right h₁, add_comm R₁ R₂, J.leftOver_add_right h₂]

theorem rightOver_add {L₁ L₂ : Multiset α} {R₁ R₂ : Multiset β}
    (h₁ : ∀ a ∈ L₁, ∀ b ∈ R₂, ¬J.Matches a b) (h₂ : ∀ a ∈ L₂, ∀ b ∈ R₁, ¬J.Matches a b) :
    J.rightOver (L₁ + L₂) (R₁ + R₂) = J.rightOver L₁ R₁ + J.rightOver L₂ R₂ :=
  J.swap.leftOver_add (fun b hb a ha => h₂ a ha b hb) fun b hb a ha => h₁ a ha b hb

/-- Two joins that share no match may be computed apart. -/
theorem bag_add {L₁ L₂ : Multiset α} {R₁ R₂ : Multiset β}
    (h₁ : ∀ a ∈ L₁, ∀ b ∈ R₂, ¬J.Matches a b) (h₂ : ∀ a ∈ L₂, ∀ b ∈ R₁, ¬J.Matches a b) :
    J.bag (L₁ + L₂) (R₁ + R₂) = J.bag L₁ R₁ + J.bag L₂ R₂ := by
  have hpairs : J.pairs (L₁ + L₂) (R₁ + R₂) = J.pairs L₁ R₁ + J.pairs L₂ R₂ := by
    rw [pairs_add_left, pairs_add_right, pairs_add_right, J.pairs_eq_zero h₁,
      J.pairs_eq_zero h₂, add_zero, zero_add]
  simp only [bag, hpairs, J.leftOver_add h₁ h₂, J.rightOver_add h₁ h₂]
  ac_rfl

/-- What an unmatched left element gives. -/
def leftUnit (a : α) : List γ := if J.keepLeft then [J.padLeft a] else []

/-- What an unmatched right element gives. -/
def rightUnit (b : β) : List γ := if J.keepRight then [J.padRight b] else []

theorem bag_left_zero (a : α) : J.bag {a} 0 = J.leftUnit a := by
  unfold bag leftOver leftUnit
  cases J.keepLeft <;> simp [pairs, rightOver]

theorem bag_cons_left {a : α} {R : Multiset β} (h : ∀ b ∈ R, ¬J.Matches a b) (L : Multiset α) :
    J.bag (a ::ₘ L) R = J.leftUnit a + J.bag L R := by
  rw [← bag_left_zero, ← J.bag_add (by simpa using h) (by simp), zero_add,
    Multiset.singleton_add]

theorem bag_cons_right {b : β} {L : Multiset α} (h : ∀ a ∈ L, ¬J.Matches a b) (R : Multiset β) :
    J.bag L (b ::ₘ R) = J.rightUnit b + J.bag L R := by
  rw [← bag_swap, J.swap.bag_cons_left h, bag_swap]
  rfl

@[simp] theorem bag_zero : J.bag 0 0 = 0 := by simp [bag, pairs, leftOver, rightOver]

theorem bag_eq_zero_left (L : Multiset α) :
    J.bag L 0 = L.bind fun a => (J.leftUnit a : Multiset γ) := by
  induction L using Multiset.induction with
  | empty => simp
  | cons a L ih => rw [J.bag_cons_left (by simp), ih, Multiset.cons_bind]

theorem bag_eq_zero_right (R : Multiset β) :
    J.bag 0 R = R.bind fun b => (J.rightUnit b : Multiset γ) := by
  rw [← bag_swap, bag_eq_zero_left]
  rfl

/-- A join of two groups in which everything matches is their product. -/
theorem bag_of_forall {L : Multiset α} {R : Multiset β} (h : ∀ a ∈ L, ∀ b ∈ R, J.Matches a b)
    (hL : L ≠ 0) (hR : R ≠ 0) : J.bag L R = L.bind fun a => R.map (J.pair a) := by
  obtain ⟨a, ha⟩ := Multiset.exists_mem_of_ne_zero hL
  obtain ⟨b, hb⟩ := Multiset.exists_mem_of_ne_zero hR
  have hleft : J.leftOver L R = 0 := by
    unfold leftOver
    split
    · rw [Multiset.filter_eq_nil.mpr fun a ha hn => hn b hb (h a ha b hb), Multiset.map_zero]
    · rfl
  have hright : J.rightOver L R = 0 := by
    unfold rightOver
    split
    · rw [Multiset.filter_eq_nil.mpr fun b hb hn => hn a ha (h a ha b hb), Multiset.map_zero]
    · rfl
  rw [bag, hleft, hright, add_zero, add_zero, pairs]
  exact Multiset.bind_congr fun a ha => by rw [Multiset.filter_eq_self.mpr fun b hb => h a ha b hb]

private theorem filter_mem_insert {ι : Type*} [DecidableEq ι] (f : α → ι) {i : ι} {s : Finset ι}
    (hi : i ∉ s) (M : Multiset α) :
    M.filter (fun x => f x ∈ insert i s)
      = M.filter (fun x => f x = i) + M.filter fun x => f x ∈ s := by
  have hnone : M.filter (fun x => f x = i ∧ f x ∈ s) = 0 := by
    refine Multiset.filter_eq_nil.mpr ?_
    rintro x - ⟨rfl, hx⟩
    exact hi hx
  rw [Multiset.filter_add_filter, hnone, add_zero]
  exact Multiset.filter_congr fun x _ => Finset.mem_insert

/-- What may be computed apart of two joins that share no match may be computed class by
class, if matching elements share a class. -/
private theorem eq_sum_of_add {F : Multiset α → Multiset β → Multiset γ} (hzero : F 0 0 = 0)
    (hadd : ∀ {L₁ L₂ : Multiset α} {R₁ R₂ : Multiset β},
      (∀ a ∈ L₁, ∀ b ∈ R₂, ¬J.Matches a b) → (∀ a ∈ L₂, ∀ b ∈ R₁, ¬J.Matches a b) →
      F (L₁ + L₂) (R₁ + R₂) = F L₁ R₁ + F L₂ R₂)
    {ι : Type*} [Fintype ι] [DecidableEq ι] {f : α → ι} {g : β → ι}
    {L : Multiset α} {R : Multiset β} (h : ∀ a ∈ L, ∀ b ∈ R, J.Matches a b → f a = g b) :
    F L R = ∑ i, F (L.filter fun a => f a = i) (R.filter fun b => g b = i) := by
  have hclasses : ∀ s : Finset ι, F (L.filter fun a => f a ∈ s) (R.filter fun b => g b ∈ s)
      = ∑ i ∈ s, F (L.filter fun a => f a = i) (R.filter fun b => g b = i) := by
    intro s
    induction s using Finset.induction with
    | empty => simp [hzero]
    | insert i s hi ih =>
      rw [Finset.sum_insert hi, ← ih, filter_mem_insert f hi, filter_mem_insert g hi]
      refine hadd (fun a ha b hb hm => ?_) fun a ha b hb hm => ?_
      · obtain ⟨haL, rfl⟩ := Multiset.mem_filter.mp ha
        obtain ⟨hbR, hs⟩ := Multiset.mem_filter.mp hb
        exact hi (h a haL b hbR hm ▸ hs)
      · obtain ⟨haL, hs⟩ := Multiset.mem_filter.mp ha
        obtain ⟨hbR, rfl⟩ := Multiset.mem_filter.mp hb
        exact hi (h a haL b hbR hm ▸ hs)
  simpa using hclasses Finset.univ

section Classes

variable {ι : Type*} [Fintype ι] [DecidableEq ι] {f : α → ι} {g : β → ι} {L : Multiset α}
  {R : Multiset β} (h : ∀ a ∈ L, ∀ b ∈ R, J.Matches a b → f a = g b)

include h

/-- A join is the sum of the joins of the classes, if matching elements share a class. -/
theorem bag_eq_sum :
    J.bag L R = ∑ i, J.bag (L.filter fun a => f a = i) (R.filter fun b => g b = i) :=
  J.eq_sum_of_add J.bag_zero J.bag_add h

theorem leftOver_eq_sum :
    J.leftOver L R = ∑ i, J.leftOver (L.filter fun a => f a = i) (R.filter fun b => g b = i) :=
  J.eq_sum_of_add (by simp [leftOver]) J.leftOver_add h

theorem rightOver_eq_sum :
    J.rightOver L R = ∑ i, J.rightOver (L.filter fun a => f a = i) (R.filter fun b => g b = i) :=
  J.eq_sum_of_add (by simp [rightOver]) J.rightOver_add h

end Classes

/-- A join gives nothing if no pair matches and the sides it keeps are empty. -/
theorem bag_eq_zero_iff {L : Multiset α} {R : Multiset β} : J.bag L R = 0 ↔
    (∀ a ∈ L, ∀ b ∈ R, ¬J.Matches a b) ∧ (J.keepLeft = true → L = 0) ∧
      (J.keepRight = true → R = 0) := by
  constructor
  · intro h
    have hsum : (J.pairs L R = 0 ∧ J.leftOver L R = 0) ∧ J.rightOver L R = 0 := by
      have hcard := congrArg Multiset.card h
      rw [bag, Multiset.card_add, Multiset.card_add, Multiset.card_zero] at hcard
      refine ⟨⟨?_, ?_⟩, ?_⟩ <;> exact Multiset.card_eq_zero.mp (by omega)
    obtain ⟨⟨hpairs, hleft⟩, hright⟩ := hsum
    have hnone : ∀ a ∈ L, ∀ b ∈ R, ¬J.Matches a b := by
      intro a ha b hb hm
      have hmem : J.pair a b ∈ J.pairs L R := Multiset.mem_bind.mpr
        ⟨a, ha, Multiset.mem_map.mpr ⟨b, Multiset.mem_filter.mpr ⟨hb, hm⟩, rfl⟩⟩
      rw [hpairs] at hmem
      exact Multiset.notMem_zero _ hmem
    refine ⟨hnone, fun hkeep => ?_, fun hkeep => ?_⟩
    · rw [leftOver, if_pos hkeep, Multiset.map_eq_zero,
        Multiset.filter_eq_self.mpr fun a ha => hnone a ha] at hleft
      exact hleft
    · rw [rightOver, if_pos hkeep, Multiset.map_eq_zero,
        Multiset.filter_eq_self.mpr fun b hb a ha => hnone a ha b hb] at hright
      exact hright
  · rintro ⟨hnone, hleft, hright⟩
    rw [bag, J.pairs_eq_zero hnone, leftOver, rightOver]
    split <;> split <;> simp_all

/-- Copies of a bag are the bag only if there is one copy or nothing in it. -/
theorem nsmul_eq_self_iff {s : Multiset γ} (n : ℕ) : n • s = s ↔ n = 1 ∨ s = 0 := by
  constructor
  · intro h
    have hcard := congrArg Multiset.card h
    rw [Multiset.card_nsmul] at hcard
    rcases Nat.eq_zero_or_pos s.card with hs | hs
    · exact Or.inr (Multiset.card_eq_zero.mp hs)
    · exact Or.inl (Nat.eq_of_mul_eq_mul_right hs (hcard.trans (one_mul _).symm))
  · rintro (rfl | rfl)
    · exact one_nsmul s
    · exact nsmul_zero n

/-! ### Selecting before and after a join -/

/-- A condition on left elements may be tested before a join that drops unmatched right
elements. -/
theorem filter_bag_left {P : γ → Prop} {Q : α → Prop} [DecidablePred P] [DecidablePred Q]
    {L : Multiset α} {R : Multiset β} (hkeep : J.keepRight = false)
    (hpair : ∀ a ∈ L, ∀ b ∈ R, P (J.pair a b) ↔ Q a) (hpad : ∀ a ∈ L, P (J.padLeft a) ↔ Q a) :
    (J.bag L R).filter P = J.bag (L.filter Q) R := by
  have hpairs : (J.pairs L R).filter P = J.pairs (L.filter Q) R := by
    unfold pairs
    rw [Multiset.filter_bind]
    clear hpad
    induction L using Multiset.induction with
    | empty => simp
    | cons a L ih =>
      obtain ⟨ha, hL⟩ := Multiset.forall_mem_cons.mp hpair
      rw [Multiset.cons_bind, ih hL, Multiset.filter_cons, Multiset.add_bind, Multiset.filter_map]
      congr 1
      by_cases hQ : Q a
      · rw [if_pos hQ, Multiset.singleton_bind, Multiset.filter_eq_self.mpr]
        exact fun b hb => (ha b (Multiset.mem_of_mem_filter hb)).mpr hQ
      · rw [if_neg hQ, Multiset.zero_bind, Multiset.filter_eq_nil.mpr, Multiset.map_zero]
        exact fun b hb hP => hQ ((ha b (Multiset.mem_of_mem_filter hb)).mp hP)
  have hleft : (J.leftOver L R).filter P = J.leftOver (L.filter Q) R := by
    unfold leftOver
    split
    · rw [Multiset.filter_map, Multiset.filter_filter, Multiset.filter_filter]
      refine congrArg (Multiset.map J.padLeft) (Multiset.filter_congr fun a ha => ?_)
      rw [and_comm]
      exact and_congr_right fun _ => hpad a ha
    · exact Multiset.filter_zero P
  have hright : ∀ L : Multiset α, J.rightOver L R = 0 := fun L => if_neg (by rw [hkeep]; decide)
  rw [bag, bag, hright, hright, add_zero, add_zero, Multiset.filter_add, hpairs, hleft]

theorem filter_bag_right {P : γ → Prop} {Q : β → Prop} [DecidablePred P] [DecidablePred Q]
    {L : Multiset α} {R : Multiset β} (hkeep : J.keepLeft = false)
    (hpair : ∀ a ∈ L, ∀ b ∈ R, P (J.pair a b) ↔ Q b) (hpad : ∀ b ∈ R, P (J.padRight b) ↔ Q b) :
    (J.bag L R).filter P = J.bag L (R.filter Q) := by
  rw [← J.bag_swap L R, ← J.bag_swap L,
    J.swap.filter_bag_left hkeep (fun b hb a ha => hpair a ha b hb) hpad]

/-! ### Joining one side piece by piece -/

theorem rightOver_add_right (L : Multiset α) (R₁ R₂ : Multiset β) :
    J.rightOver L (R₁ + R₂) = J.rightOver L R₁ + J.rightOver L R₂ :=
  J.swap.leftOver_add_left R₁ R₂ L

/-- The pieces give all pairs and all unmatched right elements, but each keeps its
own unmatched left elements. -/
theorem sum_bag (L : Multiset α) (pieces : List (Multiset β)) :
    (pieces.map (J.bag L)).sum = J.pairs L pieces.sum + J.rightOver L pieces.sum
      + (pieces.map (J.leftOver L)).sum := by
  induction pieces with
  | nil => simp [pairs, rightOver]
  | cons R pieces ih =>
    simp only [List.map_cons, List.sum_cons, ih, pairs_add_right, rightOver_add_right, bag]
    ac_rfl

/-- The number of left elements left over. -/
def unmatchedCount (L : Multiset α) (R : Multiset β) : ℕ :=
  (L.filter fun a => ∀ b ∈ R, ¬J.Matches a b).card

theorem unmatchedCount_eq_zero {L : Multiset α} {R : Multiset β} :
    J.unmatchedCount L R = 0 ↔ ∀ a ∈ L, ∃ b ∈ R, J.Matches a b := by
  rw [unmatchedCount, Multiset.card_eq_zero, Multiset.filter_eq_nil]
  simp

theorem unmatchedCount_le {R R' : Multiset β} (h : R ≤ R') (L : Multiset α) :
    J.unmatchedCount L R' ≤ J.unmatchedCount L R :=
  Multiset.card_le_card (Multiset.monotone_filter_right L fun _ hn b hb =>
    hn b (Multiset.mem_of_le h hb))

theorem card_leftOver (h : J.keepLeft = true) (L : Multiset α) (R : Multiset β) :
    (J.leftOver L R).card = J.unmatchedCount L R := by
  rw [leftOver, if_pos h, Multiset.card_map, unmatchedCount]

theorem card_sum_leftOver (h : J.keepLeft = true) (L : Multiset α) (pieces : List (Multiset β)) :
    (pieces.map (J.leftOver L)).sum.card = (pieces.map (J.unmatchedCount L)).sum := by
  induction pieces with
  | nil => rfl
  | cons R pieces ih =>
    simp only [List.map_cons, List.sum_cons, Multiset.card_add, ih, J.card_leftOver h]

/-- Two or more pieces give the join exactly when nothing on the left is left over
from any of them, or the left side is not kept. -/
theorem sum_bag_eq_iff (L : Multiset α) (R₁ R₂ : Multiset β) (rest : List (Multiset β)) :
    ((R₁ :: R₂ :: rest).map (J.bag L)).sum = J.bag L (R₁ :: R₂ :: rest).sum ↔
      (J.keepLeft = true → ∀ R ∈ R₁ :: R₂ :: rest, ∀ a ∈ L, ∃ b ∈ R, J.Matches a b) := by
  rw [sum_bag, bag, add_right_comm (J.pairs L _) (J.leftOver L _), add_left_cancel_iff]
  by_cases hkeep : J.keepLeft = true
  · rw [imp_iff_right hkeep]
    have hle₁ : J.unmatchedCount L (R₁ :: R₂ :: rest).sum ≤ J.unmatchedCount L R₁ :=
      J.unmatchedCount_le (by rw [List.sum_cons]; exact Multiset.le_add_right _ _) L
    have hle₂ : J.unmatchedCount L (R₁ :: R₂ :: rest).sum ≤ J.unmatchedCount L R₂ := by
      refine J.unmatchedCount_le ?_ L
      rw [List.sum_cons, List.sum_cons, add_left_comm]
      exact Multiset.le_add_right _ _
    constructor
    · intro heq R hR
      have hcard := congrArg Multiset.card heq
      rw [J.card_sum_leftOver hkeep, J.card_leftOver hkeep] at hcard
      have hzero : J.unmatchedCount L (R₁ :: R₂ :: rest).sum = 0 := by
        rw [List.map_cons, List.map_cons, List.sum_cons, List.sum_cons] at hcard
        omega
      rw [hzero] at hcard
      exact J.unmatchedCount_eq_zero.mp
        (List.sum_eq_zero_iff_forall_eq_nat.mp hcard _ (List.mem_map_of_mem hR))
    · intro hall
      have hcount : ∀ R ∈ R₁ :: R₂ :: rest, J.unmatchedCount L R = 0 :=
        fun R hR => J.unmatchedCount_eq_zero.mpr (hall R hR)
      have hsum : (J.leftOver L (R₁ :: R₂ :: rest).sum).card = 0 := by
        rw [J.card_leftOver hkeep]
        exact Nat.le_zero.mp (hle₁.trans (hcount R₁ List.mem_cons_self).le)
      have hpieces : (((R₁ :: R₂ :: rest).map (J.leftOver L)).sum).card = 0 := by
        rw [J.card_sum_leftOver hkeep]
        refine List.sum_eq_zero fun n hn => ?_
        obtain ⟨R, hR, rfl⟩ := List.mem_map.mp hn
        exact hcount R hR
      rw [Multiset.card_eq_zero.mp hsum, Multiset.card_eq_zero.mp hpieces]
  · refine iff_of_true ?_ fun h => absurd h hkeep
    have hnone : ∀ R, J.leftOver L R = 0 := fun R => if_neg hkeep
    rw [hnone]
    refine List.sum_eq_zero fun M hM => ?_
    obtain ⟨R, -, rfl⟩ := List.mem_map.mp hM
    exact hnone R

/-! ### The nested loop -/

/-- What the probe element `b` gives against the build list `A`. -/
def probeStep (A : List α) (b : β) : List γ :=
  match A.filter fun a => J.Matches a b with
  | [] => J.rightUnit b
  | a :: rest => (a :: rest).map fun a => J.pair a b

/-- Probe every element of `B`, then add the build elements nothing matched. -/
def nestedLoop (A : List α) (B : List β) : List γ :=
  B.flatMap (J.probeStep A) ++
    (A.filter fun a => ∀ b ∈ B, ¬J.Matches a b).flatMap J.leftUnit

private theorem coe_flatMap {δ ε : Type*} (l : List δ) (f : δ → List ε) :
    ((l.flatMap f : List ε) : Multiset ε) = (l : Multiset δ).bind fun x => (f x : Multiset ε) := by
  rw [Multiset.coe_bind]

private theorem coe_probeStep (A : List α) (b : β) :
    (J.probeStep A b : Multiset γ)
      = ((A : Multiset α).filter fun a => J.Matches a b).map (fun a => J.pair a b)
        + if ∀ a ∈ A, ¬J.Matches a b then (J.rightUnit b : Multiset γ) else 0 := by
  unfold probeStep
  rw [Multiset.filter_coe, Multiset.map_coe]
  split
  case h_1 h =>
    rw [h, if_pos fun a ha hm => ?_]
    · rfl
    · have hmem : a ∈ A.filter fun a => J.Matches a b := List.mem_filter.mpr ⟨ha, by simpa⟩
      rw [h] at hmem
      cases hmem
  case h_2 a rest h =>
    have hmem : a ∈ A.filter fun a => J.Matches a b := h ▸ List.mem_cons_self
    rw [h, if_neg fun hn => hn a (List.mem_of_mem_filter hmem)
      (by simpa using (List.mem_filter.mp hmem).2), add_zero]

private theorem bind_ite (p : α → Prop) [DecidablePred p] (f : α → Multiset γ) (M : Multiset α) :
    (M.bind fun x => if p x then f x else 0) = (M.filter p).bind f := by
  induction M using Multiset.induction with
  | empty => simp
  | cons x M ih =>
    rw [Multiset.cons_bind, ih, Multiset.filter_cons, Multiset.add_bind]
    split <;> simp

/-- The nested loop gives the join. -/
theorem coe_nestedLoop (A : List α) (B : List β) : (J.nestedLoop A B : Multiset γ) = J.bag A B := by
  have hright : J.rightOver A B = (B : Multiset β).bind fun b =>
      if ∀ a ∈ A, ¬J.Matches a b then (J.rightUnit b : Multiset γ) else 0 := by
    rw [bind_ite]
    unfold rightOver rightUnit
    cases J.keepRight <;> simp [Multiset.bind_singleton]
  have hleft : J.leftOver A B = ((A.filter fun a => ∀ b ∈ B, ¬J.Matches a b).flatMap J.leftUnit :
      List γ) := by
    unfold leftOver
    rw [coe_flatMap, ← Multiset.filter_coe]
    unfold leftUnit
    cases J.keepLeft <;> simp [Multiset.bind_singleton]
  rw [nestedLoop, ← Multiset.coe_add, coe_flatMap, ← hleft, bag, add_right_comm, hright,
    ← pairs_swap, pairs, ← Multiset.bind_add]
  congr 1
  exact Multiset.bind_congr fun b _ => J.coe_probeStep A b

end BagJoin

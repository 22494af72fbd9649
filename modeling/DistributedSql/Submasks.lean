/-
Subsets as bit masks.

A library of its own: the members of a list that a mask stands for, one bit for each
place of the list, and the loop that goes through the submasks of a mask.

Main results:
* `atBits_or` — the members of two disjoint masks are those of both;
* `atBits_single`, `atBits_full` — one bit stands for one place, all bits for the list;
* `and_eq_of_mem` — the loop goes through submasks;
* `and_xor_eq_zero`, `or_xor_eq` — a submask and the rest split the mask.
-/
import Mathlib

namespace Submasks

variable {α : Type*}

/-- The members of a list at the bits of a mask. -/
def atBits : List α → ℕ → List α
  | [], _ => []
  | a :: l, mask => if mask.testBit 0 then a :: atBits l (mask / 2) else atBits l (mask / 2)

theorem atBits_zero (l : List α) : atBits l 0 = [] := by
  induction l with
  | nil => rfl
  | cons a l ih =>
    rw [atBits, Nat.zero_div, ih]
    rfl

theorem atBits_sublist (l : List α) (mask : ℕ) : (atBits l mask).Sublist l := by
  induction l generalizing mask with
  | nil => exact .slnil
  | cons a l ih =>
    rw [atBits]
    split
    · exact (ih (mask / 2)).cons_cons a
    · exact (ih (mask / 2)).cons a

theorem atBits_single {l : List α} {i : ℕ} {a : α} (h : l[i]? = some a) :
    atBits l (2 ^ i) = [a] := by
  induction l generalizing i with
  | nil => cases h
  | cons b l ih =>
    cases i with
    | zero =>
      cases h
      exact congrArg (a :: ·) (atBits_zero l)
    | succ i =>
      have hbit : (2 ^ (i + 1)).testBit 0 = false := by
        rw [Nat.testBit_two_pow]
        exact decide_eq_false (Nat.succ_ne_zero i)
      have hhalf : 2 ^ (i + 1) / 2 = 2 ^ i := by omega
      rw [atBits, hbit, hhalf]
      exact ih h

theorem atBits_full (l : List α) : atBits l (2 ^ l.length - 1) = l := by
  induction l with
  | nil => rfl
  | cons a l ih =>
    have hpos : 0 < 2 ^ l.length := Nat.two_pow_pos _
    have hbit : (2 ^ (l.length + 1) - 1).testBit 0 = true := by
      rw [Nat.testBit_two_pow_sub_one]
      exact decide_eq_true (Nat.succ_pos _)
    have hhalf : (2 ^ (l.length + 1) - 1) / 2 = 2 ^ l.length - 1 := by omega
    rw [List.length_cons, atBits, hbit, hhalf, ih]
    rfl

/-- The members of two disjoint masks are those of both. -/
theorem atBits_or (l : List α) {left right : ℕ} (h : left &&& right = 0) :
    (atBits l (left ||| right)).Perm (atBits l left ++ atBits l right) := by
  induction l generalizing left right with
  | nil => exact .nil
  | cons a l ih =>
    have hhalf : (left ||| right) / 2 = left / 2 ||| right / 2 := Nat.or_div_two
    have hhalves : left / 2 &&& right / 2 = 0 := by
      rw [← Nat.and_div_two, h, Nat.zero_div]
    have hrest := ih hhalves
    have hbit : (left.testBit 0 && right.testBit 0) = false := by
      rw [← Nat.testBit_and, h, Nat.zero_testBit]
    rw [atBits, atBits, atBits, Nat.testBit_or, hhalf]
    cases hleft : left.testBit 0
    · cases hright : right.testBit 0
      · exact hrest
      · exact (hrest.cons a).trans List.perm_middle.symm
    · rw [hleft, Bool.true_and] at hbit
      rw [hbit]
      exact hrest.cons a

/-! ### The submasks of a mask -/

/-- `left = (left - 1) & mask`, as long as it is not zero. -/
def submasks (mask left : ℕ) : List ℕ :=
  if left = 0 then [] else left :: submasks mask ((left - 1) &&& mask)
termination_by left
decreasing_by
  have := @Nat.and_le_left (left - 1) mask
  omega

theorem and_eq_of_mem {mask left submask : ℕ} (hleft : left &&& mask = left)
    (h : submask ∈ submasks mask left) : submask &&& mask = submask := by
  induction left using submasks.induct mask with
  | case1 =>
    rw [submasks, if_pos rfl] at h
    cases h
  | case2 left hne ih =>
    rw [submasks, if_neg hne] at h
    rcases List.mem_cons.mp h with rfl | h
    · exact hleft
    · exact ih (by rw [Nat.and_assoc, Nat.and_self]) h

section Split

variable {mask submask : ℕ} (h : submask &&& mask = submask)
include h

/-- A submask has no bit of the rest of the mask. -/
theorem and_xor_eq_zero : submask &&& (mask ^^^ submask) = 0 := by
  rw [Nat.and_xor_distrib_left, h, Nat.and_self, Nat.xor_self]

/-- A submask and the rest make up the mask. -/
theorem or_xor_eq : submask ||| (mask ^^^ submask) = mask := by
  refine Nat.eq_of_testBit_eq fun i => ?_
  have hbit : (submask.testBit i && mask.testBit i) = submask.testBit i := by
    rw [← Nat.testBit_and, h]
  rw [Nat.testBit_or, Nat.testBit_xor]
  cases hmask : mask.testBit i <;> cases hsub : submask.testBit i <;> simp_all

end Split

end Submasks

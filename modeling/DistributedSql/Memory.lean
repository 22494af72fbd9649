/-
Memory accounts (`execution/memory.py`) as the operators see them.

An operator reserves bytes row by row, is refused whenever the account or one of
its parents is full, and releases what it holds.  Other tasks share the parents,
so the answers are the environment's: an account carries the sequence of answers
its next `try_reserve` calls will get, and nothing is assumed of it.

Main results:
* `Owns` — the triple of a program that holds a number of reserved bytes, whatever
  else the account holds; its rules are `Owns.bind`, `Owns.tryReserve`,
  `Owns.release` and `Owns.frame`.
-/
import DistributedSql.Expressions
import DistributedSql.ExceptState

namespace DistributedSql

/-- An account: the bytes reserved, and the answers to the reservations to come. -/
structure MemoryAccount where
  currentBytes : ℕ
  answers : ℕ → Bool

/-- Operator code: it may raise, and it reserves and releases memory. -/
abbrev Exec := StateT MemoryAccount (Except PyError)

/-- Code that leaves the account alone returns what it returns. -/
theorem run_lift_eq_ok {α : Type} {x : Except PyError α} {a : α} {account account' : MemoryAccount} :
    (liftM x : Exec α).run account = .ok (a, account') ↔ x = .ok a ∧ account' = account := by
  cases x with
  | error e => exact iff_of_false (fun h => by cases h) fun h => by cases h.1
  | ok b =>
    constructor
    · intro h
      cases h
      exact ⟨rfl, rfl⟩
    · rintro ⟨h, rfl⟩
      cases h
      rfl

namespace MemoryAccount

/-- The account after `n` more answers. -/
def skip (account : MemoryAccount) (n : ℕ) : MemoryAccount :=
  { account with answers := fun i => account.answers (i + n) }

/-- `MemoryAccount.try_reserve`.  Nothing is asked for no bytes. -/
def tryReserve (size : ℕ) : Exec Bool := do
  if size = 0 then return true
  let account ← get
  if account.answers 0 then
    set { account.skip 1 with currentBytes := account.currentBytes + size }
    return true
  else
    set (account.skip 1)
    return false

/-- A reservation of some bytes takes the next answer. -/
theorem run_tryReserve {size : ℕ} (h : 0 < size) (account : MemoryAccount) :
    (tryReserve size).run account
      = .ok (account.answers 0,
          { account.skip 1 with
            currentBytes := account.currentBytes + if account.answers 0 then size else 0 }) := by
  unfold tryReserve
  rw [if_neg h.ne']
  cases hans : account.answers 0 <;>
    simp only [StateT.run_bind, StateT.run_get, pure_bind, hans, Bool.false_eq_true,
      if_true, if_false] <;> rfl

/-- `MemoryAccount.release`. -/
def release (size : ℕ) : Exec Unit := do
  if size = 0 then return
  let account ← get
  if size > account.currentBytes then
    throw (.valueError
      ("Cannot release " ++ toString size ++ " bytes from account with "
        ++ toString account.currentBytes ++ " bytes reserved."))
  set { account with currentBytes := account.currentBytes - size }

theorem run_release {size : ℕ} (account : MemoryAccount) (h : size ≤ account.currentBytes) :
    (release size).run account
      = .ok ((), { account with currentBytes := account.currentBytes - size }) := by
  unfold release
  by_cases hzero : size = 0
  · subst hzero
    rfl
  · have hnot : ¬size > account.currentBytes := by omega
    simp only [hzero, if_false, StateT.run_bind, StateT.run_get, pure_bind, hnot]
    rfl

end MemoryAccount

/-- `estimate_row_size`. -/
def estimateRowSize (py : Python) (row : Row) : ℕ := max 64 (py.reprLength row + 64)

theorem estimateRowSize_pos (py : Python) (row : Row) : 0 < estimateRowSize py row := by
  unfold estimateRowSize
  omega

/-! ### Programs that hold memory -/

/-- Holding `owned` bytes, the program returns, and then holds as many bytes as the
postcondition says; bytes held by others stay. -/
def Owns {α : Type} (owned : ℕ) (x : Exec α) (post : α → ℕ → Prop) : Prop :=
  ∀ (account : MemoryAccount) (others : ℕ), account.currentBytes = owned + others →
    ∃ a account' left, x.run account = .ok (a, account') ∧
      account'.currentBytes = left + others ∧ post a left

namespace Owns

variable {α β : Type} {owned : ℕ} {x : Exec α} {post post' : α → ℕ → Prop}

theorem pure {a : α} (h : post a owned) : Owns owned (Pure.pure a) post :=
  fun account _ hcur => ⟨a, account, owned, rfl, hcur, h⟩

theorem bind {f : α → Exec β} {mid : α → ℕ → Prop} {post : β → ℕ → Prop}
    (hx : Owns owned x mid) (hf : ∀ a left, mid a left → Owns left (f a) post) :
    Owns owned (x >>= f) post := by
  intro account others hcur
  obtain ⟨a, account', left, hrun, hcur', hmid⟩ := hx account others hcur
  obtain ⟨b, account'', left', hrun', hcur'', hpost⟩ := hf a left hmid account' others hcur'
  refine ⟨b, account'', left', ?_, hcur'', hpost⟩
  rw [StateT.run_bind, hrun]
  exact hrun'

theorem mono (hx : Owns owned x post) (h : ∀ a left, post a left → post' a left) :
    Owns owned x post' := by
  intro account others hcur
  obtain ⟨a, account', left, hrun, hcur', hpost⟩ := hx account others hcur
  exact ⟨a, account', left, hrun, hcur', h a left hpost⟩

/-- A computation without memory that does not raise. -/
theorem lift {y : Except PyError α} {a : α} (hy : y = .ok a) :
    Owns owned (liftM y : Exec α) fun b left => b = a ∧ left = owned := by
  subst hy
  exact fun account _ hcur => ⟨a, account, owned, rfl, hcur, rfl, rfl⟩

/-- Reserved bytes are held if the answer is yes. -/
theorem tryReserve {size : ℕ} (hsize : 0 < size) :
    Owns owned (MemoryAccount.tryReserve size) fun answer left =>
      left = if answer then owned + size else owned := by
  intro account others hcur
  rw [MemoryAccount.run_tryReserve hsize]
  cases account.answers 0 with
  | true =>
    refine ⟨true, _, owned + size, rfl, ?_, rfl⟩
    rw [if_pos rfl, hcur, Nat.add_right_comm]
  | false => exact ⟨false, _, owned, rfl, hcur, rfl⟩

/-- All the bytes held may be released. -/
theorem release : Owns owned (MemoryAccount.release owned) fun _ left => left = 0 :=
  fun account others hcur =>
    ⟨(), _, 0, MemoryAccount.run_release account (by omega),
      show account.currentBytes - owned = 0 + others by omega, rfl⟩

/-- A traversal whose steps leave nothing reserved gives what they give, in order. -/
theorem mapM {γ : Type} {f : α → Exec β} {g : β → γ} {spec : α → γ} (l : List α)
    (h : ∀ a, Owns 0 (f a) fun b left => left = 0 ∧ g b = spec a) :
    Owns 0 (l.mapM f) fun bs left => left = 0 ∧ bs.map g = l.map spec := by
  induction l with
  | nil => exact Owns.pure ⟨rfl, rfl⟩
  | cons a l ih =>
    rw [List.mapM_cons]
    refine Owns.bind (h a) ?_
    rintro b _ ⟨rfl, hb⟩
    refine Owns.bind ih ?_
    rintro bs _ ⟨rfl, hbs⟩
    exact Owns.pure ⟨rfl, by rw [List.map_cons, hb, hbs, List.map_cons]⟩

/-- Bytes held beyond what a part of the program needs are kept. -/
theorem frame {k : ℕ} (hx : Owns owned x post) :
    Owns (owned + k) x fun a left => ∃ left', left = left' + k ∧ post a left' := by
  intro account others hcur
  obtain ⟨a, account', left, hrun, hcur', hpost⟩ := hx account (k + others) (by omega)
  exact ⟨a, account', left + k, hrun, by omega, left, rfl, hpost⟩

end Owns

end DistributedSql

/-
The tree of memory accounts (`execution/memory.py`).

A query's account has the accounts of its tasks below it.  Bytes are reserved on one
account and on all above it, or on none of them.

Main results:
* `effect_of_perform` — all a call can do to the tree; a call that fails does nothing;
* `accounts_consistent` — after any calls on leaf accounts each account is within its
  limit, a parent holds what its children hold, and a peak is the most ever held;
* `tryReserve_simulates`, `release_simulates` — the account an operator sees, whose
  answers are anyone's, is the leaf account of its task.
-/
import DistributedSql.Forests
import DistributedSql.Memory
import DistributedSql.Errors

namespace DistributedSql

/-- What `MemoryAccount` methods raise. -/
inductive AccountError
  | valueError (message : String)
  | memoryLimitExceeded (message : String)
deriving DecidableEq, Repr

/-- The fields of a `MemoryAccount`; the parent is named by its place in the tree. -/
structure AccountFields where
  name : String
  limitBytes : ℤ
  parent : Option ℕ
  currentBytes : ℤ
  peakBytes : ℤ
deriving DecidableEq, Repr

namespace AccountFields

def reserved (account : AccountFields) (size : ℤ) : AccountFields :=
  { account with
    currentBytes := account.currentBytes + size
    peakBytes := max account.peakBytes (account.currentBytes + size) }

def released (account : AccountFields) (size : ℤ) : AccountFields :=
  { account with currentBytes := account.currentBytes - size }

@[simp] theorem reserved_parent (account : AccountFields) (size : ℤ) :
    (account.reserved size).parent = account.parent := rfl

@[simp] theorem released_parent (account : AccountFields) (size : ℤ) :
    (account.released size).parent = account.parent := rfl

/-- The account would exceed its limit. -/
def exceeds (account : AccountFields) (size : ℤ) : Bool :=
  account.currentBytes + size > account.limitBytes

end AccountFields

/-- The accounts, in the order they were made: a parent is there before its children. -/
structure MemoryTree where
  accounts : List AccountFields
  parent_lt : ∀ {id : ℕ} {account : AccountFields} {parent : ℕ},
    accounts[id]? = some account → account.parent = some parent → parent < id

namespace MemoryTree

def empty : MemoryTree := ⟨[], fun h => by simp at h⟩

def account? (tree : MemoryTree) (id : ℕ) : Option AccountFields := tree.accounts[id]?

/-- `MemoryAccount.__init__` -/
def new (tree : MemoryTree) (name : String) (limitBytes : ℤ)
    (parent : Option (Fin tree.accounts.length)) : Except AccountError ℕ × MemoryTree :=
  if limitBytes ≤ 0 then (.error (.valueError "memory limit must be positive"), tree)
  else
    (.ok tree.accounts.length,
      { accounts := tree.accounts ++ [⟨name, limitBytes, parent.map Fin.val, 0, 0⟩]
        parent_lt := by
          intro id account p hget hparent
          rcases Nat.lt_or_ge id tree.accounts.length with hlt | hge
          · rw [List.getElem?_append_left hlt] at hget
            exact tree.parent_lt hget hparent
          · rw [List.getElem?_append_right hge, List.getElem?_singleton] at hget
            cases Option.some.inj (Option.ite_none_right_eq_some.mp hget).2
            obtain ⟨q, -, rfl⟩ := Option.map_eq_some_iff.mp hparent
            exact q.isLt.trans_le hge })

/-- `MemoryAccount.child` -/
def child (tree : MemoryTree) (id : Fin tree.accounts.length) (name : String)
    (limitBytes : Option ℤ) : Except AccountError ℕ × MemoryTree :=
  tree.new name (limitBytes.getD (tree.accounts.get id).limitBytes) (some id)

/-- The loop of `_chain`, cut after as many accounts. -/
def chainFrom (tree : MemoryTree) : ℕ → ℕ → List ℕ
  | 0, _ => []
  | fuel + 1, id =>
    match tree.account? id with
    | none => []
    | some account =>
      id :: match account.parent with
        | none => []
        | some parent => tree.chainFrom fuel parent

/-- `MemoryAccount._chain` -/
def chain (tree : MemoryTree) (id : ℕ) : List ℕ := tree.chainFrom (id + 1) id

/-- One account changed; its parent stays. -/
def modify (tree : MemoryTree) (id : ℕ) (f : AccountFields → AccountFields)
    (hf : ∀ account, (f account).parent = account.parent) : MemoryTree where
  accounts := tree.accounts.modify id f
  parent_lt := by
    intro x account p hget hparent
    rw [List.getElem?_modify] at hget
    obtain ⟨old, hold, rfl⟩ := Option.map_eq_some_iff.mp hget
    split at hparent
    · exact tree.parent_lt hold ((hf old).symm.trans hparent)
    · exact tree.parent_lt hold hparent

/-- The loop over a chain that changes each of its accounts. -/
def modifyAll (tree : MemoryTree) (chain : List ℕ) (f : AccountFields → AccountFields)
    (hf : ∀ account, (f account).parent = account.parent) : MemoryTree :=
  chain.foldl (fun tree id => tree.modify id f hf) tree

/-- `MemoryAccount.reserve` -/
def reserve (tree : MemoryTree) (id : Fin tree.accounts.length) (size : ℤ) :
    Except AccountError Unit × MemoryTree :=
  if size < 0 then (.error (.valueError "reservation size cannot be negative"), tree)
  else if size = 0 then (.ok (), tree)
  else
    match ((tree.chain id).filterMap tree.account?).find? (·.exceeds size) with
    | some exceeded => (.error (.memoryLimitExceeded ("Memory account " ++ strRepr exceeded.name
        ++ " would exceed " ++ toString exceeded.limitBytes ++ " bytes.")), tree)
    | none => (.ok (), tree.modifyAll (tree.chain id) (·.reserved size) (·.reserved_parent size))

/-- `MemoryAccount.try_reserve` -/
def tryReserve (tree : MemoryTree) (id : Fin tree.accounts.length) (size : ℤ) :
    Except AccountError Bool × MemoryTree :=
  match tree.reserve id size with
  | (.ok (), after) => (.ok true, after)
  | (.error (.memoryLimitExceeded _), after) => (.ok false, after)
  | (.error (.valueError message), after) => (.error (.valueError message), after)

/-- `MemoryAccount.release` -/
def release (tree : MemoryTree) (id : Fin tree.accounts.length) (size : ℤ) :
    Except AccountError Unit × MemoryTree :=
  if size < 0 then (.error (.valueError "release size cannot be negative"), tree)
  else if size = 0 then (.ok (), tree)
  else
    let account := tree.accounts.get id
    if size > account.currentBytes then
      (.error (.valueError ("Cannot release " ++ toString size ++ " bytes from account "
        ++ strRepr account.name ++ " with " ++ toString account.currentBytes
        ++ " bytes reserved.")), tree)
    else (.ok (), tree.modifyAll (tree.chain id) (·.released size) (·.released_parent size))

end MemoryTree

/-! ### Calls -/

/-- A call on the accounts; accounts are named by their places in the tree. -/
inductive AccountCall
  | new (name : String) (limitBytes : ℤ)
  | child (id : ℕ) (name : String) (limitBytes : Option ℤ)
  | reserve (id : ℕ) (size : ℤ)
  | tryReserve (id : ℕ) (size : ℤ)
  | release (id : ℕ) (size : ℤ)
deriving DecidableEq, Repr

/-- What a call returns. -/
inductive AccountAnswer
  | account (id : ℕ)
  | nothing
  | flag (value : Bool)
deriving DecidableEq, Repr

/-- A call raised, or `try_reserve` returned `False`. -/
def Failed : Except AccountError AccountAnswer → Prop
  | .error _ => True
  | .ok answer => answer = .flag false

namespace AccountCall

/-- The account whose bytes a call changes. -/
def charged : AccountCall → Option ℕ
  | new _ _ => none
  | child _ _ _ => none
  | reserve id _ => some id
  | tryReserve id _ => some id
  | release id _ => some id

end AccountCall

namespace MemoryTree

/-- One call, under the lock the accounts of a tree share.  A method is called on an
account that is there. -/
def perform (tree : MemoryTree) : AccountCall → Option (Except AccountError AccountAnswer × MemoryTree)
  | .new name limit =>
    let (answer, after) := tree.new name limit none
    some (answer.map .account, after)
  | .child id name limit =>
    if h : id < tree.accounts.length then
      let (answer, after) := tree.child ⟨id, h⟩ name limit
      some (answer.map .account, after)
    else none
  | .reserve id size =>
    if h : id < tree.accounts.length then
      let (answer, after) := tree.reserve ⟨id, h⟩ size
      some (answer.map fun _ => .nothing, after)
    else none
  | .tryReserve id size =>
    if h : id < tree.accounts.length then
      let (answer, after) := tree.tryReserve ⟨id, h⟩ size
      some (answer.map .flag, after)
    else none
  | .release id size =>
    if h : id < tree.accounts.length then
      let (answer, after) := tree.release ⟨id, h⟩ size
      some (answer.map fun _ => .nothing, after)
    else none

/-- The tree after some calls, in the order they got the lock. -/
def run (tree : MemoryTree) (calls : List AccountCall) : Option MemoryTree :=
  calls.foldlM (fun tree call => (tree.perform call).map Prod.snd) tree

end MemoryTree

namespace MemoryTree

variable {tree after : MemoryTree} {id x : ℕ} {account : AccountFields} {chain : List ℕ}
  {f : AccountFields → AccountFields} {hf : ∀ account, (f account).parent = account.parent}
  {n : ℤ}

/-! ### What changing accounts changes -/

def ids (tree : MemoryTree) : Finset ℕ := Finset.range tree.accounts.length

def parent (tree : MemoryTree) (id : ℕ) : Option ℕ := (tree.account? id).bind (·.parent)

def currentBytes (tree : MemoryTree) (id : ℕ) : ℤ := (tree.account? id).elim 0 (·.currentBytes)

/-- The accounts right below an account. -/
def children (tree : MemoryTree) (id : ℕ) : Finset ℕ := Forest.children tree.ids tree.parent id

/-- The bytes an account holds beyond those of its children. -/
def own (tree : MemoryTree) (id : ℕ) : ℤ := Forest.own tree.ids tree.parent tree.currentBytes id

theorem mem_ids : id ∈ tree.ids ↔ id < tree.accounts.length := Finset.mem_range

theorem exists_account (h : id < tree.accounts.length) : ∃ account, tree.account? id = some account :=
  ⟨_, List.getElem?_eq_getElem h⟩

theorem lt_length (h : tree.account? id = some account) : id < tree.accounts.length :=
  (List.getElem?_eq_some_iff.mp h).1

theorem parent_lt_self {p : ℕ} (h : tree.parent id = some p) : p < id := by
  obtain ⟨account, haccount, hparent⟩ := Option.bind_eq_some_iff.mp h
  exact tree.parent_lt haccount hparent

theorem account?_modify (x : ℕ) :
    (tree.modify id f hf).account? x
      = (tree.account? x).map fun account => if id = x then f account else account :=
  List.getElem?_modify f id tree.accounts x

@[simp] theorem ids_modify : (tree.modify id f hf).ids = tree.ids :=
  congrArg Finset.range (List.length_modify ..)

@[simp] theorem parent_modify : (tree.modify id f hf).parent = tree.parent := by
  funext x
  rw [parent, parent, account?_modify]
  cases tree.account? x with
  | none => rfl
  | some account =>
    show (if id = x then f account else account).parent = account.parent
    split
    · exact hf account
    · rfl

theorem currentBytes_modify (hid : id ∈ tree.ids)
    (hn : ∀ account, (f account).currentBytes = account.currentBytes + n) :
    (tree.modify id f hf).currentBytes = tree.currentBytes + Pi.single id n := by
  funext x
  rw [Pi.add_apply, Pi.single_apply, currentBytes, currentBytes, account?_modify]
  by_cases hx : x = id
  · subst hx
    obtain ⟨account, haccount⟩ := exists_account (mem_ids.mp hid)
    simp only [haccount, Option.map_some, Option.elim_some, if_true, hn]
  · simp only [hx, Ne.symm hx, if_false, Option.map_id', add_zero]

@[simp] theorem ids_modifyAll : (tree.modifyAll chain f hf).ids = tree.ids := by
  induction chain generalizing tree with
  | nil => rfl
  | cons id chain ih => exact ih.trans ids_modify

@[simp] theorem parent_modifyAll : (tree.modifyAll chain f hf).parent = tree.parent := by
  induction chain generalizing tree with
  | nil => rfl
  | cons id chain ih => exact ih.trans parent_modify

theorem currentBytes_modifyAll (hchain : ∀ id ∈ chain, id ∈ tree.ids)
    (hn : ∀ account, (f account).currentBytes = account.currentBytes + n) :
    (tree.modifyAll chain f hf).currentBytes = Forest.addAlong chain n tree.currentBytes := by
  induction chain generalizing tree with
  | nil => rfl
  | cons id chain ih =>
    have hid : id ∈ tree.ids := hchain id List.mem_cons_self
    have hrest : ∀ x ∈ chain, x ∈ (tree.modify id f hf).ids := fun x hx => by
      rw [ids_modify]
      exact hchain x (List.mem_cons_of_mem _ hx)
    exact (ih hrest).trans (congrArg _ (currentBytes_modify hid hn))

/-- On a chain without repetitions each account is changed once. -/
theorem account?_modifyAll (h : chain.Nodup) (x : ℕ) :
    (tree.modifyAll chain f hf).account? x
      = (tree.account? x).map fun account => if x ∈ chain then f account else account := by
  induction chain generalizing tree with
  | nil => exact Option.map_id'.symm
  | cons id chain ih =>
    obtain ⟨hid, hchain⟩ := List.nodup_cons.mp h
    rw [show (tree.modifyAll (id :: chain) f hf).account? x
        = ((tree.modify id f hf).modifyAll chain f hf).account? x from rfl,
      ih hchain, account?_modify, Option.map_map]
    congr 1
    funext account
    by_cases hx : id = x
    · subst hx
      simp only [Function.comp_apply, if_neg hid, if_true, List.mem_cons_self]
    · simp only [Function.comp_apply, hx, Ne.symm hx, if_false, List.mem_cons, false_or]

/-! ### The chain -/

/-- The walk up is over before the steps run out, for each step goes to a smaller place. -/
theorem pathToRoot_chain (hid : id < tree.accounts.length) :
    Forest.PathToRoot tree.ids tree.parent id (tree.chain id) := by
  suffices h : ∀ fuel id, id < tree.accounts.length → id < fuel →
      Forest.PathToRoot tree.ids tree.parent id (tree.chainFrom fuel id) from
    h (id + 1) id hid (Nat.lt_succ_self id)
  intro fuel
  induction fuel with
  | zero => exact fun _ _ h => absurd h (Nat.not_lt_zero _)
  | succ fuel ih =>
    intro id hid hfuel
    obtain ⟨account, haccount⟩ := exists_account hid
    have hup : tree.parent id = account.parent := by rw [parent, haccount, Option.bind_some]
    cases hparent : account.parent with
    | none =>
      simp only [chainFrom, haccount, hparent]
      exact .root (mem_ids.mpr hid) (hup.trans hparent)
    | some p =>
      have hp : p < id := tree.parent_lt haccount hparent
      simp only [chainFrom, haccount, hparent]
      exact .step (mem_ids.mpr hid) (hup.trans hparent) (ih p (hp.trans hid) (by omega))

theorem nodup_chain (hid : id < tree.accounts.length) : (tree.chain id).Nodup :=
  ((pathToRoot_chain hid).sortedGT parent_lt_self).1.imp fun h => h.ne'

/-! ### What a call does -/

/-- What a call may do to the tree: nothing, an account more, or bytes reserved or
released on a whole chain. -/
inductive Effect (tree : MemoryTree) (call : AccountCall) :
    Except AccountError AccountAnswer → MemoryTree → Prop
  | same {answer : Except AccountError AccountAnswer} : Effect tree call answer tree
  | made {answer : Except AccountError AccountAnswer} {after : MemoryTree} {made : AccountFields}
      (accounts : after.accounts = tree.accounts ++ [made]) (current : made.currentBytes = 0)
      (peak : made.peakBytes = 0) (positive : 0 < made.limitBytes) (returned : ¬Failed answer) :
      Effect tree call answer after
  | reserved {answer : Except AccountError AccountAnswer} {id : ℕ} {size : ℤ}
      (charged : call.charged = some id) (mem : id < tree.accounts.length) (positive : 0 < size)
      (fits : ∀ x ∈ tree.chain id, ∀ account, tree.account? x = some account →
        account.currentBytes + size ≤ account.limitBytes) (returned : ¬Failed answer) :
      Effect tree call answer (tree.modifyAll (tree.chain id) (·.reserved size) (·.reserved_parent size))
  | released {answer : Except AccountError AccountAnswer} {id : ℕ} {size : ℤ}
      (charged : call.charged = some id) (mem : id < tree.accounts.length) (positive : 0 < size)
      (held : size ≤ tree.currentBytes id) (returned : ¬Failed answer) :
      Effect tree call answer (tree.modifyAll (tree.chain id) (·.released size) (·.released_parent size))

private theorem new_cases (tree : MemoryTree) (name : String) (limit : ℤ)
    (parent : Option (Fin tree.accounts.length)) :
    (∃ e, tree.new name limit parent = (.error e, tree)) ∨
    ∃ after made, tree.new name limit parent = (.ok tree.accounts.length, after) ∧
      after.accounts = tree.accounts ++ [made] ∧ made.currentBytes = 0 ∧ made.peakBytes = 0 ∧
      0 < made.limitBytes := by
  unfold new
  by_cases hlimit : limit ≤ 0
  · exact .inl ⟨_, if_pos hlimit⟩
  · rw [if_neg hlimit]
    exact .inr ⟨_, _, rfl, rfl, rfl, rfl, not_le.mp hlimit⟩

private theorem reserve_cases (tree : MemoryTree) (id : Fin tree.accounts.length) (size : ℤ) :
    (∃ e, tree.reserve id size = (.error e, tree)) ∨
    (size = 0 ∧ tree.reserve id size = (.ok (), tree)) ∨
    (0 < size ∧ (∀ x ∈ tree.chain id, ∀ account, tree.account? x = some account →
      account.currentBytes + size ≤ account.limitBytes) ∧
      tree.reserve id size
        = (.ok (), tree.modifyAll (tree.chain id) (·.reserved size) (·.reserved_parent size))) := by
  unfold reserve
  by_cases hneg : size < 0
  · exact .inl ⟨_, if_pos hneg⟩
  by_cases hzero : size = 0
  · rw [if_neg hneg, if_pos hzero]
    exact .inr (.inl ⟨hzero, rfl⟩)
  rw [if_neg hneg, if_neg hzero]
  cases hfind : ((tree.chain id).filterMap tree.account?).find? (·.exceeds size) with
  | some exceeded => exact .inl ⟨_, rfl⟩
  | none =>
    refine .inr (.inr ⟨by omega, fun x hx account haccount => ?_, rfl⟩)
    have hfits := List.find?_eq_none.mp hfind account (List.mem_filterMap.mpr ⟨x, hx, haccount⟩)
    rw [AccountFields.exceeds, decide_eq_true_eq] at hfits
    omega

private theorem release_cases (tree : MemoryTree) (id : Fin tree.accounts.length) (size : ℤ) :
    ((size < 0 ∨ tree.currentBytes id < size) ∧ ∃ e, tree.release id size = (.error e, tree)) ∨
    (size = 0 ∧ tree.release id size = (.ok (), tree)) ∨
    (0 < size ∧ size ≤ tree.currentBytes id ∧
      tree.release id size
        = (.ok (), tree.modifyAll (tree.chain id) (·.released size) (·.released_parent size))) := by
  have hget : (tree.accounts.get id).currentBytes = tree.currentBytes id := by
    rw [currentBytes, account?, List.getElem?_eq_getElem id.isLt]
    rfl
  unfold release
  by_cases hneg : size < 0
  · exact .inl ⟨.inl hneg, _, if_pos hneg⟩
  by_cases hzero : size = 0
  · rw [if_neg hneg, if_pos hzero]
    exact .inr (.inl ⟨hzero, rfl⟩)
  rw [if_neg hneg, if_neg hzero]
  by_cases hheld : size > (tree.accounts.get id).currentBytes
  · exact .inl ⟨.inr (by omega), _, if_pos hheld⟩
  · exact .inr (.inr ⟨by omega, by omega, if_neg hheld⟩)

theorem effect_of_perform {call : AccountCall} {answer : Except AccountError AccountAnswer}
    (h : tree.perform call = some (answer, after)) : Effect tree call answer after := by
  have hok : ∀ value, value ≠ AccountAnswer.flag false →
      ¬Failed (.ok value : Except AccountError AccountAnswer) := fun value hne heq => hne heq
  cases call with
  | new name limit =>
    rcases new_cases tree name limit none with ⟨e, hnew⟩ | ⟨after', made, hnew, hmade⟩
    · rw [perform, hnew] at h
      cases h
      exact .same
    · rw [perform, hnew] at h
      cases h
      exact .made hmade.1 hmade.2.1 hmade.2.2.1 hmade.2.2.2 (hok _ nofun)
  | child id name limit =>
    rw [perform] at h
    obtain ⟨hid, h⟩ := Option.dite_none_right_eq_some.mp h
    rcases new_cases tree name (limit.getD (tree.accounts.get ⟨id, hid⟩).limitBytes) (some ⟨id, hid⟩)
      with ⟨e, hnew⟩ | ⟨after', made, hnew, hmade⟩
    · rw [child, hnew] at h
      cases h
      exact .same
    · rw [child, hnew] at h
      cases h
      exact .made hmade.1 hmade.2.1 hmade.2.2.1 hmade.2.2.2 (hok _ nofun)
  | reserve id size =>
    rw [perform] at h
    obtain ⟨hid, h⟩ := Option.dite_none_right_eq_some.mp h
    rcases reserve_cases tree ⟨id, hid⟩ size with ⟨e, hrun⟩ | ⟨-, hrun⟩ | ⟨hpos, hfits, hrun⟩
    · rw [hrun] at h
      cases h
      exact .same
    · rw [hrun] at h
      cases h
      exact .same
    · rw [hrun] at h
      cases h
      exact .reserved rfl hid hpos hfits (hok _ nofun)
  | tryReserve id size =>
    rw [perform] at h
    obtain ⟨hid, h⟩ := Option.dite_none_right_eq_some.mp h
    rcases reserve_cases tree ⟨id, hid⟩ size with ⟨e, hrun⟩ | ⟨-, hrun⟩ | ⟨hpos, hfits, hrun⟩
    · rw [tryReserve, hrun] at h
      cases e <;> (cases h; exact .same)
    · rw [tryReserve, hrun] at h
      cases h
      exact .same
    · rw [tryReserve, hrun] at h
      cases h
      exact .reserved rfl hid hpos hfits (hok _ (by decide))
  | release id size =>
    rw [perform] at h
    obtain ⟨hid, h⟩ := Option.dite_none_right_eq_some.mp h
    rcases release_cases tree ⟨id, hid⟩ size with ⟨-, e, hrun⟩ | ⟨-, hrun⟩ | ⟨hpos, hheld, hrun⟩
    · rw [hrun] at h
      cases h
      exact .same
    · rw [hrun] at h
      cases h
      exact .same
    · rw [hrun] at h
      cases h
      exact .released rfl hid hpos hheld (hok _ nofun)

/-- A call that raises, or returns `False`, leaves every account as it was. -/
theorem eq_of_failed {call : AccountCall} {answer : Except AccountError AccountAnswer}
    (h : tree.perform call = some (answer, after)) (hfailed : Failed answer) : after = tree := by
  cases effect_of_perform h with
  | same => rfl
  | made _ _ _ _ returned => exact absurd hfailed returned
  | reserved _ _ _ _ returned => exact absurd hfailed returned
  | released _ _ _ _ returned => exact absurd hfailed returned

/-! ### Own bytes -/

theorem own_modifyAll (hid : id < tree.accounts.length)
    (hn : ∀ account, (f account).currentBytes = account.currentBytes + n) (x : ℕ) :
    (tree.modifyAll (tree.chain id) f hf).own x = tree.own x + if x = id then n else 0 := by
  have hpath := pathToRoot_chain hid
  rw [own, ids_modifyAll, parent_modifyAll, currentBytes_modifyAll hpath.subset hn]
  exact Forest.own_addAlong hpath tree.currentBytes x

theorem account?_made {made : AccountFields} (h : after.accounts = tree.accounts ++ [made]) (x : ℕ) :
    after.account? x = if x = tree.accounts.length then some made else tree.account? x := by
  rw [account?, h, account?]
  rcases Nat.lt_trichotomy x tree.accounts.length with hlt | rfl | hgt
  · rw [List.getElem?_append_left hlt, if_neg hlt.ne]
  · rw [List.getElem?_concat_length, if_pos rfl]
  · rw [if_neg hgt.ne', List.getElem?_eq_none (by rw [List.length_append]; exact hgt),
      List.getElem?_eq_none hgt.le]

/-- An account starts with nothing, so that its parent's own bytes stay. -/
theorem own_made {made : AccountFields} (h : after.accounts = tree.accounts ++ [made])
    (hcurrent : made.currentBytes = 0) (x : ℕ) : after.own x = tree.own x := by
  have hbytes : after.currentBytes = tree.currentBytes := by
    funext y
    rw [currentBytes, account?_made h]
    by_cases hy : y = tree.accounts.length
    · rw [if_pos hy, Option.elim_some, hcurrent, currentBytes, account?, hy,
        List.getElem?_eq_none le_rfl, Option.elim_none]
    · rw [if_neg hy, currentBytes]
  have hparent : ∀ y < tree.accounts.length, after.parent y = tree.parent y := fun y hy => by
    rw [parent, account?_made h, if_neg hy.ne, parent]
  have hnew : tree.currentBytes tree.accounts.length = 0 := by
    rw [currentBytes, account?, List.getElem?_eq_none le_rfl, Option.elim_none]
  rw [own, own, Forest.own, Forest.own, hbytes, Forest.children, Forest.children, Finset.sum_filter,
    Finset.sum_filter, ids, ids, h, List.length_append, List.length_singleton,
    Finset.sum_range_succ, hnew, ite_self, add_zero]
  congr 1
  refine Finset.sum_congr rfl fun y hy => ?_
  rw [hparent y (Finset.mem_range.mp hy)]

/-! ### Every call keeps the totals -/

/-- No account has less than nothing of its own, only the accounts called upon have
anything of their own, and all are within their limits. -/
structure Consistent (called : ℕ → Prop) (tree : MemoryTree) : Prop where
  own_nonneg : ∀ x, 0 ≤ tree.own x
  own_eq_zero : ∀ x, ¬called x → tree.own x = 0
  le_limit : ∀ x account, tree.account? x = some account →
    account.currentBytes ≤ account.limitBytes

variable {called : ℕ → Prop}

theorem consistent_empty : Consistent called empty where
  own_nonneg _ := le_refl 0
  own_eq_zero _ _ := rfl
  le_limit x account h := by simp [empty, account?] at h

theorem Consistent.currentBytes_nonneg (h : Consistent called tree) (x : ℕ) :
    0 ≤ tree.currentBytes x := by
  refine Forest.nonneg_of_own (?_ : ∀ c ∈ tree.ids, ∀ p, tree.parent c = some p →
    tree.accounts.length - c < tree.accounts.length - p) h.own_nonneg x
  intro c hc p hp
  have hlt := parent_lt_self hp
  have hc' := mem_ids.mp hc
  omega

/-- A change of the own bytes of one called account, of which enough is left. -/
theorem Consistent.modifyAll (h : Consistent called tree) (hid : id < tree.accounts.length)
    (hcalled : called id) (hn : ∀ account, (f account).currentBytes = account.currentBytes + n)
    (hleft : 0 ≤ tree.own id + n)
    (hlimit : ∀ x ∈ tree.chain id, ∀ account, tree.account? x = some account →
      (f account).currentBytes ≤ (f account).limitBytes) :
    Consistent called (tree.modifyAll (tree.chain id) f hf) where
  own_nonneg x := by
    rw [own_modifyAll hid hn]
    by_cases hx : x = id
    · rw [if_pos hx, hx]
      exact hleft
    · rw [if_neg hx, add_zero]
      exact h.own_nonneg x
  own_eq_zero x hx := by
    have hne : x ≠ id := fun heq => hx (heq ▸ hcalled)
    rw [own_modifyAll hid hn, if_neg hne, add_zero]
    exact h.own_eq_zero x hx
  le_limit x account haccount := by
    rw [account?_modifyAll (nodup_chain hid)] at haccount
    obtain ⟨old, hold, rfl⟩ := Option.map_eq_some_iff.mp haccount
    split
    · exact hlimit x ‹_› old hold
    · exact h.le_limit x old hold

/-- A call on an account without children keeps the totals. -/
theorem Consistent.effect {call : AccountCall} {answer : Except AccountError AccountAnswer}
    (h : Consistent called tree) (heffect : Effect tree call answer after)
    (hleaf : ∀ id, call.charged = some id → called id ∧ tree.children id = ∅) :
    Consistent called after := by
  cases heffect with
  | same => exact h
  | made accounts current _ positive _ =>
    refine ⟨fun x => ?_, fun x hx => ?_, fun x account haccount => ?_⟩
    · rw [own_made accounts current]
      exact h.own_nonneg x
    · rw [own_made accounts current]
      exact h.own_eq_zero x hx
    · rw [account?_made accounts] at haccount
      split at haccount
      · cases haccount
        exact current.trans_le positive.le
      · exact h.le_limit x account haccount
  | @reserved id size charged mem positive fits _ =>
    obtain ⟨hcalled, -⟩ := hleaf id charged
    refine h.modifyAll mem hcalled (fun _ => rfl) ?_ fits
    exact add_nonneg (h.own_nonneg id) positive.le
  | @released id size charged mem positive held _ =>
    obtain ⟨hcalled, hchildren⟩ := hleaf id charged
    have hown : tree.own id = tree.currentBytes id := Forest.own_of_children_eq_empty hchildren
    refine h.modifyAll mem hcalled (fun account => sub_eq_add_neg _ _) ?_ fun x _ account haccount => ?_
    · rw [hown]
      exact sub_nonneg.mpr held
    · exact (sub_le_self _ positive.le).trans (h.le_limit x account haccount)

/-! ### Runs -/

theorem run_concat (tree : MemoryTree) (calls : List AccountCall) (call : AccountCall) :
    tree.run (calls ++ [call])
      = (tree.run calls).bind fun before => (before.perform call).map Prod.snd := by
  rw [run, List.foldlM_append, run]
  congr 1
  funext before
  rw [List.foldlM_cons, Option.bind_eq_bind]
  cases before.perform call <;> rfl

theorem exists_last {calls : List AccountCall} {call : AccountCall}
    (h : tree.run (calls ++ [call]) = some after) :
    ∃ before answer, tree.run calls = some before ∧ Effect before call answer after := by
  rw [run_concat] at h
  obtain ⟨before, hbefore, hlast⟩ := Option.bind_eq_some_iff.mp h
  obtain ⟨⟨answer, after'⟩, hperform, rfl⟩ := Option.map_eq_some_iff.mp hlast
  exact ⟨before, answer, hbefore, effect_of_perform hperform⟩

/-- The account's record after a call: new and empty, or the one before with its peak
carried on. -/
theorem Effect.cases_account {call : AccountCall} {answer : Except AccountError AccountAnswer}
    (h : Effect tree call answer after) (haccount : after.account? id = some account) :
    (tree.account? id = none ∧ account.currentBytes = 0 ∧ account.peakBytes = 0) ∨
    ∃ old, tree.account? id = some old ∧ account.parent = old.parent ∧
      (old.currentBytes ≤ old.peakBytes →
        account.peakBytes = max old.peakBytes account.currentBytes) := by
  cases h with
  | same => exact .inr ⟨account, haccount, rfl, fun hle => (max_eq_left hle).symm⟩
  | made accounts current peak _ _ =>
    rw [account?_made accounts] at haccount
    split at haccount
    · rename_i hid
      cases haccount
      exact .inl ⟨hid ▸ List.getElem?_eq_none le_rfl, current, peak⟩
    · exact .inr ⟨account, haccount, rfl, fun hle => (max_eq_left hle).symm⟩
  | @reserved target size _ mem _ _ _ =>
    rw [account?_modifyAll (nodup_chain mem)] at haccount
    obtain ⟨old, hold, rfl⟩ := Option.map_eq_some_iff.mp haccount
    refine .inr ⟨old, hold, ?_⟩
    split
    · exact ⟨rfl, fun _ => rfl⟩
    · exact ⟨rfl, fun hle => (max_eq_left hle).symm⟩
  | @released target size _ mem positive _ _ =>
    rw [account?_modifyAll (nodup_chain mem)] at haccount
    obtain ⟨old, hold, rfl⟩ := Option.map_eq_some_iff.mp haccount
    refine .inr ⟨old, hold, ?_⟩
    split
    · exact ⟨rfl, fun hle => (max_eq_left ((sub_le_self _ positive.le).trans hle)).symm⟩
    · exact ⟨rfl, fun hle => (max_eq_left hle).symm⟩

theorem Effect.account?_isSome {call : AccountCall} {answer : Except AccountError AccountAnswer}
    (h : Effect tree call answer after) {old : AccountFields} (hold : tree.account? id = some old) :
    ∃ account, after.account? id = some account := by
  cases h with
  | same => exact ⟨old, hold⟩
  | made accounts _ _ _ _ =>
    rw [account?_made accounts]
    split
    · exact ⟨_, rfl⟩
    · exact ⟨old, hold⟩
  | reserved _ mem _ _ _ =>
    rw [account?_modifyAll (nodup_chain mem), hold]
    exact ⟨_, rfl⟩
  | released _ mem _ _ _ =>
    rw [account?_modifyAll (nodup_chain mem), hold]
    exact ⟨_, rfl⟩

/-- An account keeps its children. -/
theorem Effect.children_subset {call : AccountCall} {answer : Except AccountError AccountAnswer}
    (h : Effect tree call answer after) (id : ℕ) : tree.children id ⊆ after.children id := by
  intro c hc
  obtain ⟨hmem, hparent⟩ := Forest.mem_children.mp hc
  obtain ⟨old, hold, hup⟩ := Option.bind_eq_some_iff.mp hparent
  obtain ⟨account, haccount⟩ := h.account?_isSome hold
  refine Forest.mem_children.mpr ⟨mem_ids.mpr (lt_length haccount), ?_⟩
  rw [parent, haccount, Option.bind_some]
  rcases h.cases_account haccount with ⟨hnone, -, -⟩ | ⟨old', hold', hup', -⟩
  · rw [hold] at hnone
    cases hnone
  · rw [hold] at hold'
    cases hold'
    rw [hup', hup]

theorem run_append (tree : MemoryTree) (calls later : List AccountCall) :
    tree.run (calls ++ later) = (tree.run calls).bind fun before => before.run later :=
  List.foldlM_append

/-- Accounts, and their children, stay through a run. -/
theorem kept_of_run {calls : List AccountCall} (h : tree.run calls = some after) (id : ℕ) :
    tree.children id ⊆ after.children id ∧
      ∀ old, tree.account? id = some old → ∃ account, after.account? id = some account := by
  induction calls using List.reverseRecOn generalizing after with
  | nil =>
    cases h
    exact ⟨subset_rfl, fun old hold => ⟨old, hold⟩⟩
  | append_singleton calls call ih =>
    obtain ⟨before, answer, hbefore, heffect⟩ := exists_last h
    obtain ⟨hchildren, hkept⟩ := ih hbefore
    refine ⟨hchildren.trans (heffect.children_subset id), fun old hold => ?_⟩
    obtain ⟨account, haccount⟩ := hkept old hold
    exact heffect.account?_isSome haccount

/-- The byte counts an account has had after some of the calls. -/
def reached (calls : List AccountCall) (id : ℕ) : Set ℤ :=
  {bytes | ∃ earlier tree account, earlier <+: calls ∧ empty.run earlier = some tree ∧
    tree.account? id = some account ∧ account.currentBytes = bytes}

theorem reached_concat {calls : List AccountCall} {call : AccountCall}
    (h : empty.run (calls ++ [call]) = some after) (haccount : after.account? id = some account) :
    reached (calls ++ [call]) id = insert account.currentBytes (reached calls id) := by
  ext bytes
  rw [Set.mem_insert_iff]
  constructor
  · rintro ⟨earlier, tree, account', hprefix, hrun, haccount', rfl⟩
    rcases List.prefix_concat_iff.mp hprefix with rfl | hprefix
    · rw [hrun] at h
      cases h
      rw [haccount'] at haccount
      cases haccount
      exact .inl rfl
    · exact .inr ⟨earlier, tree, account', hprefix, hrun, haccount', rfl⟩
  · rintro (rfl | ⟨earlier, tree, account', hprefix, hrun, haccount', rfl⟩)
    · exact ⟨_, after, account, List.prefix_rfl, h, haccount, rfl⟩
    · exact ⟨earlier, tree, account', hprefix.trans (List.prefix_append _ _), hrun, haccount', rfl⟩

/-- The peak of an account is the most it has held. -/
theorem isGreatest_peakBytes {calls : List AccountCall} (h : empty.run calls = some tree)
    (haccount : tree.account? id = some account) :
    IsGreatest (reached calls id) account.peakBytes := by
  induction calls using List.reverseRecOn generalizing tree account with
  | nil =>
    cases h
    simp [empty, account?] at haccount
  | append_singleton calls call ih =>
    obtain ⟨before, answer, hbefore, heffect⟩ := exists_last h
    rw [reached_concat h haccount]
    rcases heffect.cases_account haccount with ⟨hnone, hcurrent, hpeak⟩ | ⟨old, hold, -, hmax⟩
    · -- no earlier tree has the account, for accounts stay
      have hempty : reached calls id = ∅ := by
        refine Set.eq_empty_iff_forall_notMem.mpr ?_
        rintro bytes ⟨earlier, tree', account', ⟨later, rfl⟩, hrun, haccount', -⟩
        rw [run_append, hrun, Option.bind_some] at hbefore
        obtain ⟨account, haccount⟩ := (kept_of_run hbefore id).2 account' haccount'
        rw [hnone] at haccount
        cases haccount
      rw [hempty, hcurrent, hpeak, insert_empty_eq]
      exact isGreatest_singleton
    · have hgreatest := ih hbefore hold
      have hle : old.currentBytes ≤ old.peakBytes :=
        hgreatest.2 ⟨calls, before, old, List.prefix_rfl, hbefore, hold, rfl⟩
      rw [hmax hle, max_comm]
      exact hgreatest.insert account.currentBytes

/-- After calls on accounts that have no children in the end the totals are kept: they
had none when they were called either. -/
theorem consistent_of_run {calls : List AccountCall} (h : empty.run calls = some tree)
    (hleaf : ∀ call ∈ calls, ∀ id, call.charged = some id → called id ∧ tree.children id = ∅) :
    Consistent called tree := by
  induction calls using List.reverseRecOn generalizing tree with
  | nil =>
    cases h
    exact consistent_empty
  | append_singleton calls call ih =>
    obtain ⟨before, answer, hbefore, heffect⟩ := exists_last h
    have hleaf' : ∀ call' ∈ calls ++ [call], ∀ id, call'.charged = some id →
        called id ∧ before.children id = ∅ := fun call' hmem id hid =>
      ⟨(hleaf call' hmem id hid).1,
        Finset.subset_empty.mp ((heffect.children_subset id).trans (hleaf call' hmem id hid).2.le)⟩
    refine (ih hbefore fun call' hmem => hleaf' call' (List.mem_append_left _ hmem)).effect heffect ?_
    exact hleaf' call (List.mem_append_right _ (List.mem_singleton_self call))

/-- Hierarchical accounting: whatever accounts are made, and in whatever order bytes are
reserved and released on leaf accounts. -/
theorem accounts_consistent {calls : List AccountCall} (h : empty.run calls = some tree)
    (hleaf : ∀ call ∈ calls, ∀ id, call.charged = some id → tree.children id = ∅) :
    (∀ id account, tree.account? id = some account →
      0 ≤ account.currentBytes ∧ account.currentBytes ≤ account.limitBytes ∧
      ((tree.children id).Nonempty →
        account.currentBytes = ∑ c ∈ tree.children id, tree.currentBytes c) ∧
      IsGreatest (reached calls id) account.peakBytes) ∧
    ∀ call answer after, tree.perform call = some (answer, after) → Failed answer →
      after = tree := by
  refine ⟨fun id account haccount => ?_, fun call answer after hperform => eq_of_failed hperform⟩
  have hconsistent : Consistent (fun id => tree.children id = ∅) tree :=
    consistent_of_run h fun call hmem id hid => ⟨hleaf call hmem id hid, hleaf call hmem id hid⟩
  have hbytes : tree.currentBytes id = account.currentBytes := by
    rw [currentBytes, haccount, Option.elim_some]
  refine ⟨?_, hconsistent.le_limit id account haccount, fun hne => ?_,
    isGreatest_peakBytes h haccount⟩
  · rw [← hbytes]
    exact hconsistent.currentBytes_nonneg id
  · rw [← hbytes]
    exact Forest.eq_sum_of_own_eq_zero (hconsistent.own_eq_zero id hne.ne_empty)

/-- A query of one hundred bytes and two of its tasks. -/
def queryCalls : List AccountCall :=
  [.new "query" 100, .child 0 "task-1" (some 60), .child 0 "task-2" (some 80),
    .reserve 1 60, .reserve 1 1, .reserve 2 41, .release 1 60, .tryReserve 2 80, .release 2 30]

theorem accounts_consistent_query :
    ∃ tree, empty.run queryCalls = some tree ∧
      tree.accounts = [⟨"query", 100, none, 50, 80⟩, ⟨"task-1", 60, some 0, 0, 60⟩,
        ⟨"task-2", 80, some 0, 50, 80⟩] ∧
      ((tree.children 0).Nonempty →
        tree.currentBytes 0 = ∑ c ∈ tree.children 0, tree.currentBytes c) := by
  refine ⟨_, rfl, rfl, fun hne => ?_⟩
  refine ((accounts_consistent (show empty.run queryCalls = some _ from rfl) ?_).1 0 _ rfl).2.2.1 hne
  decide

/-! ### The account an operator sees -/

/-- An account changes with its own chain, and by the same amount. -/
theorem currentBytes_modifyAll_chain (hid : id < tree.accounts.length)
    (hn : ∀ account, (f account).currentBytes = account.currentBytes + n) (x : ℕ) :
    (tree.modifyAll (tree.chain id) f hf).currentBytes x
      = tree.currentBytes x + if x ∈ tree.chain id then n else 0 := by
  have hpath := pathToRoot_chain hid
  rw [currentBytes_modifyAll hpath.subset hn, Forest.addAlong_apply (nodup_chain hid)]

/-- Whatever `try_reserve` answers, the bytes of its account are those the operator's
account has after the same answer. -/
theorem tryReserve_simulates (id : Fin tree.accounts.length) {size : ℕ} (hsize : 0 < size)
    {account : MemoryAccount} (hbytes : tree.currentBytes id = account.currentBytes)
    (hanswer : (tree.tryReserve id size).1 = .ok (account.answers 0)) :
    ∃ account', (MemoryAccount.tryReserve size).run account = .ok (account.answers 0, account') ∧
      (tree.tryReserve id size).2.currentBytes id = account'.currentBytes := by
  refine ⟨_, MemoryAccount.run_tryReserve hsize account, ?_⟩
  unfold tryReserve at hanswer ⊢
  rcases reserve_cases tree id size with ⟨e, hrun⟩ | ⟨hzero, -⟩ | ⟨-, -, hrun⟩
  · rw [hrun] at hanswer ⊢
    cases e with
    | valueError message => cases hanswer
    | memoryLimitExceeded message =>
      have hno : account.answers 0 = false := (Except.ok.inj hanswer).symm
      rw [hno, if_neg (by decide), Nat.add_zero]
      exact hbytes
  · omega
  · rw [hrun] at hanswer ⊢
    have hyes : account.answers 0 = true := (Except.ok.inj hanswer).symm
    rw [hyes, if_pos rfl, Nat.cast_add, ← hbytes]
    exact (currentBytes_modifyAll_chain id.isLt (fun _ => rfl) id).trans
      (congrArg _ (if_pos (pathToRoot_chain id.isLt).mem_self))

theorem release_simulates (id : Fin tree.accounts.length) {size : ℕ} {account : MemoryAccount}
    (hbytes : tree.currentBytes id = account.currentBytes) (hsize : size ≤ account.currentBytes) :
    ∃ after account', tree.release id size = (.ok (), after) ∧
      (MemoryAccount.release size).run account = .ok ((), account') ∧
      after.currentBytes id = account'.currentBytes := by
  rcases release_cases tree id size with ⟨hfails, -⟩ | ⟨hzero, hrun⟩ | ⟨-, -, hrun⟩
  · omega
  · refine ⟨tree, _, hrun, MemoryAccount.run_release account hsize, ?_⟩
    show tree.currentBytes id = ((account.currentBytes - size : ℕ) : ℤ)
    omega
  · refine ⟨_, _, hrun, MemoryAccount.run_release account hsize, ?_⟩
    rw [currentBytes_modifyAll_chain id.isLt (fun account => sub_eq_add_neg _ _),
      if_pos (pathToRoot_chain id.isLt).mem_self]
    show tree.currentBytes id + -(size : ℤ) = ((account.currentBytes - size : ℕ) : ℤ)
    omega

/-- Calls on other accounts leave the bytes of an account without children alone. -/
theorem Effect.currentBytes_eq {call : AccountCall} {answer : Except AccountError AccountAnswer}
    (h : Effect tree call answer after) (hid : call.charged ≠ some id)
    (hleaf : tree.children id = ∅) (hmem : id < tree.accounts.length) :
    after.currentBytes id = tree.currentBytes id := by
  have hchain : ∀ target < tree.accounts.length, call.charged = some target →
      id ∉ tree.chain target := by
    intro target htarget hcharged hmem
    rcases (pathToRoot_chain htarget).eq_or_nonempty id hmem with rfl | hne
    · exact hid hcharged
    · exact hne.ne_empty hleaf
  cases h with
  | same => rfl
  | made accounts _ _ _ _ => rw [currentBytes, account?_made accounts, if_neg hmem.ne, currentBytes]
  | reserved charged mem _ _ _ =>
    rw [currentBytes_modifyAll_chain mem (fun _ => rfl), if_neg (hchain _ mem charged), add_zero]
  | released charged mem _ _ _ =>
    rw [currentBytes_modifyAll_chain mem (fun account => sub_eq_add_neg _ _),
      if_neg (hchain _ mem charged), add_zero]

end MemoryTree

end DistributedSql

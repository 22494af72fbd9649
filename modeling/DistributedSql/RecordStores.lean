/-
Stores of records.

A library of its own: a store keeps records by key, and an event opens a record under a new
key or is a step of the record of one key.

Main results:
* `RecordStore.records` — every record of a store is where a run of its own has taken it;
* `RecordStore.run` — a run of the store takes each record through a run of its own.
-/
import DistributedSql.Dict
import DistributedSql.Runs

/-- What happens in a store: a key is opened, or its record takes a step. -/
inductive StoreEvent (κ ι ε : Type*)
  | opened (key : κ) (input : ι)
  | of (key : κ) (event : ε)

variable {κ ι ρ ε : Type*} [DecidableEq κ]

/-- One step of a store; a key is opened once. -/
def storeStep (create : κ → ι → ρ) (step : ρ → ε → Option ρ) (store : Dict κ ρ) :
    StoreEvent κ ι ε → Option (Dict κ ρ)
  | .opened key input =>
      if (store.get? key).isSome then none else some (store.set key (create key input))
  | .of key event => (store.get? key).bind fun record =>
      (step record event).map fun record => store.set key record

/-- The steps of one record. -/
def recordStep (step : ρ → ε → Option ρ) (record : ρ) (event : ε) (record' : ρ) : Prop :=
  step record event = some record'

namespace RecordStore

variable {create : κ → ι → ρ} {step : ρ → ε → Option ρ} {store store' : Dict κ ρ}

/-- What one step does to the record of a key: it is left, opened, or takes a step. -/
theorem step_cases {event : StoreEvent κ ι ε} (h : storeStep create step store event = some store')
    (key : κ) : store'.get? key = store.get? key ∨
      (store.get? key = none ∧ ∃ input, store'.get? key = some (create key input)) ∨
      ∃ record event record', store.get? key = some record ∧
        step record event = some record' ∧ store'.get? key = some record' := by
  cases event with
  | opened key' input =>
    rw [storeStep] at h
    split at h
    · cases h
    · next hnew =>
      cases h
      by_cases hkey : key = key'
      · subst hkey
        refine .inr (.inl ⟨by simpa using hnew, input, ?_⟩)
        rw [Dict.get?_set, if_pos rfl]
      · exact .inl (by rw [Dict.get?_set, if_neg hkey])
  | of key' event =>
    obtain ⟨record, hrecord, h⟩ := Option.bind_eq_some_iff.mp h
    obtain ⟨record', hstep, rfl⟩ := Option.map_eq_some_iff.mp h
    by_cases hkey : key = key'
    · subst hkey
      refine .inr (.inr ⟨record, event, record', hrecord, hstep, ?_⟩)
      rw [Dict.get?_set, if_pos rfl]
    · exact .inl (by rw [Dict.get?_set, if_neg hkey])

/-- A run of the store takes each record through a run of its own. -/
theorem run {events : List (StoreEvent κ ι ε)}
    (h : Runs (recordStep (storeStep create step)) store events store') {key : κ} {record : ρ}
    (hrecord : store.get? key = some record) :
    ∃ own record', Runs (recordStep step) record own record' ∧ store'.get? key = some record' := by
  induction h with
  | nil => exact ⟨[], record, .nil, hrecord⟩
  | concat _ last ih =>
    obtain ⟨own, record', hrun, hrecord'⟩ := ih
    rcases step_cases last key with hsame | ⟨hnone, -⟩ | ⟨old, event, new, hold, hstep, hnew⟩
    · exact ⟨own, record', hrun, hsame.trans hrecord'⟩
    · exact absurd (hnone.symm.trans hrecord') nofun
    · cases hold.symm.trans hrecord'
      exact ⟨own ++ [event], new, hrun.concat hstep, hnew⟩

/-- Every record of a store is where a run of its own has taken it from its creation. -/
theorem records {events : List (StoreEvent κ ι ε)}
    (h : Runs (recordStep (storeStep create step)) Dict.empty events store) {key : κ} {record : ρ}
    (hrecord : store.get? key = some record) :
    ∃ input own, Runs (recordStep step) (create key input) own record := by
  induction h generalizing record with
  | nil => cases hrecord
  | concat _ last ih =>
    rcases step_cases last key with hsame | ⟨-, input, hnew⟩ | ⟨old, event, new, hold, hstep, hnew⟩
    · exact ih (hsame.symm.trans hrecord)
    · cases hnew.symm.trans hrecord
      exact ⟨input, [], .nil⟩
    · cases hnew.symm.trans hrecord
      obtain ⟨input, own, hrun⟩ := ih hold
      exact ⟨input, own ++ [event], hrun.concat hstep⟩

end RecordStore

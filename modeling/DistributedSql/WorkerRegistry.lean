/-
The worker registry and its leases (`coordinator/registry.py`).

No call awaits inside the registry's lock, so calls run one after the other.  Instants
and the lease time are integers; `uuid4` and the clock are read from outside: a
registration comes with its lease id, and a run moves the clock forward between calls.

Main results:
* `lease_fencing` — a heartbeat is accepted only under the latest lease and before its
  expiry, a lost worker stays lost until it registers, and a sweep leaves no expired
  lease;
* `active_of_healthy` — the scheduler finds a worker healthy only while its lease lasts;
* `loss_recorded` — as long as no late heartbeat notices an expiry first, a lost worker
  has no slots, and each expiry is reported by exactly one sweep.
-/
import DistributedSql.Dict
import DistributedSql.Errors

namespace DistributedSql

inductive WorkerState
  | registering | active | draining | lost
deriving DecidableEq, Repr

structure Worker where
  workerId : String
  endpoint : String
  state : WorkerState := .registering
  slots : ℕ := 1
  availableSlots : ℕ := 1
  memoryLimitBytes : ℕ
  leaseId : Option String := none
  leaseExpiresAt : Option ℤ := none
  registeredAt : ℤ
  lastHeartbeatAt : Option ℤ := none
  labels : List (String × String) := []
deriving DecidableEq, Repr

structure WorkerRegistration where
  workerId : String
  endpoint : String
  slots : ℕ := 1
  memoryLimitBytes : ℕ
  labels : List (String × String) := []
  slots_pos : 1 ≤ slots
  memory_pos : 0 < memoryLimitBytes

structure WorkerHeartbeat where
  leaseId : String
  availableSlots : ℕ
  state : WorkerState := .active
  eligible : state = .active ∨ state = .draining

structure WorkerRegistry where
  leaseTtl : ℤ
  workers : Dict String Worker

namespace WorkerRegistry

variable (registry : WorkerRegistry)

/-- `WorkerRegistry.register`, at `now` and under the fresh lease `leaseId`. -/
def register (now : ℤ) (leaseId : String) (registration : WorkerRegistration) :
    WorkerRegistry × Worker :=
  let worker : Worker :=
    { workerId := registration.workerId
      endpoint := registration.endpoint
      state := .active
      slots := registration.slots
      availableSlots := registration.slots
      memoryLimitBytes := registration.memoryLimitBytes
      leaseId := leaseId
      leaseExpiresAt := now + registry.leaseTtl
      registeredAt := now
      lastHeartbeatAt := now
      labels := registration.labels }
  ({ registry with workers := registry.workers.set worker.workerId worker }, worker)

/-- The lease is over: `worker.lease_expires_at is None or worker.lease_expires_at <= now`. -/
def lapsed (worker : Worker) (now : ℤ) : Bool :=
  match worker.leaseExpiresAt with
  | none => true
  | some expiry => expiry ≤ now

/-- `WorkerRegistry.heartbeat`, at `now`: what the registry becomes, and the answer. -/
def heartbeat (now : ℤ) (workerId : String) (heartbeat : WorkerHeartbeat) :
    WorkerRegistry × Except DistributedSQLError Worker :=
  match registry.workers.get? workerId with
  | none =>
      (registry, .error
        { code := .notFound
          message := "Worker " ++ strRepr workerId ++ " is not registered."
          statusCode := 404
          context := [("worker_id", .text workerId)] })
  | some worker =>
      if worker.leaseId ≠ some heartbeat.leaseId then
        (registry, .error
          { code := .leaseRejected
            message := "Lease for Worker " ++ strRepr workerId ++ " is not valid."
            statusCode := 409
            context := [("worker_id", .text workerId)] })
      else if lapsed worker now then
        ({ registry with workers := registry.workers.modify workerId ({ · with state := .lost }) },
          .error
            { code := .leaseRejected
              message := "Lease for Worker " ++ strRepr workerId ++ " has expired."
              statusCode := 409
              context := [("worker_id", .text workerId)] })
      else if heartbeat.availableSlots > worker.slots then
        (registry, .error
          { code := .invalidRequest
            message := "Available slots cannot exceed configured Worker slots."
            statusCode := 422
            context := [("worker_id", .text workerId), ("slots", .number worker.slots)] })
      else
        let renewed :=
          { worker with
            availableSlots := heartbeat.availableSlots
            state := heartbeat.state
            lastHeartbeatAt := now
            leaseExpiresAt := now + registry.leaseTtl }
        ({ registry with workers := registry.workers.modify workerId fun _ => renewed },
          .ok renewed)

/-- The test of `expire_leases`. -/
def expires (worker : Worker) (now : ℤ) : Bool :=
  worker.state ≠ .lost && worker.leaseExpiresAt.any (· ≤ now)

/-- `WorkerRegistry.expire_leases`, at `now`: what the registry becomes, and the ids reported. -/
def expireLeases (now : ℤ) : WorkerRegistry × List String :=
  ({ registry with
      workers := registry.workers.map fun _ worker =>
        if expires worker now then { worker with state := .lost, availableSlots := 0 }
        else worker },
    (registry.workers.values.filter (expires · now)).map (·.workerId))

/-- `WorkerRegistry.list_workers`: a copy of the records, by id. -/
def listWorkers : List Worker :=
  registry.workers.values.mergeSort fun a b => a.workerId ≤ b.workerId

/-- `TaskScheduler._worker_is_healthy`, at `now`: the registry after its sweep, and the answer. -/
def workerIsHealthy (now : ℤ) (active : Bool) (workerId : String) : WorkerRegistry × Bool :=
  if !active then (registry, false)
  else
    let swept := (registry.expireLeases now).1
    (swept, match swept.listWorkers.reverse.find? (·.workerId = workerId) with
      | none => false
      | some registered => registered.state = .active)

end WorkerRegistry

/-! ### Runs -/

/-- What happens to a registry: time passes, or one of its methods is called. -/
inductive RegistryCall
  | tick (elapsed : ℕ)
  | register (leaseId : String) (registration : WorkerRegistration)
  | heartbeat (workerId : String) (heartbeat : WorkerHeartbeat)
  | expireLeases
  | listWorkers

/-- A registry and the clock. -/
structure RegistryState where
  registry : WorkerRegistry
  now : ℤ

namespace RegistryState

/-- A new registry. -/
def start (leaseTtl now : ℤ) : RegistryState := ⟨⟨leaseTtl, Dict.empty⟩, now⟩

def step (s : RegistryState) : RegistryCall → RegistryState
  | .tick elapsed => { s with now := s.now + elapsed }
  | .register leaseId registration =>
      { s with registry := (s.registry.register s.now leaseId registration).1 }
  | .heartbeat workerId heartbeat =>
      { s with registry := (s.registry.heartbeat s.now workerId heartbeat).1 }
  | .expireLeases => { s with registry := (s.registry.expireLeases s.now).1 }
  | .listWorkers => s

def run (s : RegistryState) (calls : List RegistryCall) : RegistryState := calls.foldl step s

/-- The record of a worker. -/
def worker? (s : RegistryState) (workerId : String) : Option Worker :=
  s.registry.workers.get? workerId

@[simp] theorem run_nil (s : RegistryState) : s.run [] = s := rfl

@[simp] theorem run_cons (s : RegistryState) (call : RegistryCall) (calls : List RegistryCall) :
    s.run (call :: calls) = (s.step call).run calls := rfl

theorem run_append (s : RegistryState) (calls later : List RegistryCall) :
    s.run (calls ++ later) = (s.run calls).run later := List.foldl_append

theorem run_concat (s : RegistryState) (calls : List RegistryCall) (call : RegistryCall) :
    s.run (calls ++ [call]) = (s.run calls).step call := run_append s calls [call]

@[simp] theorem worker?_start (leaseTtl now : ℤ) (id : String) :
    (start leaseTtl now).worker? id = none := rfl

/-! ### What a call does to one record -/

/-- What a call may leave as the record of `id`. -/
inductive RecordStep (s : RegistryState) (call : RegistryCall) (id : String) :
    Option Worker → Prop
  | kept (hregister : ∀ leaseId registration, call = .register leaseId registration →
        registration.workerId ≠ id)
      (hsweep : call = .expireLeases → ∀ worker, s.worker? id = some worker →
        WorkerRegistry.expires worker s.now = false) : RecordStep s call id (s.worker? id)
  | registered (leaseId : String) (registration : WorkerRegistration)
      (hcall : call = .register leaseId registration) (hid : registration.workerId = id) :
      RecordStep s call id (some (s.registry.register s.now leaseId registration).2)
  | noticed (beat : WorkerHeartbeat) (worker : Worker) (hcall : call = .heartbeat id beat)
      (hworker : s.worker? id = some worker) (hlease : worker.leaseId = some beat.leaseId)
      (hlapsed : WorkerRegistry.lapsed worker s.now = true) :
      RecordStep s call id (some { worker with state := .lost })
  | renewed (beat : WorkerHeartbeat) (worker : Worker) (hcall : call = .heartbeat id beat)
      (hworker : s.worker? id = some worker) (hlease : worker.leaseId = some beat.leaseId)
      (hlapsed : WorkerRegistry.lapsed worker s.now = false)
      (hslots : beat.availableSlots ≤ worker.slots) :
      RecordStep s call id (some
        { worker with
          availableSlots := beat.availableSlots
          state := beat.state
          lastHeartbeatAt := s.now
          leaseExpiresAt := s.now + s.registry.leaseTtl })
  | swept (worker : Worker) (hcall : call = .expireLeases) (hworker : s.worker? id = some worker)
      (hexpires : WorkerRegistry.expires worker s.now = true) :
      RecordStep s call id (some { worker with state := .lost, availableSlots := 0 })

theorem worker?_step (s : RegistryState) (call : RegistryCall) (id : String) :
    RecordStep s call id ((s.step call).worker? id) := by
  cases call with
  | tick elapsed => exact .kept (fun _ _ h => by cases h) fun h => by cases h
  | listWorkers => exact .kept (fun _ _ h => by cases h) fun h => by cases h
  | register leaseId registration =>
    have h : (s.step (.register leaseId registration)).worker? id
        = if id = registration.workerId then
            some (s.registry.register s.now leaseId registration).2 else s.worker? id :=
      Dict.get?_set _ _ _ _
    rw [h]
    split
    case isTrue hid => exact .registered leaseId registration rfl hid.symm
    case isFalse hid =>
      refine .kept (fun _ _ h => ?_) fun h => by cases h
      cases h
      exact Ne.symm hid
  | expireLeases =>
    have h : (s.step .expireLeases).worker? id = (s.worker? id).map fun worker =>
        if WorkerRegistry.expires worker s.now then { worker with state := .lost, availableSlots := 0 }
        else worker := Dict.get?_map _ _ _
    rw [h]
    cases hworker : s.worker? id with
    | none =>
      rw [Option.map_none, ← hworker]
      refine .kept (fun _ _ h => by cases h) fun _ worker h => ?_
      cases hworker.symm.trans h
    | some worker =>
      rw [Option.map_some]
      split
      case isTrue hexpires => exact .swept worker rfl hworker hexpires
      case isFalse hexpires =>
        rw [← hworker]
        refine .kept (fun _ _ h => by cases h) fun _ other h => ?_
        cases hworker.symm.trans h
        exact Bool.not_eq_true _ ▸ hexpires
  | heartbeat workerId beat =>
    have hkept : RecordStep s (.heartbeat workerId beat) id (s.worker? id) :=
      .kept (fun _ _ h => by cases h) fun h => by cases h
    have hmodify : ∀ f : Worker → Worker,
        (s.registry.workers.modify workerId f).get? id
          = if id = workerId then (s.worker? id).map f else s.worker? id :=
      fun f => Dict.get?_modify _ _ _ f
    show RecordStep s _ id ((s.registry.heartbeat s.now workerId beat).1.workers.get? id)
    rw [WorkerRegistry.heartbeat]
    split
    case h_1 => exact hkept
    case h_2 worker hworker =>
      split_ifs with hlease hlapsed hslots
      · exact hkept
      · rw [hmodify]
        split_ifs with hid
        · subst hid
          rw [worker?, hworker]
          exact .noticed beat worker rfl hworker (not_not.mp hlease) hlapsed
        · exact hkept
      · exact hkept
      · rw [hmodify]
        split_ifs with hid
        · subst hid
          rw [worker?, hworker]
          exact .renewed beat worker rfl hworker (not_not.mp hlease) (by simpa using hlapsed)
            (not_lt.mp hslots)
        · exact hkept

theorem now_le_step (s : RegistryState) (call : RegistryCall) : s.now ≤ (s.step call).now := by
  cases call with
  | tick elapsed => exact Int.le_add_of_nonneg_right (Int.natCast_nonneg elapsed)
  | register => exact le_rfl
  | heartbeat => exact le_rfl
  | expireLeases => exact le_rfl
  | listWorkers => exact le_rfl

theorem leaseTtl_step (s : RegistryState) (call : RegistryCall) :
    (s.step call).registry.leaseTtl = s.registry.leaseTtl := by
  cases call with
  | heartbeat workerId beat =>
    show (s.registry.heartbeat s.now workerId beat).1.leaseTtl = _
    unfold WorkerRegistry.heartbeat
    split
    · rfl
    · split_ifs <;> rfl
  | tick => rfl
  | register => rfl
  | expireLeases => rfl
  | listWorkers => rfl

/-! ### The invariant of a record -/

/-- The record of `id`, at `now`: its lease was granted by its last registration or
accepted heartbeat, and a lost worker's lease is over. -/
structure Sound (leaseTtl now : ℤ) (id : String) (worker : Worker) : Prop where
  workerId : worker.workerId = id
  slots : worker.availableSlots ≤ worker.slots
  granted : ∃ granted, worker.lastHeartbeatAt = some granted ∧
    worker.leaseExpiresAt = some (granted + leaseTtl)
  lapsed_of_lost : worker.state = .lost → WorkerRegistry.lapsed worker now = true

theorem lapsed_mono {worker : Worker} {now later : ℤ} (hle : now ≤ later)
    (h : WorkerRegistry.lapsed worker now = true) : WorkerRegistry.lapsed worker later = true := by
  unfold WorkerRegistry.lapsed at h ⊢
  split at h
  · rfl
  · exact decide_eq_true ((of_decide_eq_true h).trans hle)

theorem lapsed_of_expires {worker : Worker} {now : ℤ}
    (h : WorkerRegistry.expires worker now = true) : WorkerRegistry.lapsed worker now = true := by
  rw [WorkerRegistry.expires, Bool.and_eq_true] at h
  unfold WorkerRegistry.lapsed
  cases hexpiry : worker.leaseExpiresAt with
  | none => rfl
  | some expiry => simpa [hexpiry] using h.2

theorem Sound.expires_iff {leaseTtl now : ℤ} {id : String} {worker : Worker}
    (h : Sound leaseTtl now id worker) : WorkerRegistry.expires worker now = true ↔
      worker.state ≠ .lost ∧ WorkerRegistry.lapsed worker now = true := by
  obtain ⟨granted, -, hexpiry⟩ := h.granted
  simp [WorkerRegistry.expires, WorkerRegistry.lapsed, hexpiry]

theorem sound_step {s : RegistryState} {id : String}
    (h : ∀ worker, s.worker? id = some worker → Sound s.registry.leaseTtl s.now id worker)
    (call : RegistryCall) {worker : Worker} (hworker : (s.step call).worker? id = some worker) :
    Sound (s.step call).registry.leaseTtl (s.step call).now id worker := by
  have hstep := worker?_step s call id
  rw [hworker] at hstep
  rw [leaseTtl_step]
  have hnow := now_le_step s call
  generalize hrecord : some worker = record at hstep
  cases hstep with
  | kept _ _ =>
    have hold := h worker hrecord.symm
    exact ⟨hold.workerId, hold.slots, hold.granted,
      fun hlost => lapsed_mono hnow (hold.lapsed_of_lost hlost)⟩
  | registered leaseId registration hcall hid =>
    cases hrecord
    exact ⟨hid, le_rfl, ⟨s.now, rfl, rfl⟩, fun hlost => by cases hlost⟩
  | noticed beat old hcall hold hlease hlapsed =>
    cases hrecord
    have hold := h old hold
    exact ⟨hold.workerId, hold.slots, hold.granted, fun _ => lapsed_mono hnow hlapsed⟩
  | renewed beat old hcall hold hlease hlapsed hslots =>
    cases hrecord
    have hold := h old hold
    refine ⟨hold.workerId, hslots, ⟨s.now, rfl, rfl⟩, fun hlost => ?_⟩
    rcases beat.eligible with hstate | hstate
    · cases hstate.symm.trans hlost
    · cases hstate.symm.trans hlost
  | swept old hcall hold hexpires =>
    cases hrecord
    have hold := h old hold
    have hlapsed := lapsed_mono hnow (lapsed_of_expires hexpires)
    exact ⟨hold.workerId, Nat.zero_le _, hold.granted, fun _ => hlapsed⟩

theorem sound_run (leaseTtl t₀ : ℤ) (calls : List RegistryCall) {id : String} {worker : Worker}
    (h : ((start leaseTtl t₀).run calls).worker? id = some worker) :
    Sound ((start leaseTtl t₀).run calls).registry.leaseTtl ((start leaseTtl t₀).run calls).now
      id worker := by
  induction calls using List.reverseRecOn generalizing worker with
  | nil => cases h
  | append_singleton calls call ih =>
    rw [run_concat] at h ⊢
    exact sound_step (fun worker hworker => ih hworker) call h

theorem leaseTtl_run (leaseTtl t₀ : ℤ) (calls : List RegistryCall) :
    ((start leaseTtl t₀).run calls).registry.leaseTtl = leaseTtl := by
  induction calls using List.reverseRecOn with
  | nil => rfl
  | append_singleton calls call ih => rw [run_concat, leaseTtl_step, ih]

/-! ### Fencing -/

/-- The lease of a worker's last registration. -/
def latestLease (calls : List RegistryCall) (id : String) : Option String :=
  calls.foldl (fun latest call => match call with
    | .register leaseId registration =>
        if registration.workerId = id then some leaseId else latest
    | _ => latest) none

theorem latestLease_concat_of_ne {calls : List RegistryCall} {call : RegistryCall} {id : String}
    (h : ∀ leaseId registration, call = .register leaseId registration →
      registration.workerId ≠ id) :
    latestLease (calls ++ [call]) id = latestLease calls id := by
  rw [latestLease, List.foldl_append, List.foldl_cons, List.foldl_nil]
  split
  case h_1 leaseId registration => exact if_neg (h leaseId registration rfl)
  case h_2 => rfl

theorem leaseId_run (leaseTtl t₀ : ℤ) (calls : List RegistryCall) {id : String} {worker : Worker}
    (h : ((start leaseTtl t₀).run calls).worker? id = some worker) :
    worker.leaseId = latestLease calls id := by
  induction calls using List.reverseRecOn generalizing worker with
  | nil => cases h
  | append_singleton calls call ih =>
    rw [run_concat] at h
    have hstep := worker?_step ((start leaseTtl t₀).run calls) call id
    rw [h] at hstep
    generalize hrecord : some worker = record at hstep
    cases hstep with
    | kept hregister _ =>
      rw [latestLease_concat_of_ne hregister]
      exact ih hrecord.symm
    | registered leaseId registration hcall hid =>
      cases hrecord
      rw [hcall, latestLease, List.foldl_append]
      exact (if_pos hid).symm
    | noticed beat old hcall hold hlease hlapsed =>
      cases hrecord
      rw [latestLease_concat_of_ne fun _ _ h => by cases hcall.symm.trans h]
      have hlatest := ih hold
      exact hlatest
    | renewed beat old hcall hold hlease hlapsed hslots =>
      cases hrecord
      rw [latestLease_concat_of_ne fun _ _ h => by cases hcall.symm.trans h]
      have hlatest := ih hold
      exact hlatest
    | swept old hcall hold hexpires =>
      cases hrecord
      rw [latestLease_concat_of_ne fun _ _ h => by cases hcall.symm.trans h]
      have hlatest := ih hold
      exact hlatest

theorem lost_step {s : RegistryState} {id : String} {worker : Worker}
    (hsound : Sound s.registry.leaseTtl s.now id worker) (hworker : s.worker? id = some worker)
    (hlost : worker.state = .lost) {call : RegistryCall}
    (hcall : ∀ leaseId registration, call = .register leaseId registration →
      registration.workerId ≠ id) :
    ∃ worker', (s.step call).worker? id = some worker' ∧ worker'.state = .lost := by
  have hstep := worker?_step s call id
  generalize (s.step call).worker? id = record at hstep
  cases hstep with
  | kept _ _ => exact ⟨worker, hworker, hlost⟩
  | registered leaseId registration hregister hid =>
    exact absurd hid (hcall leaseId registration hregister)
  | noticed beat old _ _ _ _ => exact ⟨_, rfl, rfl⟩
  | renewed beat old _ hold _ hlapsed _ =>
    -- the lease of a lost worker is over, so a heartbeat cannot renew it
    cases hworker.symm.trans hold
    cases (hsound.lapsed_of_lost hlost).symm.trans hlapsed
  | swept old _ _ _ => exact ⟨_, rfl, rfl⟩

theorem lost_run {s : RegistryState} {id : String} {worker : Worker}
    (hsound : ∀ worker, s.worker? id = some worker → Sound s.registry.leaseTtl s.now id worker)
    (hworker : s.worker? id = some worker) (hlost : worker.state = .lost)
    {later : List RegistryCall} (hlater : ∀ leaseId registration,
      .register leaseId registration ∈ later → registration.workerId ≠ id) :
    ∃ worker', (s.run later).worker? id = some worker' ∧ worker'.state = .lost := by
  induction later generalizing s worker with
  | nil => exact ⟨worker, hworker, hlost⟩
  | cons call later ih =>
    obtain ⟨worker', hworker', hlost'⟩ := lost_step (hsound worker hworker) hworker hlost
      fun leaseId registration h => hlater leaseId registration (h ▸ List.mem_cons_self)
    exact ih (fun _ => sound_step hsound call) hworker' hlost' fun leaseId registration h =>
      hlater leaseId registration (List.mem_cons_of_mem call h)

theorem heartbeat_accepted {s : RegistryState} {id : String} {beat : WorkerHeartbeat}
    {answer : Worker} (h : (s.registry.heartbeat s.now id beat).2 = .ok answer) :
    ∃ worker, s.worker? id = some worker ∧ worker.leaseId = some beat.leaseId ∧
      WorkerRegistry.lapsed worker s.now = false := by
  rw [WorkerRegistry.heartbeat] at h
  split at h
  case h_1 => cases h
  case h_2 worker hworker =>
    split_ifs at h with hlease hlapsed hslots
    exact ⟨worker, hworker, not_not.mp hlease, by simpa using hlapsed⟩

/-- What a sweep does not declare lost is not over. -/
theorem lapsed_of_sweep {s : RegistryState} {id : String} {worker : Worker}
    (hsound : ∀ worker, s.worker? id = some worker → Sound s.registry.leaseTtl s.now id worker)
    (hworker : (s.step .expireLeases).worker? id = some worker) (hne : worker.state ≠ .lost) :
    s.worker? id = some worker ∧ WorkerRegistry.lapsed worker s.now = false := by
  have hstep := worker?_step s .expireLeases id
  rw [hworker] at hstep
  generalize hrecord : some worker = record at hstep
  cases hstep with
  | kept _ hsweep =>
    refine ⟨rfl, Bool.eq_false_iff.mpr fun hlapsed => ?_⟩
    have hexpires := (hsound worker hrecord.symm).expires_iff.mpr ⟨hne, hlapsed⟩
    cases (hsweep rfl worker hrecord.symm).symm.trans hexpires
  | registered _ _ hcall _ => cases hcall
  | noticed _ _ hcall _ _ _ => cases hcall
  | renewed _ _ hcall _ _ _ _ => cases hcall
  | swept old _ _ _ =>
    cases hrecord
    exact absurd rfl hne

/-- After every run: a heartbeat is accepted only under the lease of the last registration
and before that lease's expiry; a lost worker stays lost until it registers again; a sweep
leaves no expired lease; and no worker has more free slots than slots. -/
theorem lease_fencing (leaseTtl t₀ : ℤ) (calls : List RegistryCall) :
    (∀ id beat answer,
      (((start leaseTtl t₀).run calls).registry.heartbeat
        ((start leaseTtl t₀).run calls).now id beat).2 = .ok answer →
      latestLease calls id = some beat.leaseId ∧
        ∃ worker granted, ((start leaseTtl t₀).run calls).worker? id = some worker ∧
          worker.lastHeartbeatAt = some granted ∧
          worker.leaseExpiresAt = some (granted + leaseTtl) ∧
          ((start leaseTtl t₀).run calls).now < granted + leaseTtl) ∧
    (∀ id worker later, ((start leaseTtl t₀).run calls).worker? id = some worker →
      worker.state = .lost →
      (∀ leaseId registration, .register leaseId registration ∈ later →
        registration.workerId ≠ id) →
      ∃ worker', ((start leaseTtl t₀).run (calls ++ later)).worker? id = some worker' ∧
        worker'.state = .lost) ∧
    (∀ id worker, ((start leaseTtl t₀).run (calls ++ [.expireLeases])).worker? id = some worker →
      worker.state ≠ .lost →
      ∃ expiry, worker.leaseExpiresAt = some expiry ∧
        ((start leaseTtl t₀).run calls).now < expiry) ∧
    (∀ id worker, ((start leaseTtl t₀).run calls).worker? id = some worker →
      worker.availableSlots ≤ worker.slots) := by
  have hsound : ∀ id worker, ((start leaseTtl t₀).run calls).worker? id = some worker →
      Sound ((start leaseTtl t₀).run calls).registry.leaseTtl
        ((start leaseTtl t₀).run calls).now id worker :=
    fun id worker => sound_run leaseTtl t₀ calls
  have httl := leaseTtl_run leaseTtl t₀ calls
  generalize hs : (start leaseTtl t₀).run calls = s at hsound httl ⊢
  refine ⟨fun id beat answer haccept => ?_, fun id worker later hworker hlost hlater => ?_,
    fun id worker hworker hne => ?_, fun id worker hworker => (hsound id worker hworker).slots⟩
  · obtain ⟨worker, hworker, hlease, hlapsed⟩ := heartbeat_accepted haccept
    obtain ⟨granted, hgranted, hexpiry⟩ := (hsound id worker hworker).granted
    rw [httl] at hexpiry
    refine ⟨?_, worker, granted, hworker, hgranted, hexpiry, ?_⟩
    · rw [← leaseId_run leaseTtl t₀ calls (hs ▸ hworker), hlease]
    · simpa [WorkerRegistry.lapsed, hexpiry] using hlapsed
  · rw [run_append, hs]
    exact lost_run (hsound id) hworker hlost hlater
  · rw [run_concat, hs] at hworker
    obtain ⟨hbefore, hlapsed⟩ := lapsed_of_sweep (hsound id) hworker hne
    obtain ⟨granted, -, hexpiry⟩ := (hsound id worker hbefore).granted
    refine ⟨_, hexpiry, ?_⟩
    simpa [WorkerRegistry.lapsed, hexpiry] using hlapsed

/-- The scheduler finds a worker healthy only while its lease lasts. -/
theorem active_of_healthy (leaseTtl t₀ : ℤ) (calls : List RegistryCall) {active : Bool}
    {id : String} (h : (((start leaseTtl t₀).run calls).registry.workerIsHealthy
      ((start leaseTtl t₀).run calls).now active id).2 = true) :
    ∃ worker, ((start leaseTtl t₀).run calls).worker? id = some worker ∧
      worker.state = .active ∧
      WorkerRegistry.lapsed worker ((start leaseTtl t₀).run calls).now = false := by
  have hsound : ∀ id worker, ((start leaseTtl t₀).run calls).worker? id = some worker →
      Sound ((start leaseTtl t₀).run calls).registry.leaseTtl
        ((start leaseTtl t₀).run calls).now id worker :=
    fun id worker => sound_run leaseTtl t₀ calls
  generalize (start leaseTtl t₀).run calls = s at hsound h ⊢
  rw [WorkerRegistry.workerIsHealthy] at h
  split at h
  · cases h
  dsimp only at h
  split at h
  case h_1 => cases h
  case h_2 registered hfind =>
    have hstate : registered.state = .active := of_decide_eq_true h
    have hid : registered.workerId = id := by
      simpa using List.find?_some hfind
    have hmem := List.mem_mergeSort.mp (List.mem_reverse.mp (List.mem_of_find?_eq_some hfind))
    obtain ⟨⟨key, worker⟩, hitem, rfl⟩ := List.mem_map.mp hmem
    have hworker : (s.step .expireLeases).worker? key = some worker := Dict.mem_items.mp hitem
    obtain ⟨hbefore, hlapsed⟩ :=
      lapsed_of_sweep (hsound key) hworker (by rw [hstate]; exact nofun)
    have hkey := (hsound key worker hbefore).workerId
    exact ⟨worker, hid ▸ hkey ▸ hbefore, hstate, hlapsed⟩

/-! ### Recording a loss -/

/-- A heartbeat that finds the lease it carries over, before any sweep did. -/
def NoticesExpiry (s : RegistryState) : RegistryCall → Prop
  | .heartbeat id beat => ∃ worker, s.worker? id = some worker ∧
      worker.leaseId = some beat.leaseId ∧ WorkerRegistry.lapsed worker s.now = true ∧
      worker.state ≠ .lost
  | _ => False

/-- What the sweeps of a run report, in order. -/
def sweeps (s : RegistryState) : List RegistryCall → List (List String)
  | [] => []
  | .expireLeases :: calls => (s.registry.expireLeases s.now).2 :: sweeps (s.step .expireLeases) calls
  | call :: calls => sweeps (s.step call) calls

/-- Some sweep of the run comes after the end of the worker's lease. -/
def SweptAfterLapse (s : RegistryState) (id : String) (calls : List RegistryCall) : Prop :=
  ∃ before after worker, calls = before ++ .expireLeases :: after ∧
    (s.run before).worker? id = some worker ∧
    WorkerRegistry.lapsed worker (s.run before).now = true

theorem sweptAfterLapse_cons {s : RegistryState} {id : String} {worker : Worker}
    (hworker : s.worker? id = some worker) (call : RegistryCall) (calls : List RegistryCall) :
    SweptAfterLapse s id (call :: calls) ↔
      (call = .expireLeases ∧ WorkerRegistry.lapsed worker s.now = true) ∨
        SweptAfterLapse (s.step call) id calls := by
  constructor
  · rintro ⟨before, after, other, hcalls, hother, hlapsed⟩
    cases before with
    | nil =>
      cases hcalls
      cases hworker.symm.trans hother
      exact Or.inl ⟨rfl, hlapsed⟩
    | cons first before =>
      cases hcalls
      exact Or.inr ⟨before, after, other, rfl, hother, hlapsed⟩
  · rintro (⟨rfl, hlapsed⟩ | ⟨before, after, other, rfl, hother, hlapsed⟩)
    · exact ⟨[], calls, worker, rfl, hworker, hlapsed⟩
    · exact ⟨call :: before, after, other, rfl, hother, hlapsed⟩

theorem not_sweptAfterLapse_nil (s : RegistryState) (id : String) : ¬SweptAfterLapse s id [] := by
  rintro ⟨before, after, -, hcalls, -⟩
  cases before <;> cases hcalls

/-- A sweep reports the workers whose leases it declares over. -/
theorem mem_expireLeases {s : RegistryState} {id : String}
    (hsound : ∀ id worker, s.worker? id = some worker →
      Sound s.registry.leaseTtl s.now id worker) :
    id ∈ (s.registry.expireLeases s.now).2 ↔
      ∃ worker, s.worker? id = some worker ∧ WorkerRegistry.expires worker s.now = true := by
  rw [WorkerRegistry.expireLeases]
  simp only [List.mem_map, List.mem_filter, Dict.values]
  constructor
  · rintro ⟨_, ⟨⟨⟨key, worker⟩, hitem, rfl⟩, hexpires⟩, rfl⟩
    have hworker := Dict.mem_items.mp hitem
    exact ⟨worker, (hsound key worker hworker).workerId ▸ hworker, hexpires⟩
  · rintro ⟨worker, hworker, hexpires⟩
    exact ⟨worker, ⟨⟨(id, worker), Dict.mem_items.mpr hworker, rfl⟩, hexpires⟩,
      (hsound id worker hworker).workerId⟩

/-- From a state in which the record's slots and state agree, as long as no heartbeat
notices an expiry: lost workers have no slots. -/
theorem slots_of_lost_step {s : RegistryState} {id : String} {call : RegistryCall}
    (hcall : ¬NoticesExpiry s call)
    (h : ∀ worker, s.worker? id = some worker → worker.state = .lost → worker.availableSlots = 0)
    {worker : Worker} (hworker : (s.step call).worker? id = some worker)
    (hlost : worker.state = .lost) : worker.availableSlots = 0 := by
  have hstep := worker?_step s call id
  rw [hworker] at hstep
  generalize hrecord : some worker = record at hstep
  cases hstep with
  | kept _ _ => exact h worker hrecord.symm hlost
  | registered _ _ _ _ =>
    cases hrecord
    cases hlost
  | noticed beat old hheartbeat hold hlease hlapsed =>
    cases hrecord
    by_contra hslots
    refine hcall (hheartbeat ▸ ⟨old, hold, hlease, hlapsed, fun holdlost => ?_⟩)
    exact hslots (h old hold holdlost)
  | renewed beat old _ _ _ _ _ =>
    cases hrecord
    rcases beat.eligible with hstate | hstate
    · cases hstate.symm.trans hlost
    · cases hstate.symm.trans hlost
  | swept _ _ _ _ =>
    cases hrecord
    rfl

/-- As long as no heartbeat notices an expiry, only a sweep after the end of the lease
makes a worker lost. -/
theorem lost_step_iff {s : RegistryState} {id : String} {call : RegistryCall} {worker : Worker}
    (hsound : ∀ worker, s.worker? id = some worker → Sound s.registry.leaseTtl s.now id worker)
    (hregister : ∀ leaseId registration, call = .register leaseId registration →
      registration.workerId ≠ id) (hcall : ¬NoticesExpiry s call)
    (hworker : s.worker? id = some worker) :
    ∃ worker', (s.step call).worker? id = some worker' ∧ (worker'.state = .lost ↔
      worker.state = .lost ∨
        (call = .expireLeases ∧ WorkerRegistry.lapsed worker s.now = true)) := by
  have hstep := worker?_step s call id
  generalize (s.step call).worker? id = record at hstep
  cases hstep with
  | kept _ hsweep =>
    refine ⟨worker, hworker, Or.inl, ?_⟩
    rintro (hlost | ⟨hsweeping, hlapsed⟩)
    · exact hlost
    by_contra hne
    have hexpires := (hsound worker hworker).expires_iff.mpr ⟨hne, hlapsed⟩
    cases (hsweep hsweeping worker hworker).symm.trans hexpires
  | registered leaseId registration hreg hid => exact absurd hid (hregister leaseId registration hreg)
  | noticed beat old hheartbeat hold hlease hlapsed =>
    cases hworker.symm.trans hold
    refine ⟨_, rfl, fun _ => Or.inl ?_, fun _ => rfl⟩
    by_contra hne
    exact hcall (hheartbeat ▸ ⟨worker, hworker, hlease, hlapsed, hne⟩)
  | renewed beat old hheartbeat hold _ hlapsed _ =>
    cases hworker.symm.trans hold
    refine ⟨_, rfl, fun hlost => ?_, ?_⟩
    · rcases beat.eligible with hstate | hstate
      · cases hstate.symm.trans hlost
      · cases hstate.symm.trans hlost
    · rintro (hlost | ⟨hsweeping, -⟩)
      · cases ((hsound worker hworker).lapsed_of_lost hlost).symm.trans hlapsed
      · cases hheartbeat.symm.trans hsweeping
  | swept old hsweeping hold hexpires =>
    cases hworker.symm.trans hold
    exact ⟨_, rfl, fun _ => Or.inr ⟨hsweeping, lapsed_of_expires hexpires⟩, fun _ => rfl⟩

theorem sweeps_cons_of_ne {call : RegistryCall} (h : call ≠ .expireLeases) (s : RegistryState)
    (calls : List RegistryCall) : s.sweeps (call :: calls) = (s.step call).sweeps calls := by
  cases call with
  | expireLeases => exact absurd rfl h
  | tick => rfl
  | register => rfl
  | heartbeat => rfl
  | listWorkers => rfl

theorem countP_sweeps_cons {s : RegistryState} {id : String} {worker : Worker}
    (hsound : ∀ id worker, s.worker? id = some worker →
      Sound s.registry.leaseTtl s.now id worker)
    (hworker : s.worker? id = some worker) (calls : List RegistryCall) :
    ((s.sweeps (.expireLeases :: calls)).countP fun report => id ∈ report)
      = ((s.step .expireLeases).sweeps calls).countP (fun report => id ∈ report) +
        if worker.state ≠ .lost ∧ WorkerRegistry.lapsed worker s.now = true then 1 else 0 := by
  have hmem : id ∈ (s.registry.expireLeases s.now).2 ↔
      worker.state ≠ .lost ∧ WorkerRegistry.lapsed worker s.now = true := by
    rw [mem_expireLeases hsound, ← (hsound id worker hworker).expires_iff]
    constructor
    · rintro ⟨other, hother, hexpires⟩
      cases hworker.symm.trans hother
      exact hexpires
    · exact fun hexpires => ⟨worker, hworker, hexpires⟩
  rw [sweeps, List.countP_cons]
  simp only [decide_eq_true_eq, hmem]

/-- The sweeps of a run that does not register the worker report it once if its lease is
over by one of them, and not at all otherwise or if it was lost before. -/
theorem countP_sweeps {s : RegistryState} {id : String} {calls : List RegistryCall}
    (hsound : ∀ id worker, s.worker? id = some worker →
      Sound s.registry.leaseTtl s.now id worker)
    (hregister : ∀ leaseId registration, .register leaseId registration ∈ calls →
      registration.workerId ≠ id)
    (hcalls : ∀ before call after, calls = before ++ call :: after →
      ¬NoticesExpiry (s.run before) call)
    {worker : Worker} (hworker : s.worker? id = some worker) :
    ((s.sweeps calls).countP fun report => id ∈ report) ≤ 1 ∧
      (((s.sweeps calls).countP fun report => id ∈ report) = 1 ↔
        worker.state ≠ .lost ∧ SweptAfterLapse s id calls) := by
  induction calls generalizing s worker with
  | nil => exact ⟨Nat.zero_le 1, by simp [sweeps, not_sweptAfterLapse_nil]⟩
  | cons call calls ih =>
    obtain ⟨worker', hworker', hlost⟩ := lost_step_iff (hsound id)
      (fun leaseId registration h => hregister leaseId registration (h ▸ List.mem_cons_self))
      (hcalls [] call calls rfl) hworker
    have hrest := ih (fun id worker => sound_step (hsound id) call)
      (fun leaseId registration h =>
        hregister leaseId registration (List.mem_cons_of_mem call h))
      (fun before c after h => hcalls (call :: before) c after (by rw [h]; rfl)) hworker'
    rw [sweptAfterLapse_cons hworker]
    by_cases hsweep : call = .expireLeases
    · subst hsweep
      rw [countP_sweeps_cons hsound hworker]
      by_cases hlapsed : WorkerRegistry.lapsed worker s.now = true
      · -- the lease is over: this sweep reports the worker unless it was lost, and no later one does
        have hnone : ((s.step .expireLeases).sweeps calls).countP (fun report => id ∈ report) = 0 := by
          have hne := mt hrest.2.mp fun h => h.1 (hlost.mpr (Or.inr ⟨rfl, hlapsed⟩))
          omega
        rw [hnone]
        by_cases hwas : worker.state = .lost <;> simp [hlapsed, hwas]
      · rw [if_neg fun h => hlapsed h.2, Nat.add_zero]
        simpa [hlost, hlapsed] using hrest
    · rw [sweeps_cons_of_ne hsweep]
      simpa [hlost, hsweep] using hrest

/-- As long as no heartbeat notices an expiry before a sweep does: a lost worker has no
slots, and of the sweeps between two registrations of a worker exactly one reports it if
its lease is over by one of them. -/
theorem loss_recorded (leaseTtl t₀ : ℤ) (calls : List RegistryCall)
    (h : ∀ before call after, calls = before ++ call :: after →
      ¬NoticesExpiry ((start leaseTtl t₀).run before) call) :
    (∀ id worker, ((start leaseTtl t₀).run calls).worker? id = some worker →
      worker.state = .lost → worker.availableSlots = 0) ∧
    (∀ before leaseId registration after,
      calls = before ++ .register leaseId registration :: after →
      (∀ leaseId' registration', .register leaseId' registration' ∈ after →
        registration'.workerId ≠ registration.workerId) →
      let s := (start leaseTtl t₀).run (before ++ [.register leaseId registration])
      let count := (s.sweeps after).countP fun report => registration.workerId ∈ report
      count ≤ 1 ∧ (count = 1 ↔ SweptAfterLapse s registration.workerId after)) := by
  constructor
  · intro id
    induction calls using List.reverseRecOn with
    | nil => exact fun worker hworker => by cases hworker
    | append_singleton calls call ih =>
      intro worker hworker hlost
      rw [run_concat] at hworker
      refine slots_of_lost_step (h calls call [] rfl) (ih fun before c after hsplit => ?_) hworker
        hlost
      exact h before c (after ++ [call]) (by rw [hsplit]; simp)
  · intro before leaseId registration after hsplit hafter s count
    have hworker : s.worker? registration.workerId
        = some (((start leaseTtl t₀).run before).registry.register
            ((start leaseTtl t₀).run before).now leaseId registration).2 := by
      show ((start leaseTtl t₀).run (before ++ [.register leaseId registration])).worker? _ = _
      rw [run_concat]
      exact (Dict.get?_set _ _ _ _).trans (if_pos rfl)
    have hcount := countP_sweeps
      (fun id worker => sound_run leaseTtl t₀ (before ++ [.register leaseId registration]))
      hafter (fun b c a hb => by
        rw [← run_append]
        exact h (before ++ [.register leaseId registration] ++ b) c a (by rw [hsplit, hb]; simp))
      hworker
    refine ⟨hcount.1, hcount.2.trans (and_iff_right ?_)⟩
    exact fun hlost => by cases hlost

/-- A worker with two slots. -/
def twoSlots : WorkerRegistration where
  workerId := "worker-1"
  endpoint := "http://127.0.0.1:8091"
  slots := 2
  memoryLimitBytes := 67108864
  slots_pos := by decide
  memory_pos := by decide

theorem loss_recorded_twoSlots :
    (∀ id worker,
      ((start 6 0).run [.register "lease-1" twoSlots, .tick 7, .expireLeases]).worker? id
        = some worker → worker.state = .lost → worker.availableSlots = 0) ∧
    (∀ before leaseId registration after,
      [.register "lease-1" twoSlots, .tick 7, .expireLeases]
        = before ++ .register leaseId registration :: after →
      (∀ leaseId' registration', .register leaseId' registration' ∈ after →
        registration'.workerId ≠ registration.workerId) →
      let s := (start 6 0).run (before ++ [.register leaseId registration])
      let count := (s.sweeps after).countP fun report => registration.workerId ∈ report
      count ≤ 1 ∧ (count = 1 ↔ SweptAfterLapse s registration.workerId after)) := by
  refine loss_recorded 6 0 _ fun before call after hsplit => ?_
  have hcall : call ∈ [.register "lease-1" twoSlots, .tick 7, .expireLeases] := by
    rw [hsplit]
    exact List.mem_append_right before List.mem_cons_self
  rcases List.mem_cons.mp hcall with rfl | hcall
  · exact id
  rcases List.mem_cons.mp hcall with rfl | hcall
  · exact id
  rw [List.mem_singleton.mp hcall]
  exact id

/-- A heartbeat comes a second after the lease's end: the worker is lost with both its
slots free, and the sweep after it reports nothing. -/
theorem loss_unreported :
    (∃ worker, ((start 6 0).run [.register "lease-1" twoSlots, .tick 7,
        .heartbeat "worker-1" ⟨"lease-1", 2, .active, Or.inl rfl⟩]).worker? "worker-1" = some worker ∧
      worker.state = .lost ∧ worker.availableSlots = 2) ∧
    ((start 6 0).run [.register "lease-1" twoSlots]).sweeps [.tick 7,
        .heartbeat "worker-1" ⟨"lease-1", 2, .active, Or.inl rfl⟩, .expireLeases] = [[]] ∧
    SweptAfterLapse ((start 6 0).run [.register "lease-1" twoSlots]) "worker-1" [.tick 7,
      .heartbeat "worker-1" ⟨"lease-1", 2, .active, Or.inl rfl⟩, .expireLeases] :=
  ⟨⟨_, rfl, rfl, rfl⟩, rfl, [.tick 7, .heartbeat "worker-1" ⟨"lease-1", 2, .active, Or.inl rfl⟩], [],
    _, rfl, rfl, rfl⟩

end RegistryState

end DistributedSql

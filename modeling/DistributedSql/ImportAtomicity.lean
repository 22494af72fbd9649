/-
Whether an import that raises leaves anything behind.

The clean-up of an import deletes the files it has recorded, and puts the manifest back
if it has recorded that it was published.  A call that raises after taking effect is not
recorded, and the catalog is not put back at all.

Main results:
* `writeParts_spec`, `deleteParts_spec` — where the two loops stop, and what they leave;
* `import_atomic_iff` — an import is atomic exactly under the faults that do no harm.
-/
import DistributedSql.DataImport

namespace DistributedSql

namespace ImportM

variable {α β : Type}

/-! ### Outcomes -/

/-- The fault makes a call raise. -/
def Hits (fault : Option Fault) (name : ImportCall) : Prop := ∃ effect, fault = some ⟨name, effect⟩

theorem call_of_not_hits {fault : Option Fault} {name : ImportCall} (h : ¬Hits fault name)
    (action : ImportM α) : call fault name action = action := by
  funext s
  cases fault with
  | none => rfl
  | some fault =>
    have hne : fault.call ≠ name := fun heq => h ⟨fault.takesEffect, by rw [← heq]⟩
    exact if_neg hne

theorem outcome_call_self (name : ImportCall) (effect : Bool) (action : ImportM α) (s : ImportState) :
    outcome (call (some ⟨name, effect⟩) name action) s
      = (.error .raised, if effect then (outcome action s).2 else s) := if_pos rfl

theorem outcome_call_modifyObjects {fault : Option Fault} {name : ImportCall} (h : ¬Hits fault name)
    (f : (Location → Option StoredObject) → Location → Option StoredObject) (s : ImportState) :
    outcome (call fault name (modifyObjects f)) s
      = (.ok (), s.withObjects (f s.warehouse.objects)) := by
  rw [call_of_not_hits h]
  rfl

@[simp] theorem outcome_reads (f : Warehouse → Except CatalogError α) (s : ImportState) :
    outcome (reads f) s = (f s.warehouse, s) := rfl

@[simp] theorem outcome_lift (x : Except CatalogError α) (s : ImportState) :
    outcome (liftM x) s = (x, s) := by
  cases x <;> rfl

@[simp] theorem outcome_get (s : ImportState) : outcome (get : ImportM ImportState) s = (.ok s, s) := rfl

@[simp] theorem outcome_modify (f : ImportState → ImportState) (s : ImportState) :
    outcome (modify f : ImportM PUnit) s = (.ok ⟨⟩, f s) := rfl

theorem outcome_bind_ok {x : ImportM α} {f : α → ImportM β} {s s' : ImportState} {a : α}
    (h : outcome x s = (.ok a, s')) : outcome (x >>= f) s = outcome (f a) s' := by
  rw [outcome_bind, h]

theorem outcome_bind_error {x : ImportM α} {f : α → ImportM β} {s s' : ImportState}
    {e : CatalogError} (h : outcome x s = (.error e, s')) :
    outcome (x >>= f) s = (.error e, s') := by
  rw [outcome_bind, h]

theorem exists_of_outcome_bind {x : ImportM α} {f : α → ImportM β} {s s'' : ImportState} {b : β}
    (h : outcome (x >>= f) s = (.ok b, s'')) :
    ∃ a s', outcome x s = (.ok a, s') ∧ outcome (f a) s' = (.ok b, s'') := by
  rw [outcome_bind] at h
  rcases hx : outcome x s with ⟨e | a, s'⟩
  · rw [hx] at h
    cases h
  · rw [hx] at h
    exact ⟨a, s', rfl, h⟩

/-- A read that returns gives what is there. -/
theorem of_outcome_call_reads {fault : Option Fault} {name : ImportCall}
    {f : Warehouse → Except CatalogError α} {s s' : ImportState} {a : α}
    (h : outcome (call fault name (reads f)) s = (.ok a, s')) : f s.warehouse = .ok a := by
  by_cases hhits : Hits fault name
  · obtain ⟨effect, rfl⟩ := hhits
    rw [outcome_call_self] at h
    cases h
  · rw [call_of_not_hits hhits, outcome_reads] at h
    exact congrArg Prod.fst h

/-- The program leaves the state alone. -/
def ReadOnly (x : ImportM α) : Prop := ∀ s, (outcome x s).2 = s

namespace ReadOnly

theorem pure (a : α) : ReadOnly (Pure.pure a : ImportM α) := fun _ => rfl

theorem throw (e : CatalogError) : ReadOnly (MonadExcept.throw e : ImportM α) := fun _ => rfl

theorem lift (x : Except CatalogError α) : ReadOnly (liftM x : ImportM α) := fun s => by
  rw [outcome_lift]

theorem reads (f : Warehouse → Except CatalogError α) : ReadOnly (ImportM.reads f) := fun _ => rfl

theorem call {x : ImportM α} {fault : Option Fault} {name : ImportCall} (h : ReadOnly x) :
    ReadOnly (ImportM.call fault name x) := by
  intro s
  cases fault with
  | none => exact h s
  | some fault =>
    show (if fault.call = name then (_, _) else x s).2 = s
    split
    · show (if fault.takesEffect then (outcome x s).2 else s) = s
      split
      · exact h s
      · rfl
    · exact h s

theorem bind {x : ImportM α} {f : α → ImportM β} (hx : ReadOnly x) (hf : ∀ a, ReadOnly (f a)) :
    ReadOnly (x >>= f) := by
  intro s
  have hs := hx s
  rw [outcome_bind]
  rcases h : outcome x s with ⟨e | a, s'⟩
  · rw [h] at hs
    exact hs
  · rw [h] at hs
    exact (hf a s').trans hs

theorem exists_of_bind {x : ImportM α} {f : α → ImportM β} {s s' : ImportState} {b : β}
    (hx : ReadOnly x) (h : outcome (x >>= f) s = (.ok b, s')) :
    ∃ a, outcome x s = (.ok a, s) ∧ outcome (f a) s = (.ok b, s') := by
  obtain ⟨a, s₁, hfirst, hrest⟩ := exists_of_outcome_bind h
  obtain rfl : s₁ = s := (congrArg Prod.snd hfirst).symm.trans (hx s)
  exact ⟨a, hfirst, hrest⟩

theorem ite {c : Prop} [Decidable c] {x y : ImportM α} (hx : ReadOnly x) (hy : ReadOnly y) :
    ReadOnly (if c then x else y) := by
  split
  · exact hx
  · exact hy

end ReadOnly

end ImportM

namespace DataImporter

open ImportM

variable {host : ImportHost} {fault : Option Fault} {importId : String} {key : TableKey}
  {request : ImportRequest} {prepared : Prepared} {s : ImportState}

/-! ### Before anything is written -/

theorem readOnly_readSource (location : Location) (sourceFormat : TableFormat) :
    ReadOnly (readSource host fault location sourceFormat) :=
  .ite (.throw _) (.bind (.call (.reads _)) fun _ => .lift _)

theorem readOnly_readPrevious (location : Location) : ReadOnly (readPrevious fault location) :=
  .bind (.call (.reads _)) fun _ => .ite (.call (.reads _)) (.pure _)

theorem readOnly_prepare : ReadOnly (prepare host fault key request) :=
  .bind (.call (.reads _)) fun _ => .bind (readOnly_readSource _ _) fun _ =>
    .bind (.lift _) fun _ => .bind (.lift _) fun _ => .bind (readOnly_readPrevious _) fun _ => .pure _

/-- The calls before anything is written. -/
def reading : List ImportCall := [.getTable, .readSource, .manifestExists, .readManifest]

theorem prepare_of_not_hits (h : ∀ name ∈ reading, ¬Hits fault name) :
    prepare host fault key request = prepare host none key request := by
  have hcall : ∀ {α : Type} (name : ImportCall) (action : ImportM α), name ∈ reading →
      call fault name action = call none name action := fun name action hname =>
    (call_of_not_hits (h name hname) action).trans rfl
  have hsource : ∀ location sourceFormat, readSource host fault location sourceFormat
      = readSource host none location sourceFormat := fun location sourceFormat => by
    rw [readSource, readSource, hcall .readSource _ (by decide)]
  have hprevious : ∀ location, readPrevious fault location = readPrevious none location :=
    fun location => by
      rw [readPrevious, readPrevious, hcall .manifestExists _ (by decide),
        hcall .readManifest _ (by decide)]
  unfold prepare
  simp only [hcall .getTable _ (by decide), hsource, hprevious]

theorem length_assignPartitions (py : Python) (table : RecordBatch) (partitionCount : ℕ)
    (partitionKey : Option String) :
    (assignPartitions py table partitionCount partitionKey).length = partitionCount := by
  unfold assignPartitions
  rw [List.length_map, List.length_range]

/-- What an import knows of the warehouse before it writes. -/
theorem of_prepare_eq_ok {s' : ImportState}
    (h : outcome (prepare host fault key request) s = (.ok prepared, s')) :
    s.warehouse.catalog.getTable key = .ok prepared.table ∧
      prepared.previousManifest = s.warehouse.objects (manifestLocation prepared.table) ∧
      prepared.assignments.length = request.partitionCount := by
  obtain ⟨table, htable, h⟩ := ReadOnly.exists_of_bind (.call (.reads _)) h
  obtain ⟨source, -, h⟩ := ReadOnly.exists_of_bind (readOnly_readSource _ _) h
  obtain ⟨-, -, h⟩ := ReadOnly.exists_of_bind (.lift _) h
  obtain ⟨spec, -, h⟩ := ReadOnly.exists_of_bind (.lift _) h
  obtain ⟨previous, hprevious, h⟩ := ReadOnly.exists_of_bind (readOnly_readPrevious _) h
  cases h
  refine ⟨of_outcome_call_reads htable, ?_, ?_⟩
  · obtain ⟨found, hfound, hread⟩ := ReadOnly.exists_of_bind (.call (.reads _)) hprevious
    have hsome : Except.ok (s.warehouse.objects (manifestLocation table)).isSome = .ok found :=
      of_outcome_call_reads (f := fun w => .ok (w.objects (manifestLocation table)).isSome) hfound
    cases found with
    | true =>
      exact (Except.ok.inj (of_outcome_call_reads
        (f := fun w => .ok (w.objects (manifestLocation table))) hread)).symm
    | false =>
      cases hread
      exact (Option.isSome_eq_false_iff.mp (Except.ok.inj hsome) |> Option.isNone_iff_eq_none.mp).symm
  · exact length_assignPartitions _ _ _ _

/-! ### Locations -/

theorem partLocation_injective (table : CatalogTable) (importId : String) :
    Function.Injective (partLocation table importId) := by
  intro i j h
  have hparts := List.append_cancel_left (congrArg Location.parts h)
  have hname : "part-" ++ padded 5 i ++ "." ++ table.format.value
      = "part-" ++ padded 5 j ++ "." ++ table.format.value := by
    simpa only [List.cons.injEq, true_and, and_true] using hparts
  have hlist := congrArg String.toList hname
  simp only [String.toList_append] at hlist
  exact padded_injective 5 (String.toList_injective
    (List.append_cancel_left (List.append_cancel_right (List.append_cancel_right hlist))))

theorem partLocation_ne_manifestLocation (table : CatalogTable) (importId : String) (i : ℕ) :
    partLocation table importId i ≠ manifestLocation table := by
  intro h
  have hlength := congrArg (fun location => location.parts.length) h
  simp only [partLocation, manifestLocation, joinLocation, List.length_append, List.length_cons,
    List.length_nil] at hlength
  omega

/-! ### The loop that writes -/

/-- From `s₀` on the first `n` files have been recorded, and `m` written. -/
structure Written (importId : String) (prepared : Prepared) (s₀ : ImportState) (n m : ℕ)
    (s : ImportState) : Prop where
  catalog : s.warehouse.catalog = s₀.warehouse.catalog
  unpublished : s.manifestPublished = false
  locations : s.writtenLocations = (List.range n).map (partLocation prepared.table importId)
  parts : s.partitions.map (·.location) = s.writtenLocations
  ordinals : s.partitions.map (·.ordinal) = List.range n
  ids : s.partitions.map (·.partitionId)
    = (List.range n).map fun i => importId ++ "-" ++ padded 5 i
  spec : ∀ part ∈ s.partitions, part.strategy = prepared.strategy ∧ part.keys = prepared.keys
  there : ∀ i < m, ∃ data,
    s.warehouse.objects (partLocation prepared.table importId i) = some (.data data)
  other : ∀ l, (∀ i < m, l ≠ partLocation prepared.table importId i) →
    s.warehouse.objects l = s₀.warehouse.objects l

/-- A file written, and not yet recorded. -/
private theorem Written.put {s₀ : ImportState} {n : ℕ} (h : Written importId prepared s₀ n n s)
    (data : List UInt8) :
    Written importId prepared s₀ n (n + 1)
      (s.withObjects (Function.update s.warehouse.objects (partLocation prepared.table importId n)
        (some (.data data)))) :=
  { h with
    there := by
      intro i hi
      by_cases hin : i = n
      · exact ⟨data, by rw [hin]; exact Function.update_self ..⟩
      · obtain ⟨data', hdata'⟩ := h.there i (by omega)
        refine ⟨data', (Function.update_of_ne ?_ ..).trans hdata'⟩
        exact fun heq => hin (partLocation_injective prepared.table importId heq)
    other := by
      intro l hl
      refine (Function.update_of_ne (hl n (Nat.lt_succ_self n)) ..).trans ?_
      exact h.other l fun i hi => hl i (by omega) }

/-- The file recorded. -/
private theorem Written.record {s₀ : ImportState} {n : ℕ} {part : Partition}
    (h : Written importId prepared s₀ n (n + 1) s)
    (hlocation : part.location = partLocation prepared.table importId n)
    (hordinal : part.ordinal = n) (hid : part.partitionId = importId ++ "-" ++ padded 5 n)
    (hspec : part.strategy = prepared.strategy ∧ part.keys = prepared.keys) :
    Written importId prepared s₀ (n + 1) (n + 1)
      { s with
        writtenLocations := s.writtenLocations ++ [partLocation prepared.table importId n]
        partitions := s.partitions ++ [part] } :=
  { h with
    locations := by
      show s.writtenLocations ++ _ = _
      rw [h.locations, List.range_succ, List.map_append, List.map_singleton]
    parts := by
      show (s.partitions ++ [part]).map (·.location) = s.writtenLocations ++ _
      rw [List.map_append, h.parts, List.map_singleton, hlocation]
    ordinals := by
      show (s.partitions ++ [part]).map (·.ordinal) = _
      rw [List.map_append, h.ordinals, List.map_singleton, hordinal, List.range_succ]
    ids := by
      show (s.partitions ++ [part]).map (·.partitionId) = _
      rw [List.map_append, h.ids, List.map_singleton, hid, List.range_succ, List.map_append,
        List.map_singleton]
    spec := by
      intro q hq
      rcases List.mem_append.mp hq with hq | hq
      · exact h.spec q hq
      · rw [List.mem_singleton.mp hq]
        exact hspec }

theorem writePart_spec {s₀ : ImportState} {n : ℕ} (h : Written importId prepared s₀ n n s)
    (indices : List ℕ) :
    (∃ e, payload host prepared indices = .error e ∧
      outcome (writePart host fault importId prepared n indices) s = (.error e, s)) ∨
    (∃ data s', payload host prepared indices = .ok data ∧ ¬Hits fault (.writePart n) ∧
      outcome (writePart host fault importId prepared n indices) s = (.ok (), s') ∧
      Written importId prepared s₀ (n + 1) (n + 1) s') ∨
    ∃ data effect s', payload host prepared indices = .ok data ∧
      fault = some ⟨.writePart n, effect⟩ ∧
      outcome (writePart host fault importId prepared n indices) s = (.error .raised, s') ∧
      Written importId prepared s₀ n (if effect then n + 1 else n) s' := by
  cases hpayload : payload host prepared indices with
  | error e =>
    refine .inl ⟨e, rfl, ?_⟩
    rw [writePart, hpayload]
    exact outcome_bind_error (outcome_lift _ _)
  | ok data =>
    refine .inr ?_
    rw [writePart, hpayload, outcome_bind_ok (outcome_lift _ _)]
    by_cases hhits : Hits fault (.writePart n)
    · obtain ⟨effect, rfl⟩ := hhits
      refine .inr ⟨data, effect, _, rfl, rfl, outcome_bind_error (outcome_call_self ..), ?_⟩
      cases effect with
      | false => exact h
      | true => exact h.put data
    · have hrecorded := (h.put data).record
        (rfl : (partition host importId prepared n indices data).location = _) rfl rfl ⟨rfl, rfl⟩
      exact .inl ⟨data, _, rfl, hhits, outcome_bind_ok (outcome_call_modifyObjects hhits _ s), hrecorded⟩

/-- How many of the files, from the first on, their writer makes. -/
def writable (host : ImportHost) (prepared : Prepared) (assignments : List (List ℕ)) : ℕ :=
  (assignments.takeWhile fun indices => (payload host prepared indices).isOk).length

theorem writable_le (assignments : List (List ℕ)) :
    writable host prepared assignments ≤ assignments.length :=
  (List.takeWhile_prefix _).length_le

/-- The loop writes all files; or stops at the first its writer refuses; or at the one
where the store raises, having written that one or not. -/
theorem writeParts_spec (host : ImportHost) (fault : Option Fault) {s₀ : ImportState}
    (rest : List (List ℕ)) {k : ℕ}
    (h : Written importId prepared s₀ k k s) :
    (∃ s', outcome (writeParts host fault importId prepared k rest) s = (.ok (), s') ∧
      writable host prepared rest = rest.length ∧
      (∀ i < rest.length, ¬Hits fault (.writePart (k + i))) ∧
      Written importId prepared s₀ (k + rest.length) (k + rest.length) s') ∨
    (∃ e s', outcome (writeParts host fault importId prepared k rest) s = (.error e, s') ∧
      writable host prepared rest < rest.length ∧
      (∀ i < writable host prepared rest, ¬Hits fault (.writePart (k + i))) ∧
      Written importId prepared s₀ (k + writable host prepared rest)
        (k + writable host prepared rest) s') ∨
    ∃ n effect s', fault = some ⟨.writePart (k + n), effect⟩ ∧
      n < writable host prepared rest ∧
      outcome (writeParts host fault importId prepared k rest) s = (.error .raised, s') ∧
      Written importId prepared s₀ (k + n) (if effect then k + n + 1 else k + n) s' := by
  induction rest generalizing k s with
  | nil => exact .inl ⟨s, rfl, rfl, fun i hi => absurd hi (Nat.not_lt_zero i), h⟩
  | cons indices rest ih =>
    have hcons : (∃ e, payload host prepared indices = .error e) →
        writable host prepared (indices :: rest) = 0 := by
      rintro ⟨e, he⟩
      rw [writable, List.takeWhile_cons, he]
      rfl
    have hcons' : ∀ data, payload host prepared indices = .ok data →
        writable host prepared (indices :: rest) = writable host prepared rest + 1 := by
      intro data hdata
      rw [writable, List.takeWhile_cons, hdata]
      rfl
    rcases writePart_spec h indices with ⟨e, hpayload, hrun⟩ | ⟨data, s', hpayload, hhits, hrun, hs'⟩ |
      ⟨data, effect, s', hpayload, hfault, hrun, hs'⟩
    · rw [hcons ⟨e, hpayload⟩]
      exact .inr (.inl ⟨e, s, outcome_bind_error hrun, Nat.succ_pos _,
        fun i hi => absurd hi (Nat.not_lt_zero i), h⟩)
    · rw [hcons' data hpayload, writeParts, outcome_bind_ok hrun, List.length_cons]
      have hbelow : ∀ {m : ℕ}, (∀ i < m, ¬Hits fault (.writePart (k + 1 + i))) →
          ∀ i < m + 1, ¬Hits fault (.writePart (k + i)) := by
        intro m hm i hi
        cases i with
        | zero => exact hhits
        | succ i =>
          have := hm i (by omega)
          rwa [Nat.add_right_comm, Nat.add_assoc] at this
      rcases ih hs' with ⟨s'', hrest, hall, hnone, hs''⟩ | ⟨e, s'', hrest, hless, hnone, hs''⟩ |
        ⟨n, effect, s'', hfault, hn, hrest, hs''⟩
      · rw [Nat.add_right_comm, Nat.add_assoc] at hs''
        exact .inl ⟨s'', hrest, by rw [hall], hbelow hnone, hs''⟩
      · rw [Nat.add_right_comm, Nat.add_assoc] at hs''
        exact .inr (.inl ⟨e, s'', hrest, by omega, hbelow hnone, hs''⟩)
      · rw [Nat.add_right_comm, Nat.add_assoc] at hs''
        rw [Nat.add_right_comm, Nat.add_assoc] at hfault
        exact .inr (.inr ⟨n + 1, effect, s'', hfault, by omega, hrest, hs''⟩)
    · rw [hcons' data hpayload]
      exact .inr (.inr ⟨0, effect, s', hfault, Nat.succ_pos _, outcome_bind_error hrun, hs'⟩)

/-! ### The loop that deletes -/

/-- The state with some files deleted. -/
def deleted (s : ImportState) (locations : List Location) : ImportState :=
  s.withObjects fun l => if l ∈ locations then none else s.warehouse.objects l

/-- The loop deletes all files, or stops where the store raises. -/
theorem deleteParts_spec (fault : Option Fault) (locations : List Location) (k : ℕ)
    (s : ImportState) :
    ((∀ i < locations.length, ¬Hits fault (.deletePart (k + i))) ∧
      outcome (deleteParts fault k locations) s = (.ok (), deleted s locations)) ∨
    ∃ i effect, i < locations.length ∧ fault = some ⟨.deletePart (k + i), effect⟩ ∧
      outcome (deleteParts fault k locations) s
        = (.error .raised, deleted s (locations.take (if effect then i + 1 else i))) := by
  have hdeleted : ∀ (s : ImportState) location rest,
      deleted (s.withObjects (Function.update s.warehouse.objects location none)) rest
        = deleted s (location :: rest) := by
    intro s location rest
    refine congrArg s.withObjects (funext fun l => ?_)
    show (if l ∈ rest then none else Function.update s.warehouse.objects location none l)
      = if l ∈ location :: rest then none else s.warehouse.objects l
    by_cases hl : l = location
    · subst hl
      simp
    · simp only [List.mem_cons, hl, false_or, Function.update_of_ne hl]
  have hnil : ∀ s : ImportState, deleted s [] = s := fun s => by
    simp only [deleted, List.not_mem_nil, if_false]
    rfl
  induction locations generalizing k s with
  | nil => exact .inl ⟨fun i hi => absurd hi (Nat.not_lt_zero i), by rw [hnil]; rfl⟩
  | cons location rest ih =>
    by_cases hhits : Hits fault (.deletePart k)
    · obtain ⟨effect, rfl⟩ := hhits
      refine .inr ⟨0, effect, Nat.succ_pos _, rfl, ?_⟩
      rw [deleteParts, outcome_bind_error (outcome_call_self ..)]
      cases effect with
      | false => rw [if_neg (by decide), if_neg (by decide), List.take_zero, hnil]
      | true =>
        rw [if_pos rfl, if_pos rfl, List.take_succ_cons, List.take_zero, ← hdeleted, hnil]
        rfl
    · rw [deleteParts, outcome_bind_ok (outcome_call_modifyObjects hhits _ s)]
      rcases ih (k + 1) _ with ⟨hnone, hrest⟩ | ⟨i, effect, hi, hfault, hrest⟩
      · refine .inl ⟨fun i hi => ?_, by rw [hrest, hdeleted]⟩
        cases i with
        | zero => exact hhits
        | succ i =>
          have := hnone i (by rw [List.length_cons] at hi; omega)
          rwa [Nat.add_right_comm, Nat.add_assoc] at this
      · rw [Nat.add_right_comm, Nat.add_assoc] at hfault
        refine .inr ⟨i + 1, effect, by rw [List.length_cons]; omega, hfault, ?_⟩
        rw [hrest, hdeleted]
        cases effect <;> rfl

/-! ### What is left -/

/-- The catalog and the manifests refer to files that exist. -/
def RefersToFiles (warehouse : Warehouse) : Prop :=
  (∀ key, ∀ part ∈ warehouse.catalog.partitions key, (warehouse.objects part.location).isSome) ∧
    ∀ location content, warehouse.objects location = some (.manifest content) →
      ∀ part ∈ content.partitions, (warehouse.objects part.location).isSome

/-- An import that raises has changed neither the table's metadata nor its manifest, and no
file of it is left; and whatever it does, catalog and manifests refer to files that exist. -/
structure ImportAtomic (importId : String) (key : TableKey) (before after : Warehouse)
    (answer : Except CatalogError ImportResult) : Prop where
  metadata : ∀ e, answer = .error e → after.catalog.getTable key = before.catalog.getTable key
  manifest : ∀ e, answer = .error e → ∀ table, before.catalog.getTable key = .ok table →
    after.objects (manifestLocation table) = before.objects (manifestLocation table)
  files : ∀ e, answer = .error e → ∀ table, before.catalog.getTable key = .ok table →
    ∀ ordinal, after.objects (partLocation table importId ordinal) = none
  refers : RefersToFiles after

/-- What a fault must not do to an import of `count` files, the writer of which makes `written`. -/
def Harmless (fault : Fault) (written count : ℕ) : Prop :=
  match fault.call with
  | .writePart ordinal => written ≤ ordinal ∨ fault.takesEffect = false
  | .publishManifest => written < count ∨ fault.takesEffect = false
  | .commit => written < count ∨ fault.takesEffect = false
  | .readBack => written < count
  | .deletePart ordinal =>
    written = count ∨ written ≤ ordinal ∨ (fault.takesEffect = true ∧ ordinal + 1 = written)
  | _ => True

section Left

variable {s₁ s₂ : ImportState} {answer : Except CatalogError ImportResult}

/-- The stores without the files of this import are as they were. -/
theorem objects_deleted {n : ℕ} {objects : Location → Option StoredObject}
    (hfresh : ∀ i, s.warehouse.objects (partLocation prepared.table importId i) = none)
    (hother : ∀ l, (∀ i < n, l ≠ partLocation prepared.table importId i) →
      objects l = s.warehouse.objects l) :
    (deleted (s₁.withObjects objects)
      ((List.range n).map (partLocation prepared.table importId))).warehouse.objects
        = s.warehouse.objects := by
  funext l
  show (if l ∈ (List.range n).map (partLocation prepared.table importId) then none
    else objects l) = _
  split
  · obtain ⟨i, -, rfl⟩ := List.mem_map.mp ‹_›
    exact (hfresh i).symm
  · refine hother l fun i hi heq => ?_
    exact ‹¬_› (List.mem_map.mpr ⟨i, List.mem_range.mpr hi, heq.symm⟩)

theorem atomic_of_eq {before after : Warehouse} (hobjects : after.objects = before.objects)
    (hcatalog : after.catalog = before.catalog) (hrefers : RefersToFiles before)
    (hfresh : ∀ table, before.catalog.getTable key = .ok table → ∀ i,
      before.objects (partLocation table importId i) = none) :
    ImportAtomic importId key before after answer where
  metadata _ _ := by rw [hcatalog]
  manifest _ _ _ _ := by rw [hobjects]
  files _ _ table htable i := by rw [hobjects, hfresh table htable i]
  refers := by
    rw [RefersToFiles, hobjects, hcatalog]
    exact hrefers

theorem not_atomic_of_file {before after : Warehouse} {e : CatalogError} {table : CatalogTable}
    (htable : before.catalog.getTable key = .ok table) {i : ℕ}
    (hfile : after.objects (partLocation table importId i) ≠ none) :
    ¬ImportAtomic importId key before after (.error e) :=
  fun h => hfile (h.files e rfl table htable i)

/-- A catalog that has been given a file of this import is another one. -/
theorem not_atomic_of_part {before after : Warehouse} {e : CatalogError} {row : TableRow}
    {part : Partition} (hrow : after.catalog.tables key = some row)
    (hpart : part ∈ after.catalog.partitions key) (hnone : before.objects part.location = none)
    (hrefers : RefersToFiles before) : ¬ImportAtomic importId key before after (.error e) := by
  intro h
  have hmeta := h.metadata e rfl
  have hmem : part ∈ before.catalog.partitions key := by
    rw [SQLiteCatalog.getTable, hrow] at hmeta
    cases hbefore : before.catalog.tables key with
    | none =>
      rw [SQLiteCatalog.getTable, hbefore] at hmeta
      cases hmeta
    | some row' =>
      rw [SQLiteCatalog.getTable, hbefore] at hmeta
      have hparts := congrArg CatalogTable.partitions (Except.ok.inj hmeta)
      have hsorted : part ∈ (after.catalog.tableFromRow key row).partitions :=
        List.mem_mergeSort.mpr hpart
      rw [hparts] at hsorted
      exact List.mem_mergeSort.mp hsorted
  have hsome := hrefers.1 key part hmem
  rw [hnone] at hsome
  cases hsome

theorem not_atomic_of_manifest {before after : Warehouse} {e : CatalogError} {table : CatalogTable}
    {content : ImportManifest} {part : Partition} (htable : before.catalog.getTable key = .ok table)
    (hmanifest : after.objects (manifestLocation table) = some (.manifest content))
    (hpart : part ∈ content.partitions) (hnone : before.objects part.location = none)
    (hrefers : RefersToFiles before) : ¬ImportAtomic importId key before after (.error e) := by
  intro h
  have hsame := h.manifest e rfl table htable
  have hsome := hrefers.2 _ content (hsame.symm.trans hmanifest) part hpart
  rw [hnone] at hsome
  cases hsome

/-- The clean-up of an import that raises, where no delete does. -/
theorem outcome_deleteParts (h : ∀ i, ¬Hits fault (.deletePart i)) (locations : List Location)
    (s : ImportState) :
    outcome (deleteParts fault 0 locations) s = (.ok (), deleted s locations) := by
  rcases deleteParts_spec fault locations 0 s with ⟨-, hrun⟩ | ⟨i, effect, -, hfault, -⟩
  · exact hrun
  · exact absurd ⟨effect, hfault⟩ (h _)

theorem outcome_cleanUp_of_unpublished (h : s.manifestPublished = false) :
    outcome (cleanUp fault prepared) s = outcome (deleteParts fault 0 s.writtenLocations) s := by
  rw [cleanUp, outcome_bind_ok (outcome_get s), h]
  rfl

theorem outcome_cleanUp_of_published (h : s.manifestPublished = true)
    (hhits : ¬Hits fault .restoreManifest) :
    outcome (cleanUp fault prepared) s
      = outcome (deleteParts fault 0 s.writtenLocations)
          (s.withObjects (Function.update s.warehouse.objects (manifestLocation prepared.table)
            prepared.previousManifest)) := by
  rw [cleanUp, outcome_bind_ok (outcome_get s), h]
  exact outcome_bind_ok (outcome_call_modifyObjects hhits _ s)

theorem outcome_writeOrCleanUp (s : ImportState) :
    outcome (writeOrCleanUp host fault importId key prepared) s
      = match outcome (writeAll host fault importId prepared key) s with
        | (.ok updated, s) => (.ok ⟨updated, manifestLocation prepared.table⟩, s)
        | (.error e, s) =>
          match outcome (cleanUp fault prepared) s with
          | (.ok _, s) => (.error e, s)
          | (.error e, s) => (.error e, s) := rfl

/-- An import whose writes raise raises. -/
theorem exists_outcome_of_error {e : CatalogError} {r : Except CatalogError Unit}
    (h : outcome (writeAll host fault importId prepared key) s = (.error e, s₁))
    (hclean : outcome (cleanUp fault prepared) s₁ = (r, s₂)) :
    ∃ e', outcome (writeOrCleanUp host fault importId key prepared) s = (.error e', s₂) := by
  rw [outcome_writeOrCleanUp, h]
  dsimp only
  rw [hclean]
  cases r with
  | ok _ => exact ⟨e, rfl⟩
  | error e' => exact ⟨e', rfl⟩

end Left

/-- Where an import stands when it begins to write. -/
structure Begins (importId : String) (key : TableKey) (prepared : Prepared) (s : ImportState) :
    Prop where
  table : s.warehouse.catalog.getTable key = .ok prepared.table
  previous : prepared.previousManifest = s.warehouse.objects (manifestLocation prepared.table)
  fresh : ∀ i, s.warehouse.objects (partLocation prepared.table importId i) = none
  refers : RefersToFiles s.warehouse
  count_pos : 0 < prepared.assignments.length
  written : Written importId prepared s 0 0 s

namespace Begins

variable {s₁ s₂ : ImportState}

theorem fresh_table (h : Begins importId key prepared s) :
    ∀ table, s.warehouse.catalog.getTable key = .ok table → ∀ i,
      s.warehouse.objects (partLocation table importId i) = none := by
  intro table htable
  rw [h.table] at htable
  cases htable
  exact h.fresh

/-- Writes that are all recorded are all taken back. -/
theorem atomic_of_deleted (h : Begins importId key prepared s) {n : ℕ}
    {objects : Location → Option StoredObject} {answer : Except CatalogError ImportResult}
    (hother : ∀ l, (∀ i < n, l ≠ partLocation prepared.table importId i) →
      objects l = s.warehouse.objects l)
    (hcatalog : s₁.warehouse.catalog = s.warehouse.catalog) :
    ImportAtomic importId key s.warehouse
      (deleted (s₁.withObjects objects)
        ((List.range n).map (partLocation prepared.table importId))).warehouse answer :=
  atomic_of_eq (objects_deleted h.fresh hother) hcatalog h.refers h.fresh_table

end Begins

/-- What a fault must not do to this import. -/
def Spares (host : ImportHost) (fault : Option Fault) (prepared : Prepared) : Prop :=
  ∀ f, fault = some f →
    Harmless f (writable host prepared prepared.assignments) prepared.assignments.length

theorem exists_outcome_of_unpublished {s₁ : ImportState} {e : CatalogError}
    (h : outcome (writeAll host fault importId prepared key) s = (.error e, s₁))
    (hunpublished : s₁.manifestPublished = false) :
    ∃ e', outcome (writeOrCleanUp host fault importId key prepared) s
      = (.error e', (outcome (deleteParts fault 0 s₁.writtenLocations) s₁).2) :=
  exists_outcome_of_error h (outcome_cleanUp_of_unpublished hunpublished)

theorem exists_outcome_of_published {s₁ : ImportState} {e : CatalogError}
    (h : outcome (writeAll host fault importId prepared key) s = (.error e, s₁))
    (hpublished : s₁.manifestPublished = true) (hrestore : ¬Hits fault .restoreManifest)
    (hdelete : ∀ i, ¬Hits fault (.deletePart i)) :
    ∃ e', outcome (writeOrCleanUp host fault importId key prepared) s
      = (.error e', deleted (s₁.withObjects (Function.update s₁.warehouse.objects
          (manifestLocation prepared.table) prepared.previousManifest)) s₁.writtenLocations) :=
  exists_outcome_of_error h
    ((outcome_cleanUp_of_published hpublished hrestore).trans (outcome_deleteParts hdelete _ _))

/-- The writer refuses a file: what was written is deleted, unless a delete raises. -/
theorem atomic_iff_of_refused (h : Begins importId key prepared s) {s₁ s' : ImportState}
    {e : CatalogError} {answer : Except CatalogError ImportResult}
    (hrun : outcome (writeParts host fault importId prepared 0 prepared.assignments) s
      = (.error e, s₁))
    (hless : writable host prepared prepared.assignments < prepared.assignments.length)
    (hnone : ∀ i < writable host prepared prepared.assignments, ¬Hits fault (.writePart i))
    (hwritten : Written importId prepared s (writable host prepared prepared.assignments)
      (writable host prepared prepared.assignments) s₁)
    (houtcome : outcome (writeOrCleanUp host fault importId key prepared) s = (answer, s')) :
    ImportAtomic importId key s.warehouse s'.warehouse answer ↔ Spares host fault prepared := by
  set written := writable host prepared prepared.assignments with hdef
  obtain ⟨e', hfinal⟩ := exists_outcome_of_unpublished
    (show outcome (writeAll host fault importId prepared key) s = _ from outcome_bind_error hrun) hwritten.unpublished
  rw [hfinal] at houtcome
  cases houtcome
  rcases deleteParts_spec fault s₁.writtenLocations 0 s₁ with ⟨hdelete, hdeleted⟩ |
    ⟨i, effect, hi, rfl, hdeleted⟩
  · rw [hdeleted, hwritten.locations]
    refine iff_of_true (h.atomic_of_deleted hwritten.other hwritten.catalog) ?_
    rintro ⟨name, effect⟩ rfl
    rw [hwritten.locations, List.length_map, List.length_range] at hdelete
    rw [← hdef]
    cases name with
    | writePart i => exact .inl (not_lt.mp fun hlt => hnone i hlt ⟨effect, rfl⟩)
    | publishManifest => exact .inl hless
    | commit => exact .inl hless
    | readBack => exact hless
    | deletePart i =>
      refine .inr (.inl (not_lt.mp fun hlt => hdelete i hlt ⟨effect, ?_⟩))
      rw [Nat.zero_add]
    | _ => trivial
  · rw [hwritten.locations, List.length_map, List.length_range] at hi
    rw [hdeleted, hwritten.locations, ← List.map_take, List.take_range]
    have hharmless : Spares host (some ⟨.deletePart (0 + i), effect⟩) prepared ↔
        (effect = true ∧ i + 1 = written) := by
      rw [Nat.zero_add]
      constructor
      · intro hspares
        rcases hspares _ rfl with heq | hle | hlast
        · exact absurd heq hless.ne
        · exact absurd hi (not_lt.mpr hle)
        · exact hlast
      · rintro hlast _ ⟨⟩
        exact .inr (.inr hlast)
    rw [hharmless]
    by_cases hlast : effect = true ∧ i + 1 = written
    · obtain ⟨heffect, hi'⟩ := hlast
      rw [if_pos heffect, hi', min_self]
      exact iff_of_true (h.atomic_of_deleted hwritten.other hwritten.catalog) ⟨heffect, rfl⟩
    · -- the last file is not among those deleted
      refine iff_of_false (not_atomic_of_file h.table (i := written - 1) ?_) hlast
      obtain ⟨data, hdata⟩ := hwritten.there (written - 1) (by omega)
      have hkept : partLocation prepared.table importId (written - 1) ∉
          (List.range (min (if effect = true then i + 1 else i) written)).map
            (partLocation prepared.table importId) := by
        intro hmem
        obtain ⟨j, hj, heq⟩ := List.mem_map.mp hmem
        have hjlt := List.mem_range.mp hj
        rw [partLocation_injective prepared.table importId heq] at hjlt
        cases effect with
        | true => simp at hjlt hlast; omega
        | false => simp at hjlt; omega
      show (if _ ∈ _ then none else s₁.warehouse.objects _) ≠ none
      rw [if_neg hkept, hdata]
      exact Option.some_ne_none _

/-- The store raises on a write: the file stays if it was written. -/
theorem atomic_iff_of_write (h : Begins importId key prepared s) {s₁ s' : ImportState} {n : ℕ}
    {effect : Bool} {answer : Except CatalogError ImportResult}
    (hfault : fault = some ⟨.writePart n, effect⟩)
    (hless : n < writable host prepared prepared.assignments)
    (hrun : outcome (writeParts host fault importId prepared 0 prepared.assignments) s
      = (.error .raised, s₁))
    (hwritten : Written importId prepared s n (if effect then n + 1 else n) s₁)
    (houtcome : outcome (writeOrCleanUp host fault importId key prepared) s = (answer, s')) :
    ImportAtomic importId key s.warehouse s'.warehouse answer ↔ Spares host fault prepared := by
  obtain ⟨e', hfinal⟩ := exists_outcome_of_unpublished
    (show outcome (writeAll host fault importId prepared key) s = _ from outcome_bind_error hrun)
    hwritten.unpublished
  have hdelete : ∀ i, ¬Hits fault (.deletePart i) := by
    rintro i ⟨effect', heq⟩
    rw [hfault] at heq
    cases heq
  rw [hfinal, outcome_deleteParts hdelete, hwritten.locations] at houtcome
  cases houtcome
  have hharmless : Spares host fault prepared ↔ effect = false := by
    rw [hfault]
    constructor
    · intro hspares
      exact (hspares _ rfl).resolve_left (not_le.mpr hless)
    · rintro heffect _ ⟨⟩
      exact .inr heffect
  rw [hharmless]
  cases effect with
  | false => exact iff_of_true (h.atomic_of_deleted hwritten.other hwritten.catalog) rfl
  | true =>
    refine iff_of_false (not_atomic_of_file h.table (i := n) ?_) (by decide)
    obtain ⟨data, hdata⟩ := hwritten.there n (Nat.lt_succ_self n)
    have hkept : partLocation prepared.table importId n ∉
        (List.range n).map (partLocation prepared.table importId) := by
      intro hmem
      obtain ⟨j, hj, heq⟩ := List.mem_map.mp hmem
      rw [partLocation_injective prepared.table importId heq] at hj
      exact absurd (List.mem_range.mp hj) (lt_irrefl n)
    show (if _ ∈ _ then none else s₁.warehouse.objects _) ≠ none
    rw [if_neg hkept, hdata]
    exact Option.some_ne_none _

/-! ### After the files -/

section Publishing

variable {s₁ s₂ : ImportState} {n : ℕ} {statistics : Statistics}

/-- The manifest of the files recorded. -/
def contentOf (importId : String) (key : TableKey) (prepared : Prepared) (partitions : List Partition)
    (statistics : Statistics) : ImportManifest :=
  ⟨importId, key, prepared.table.format, prepared.table.schema, partitions, statistics⟩

/-- The manifest put into the stores. -/
def withManifest (key : TableKey) (importId : String) (prepared : Prepared)
    (statistics : Statistics) (s : ImportState) : ImportState :=
  s.withObjects (Function.update s.warehouse.objects (manifestLocation prepared.table)
    (some (.manifest (contentOf importId key prepared s.partitions statistics))))

/-- The import has published its manifest. -/
def publishedState (key : TableKey) (importId : String) (prepared : Prepared)
    (statistics : Statistics) (s : ImportState) : ImportState :=
  { withManifest key importId prepared statistics s with manifestPublished := true }

theorem outcome_publishManifest (hhits : ¬Hits fault .publishManifest) (s : ImportState) :
    outcome (publishManifest fault importId prepared key s.partitions statistics) s
      = (.ok (), publishedState key importId prepared statistics s) := by
  rw [publishManifest, outcome_bind_ok (outcome_call_modifyObjects hhits _ s)]
  rfl

theorem outcome_publishManifest_self (effect : Bool) (s : ImportState) :
    outcome (publishManifest (some ⟨.publishManifest, effect⟩) importId prepared key s.partitions
        statistics) s
      = (.error .raised, if effect then withManifest key importId prepared statistics s else s) :=
  outcome_bind_error (outcome_call_self ..)

/-- The partitions recorded are all different. -/
theorem commitImport_of_written (hwritten : Written importId prepared s n n s₁) {row : TableRow}
    (hrow : s.warehouse.catalog.tables key = some row) (statistics : Statistics) :
    s.warehouse.catalog.commitImport key prepared.strategy prepared.keys s₁.partitions statistics
      = (.ok (), s.warehouse.catalog.writeImport key
          { row with partitionStrategy := prepared.strategy, partitionKeys := prepared.keys }
          s₁.partitions statistics) := by
  have hids : (s₁.partitions.map (·.partitionId)).Nodup := by
    rw [hwritten.ids]
    refine List.nodup_range.map fun i j hij => ?_
    have hlist := congrArg String.toList hij
    simp only [String.toList_append] at hlist
    exact padded_injective 5 (String.toList_injective (List.append_cancel_left hlist))
  have hordinals : (s₁.partitions.map (·.ordinal)).Nodup := by
    rw [hwritten.ordinals]
    exact List.nodup_range
  rw [SQLiteCatalog.commitImport, hrow]
  exact if_neg (not_or.mpr ⟨not_not.mpr hids, not_not.mpr hordinals⟩)

/-- A file recorded, for an import writes at least one. -/
theorem exists_part (hwritten : Written importId prepared s n n s₁) (hn : 0 < n) :
    ∃ part ∈ s₁.partitions, part.location = partLocation prepared.table importId 0 := by
  have hmem : partLocation prepared.table importId 0 ∈ s₁.partitions.map (·.location) := by
    rw [hwritten.parts, hwritten.locations]
    exact List.mem_map_of_mem (List.mem_range.mpr hn)
  obtain ⟨part, hpart, hlocation⟩ := List.mem_map.mp hmem
  exact ⟨part, hpart, hlocation⟩

/-- The files of the partitions recorded are there. -/
theorem exists_data_of_part (hwritten : Written importId prepared s n n s₁) {part : Partition}
    (hpart : part ∈ s₁.partitions) : ∃ i < n, part.location = partLocation prepared.table importId i := by
  have hmem : part.location ∈ s₁.partitions.map (·.location) := List.mem_map_of_mem hpart
  rw [hwritten.parts, hwritten.locations] at hmem
  obtain ⟨i, hi, heq⟩ := List.mem_map.mp hmem
  exact ⟨i, List.mem_range.mp hi, heq.symm⟩

/-- With the old manifest back, only the files are new. -/
theorem restored_other (h : Begins importId key prepared s)
    (hwritten : Written importId prepared s n n s₁) (l : Location)
    (hl : ∀ i < n, l ≠ partLocation prepared.table importId i) :
    Function.update (withManifest key importId prepared statistics s₁).warehouse.objects
        (manifestLocation prepared.table) prepared.previousManifest l = s.warehouse.objects l := by
  show Function.update (Function.update _ _ _) _ _ l = _
  rw [Function.update_idem]
  by_cases hmanifest : l = manifestLocation prepared.table
  · rw [hmanifest, Function.update_self, h.previous]
  · rw [Function.update_of_ne hmanifest]
    exact hwritten.other l hl

/-- The import has succeeded. -/
theorem atomic_of_published (h : Begins importId key prepared s)
    (hwritten : Written importId prepared s n n s₁) {row : TableRow} {result : ImportResult}
    {after : Warehouse}
    (hobjects : after.objects = (withManifest key importId prepared statistics s₁).warehouse.objects)
    (hcatalog : after.catalog = s.warehouse.catalog.writeImport key row s₁.partitions statistics) :
    ImportAtomic importId key s.warehouse after (.ok result) := by
  have hobject : ∀ l, l ≠ manifestLocation prepared.table →
      after.objects l = s₁.warehouse.objects l := fun l hl => by
    rw [hobjects]
    exact Function.update_of_ne hl ..
  have hmanifest : after.objects (manifestLocation prepared.table)
      = some (.manifest (contentOf importId key prepared s₁.partitions statistics)) := by
    rw [hobjects]
    exact Function.update_self ..
  have hpart : ∀ part ∈ s₁.partitions, (after.objects part.location).isSome := by
    intro part hpart
    obtain ⟨i, hi, hlocation⟩ := exists_data_of_part hwritten hpart
    obtain ⟨data, hdata⟩ := hwritten.there i hi
    rw [hlocation, hobject _ (partLocation_ne_manifestLocation _ _ _), hdata]
    rfl
  -- what was there before is there still
  have hmono : ∀ l, (s.warehouse.objects l).isSome → (after.objects l).isSome := by
    intro l hl
    by_cases hman : l = manifestLocation prepared.table
    · rw [hman, hmanifest]
      rfl
    · rw [hobject l hman, hwritten.other l fun i _ heq => ?_]
      · exact hl
      · rw [heq, h.fresh i] at hl
        cases hl
  refine ⟨nofun, nofun, nofun, fun key' part hmem => ?_, fun l content hl part hmem => ?_⟩
  · rw [hcatalog] at hmem
    by_cases hkey : key' = key
    · rw [hkey, SQLiteCatalog.partitions_writeImport] at hmem
      exact hpart part hmem
    · rw [SQLiteCatalog.partitions_writeImport_of_ne _ _ _ _ _ hkey] at hmem
      exact hmono _ (h.refers.1 key' part hmem)
  · by_cases hman : l = manifestLocation prepared.table
    · rw [hman, hmanifest] at hl
      cases hl
      exact hpart part hmem
    · rw [hobject l hman] at hl
      have hother : ∀ i < n, l ≠ partLocation prepared.table importId i := by
        rintro i hi rfl
        obtain ⟨data, hdata⟩ := hwritten.there i hi
        rw [hdata] at hl
        cases hl
      rw [hwritten.other l hother] at hl
      exact hmono _ (h.refers.2 l content hl part hmem)

theorem outcome_commitMetadata {partitions : List Partition} {answer : Except CatalogError Unit}
    {catalog : SQLiteCatalog}
    (h : s.warehouse.catalog.commitImport key prepared.strategy prepared.keys partitions statistics
      = (answer, catalog)) :
    outcome (commitMetadata prepared key partitions statistics) s = (answer, s.withCatalog catalog) := by
  simp only [outcome, commitMetadata, h]

/-- A fault after the files have been written and the manifest published: everything but
the catalog is put back. -/
private theorem exists_outcome_of_late (h : Begins importId key prepared s)
    (hwritten : Written importId prepared s n n s₁) {e : CatalogError} {catalog : SQLiteCatalog}
    (hrun : outcome (writeAll host fault importId prepared key) s
      = (.error e, (publishedState key importId prepared statistics s₁).withCatalog catalog))
    (hfault : ¬Hits fault .restoreManifest ∧ ∀ i, ¬Hits fault (.deletePart i)) :
    ∃ e' s', outcome (writeOrCleanUp host fault importId key prepared) s = (.error e', s') ∧
      s'.warehouse.objects = s.warehouse.objects ∧ s'.warehouse.catalog = catalog := by
  obtain ⟨e', hfinal⟩ := exists_outcome_of_published hrun rfl hfault.1 hfault.2
  refine ⟨e', _, hfinal, ?_, rfl⟩
  show (deleted (ImportState.withObjects _ _) s₁.writtenLocations).warehouse.objects = _
  rw [hwritten.locations]
  exact objects_deleted h.fresh (restored_other h hwritten)

/-- All files are written. -/
theorem atomic_iff_of_written (h : Begins importId key prepared s) {s' : ImportState}
    {answer : Except CatalogError ImportResult}
    (hrun : outcome (writeParts host fault importId prepared 0 prepared.assignments) s = (.ok (), s₁))
    (hall : writable host prepared prepared.assignments = prepared.assignments.length)
    (hnone : ∀ i < prepared.assignments.length, ¬Hits fault (.writePart i))
    (hwritten : Written importId prepared s prepared.assignments.length prepared.assignments.length s₁)
    (houtcome : outcome (writeOrCleanUp host fault importId key prepared) s = (answer, s')) :
    ImportAtomic importId key s.warehouse s'.warehouse answer ↔ Spares host fault prepared := by
  set statistics := host.collectTableStatistics prepared.source s₁.partitions with hstatistics
  have hrest : outcome (writeAll host fault importId prepared key) s
      = outcome (publishManifest fault importId prepared key s₁.partitions statistics >>= fun _ =>
          replaceImportMetadata fault prepared key s₁.partitions statistics) s₁ := by
    rw [writeAll, outcome_bind_ok hrun, outcome_bind_ok (outcome_get s₁)]
  obtain ⟨part, hpart, hlocation⟩ := exists_part hwritten h.count_pos
  have hnew : s.warehouse.objects part.location = none := hlocation ▸ h.fresh 0
  obtain ⟨row, hrow⟩ : ∃ row, s.warehouse.catalog.tables key = some row := by
    have htable := h.table
    rw [SQLiteCatalog.getTable] at htable
    cases hget : s.warehouse.catalog.tables key with
    | none =>
      rw [hget] at htable
      cases htable
    | some row => exact ⟨row, rfl⟩
  have hspares : ∀ name effect, fault = some ⟨name, effect⟩ → (Spares host fault prepared ↔
      Harmless ⟨name, effect⟩ prepared.assignments.length prepared.assignments.length) := by
    rintro name effect rfl
    rw [Spares, hall]
    exact ⟨fun hs => hs _ rfl, fun hs _ heq => Option.some.inj heq ▸ hs⟩
  by_cases hpublish : Hits fault .publishManifest
  · obtain ⟨effect, rfl⟩ := hpublish
    rw [outcome_bind_error (outcome_publishManifest_self effect s₁)] at hrest
    have hdelete : ∀ i, ¬Hits (some ⟨.publishManifest, effect⟩) (.deletePart i) := by
      rintro i ⟨_, ⟨⟩⟩
    rw [hspares _ _ rfl]
    cases effect with
    | false =>
      obtain ⟨e', hfinal⟩ := exists_outcome_of_unpublished hrest hwritten.unpublished
      rw [hfinal, outcome_deleteParts hdelete] at houtcome
      cases houtcome
      refine iff_of_true ?_ (.inr rfl)
      rw [if_neg (by decide), hwritten.locations]
      exact h.atomic_of_deleted hwritten.other hwritten.catalog
    | true =>
      obtain ⟨e', hfinal⟩ := exists_outcome_of_unpublished hrest hwritten.unpublished
      rw [hfinal, outcome_deleteParts hdelete] at houtcome
      cases houtcome
      have hcontent : part ∈ (contentOf importId key prepared s₁.partitions statistics).partitions := hpart
      refine iff_of_false (not_atomic_of_manifest h.table ?_ hcontent hnew h.refers) ?_
      · rw [if_pos rfl]
        show (if _ ∈ s₁.writtenLocations then none else _) = _
        rw [hwritten.locations, if_neg, withManifest]
        · exact Function.update_self ..
        · intro hmem
          obtain ⟨i, -, heq⟩ := List.mem_map.mp hmem
          exact partLocation_ne_manifestLocation _ _ _ heq
      · rintro (hlt | ⟨⟨⟩⟩)
        exact lt_irrefl _ hlt
  · have hpublished : outcome (publishManifest fault importId prepared key s₁.partitions statistics) s₁
        = _ := outcome_publishManifest hpublish s₁
    set s₂ := publishedState key importId prepared statistics s₁ with hs₂
    have hcatalog : s₂.warehouse.catalog = s.warehouse.catalog := hwritten.catalog
    set committed := s.warehouse.catalog.writeImport key
      { row with partitionStrategy := prepared.strategy, partitionKeys := prepared.keys }
      s₁.partitions statistics with hcommitted
    have hcommit : outcome (commitMetadata prepared key s₁.partitions statistics) s₂
        = (.ok (), s₂.withCatalog committed) := by
      refine outcome_commitMetadata ?_
      rw [hcatalog]
      exact commitImport_of_written hwritten hrow statistics
    -- a fault that leaves the catalog alone, and one that has changed it
    have hkept : ∀ name effect, fault = some ⟨name, effect⟩ →
        Harmless ⟨name, effect⟩ prepared.assignments.length prepared.assignments.length →
        (¬Hits fault .restoreManifest ∧ ∀ i, ¬Hits fault (.deletePart i)) →
        (∃ e, outcome (writeAll host fault importId prepared key) s = (.error e, s₂)) →
        (ImportAtomic importId key s.warehouse s'.warehouse answer ↔ Spares host fault prepared) := by
      rintro name effect hfault hharmless hlate ⟨e, hrun⟩
      obtain ⟨e', s'', hfinal, hobjects, hsame⟩ := exists_outcome_of_late h hwritten
        (show _ = (_, s₂.withCatalog s₂.warehouse.catalog) from hrun) hlate
      rw [hfinal] at houtcome
      cases houtcome
      exact iff_of_true (atomic_of_eq hobjects (hsame.trans hcatalog) h.refers h.fresh_table)
        ((hspares name effect hfault).mpr hharmless)
    have hchanged : ∀ name effect, fault = some ⟨name, effect⟩ →
        ¬Harmless ⟨name, effect⟩ prepared.assignments.length prepared.assignments.length →
        (¬Hits fault .restoreManifest ∧ ∀ i, ¬Hits fault (.deletePart i)) →
        (∃ e, outcome (writeAll host fault importId prepared key) s
          = (.error e, s₂.withCatalog committed)) →
        (ImportAtomic importId key s.warehouse s'.warehouse answer ↔ Spares host fault prepared) := by
      rintro name effect hfault hharmful hlate ⟨e, hrun⟩
      obtain ⟨e', s'', hfinal, hobjects, hsame⟩ := exists_outcome_of_late h hwritten hrun hlate
      rw [hfinal] at houtcome
      cases houtcome
      have hcommittedRow : s'.warehouse.catalog.tables key = some
          { row with partitionStrategy := prepared.strategy, partitionKeys := prepared.keys } := by
        rw [hsame, hcommitted, SQLiteCatalog.tables_writeImport]
      have hcommittedPart : part ∈ s'.warehouse.catalog.partitions key := by
        rw [hsame, hcommitted, SQLiteCatalog.partitions_writeImport]
        exact hpart
      exact iff_of_false (not_atomic_of_part hcommittedRow hcommittedPart hnew h.refers)
        fun hs => hharmful ((hspares name effect hfault).mp hs)
    rw [outcome_bind_ok hpublished, replaceImportMetadata] at hrest
    have hreads : ∀ effect : Bool, ∀ s : ImportState, (if effect then
        (outcome (reads fun warehouse => warehouse.catalog.getTable key) s).2 else s) = s :=
      fun effect s => by cases effect <;> rfl
    by_cases hcheckTable : Hits fault .checkTable
    · obtain ⟨effect, rfl⟩ := hcheckTable
      refine hkept _ _ rfl trivial ⟨by rintro ⟨_, ⟨⟩⟩, by rintro i ⟨_, ⟨⟩⟩⟩ ⟨.raised, ?_⟩
      rw [hrest, outcome_bind_error (outcome_call_self ..), hreads]
    have hcheck : outcome (call fault .checkTable
        (reads fun warehouse => warehouse.catalog.getTable key)) s₂ = (.ok prepared.table, s₂) := by
      rw [call_of_not_hits hcheckTable, outcome_reads, hcatalog, h.table]
    rw [outcome_bind_ok hcheck] at hrest
    by_cases hcommits : Hits fault .commit
    · obtain ⟨effect, rfl⟩ := hcommits
      rw [outcome_bind_error (outcome_call_self ..), hcommit] at hrest
      cases effect with
      | false =>
        exact hkept _ _ rfl (.inr rfl) ⟨by rintro ⟨_, ⟨⟩⟩, by rintro i ⟨_, ⟨⟩⟩⟩ ⟨.raised, hrest⟩
      | true =>
        refine hchanged _ _ rfl ?_ ⟨by rintro ⟨_, ⟨⟩⟩, by rintro i ⟨_, ⟨⟩⟩⟩ ⟨.raised, hrest⟩
        rintro (hlt | ⟨⟨⟩⟩)
        exact lt_irrefl _ hlt
    rw [call_of_not_hits hcommits, outcome_bind_ok hcommit] at hrest
    by_cases hreadBack : Hits fault .readBack
    · obtain ⟨effect, rfl⟩ := hreadBack
      refine hchanged _ _ rfl (lt_irrefl _) ⟨by rintro ⟨_, ⟨⟩⟩, by rintro i ⟨_, ⟨⟩⟩⟩ ⟨.raised, ?_⟩
      rw [hrest, outcome_call_self, hreads]
    -- no call has raised
    rw [call_of_not_hits hreadBack, outcome_reads] at hrest
    obtain ⟨updated, hupdated⟩ : ∃ updated, (s₂.withCatalog committed).warehouse.catalog.getTable key
        = .ok updated := by
      have hcommittedRow : (s₂.withCatalog committed).warehouse.catalog.tables key = some
          { row with partitionStrategy := prepared.strategy, partitionKeys := prepared.keys } :=
        SQLiteCatalog.tables_writeImport ..
      exact ⟨_, by rw [SQLiteCatalog.getTable, hcommittedRow]⟩
    rw [hupdated] at hrest
    rw [outcome_writeOrCleanUp, hrest] at houtcome
    cases houtcome
    refine iff_of_true (atomic_of_published h hwritten rfl rfl) ?_
    rintro ⟨name, effect⟩ rfl
    rw [hall]
    cases name with
    | writePart i => exact .inl (not_lt.mp fun hlt => hnone i hlt ⟨effect, rfl⟩)
    | publishManifest => exact absurd ⟨effect, rfl⟩ hpublish
    | commit => exact absurd ⟨effect, rfl⟩ hcommits
    | readBack => exact absurd ⟨effect, rfl⟩ hreadBack
    | deletePart i => exact .inl rfl
    | _ => trivial

end Publishing

theorem atomic_iff_of_begins (h : Begins importId key prepared s) {s' : ImportState}
    {answer : Except CatalogError ImportResult}
    (houtcome : outcome (writeOrCleanUp host fault importId key prepared) s = (answer, s')) :
    ImportAtomic importId key s.warehouse s'.warehouse answer ↔ Spares host fault prepared := by
  rcases writeParts_spec host fault prepared.assignments h.written with
    ⟨s₁, hrun, hall, hnone, hwritten⟩ | ⟨e, s₁, hrun, hless, hnone, hwritten⟩ |
    ⟨n, effect, s₁, hfault, hn, hrun, hwritten⟩
  · simp only [Nat.zero_add] at hnone hwritten
    exact atomic_iff_of_written h hrun hall hnone hwritten houtcome
  · simp only [Nat.zero_add] at hnone hwritten
    exact atomic_iff_of_refused h hrun hless hnone hwritten houtcome
  · simp only [Nat.zero_add] at hfault hwritten
    exact atomic_iff_of_write h hfault hn hrun hwritten houtcome

/-- A fault before anything is written does no harm. -/
theorem harmless_of_reading {f : Fault} (h : f.call ∈ reading) (written count : ℕ) :
    Harmless f written count := by
  obtain ⟨name, effect⟩ := f
  fin_cases h <;> trivial

theorem begins_of_prepare {warehouse : Warehouse} {s₀ : ImportState} (hrefers : RefersToFiles warehouse)
    (hfresh : ∀ table, warehouse.catalog.getTable key = .ok table → ∀ ordinal,
      warehouse.objects (partLocation table importId ordinal) = none)
    (h : outcome (prepare host fault key request) { warehouse := warehouse } = (.ok prepared, s₀)) :
    s₀ = { warehouse := warehouse } ∧ Begins importId key prepared s₀ := by
  obtain ⟨htable, hprevious, hlength⟩ := of_prepare_eq_ok h
  obtain rfl : s₀ = { warehouse := warehouse } :=
    (congrArg Prod.snd h).symm.trans (readOnly_prepare _)
  exact ⟨rfl,
    { table := htable
      previous := hprevious
      fresh := hfresh _ htable
      refers := hrefers
      count_pos := hlength ▸ request.count_pos
      written := ⟨rfl, rfl, rfl, rfl, rfl, rfl, nofun, nofun, fun _ _ => rfl⟩ }⟩

/-- An import with a fresh id, from a warehouse that refers to files that exist, is atomic
exactly when the call that raises does no harm: it comes before anything is written or is
not reached; or it is a write, the publication or the commit, and has not taken effect;
or it is the last delete after a refusal of the writer, and has. -/
theorem import_atomic_iff {warehouse : Warehouse} {s' : ImportState}
    {answer : Except CatalogError ImportResult} (hrefers : RefersToFiles warehouse)
    (hfresh : ∀ table, warehouse.catalog.getTable key = .ok table → ∀ ordinal,
      warehouse.objects (partLocation table importId ordinal) = none)
    (h : outcome (importTable host fault importId key request) { warehouse := warehouse }
      = (answer, s')) :
    ImportAtomic importId key warehouse s'.warehouse answer ↔
      ∀ prepared, (outcome (prepare host none key request) { warehouse := warehouse }).1 = .ok prepared →
        Spares host fault prepared := by
  -- what the import comes to, given what it has read
  have hread : (∃ e, (outcome (prepare host fault key request) { warehouse := warehouse }).1 = .error e ∧
        ImportAtomic importId key warehouse s'.warehouse answer) ∨
      ∃ prepared, (outcome (prepare host fault key request) { warehouse := warehouse }).1 = .ok prepared ∧
        (ImportAtomic importId key warehouse s'.warehouse answer ↔ Spares host fault prepared) := by
    have hkept : (outcome (prepare host fault key request) { warehouse := warehouse }).2
        = { warehouse := warehouse } := readOnly_prepare _
    rw [importTable] at h
    rcases hprepare : outcome (prepare host fault key request) { warehouse := warehouse }
      with ⟨e | prepared, s₀⟩
    · rw [outcome_bind_error hprepare] at h
      rw [hprepare] at hkept
      cases h
      obtain rfl : s' = { warehouse := warehouse } := hkept
      exact .inl ⟨e, rfl, atomic_of_eq rfl rfl hrefers hfresh⟩
    · obtain ⟨rfl, hbegins⟩ := begins_of_prepare hrefers hfresh hprepare
      rw [outcome_bind_ok hprepare] at h
      exact .inr ⟨prepared, rfl, atomic_iff_of_begins hbegins h⟩
  by_cases hhits : ∃ name ∈ reading, Hits fault name
  · obtain ⟨name, hname, effect, rfl⟩ := hhits
    have hspares : ∀ prepared, Spares host (some ⟨name, effect⟩) prepared := by
      rintro prepared _ ⟨⟩
      exact harmless_of_reading hname _ _
    refine iff_of_true ?_ fun prepared _ => hspares prepared
    rcases hread with ⟨-, -, hatomic⟩ | ⟨prepared, -, hiff⟩
    · exact hatomic
    · exact hiff.mpr (hspares prepared)
  · rw [← prepare_of_not_hits fun name hname hhit => hhits ⟨name, hname, hhit⟩]
    rcases hread with ⟨e, he, hatomic⟩ | ⟨prepared, hprepared, hiff⟩
    · refine iff_of_true hatomic fun prepared hprepared => ?_
      rw [he] at hprepared
      cases hprepared
    · rw [hiff]
      refine ⟨fun hspares prepared' hprepared' => ?_, fun hall => hall prepared hprepared⟩
      rw [hprepared] at hprepared'
      cases hprepared'
      exact hspares

/-! ### A small import -/

/-- Python's own parts, and files that hold one row. -/
def oneRowHost : ImportHost where
  python := Python.ascii
  locationText location := location.anchor
  readTable _ _ := some (RecordBatch.fromPylist [[("id", .int 1)]] ["id"])
  writeTable _ _ := some [1]
  collectTableStatistics _ _ := {}

/-- A warehouse with one table, never imported into, and a file to import. -/
def oneTable : Warehouse where
  objects l := if l = ⟨"/", ["source"]⟩ then some (.data []) else none
  catalog := (SQLiteCatalog.empty ["main"]).setRow ("main", "t")
    ⟨[⟨"id", .int64, true⟩], .parquet, ⟨"/", ["t"]⟩, .unknown, [], []⟩

def importRequest : ImportRequest where
  sourceLocation := ⟨"/", ["source"]⟩
  sourceFormat := some .parquet
  count_pos := by decide

theorem oneTable_refersToFiles : RefersToFiles oneTable := by
  refine ⟨nofun, fun l content hl => ?_⟩
  rw [oneTable] at hl
  dsimp only at hl
  split at hl
  · cases hl
  · cases hl

theorem oneTable_fresh : ∀ table, oneTable.catalog.getTable ("main", "t") = .ok table →
    ∀ ordinal, oneTable.objects (partLocation table "i" ordinal) = none := by
  intro table htable ordinal
  have hlocation : table.location = ⟨"/", ["t"]⟩ := by
    rw [← Except.ok.inj htable]
    rfl
  refine if_neg fun heq => ?_
  have hlength := congrArg (fun location => location.parts.length) heq
  simp only [partLocation, joinLocation, hlocation, List.length_append, List.length_cons,
    List.length_nil] at hlength
  omega

theorem import_atomic_iff_oneTable :
    ImportAtomic "i" ("main", "t") oneTable
        (outcome (importTable oneRowHost none "i" ("main", "t") importRequest)
          { warehouse := oneTable }).2.warehouse
        (outcome (importTable oneRowHost none "i" ("main", "t") importRequest)
          { warehouse := oneTable }).1 ↔
      ∀ prepared, (outcome (prepare oneRowHost none ("main", "t") importRequest)
        { warehouse := oneTable }).1 = .ok prepared → Spares oneRowHost none prepared :=
  import_atomic_iff oneTable_refersToFiles oneTable_fresh rfl

/-- The store takes the only data file and then raises: the file stays. -/
theorem import_not_atomic :
    ¬∀ (host : ImportHost) (fault : Option Fault) (importId : String) (key : TableKey)
      (request : ImportRequest) (warehouse : Warehouse), RefersToFiles warehouse →
      (∀ table, warehouse.catalog.getTable key = .ok table → ∀ ordinal,
        warehouse.objects (partLocation table importId ordinal) = none) →
      ImportAtomic importId key warehouse
        (outcome (importTable host fault importId key request) { warehouse := warehouse }).2.warehouse
        (outcome (importTable host fault importId key request) { warehouse := warehouse }).1 := by
  intro h
  have hatomic := h oneRowHost (some ⟨.writePart 0, true⟩) "i" ("main", "t") importRequest oneTable
    oneTable_refersToFiles oneTable_fresh
  have hnone := hatomic.files .raised rfl _ rfl 0
  cases hnone

end DataImporter

end DistributedSql

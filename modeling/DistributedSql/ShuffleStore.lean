/-
Shuffle files (`ShuffleStore` in `execution/shuffle.py`).

An attempt writes one Parquet file for each target partition and then its manifest, which
has the size, the digest and the number of rows of every file.  A partition is read as its
files from all manifests, each of which is checked against its manifest first.  Metrics are
left out, and a file that is not there raises a `RuntimeError` here.

Main results:
* `write_spec` — what an attempt leaves in the store, and in its manifest;
* `readFile_of_ne` — a file that is not as it was written is not read;
* `shuffle_reads_back` — every row is read once from its partition, in order, and damage is
  found.
-/
import DistributedSql.HashJoinCorrect
import DistributedSql.WorkerTasks

namespace DistributedSql

/-- Who writes: a source of a shuffle. -/
structure ShuffleAttempt where
  queryId : String
  stageId : String
  taskId : String
  attemptId : String
deriving DecidableEq

/-- `ShuffleStore`, with what it uses of pyarrow and `json`. -/
structure ShuffleStore where
  python : Python
  root : Location
  /-- `pq.write_table(table, sink)` -/
  writeTable : RecordBatch → List UInt8
  /-- `pq.read_table(pa.BufferReader(payload))` -/
  readTable : List UInt8 → Except PyError RecordBatch
  /-- `json.dumps(manifest.model_dump(mode="json"))` -/
  dumps : ShuffleManifest → List UInt8

/-- Each byte is read back from its two digits. -/
theorem hexText_injective : Function.Injective hexText := by
  have hdigit : ∀ m < 16, ∀ n < 16, Nat.digitChar m = Nat.digitChar n → m = n := by decide
  have hbyte : ∀ a b : UInt8, Nat.digitChar (a.toNat / 16) = Nat.digitChar (b.toNat / 16) →
      Nat.digitChar (a.toNat % 16) = Nat.digitChar (b.toNat % 16) → a = b := by
    intro a b hhigh hlow
    have ha := a.toNat_lt
    have hb := b.toNat_lt
    have hquotients := hdigit _ (by omega) _ (by omega) hhigh
    have hremainders := hdigit _ (by omega) _ (by omega) hlow
    exact UInt8.toNat_inj.mp (by omega)
  intro xs ys h
  have hlists := String.ofList_injective h
  induction xs generalizing ys with
  | nil =>
    cases ys with
    | nil => rfl
    | cons y ys => cases hlists
  | cons x xs ih =>
    cases ys with
    | nil => cases hlists
    | cons y ys =>
      simp only [List.flatMap_cons, List.cons_append, List.nil_append, List.cons.injEq] at hlists
      rw [hbyte x y hlists.1 hlists.2.1, ih (congrArg String.ofList hlists.2.2) hlists.2.2]

namespace ShuffleStore

variable (shuffle : ShuffleStore)

/-- `hashlib.sha256(payload).hexdigest()`. -/
def checksum (payload : List UInt8) : String :=
  hexText (shuffle.python.sha256 ⟨payload.toArray⟩)

def dataLocation (attempt : ShuffleAttempt) (partition : ℕ) : Location :=
  DistributedSql.dataLocation shuffle.python shuffle.root attempt.queryId attempt.stageId
    attempt.taskId attempt.attemptId partition

def manifestLocation (attempt : ShuffleAttempt) : Location :=
  DistributedSql.manifestLocation shuffle.python shuffle.root attempt.queryId attempt.stageId
    attempt.taskId attempt.attemptId

/-- The name of a partition's file. -/
def fileName (partition : ℕ) : String := "part-" ++ padded 5 partition ++ ".parquet"

/-- The entry of a manifest for the table of a partition. -/
def shuffleFile (attempt : ShuffleAttempt) (item : RecordBatch × ℕ) : ShuffleFile where
  partition := item.2
  location := shuffle.dataLocation attempt item.2
  rowCount := item.1.rows.length
  sizeBytes := (shuffle.writeTable item.1).length
  checksum := shuffle.checksum (shuffle.writeTable item.1)

def writeFiles (attempt : ShuffleAttempt) (outputs : List (RecordBatch × ℕ)) (store : ObjectStore) :
    ObjectStore :=
  outputs.foldl (fun (store : ObjectStore) item =>
    store.write (shuffle.dataLocation attempt item.2) (shuffle.writeTable item.1)) store

/-- The manifest of an attempt that has written these tables. -/
def manifest (attempt : ShuffleAttempt) (outputs : List RecordBatch) : ShuffleManifest where
  queryId := attempt.queryId
  stageId := attempt.stageId
  taskId := attempt.taskId
  attemptId := attempt.attemptId
  files := outputs.zipIdx.map (shuffle.shuffleFile attempt)

/-- `ShuffleStore.write`. -/
def write (attempt : ShuffleAttempt) (table : RecordBatch) (partitionCount : ℕ)
    (keys : List Expression) (broadcast : Bool) (store : ObjectStore) :
    Except PyError (ShuffleManifest × ObjectStore) := do
  let outputs ← shuffleWrite shuffle.python keys partitionCount broadcast table
  let store := shuffle.writeFiles attempt outputs.zipIdx store
  let manifest := shuffle.manifest attempt outputs
  return (manifest, store.write (shuffle.manifestLocation attempt) (shuffle.dumps manifest))

/-- `repr` of a location. -/
def locationRepr (location : Location) : String :=
  strRepr (String.intercalate "/" (location.anchor :: location.parts))

/-- What `read_partition` reads of one manifest. -/
def readFile (store : ObjectStore) (partition : ℕ) (manifest : ShuffleManifest) :
    Except PyError RecordBatch :=
  match manifest.files.filter (·.partition = partition) with
  | [item] =>
      match store item.location with
      | none => .error (.runtimeError ("No such file: " ++ locationRepr item.location))
      | some payload =>
          if payload.length ≠ item.sizeBytes then
            .error (.valueError ("Shuffle size mismatch for " ++ locationRepr item.location))
          else if shuffle.checksum payload ≠ item.checksum then
            .error (.valueError ("Shuffle checksum mismatch for " ++ locationRepr item.location))
          else do
            let table ← shuffle.readTable payload
            if table.rows.length ≠ item.rowCount then
              throw (.valueError
                ("Shuffle row count mismatch for " ++ locationRepr item.location))
            else return table
  | _ => .error (.valueError ("Shuffle manifest " ++ strRepr manifest.attemptId
      ++ " does not contain exactly one file for partition " ++ toString partition ++ "."))

/-- `ShuffleStore.read_partition`. -/
def readPartition (manifests : List ShuffleManifest) (partition : ℕ) (store : ObjectStore) :
    Except PyError RecordBatch := do
  concatTables (← manifests.mapM (shuffle.readFile store partition))

/-- Every source is written by an attempt of its own, one after the other. -/
def writeAll (partitionCount : ℕ) (keys : List Expression) (broadcast : Bool) :
    List (ShuffleAttempt × RecordBatch) → ObjectStore →
    Except PyError (List ShuffleManifest × ObjectStore)
  | [], store => .ok ([], store)
  | source :: rest, store => do
      let (manifest, store) ← shuffle.write source.1 source.2 partitionCount keys broadcast store
      let (manifests, store) ← writeAll partitionCount keys broadcast rest store
      return (manifest :: manifests, store)

/-- The partitions that read a row. -/
def targets (partitionCount : ℕ) (keys : List Expression) (broadcast : Bool) (row : Row) : List ℕ :=
  if broadcast then List.range partitionCount
  else [digestPartition shuffle.python
    (shuffleText shuffle.python (rowValues shuffle.python keys row)) partitionCount]

/-! ### Where the files lie -/

/-- The names from which the locations of these attempts are made. -/
def segments (attempts : List ShuffleAttempt) (partitionCount : ℕ) : List String :=
  attempts.flatMap (fun attempt =>
      [attempt.queryId, attempt.stageId, attempt.taskId, attempt.attemptId])
    ++ (List.range partitionCount).map fileName ++ ["manifest.json"]

/-- The shortened names of these attempts do not collide. -/
def Apart (attempts : List ShuffleAttempt) (partitionCount : ℕ) : Prop :=
  ∀ text ∈ segments attempts partitionCount, ∀ text' ∈ segments attempts partitionCount,
    safeSegment shuffle.python text = safeSegment shuffle.python text' → text = text'

theorem fileName_injective : Function.Injective fileName := by
  intro p q h
  have hlists := congrArg String.toList h
  simp only [fileName, String.toList_append, List.append_assoc] at hlists
  exact padded_injective 5
    (String.toList_injective (List.append_cancel_right (List.append_cancel_left hlists)))

theorem fileName_ne_manifest (partition : ℕ) : fileName partition ≠ "manifest.json" := by
  intro h
  have hheads := congrArg (fun text => text.toList.head?) h
  simp [fileName] at hheads

section Locations

variable {shuffle} {attempts : List ShuffleAttempt} {partitionCount : ℕ}

/-- Two places are the same only for the same attempt and the same name. -/
private theorem join_inj (hapart : shuffle.Apart attempts partitionCount)
    {attempt attempt' : ShuffleAttempt} (hattempt : attempt ∈ attempts)
    (hattempt' : attempt' ∈ attempts) {name name' : String}
    (hname : name ∈ segments attempts partitionCount)
    (hname' : name' ∈ segments attempts partitionCount)
    (h : shuffle.root.join shuffle.python
        [attempt.queryId, attempt.stageId, attempt.taskId, attempt.attemptId, name]
      = shuffle.root.join shuffle.python
        [attempt'.queryId, attempt'.stageId, attempt'.taskId, attempt'.attemptId, name']) :
    attempt = attempt' ∧ name = name' := by
  have hids : ∀ a ∈ attempts, ∀ text ∈ [a.queryId, a.stageId, a.taskId, a.attemptId],
      text ∈ segments attempts partitionCount := fun a ha text htext =>
    List.mem_append_left _ (List.mem_append_left _ (List.mem_flatMap.mpr ⟨a, ha, htext⟩))
  have hid := hids attempt hattempt
  have hid' := hids attempt' hattempt'
  have hparts := List.append_cancel_left (congrArg Location.parts h)
  simp only [List.map_cons, List.map_nil, List.cons.injEq, and_true] at hparts
  obtain ⟨hquery, hstage, htask, hattempt, hfile⟩ := hparts
  simp only [List.mem_cons, List.not_mem_nil, or_false, forall_eq_or_imp, forall_eq] at hid hid'
  refine ⟨?_, hapart _ hname _ hname' hfile⟩
  have h₁ := hapart _ hid.1 _ hid'.1 hquery
  have h₂ := hapart _ hid.2.1 _ hid'.2.1 hstage
  have h₃ := hapart _ hid.2.2.1 _ hid'.2.2.1 htask
  have h₄ := hapart _ hid.2.2.2 _ hid'.2.2.2 hattempt
  cases attempt
  cases attempt'
  simp only [ShuffleAttempt.mk.injEq]
  exact ⟨h₁, h₂, h₃, h₄⟩

private theorem fileName_mem {p : ℕ} (hp : p < partitionCount) :
    fileName p ∈ segments attempts partitionCount :=
  List.mem_append_left _ (List.mem_append_right _ (List.mem_map_of_mem (List.mem_range.mpr hp)))

theorem dataLocation_inj (hapart : shuffle.Apart attempts partitionCount)
    {attempt attempt' : ShuffleAttempt} (hattempt : attempt ∈ attempts)
    (hattempt' : attempt' ∈ attempts) {p q : ℕ} (hp : p < partitionCount) (hq : q < partitionCount)
    (h : shuffle.dataLocation attempt p = shuffle.dataLocation attempt' q) :
    attempt = attempt' ∧ p = q := by
  obtain ⟨hsame, hname⟩ := join_inj hapart hattempt hattempt' (fileName_mem hp) (fileName_mem hq) h
  exact ⟨hsame, fileName_injective hname⟩

theorem dataLocation_ne_manifest (hapart : shuffle.Apart attempts partitionCount)
    {attempt attempt' : ShuffleAttempt} (hattempt : attempt ∈ attempts)
    (hattempt' : attempt' ∈ attempts) {p : ℕ} (hp : p < partitionCount) :
    shuffle.dataLocation attempt p ≠ shuffle.manifestLocation attempt' := by
  intro h
  have hname := (join_inj hapart hattempt hattempt' (fileName_mem hp)
    (List.mem_append_right _ (List.mem_singleton_self _)) h).2
  exact fileName_ne_manifest p hname

end Locations

/-! ### What a source leaves -/

section Written

variable {shuffle} {attempts : List ShuffleAttempt} {attempt : ShuffleAttempt}

theorem writeFiles_of_ne {outputs : List (RecordBatch × ℕ)} {location : Location}
    (h : ∀ item ∈ outputs, location ≠ shuffle.dataLocation attempt item.2) (store : ObjectStore) :
    shuffle.writeFiles attempt outputs store location = store location := by
  induction outputs generalizing store with
  | nil => rfl
  | cons item rest ih =>
    obtain ⟨hitem, hrest⟩ := List.forall_mem_cons.mp h
    rw [writeFiles, List.foldl_cons, ← writeFiles, ih hrest, ObjectStore.write_apply, if_neg hitem]

/-- A file stays as it is written, if no other has its place. -/
theorem writeFiles_of_mem {outputs : List (RecordBatch × ℕ)}
    (hplaces : outputs.Pairwise fun left right =>
      shuffle.dataLocation attempt left.2 ≠ shuffle.dataLocation attempt right.2)
    {item : RecordBatch × ℕ} (hitem : item ∈ outputs) (store : ObjectStore) :
    shuffle.writeFiles attempt outputs store (shuffle.dataLocation attempt item.2)
      = some (shuffle.writeTable item.1) := by
  induction outputs generalizing store with
  | nil => cases hitem
  | cons first rest ih =>
    obtain ⟨hfirst, hrest⟩ := List.pairwise_cons.mp hplaces
    rw [writeFiles, List.foldl_cons, ← writeFiles]
    rcases List.mem_cons.mp hitem with rfl | hitem
    · rw [writeFiles_of_ne hfirst, ObjectStore.write_apply, if_pos rfl]
    · exact ih hrest hitem _

/-- What an attempt has left: for each partition one file, which is in the store, with the
rows for it. -/
structure Written (shuffle : ShuffleStore) (attempt : ShuffleAttempt) (partitionCount : ℕ)
    (targets : Row → List ℕ) (table : RecordBatch) (manifest : ShuffleManifest)
    (store : ObjectStore) : Prop where
  file : ∀ p < partitionCount, ∃ file : RecordBatch,
    manifest.files.filter (·.partition = p) = [shuffle.shuffleFile attempt (file, p)] ∧
    store (shuffle.dataLocation attempt p) = some (shuffle.writeTable file) ∧
    file.names = table.names ∧ file.rows = table.rows.filter fun row => p ∈ targets row
  lt_of_mem : ∀ item ∈ manifest.files, item.partition < partitionCount

/-- Writes elsewhere do not matter. -/
theorem Written.of_agree {partitionCount : ℕ} {targets : Row → List ℕ} {table : RecordBatch}
    {manifest : ShuffleManifest} {store store' : ObjectStore}
    (h : Written shuffle attempt partitionCount targets table manifest store)
    (hagree : ∀ p < partitionCount, store' (shuffle.dataLocation attempt p)
      = store (shuffle.dataLocation attempt p)) :
    Written shuffle attempt partitionCount targets table manifest store' where
  file p hp := by
    obtain ⟨file, hfiles, hstore, hfile⟩ := h.file p hp
    exact ⟨file, hfiles, (hagree p hp).trans hstore, hfile⟩
  lt_of_mem := h.lt_of_mem

/-- Of a list with its places, the element at one place. -/
private theorem filter_zipIdx_snd {α : Type} {l : List α} {i : ℕ} {a : α} (h : l[i]? = some a) :
    l.zipIdx.filter (fun item => decide (item.2 = i)) = [(a, i)] := by
  have hmem : (a, i) ∈ l.zipIdx := List.mem_zipIdx_iff_getElem?.mpr h
  have hpairwise : l.zipIdx.Pairwise fun left right => left.2 ≠ right.2 := by
    rw [← List.pairwise_map (f := Prod.snd) (R := (· ≠ ·)), List.zipIdx_map_snd]
    exact List.nodup_range'
  have hnodup : (l.zipIdx.filter fun item => decide (item.2 = i)).Nodup :=
    (hpairwise.imp fun h heq => h (congrArg Prod.snd heq)).filter _
  refine List.perm_singleton.mp ((List.perm_ext_iff_of_nodup hnodup (by simp)).mpr fun item => ?_)
  rw [List.mem_filter, decide_eq_true_iff, List.mem_singleton]
  constructor
  · rintro ⟨hitem, rfl⟩
    have hget := List.mem_zipIdx_iff_getElem?.mp hitem
    rw [h, Option.some.injEq] at hget
    exact Prod.ext hget.symm rfl
  · rintro rfl
    exact ⟨hmem, rfl⟩

/-- A write leaves the rows of every partition, and changes no other place. -/
theorem write_spec {table : RecordBatch} {partitionCount : ℕ} {keys : List Expression}
    {broadcast : Bool} {targets : Row → List ℕ} (hcount : 0 < partitionCount)
    (hcheck : (!broadcast && decide (1 < partitionCount) && keys.isEmpty) = false)
    (htargets : ∀ row ∈ table.rows, shuffleTargets shuffle.python keys partitionCount broadcast row
      = .ok (targets row))
    (hapart : shuffle.Apart attempts partitionCount) (hattempt : attempt ∈ attempts)
    (store : ObjectStore) :
    ∃ manifest store', shuffle.write attempt table partitionCount keys broadcast store
        = .ok (manifest, store') ∧
      Written shuffle attempt partitionCount targets table manifest store' ∧
      ∀ location, (∀ p < partitionCount, location ≠ shuffle.dataLocation attempt p) →
        location ≠ shuffle.manifestLocation attempt → store' location = store location := by
  obtain ⟨outputs, hwrite, hlength, houtputs⟩ := shuffleWrite_eq hcount hcheck htargets
  have hlt : ∀ item ∈ outputs.zipIdx, item.2 < partitionCount := by
    intro item hitem
    rw [← hlength]
    exact (List.getElem?_eq_some_iff.mp (List.mem_zipIdx_iff_getElem?.mp hitem)).1
  refine ⟨shuffle.manifest attempt outputs, (shuffle.writeFiles attempt outputs.zipIdx store).write
      (shuffle.manifestLocation attempt) (shuffle.dumps (shuffle.manifest attempt outputs)), ?_,
    ⟨fun p hp => ?_, fun file hfile => ?_⟩, fun location hdata hmanifest => ?_⟩
  · rw [write, hwrite]
    rfl
  · obtain ⟨file, hget, hfile⟩ := houtputs p hp
    refine ⟨file, ?_, ?_, hfile⟩
    · rw [manifest, List.filter_map]
      exact congrArg (List.map (shuffle.shuffleFile attempt)) (filter_zipIdx_snd hget)
    · -- the files have different places, and the manifest another
      have hplaces : outputs.zipIdx.Pairwise fun left right =>
          shuffle.dataLocation attempt left.2 ≠ shuffle.dataLocation attempt right.2 := by
        have hordinals : outputs.zipIdx.Pairwise fun left right => left.2 ≠ right.2 := by
          rw [← List.pairwise_map (f := Prod.snd) (R := (· ≠ ·)), List.zipIdx_map_snd]
          exact List.nodup_range'
        refine hordinals.imp_of_mem fun hleft hright hne heq => hne ?_
        exact (dataLocation_inj hapart hattempt hattempt
          (hlt _ hleft) (hlt _ hright) heq).2
      have hmem : (file, p) ∈ outputs.zipIdx := List.mem_zipIdx_iff_getElem?.mpr hget
      rw [ObjectStore.write_apply, if_neg (dataLocation_ne_manifest hapart hattempt hattempt hp)]
      exact writeFiles_of_mem hplaces hmem store
  · obtain ⟨item, hitem, rfl⟩ := List.mem_map.mp hfile
    exact hlt item hitem
  · rw [ObjectStore.write_apply, if_neg hmanifest]
    exact writeFiles_of_ne (fun item hitem => hdata item.2 (hlt item hitem)) store

/-- The sources leave their rows, and files of other attempts as they are. -/
theorem writeAll_spec {partitionCount : ℕ} {keys : List Expression} {broadcast : Bool}
    {targets : Row → List ℕ} {sources : List (ShuffleAttempt × RecordBatch)}
    (hcount : 0 < partitionCount)
    (hcheck : (!broadcast && decide (1 < partitionCount) && keys.isEmpty) = false)
    (htargets : ∀ row ∈ allRows (sources.map Prod.snd),
      shuffleTargets shuffle.python keys partitionCount broadcast row = .ok (targets row))
    (hapart : shuffle.Apart attempts partitionCount)
    (hattempts : ∀ source ∈ sources, source.1 ∈ attempts) (hnodup : (sources.map Prod.fst).Nodup)
    (store : ObjectStore) :
    ∃ manifests store', shuffle.writeAll partitionCount keys broadcast sources store
        = .ok (manifests, store') ∧
      List.Forall₂ (fun source manifest =>
        Written shuffle source.1 partitionCount targets source.2 manifest store') sources manifests ∧
      ∀ other ∈ attempts, other ∉ sources.map Prod.fst → ∀ p < partitionCount,
        store' (shuffle.dataLocation other p) = store (shuffle.dataLocation other p) := by
  induction sources generalizing store with
  | nil => exact ⟨[], store, rfl, .nil, fun _ _ _ _ _ => rfl⟩
  | cons source rest ih =>
    obtain ⟨hsource, hrest⟩ := List.forall_mem_cons.mp hattempts
    rw [List.map_cons, List.nodup_cons] at hnodup
    rw [List.map_cons, allRows_cons, List.forall_mem_append] at htargets
    obtain ⟨manifest, store₁, hwrite, hwritten, hframe⟩ :=
      write_spec hcount hcheck htargets.1 hapart hsource store
    obtain ⟨manifests, store₂, hwrites, hall, hframes⟩ := ih htargets.2 hrest hnodup.2 store₁
    refine ⟨manifest :: manifests, store₂, ?_, .cons ?_ hall, fun other hother hne p hp => ?_⟩
    · rw [writeAll, hwrite, ExceptState.ok_bind]
      dsimp only
      rw [hwrites]
      rfl
    · -- the later sources write elsewhere
      exact hwritten.of_agree (hframes _ hsource hnodup.1)
    · rw [List.map_cons, List.mem_cons, not_or] at hne
      rw [hframes other hother hne.2 p hp]
      refine hframe _ (fun q hq heq => hne.1 ?_)
        (dataLocation_ne_manifest hapart hother hsource hp)
      exact (dataLocation_inj hapart hother hsource hp hq heq).1

/-! ### Reading -/

variable {partitionCount : ℕ} {targets : Row → List ℕ} {table : RecordBatch}
  {manifest : ShuffleManifest} {store : ObjectStore}

/-- A file that is as it was written passes the checks. -/
theorem readFile_eq (h : Written shuffle attempt partitionCount targets table manifest store)
    (hparquet : ∀ file : RecordBatch, file.names = table.names → (∀ row ∈ file.rows, row ∈ table.rows) →
      shuffle.readTable (shuffle.writeTable file) = .ok file) {p : ℕ} (hp : p < partitionCount) :
    ∃ file : RecordBatch, shuffle.readFile store p manifest = .ok file ∧ file.names = table.names ∧
      file.rows = table.rows.filter fun row => p ∈ targets row := by
  obtain ⟨file, hfiles, hstore, hnames, hrows⟩ := h.file p hp
  have hread := hparquet file hnames fun row hrow => by
    rw [hrows] at hrow
    exact List.mem_of_mem_filter hrow
  refine ⟨file, ?_, hnames, hrows⟩
  rw [readFile, hfiles]
  simp only [shuffleFile, hstore, ne_eq, not_true_eq_false, if_false, hread, ExceptState.ok_bind]
  rfl

/-- A file that is not as it was written is not read. -/
theorem readFile_of_ne (h : Written shuffle attempt partitionCount targets table manifest store)
    {file : ShuffleFile} (hfile : file ∈ manifest.files) {damaged : ObjectStore}
    (hne : damaged file.location ≠ store file.location)
    (hdigest : ∀ payload ∈ damaged file.location, ∀ original ∈ store file.location,
      shuffle.python.sha256 ⟨payload.toArray⟩ = shuffle.python.sha256 ⟨original.toArray⟩ →
        payload = original) :
    ∃ e, shuffle.readFile damaged file.partition manifest = .error e := by
  obtain ⟨output, hfiles, hstore, -⟩ := h.file _ (h.lt_of_mem file hfile)
  have hmem : file ∈ manifest.files.filter (·.partition = file.partition) :=
    List.mem_filter.mpr ⟨hfile, decide_eq_true rfl⟩
  rw [hfiles, List.mem_singleton] at hmem
  have hlocation : file.location = shuffle.dataLocation attempt file.partition :=
    congrArg ShuffleFile.location hmem
  rw [hlocation, hstore] at hne hdigest
  cases hread : shuffle.readFile damaged file.partition manifest with
  | error e => exact ⟨e, rfl⟩
  | ok read =>
    exfalso
    rw [readFile, hfiles] at hread
    dsimp only [shuffleFile] at hread
    cases hdamaged : damaged (shuffle.dataLocation attempt file.partition) with
    | none =>
      rw [hdamaged] at hread
      cases hread
    | some payload =>
      rw [hdamaged] at hne hdigest hread
      dsimp only at hread
      split at hread
      · cases hread
      · split at hread
        · cases hread
        · next hchecksum =>
          -- of the same digest, and so not changed
          have hsame := hdigest payload rfl _ rfl (hexText_injective (not_not.mp hchecksum))
          exact hne (congrArg some hsame)

end Written

/-! ### The whole shuffle -/

/-- Of different parts one is chosen, and so once. -/
private theorem flatMap_chosen {α : Type} {parts : List ℕ} {part : ℕ} (a : α)
    (hnodup : parts.Nodup) (hmem : part ∈ parts) :
    (parts.flatMap fun p => if p = part then [a] else []) = [a] := by
  induction parts with
  | nil => cases hmem
  | cons p parts ih =>
    obtain ⟨hp, hparts⟩ := List.nodup_cons.mp hnodup
    rw [List.flatMap_cons]
    by_cases heq : p = part
    · subst heq
      have hrest : (parts.flatMap fun q => if q = p then [a] else []) = [] := by
        refine List.flatMap_eq_nil_iff.mpr fun q hq => if_neg ?_
        rintro rfl
        exact hp hq
      rw [if_pos rfl, hrest, List.append_nil]
    · rw [if_neg heq, List.nil_append]
      exact ih hparts ((List.mem_cons.mp hmem).resolve_left (Ne.symm heq))

/-- Rows that are sent to one of the parts each are in the parts once. -/
theorem perm_flatMap_filter {α : Type} {part : α → ℕ} {count : ℕ} {l : List α}
    (h : ∀ a ∈ l, part a < count) :
    ((List.range count).flatMap fun p => l.filter fun a => decide (p ∈ [part a])).Perm l := by
  induction l with
  | nil => simp
  | cons a l ih =>
    obtain ⟨ha, hl⟩ := List.forall_mem_cons.mp h
    have hcons : ∀ p, (a :: l).filter (fun b => decide (p ∈ [part b]))
        = (if p = part a then [a] else []) ++ l.filter fun b => decide (p ∈ [part b]) := by
      intro p
      by_cases heq : p = part a <;> simp [heq]
    simp only [hcons]
    refine (List.flatMap_append_perm _ _ _).symm.trans ?_
    rw [flatMap_chosen a List.nodup_range (List.mem_range.mpr ha)]
    exact (ih hl).cons a

theorem allRows_of_forall₂ {parts : List ℕ} {tables : List RecordBatch}
    {rows : ℕ → List Row}
    (h : List.Forall₂ (fun p (table : RecordBatch) => table.rows = rows p) parts tables) :
    allRows tables = parts.flatMap rows := by
  induction h with
  | nil => rfl
  | cons htable _ ih => rw [allRows_cons, List.flatMap_cons, htable, ih]

/-- The targets of rows on which the keys evaluate. -/
private theorem shuffleTargets_eq {shuffle : ShuffleStore} {partitionCount : ℕ}
    {keys : List Expression} {broadcast : Bool} {row : Row}
    (h : broadcast = false → ∃ values, Expression.evaluateAll shuffle.python row keys = .ok values) :
    shuffleTargets shuffle.python keys partitionCount broadcast row
      = .ok (shuffle.targets partitionCount keys broadcast row) := by
  cases broadcast with
  | true => rfl
  | false =>
    obtain ⟨values, hvalues⟩ := h rfl
    simp only [shuffleTargets, targets, shufflePartition, rowValues, hvalues]
    rfl

/-- The tables that are read from all manifests, one for each partition. -/
private theorem readPartitions_eq {shuffle : ShuffleStore} {partitionCount : ℕ}
    {targets : Row → List ℕ} {sources : List (ShuffleAttempt × RecordBatch)}
    {manifests : List ShuffleManifest} {store : ObjectStore} {names : List String}
    (hnames : ∀ source ∈ sources, source.2.names = names)
    (hparquet : ∀ file : RecordBatch, file.names = names →
      (∀ row ∈ file.rows, row ∈ allRows (sources.map Prod.snd)) →
        shuffle.readTable (shuffle.writeTable file) = .ok file)
    (hwritten : List.Forall₂ (fun source manifest =>
      Written shuffle source.1 partitionCount targets source.2 manifest store) sources manifests) :
    ∃ tables, (List.range partitionCount).mapM
        (fun p => shuffle.readPartition manifests p store) = .ok tables ∧
      List.Forall₂ (fun p (table : RecordBatch) => table.rows
        = (allRows (sources.map Prod.snd)).filter fun row => p ∈ targets row)
        (List.range partitionCount) tables := by
  refine ExceptState.exists_mapM_eq_ok fun p hp => ?_
  have hfiles : ∃ files : List RecordBatch,
      manifests.mapM (shuffle.readFile store p) = .ok files ∧
      List.Forall₂ (fun table (file : RecordBatch) => file.names = table.names ∧
        file.rows = table.rows.filter fun row => decide (p ∈ targets row))
        (sources.map Prod.snd) files := by
    induction hwritten with
    | nil => exact ⟨[], rfl, .nil⟩
    | @cons source manifest sources manifests hsource _ ih =>
      obtain ⟨hname, hrest⟩ := List.forall_mem_cons.mp hnames
      rw [List.map_cons, allRows_cons] at hparquet
      obtain ⟨file, hread, hfile⟩ := readFile_eq hsource
        (fun file hfile hrows => hparquet file (hfile.trans hname)
          fun row hrow => List.mem_append_left _ (hrows row hrow)) (List.mem_range.mp hp)
      obtain ⟨files, hreads, hall⟩ := ih hrest fun file hfile hrows => hparquet file hfile
        fun row hrow => List.mem_append_right _ (hrows row hrow)
      refine ⟨file :: files, ?_, .cons hfile hall⟩
      rw [List.mapM_cons, hread, hreads]
      rfl
  obtain ⟨files, hreads, hall⟩ := hfiles
  have htables : ∀ table ∈ sources.map Prod.snd, table.names = names := by
    intro table htable
    obtain ⟨source, hsource, rfl⟩ := List.mem_map.mp htable
    exact hnames source hsource
  obtain ⟨table, hconcat, -, hrows⟩ := concatTables_filter htables hall
  refine ⟨table, ?_, hrows⟩
  rw [readPartition, hreads]
  exact hconcat

open HashJoinOperator

/-- Python on the names of two files and the int keys 1 and 3: their digests. -/
def filePython : Python := { Python.ascii with
  sha256 := fun data =>
    if data = "part-00000.parquet".toUTF8 then
      [221, 50, 114, 28, 123, 38, 83, 227, 75, 167, 152, 96, 193, 248, 44, 167, 178, 134, 175,
        204, 5, 119, 144, 13, 119, 198, 248, 156, 84, 130, 21, 112]
    else if data = "part-00001.parquet".toUTF8 then
      [101, 25, 215, 59, 50, 162, 24, 248, 142, 215, 39, 9, 64, 162, 168, 251, 94, 167, 249, 71,
        47, 145, 68, 82, 99, 43, 15, 46, 227, 77, 199, 193]
    else if data = "[1]".toUTF8 then
      [8, 10, 158, 212, 40, 85, 158, 246, 2, 102, 139, 76, 0, 241, 20, 241, 161, 28, 63, 107, 2,
        164, 53, 240, 189, 193, 84, 87, 142, 77, 127, 34]
    else if data = "[3]".toUTF8 then
      [6, 208, 51, 236, 230, 100, 93, 229, 146, 219, 151, 54, 68, 207, 115, 87, 37, 95, 36, 83,
        111, 247, 176, 60, 59, 42, 206, 16, 115, 111, 118, 54]
    else Python.ascii.sha256 data }

/-- A store for tables of one column `x` of small ints, which takes a byte for each. -/
def byteStore : ShuffleStore where
  python := filePython
  root := ⟨"/", ["shuffle"]⟩
  writeTable table := table.rows.map fun row =>
    if row.get? "x" = some (.int 1) then 1 else 3
  readTable payload := .ok (intTable "x" (payload.map fun byte => (byte.toNat : ℤ)))
  dumps _ := []

/-- Three sources, the second one empty. -/
def intSources : List (ShuffleAttempt × RecordBatch) :=
  [(⟨"q1", "s1", "t1", "a1"⟩, intTable "x" [1, 3]), (⟨"q1", "s1", "t2", "a2"⟩, intTable "x" []),
    (⟨"q1", "s1", "t3", "a3"⟩, intTable "x" [3])]

theorem readTable_byteStore {file : RecordBatch} (hnames : file.names = ["x"])
    (hrows : ∀ row ∈ file.rows, row ∈ allRows (intSources.map Prod.snd)) :
    byteStore.readTable (byteStore.writeTable file) = .ok file := by
  have hrow : ∀ row ∈ file.rows, row = [("x", .int 1)] ∨ row = [("x", .int 3)] := by
    intro row hrow
    have hmem := hrows row hrow
    simp only [show allRows (intSources.map Prod.snd)
      = [[("x", .int 1)], [("x", .int 3)], [("x", .int 3)]] from by decide +kernel] at hmem
    simpa using hmem
  -- each row is what its byte stands for
  have hrow' : ∀ row ∈ file.rows, Row.restrict ["x"] [("x", .int (((if row.get? "x" = some (.int 1)
      then (1 : UInt8) else 3).toNat : ℕ) : ℤ))] = row := by
    intro row hmem
    rcases hrow row hmem with rfl | rfl <;> decide +kernel
  obtain ⟨names, rows, hwellformed, hnil⟩ := file
  subst hnames
  have hsame : (byteStore.writeTable ⟨["x"], rows, hwellformed, hnil⟩).map
      (fun byte => Row.restrict ["x"] [("x", .int (byte.toNat : ℤ))]) = rows := by
    rw [byteStore, List.map_map]
    exact (List.map_congr_left hrow').trans (List.map_id rows)
  simp only [byteStore, intTable, RecordBatch.fromPylist, List.map_map, Except.ok.injEq,
    RecordBatch.mk.injEq, true_and, List.cons_ne_nil, if_false] at hsame ⊢
  exact hsame

example : (byteStore.writeAll 2 [.column "x" "" ⟨.int64, true⟩] false intSources ObjectStore.empty
    >>= fun out => (List.range 2).mapM fun p => byteStore.readPartition out.1 p out.2).map
      (List.map RecordBatch.rows)
    = .ok [[[("x", .int 1)]], [[("x", .int 3)], [("x", .int 3)]]] := by
  decide +kernel

end ShuffleStore

end DistributedSql

/-
Partition metadata over the life of a catalog.

The strategy and the keys of a table's partitions are recorded in its own row and in
every partition.  An import writes both; an update writes the table's row only.

Main results:
* `consistent_importTable` — an import keeps both alike, whatever call of it raises;
* `partition_metadata_iff` — both stay alike through a run exactly when no update gives a
  table that has partitions another strategy or other keys.
-/
import DistributedSql.ImportAtomicity

namespace DistributedSql

namespace ImportM

variable {α β : Type} {P : ImportState → Prop}

/-- Whether it returns or raises, the program keeps `P`. -/
def Keeps (P : ImportState → Prop) (x : ImportM α) : Prop := ∀ s, P s → P (outcome x s).2

namespace Keeps

theorem of_readOnly {x : ImportM α} (h : ReadOnly x) : Keeps P x := fun s hs => by
  rwa [h s]

theorem bind {x : ImportM α} {f : α → ImportM β} (hx : Keeps P x) (hf : ∀ a, Keeps P (f a)) :
    Keeps P (x >>= f) := by
  intro s hs
  have hfirst := hx s hs
  rw [outcome_bind]
  rcases h : outcome x s with ⟨e | a, s'⟩
  · rw [h] at hfirst
    exact hfirst
  · rw [h] at hfirst
    exact hf a s' hfirst

/-- What the program has read of the state satisfies `P` too. -/
theorem get_bind {f : ImportState → ImportM β} (hf : ∀ s, P s → Keeps P (f s)) :
    Keeps P ((get : ImportM ImportState) >>= f) := by
  intro s hs
  rw [outcome_bind_ok (outcome_get s)]
  exact hf s hs s hs

theorem call {x : ImportM α} (h : Keeps P x) {fault : Option Fault} {name : ImportCall} :
    Keeps P (ImportM.call fault name x) := by
  intro s hs
  by_cases hhits : Hits fault name
  · obtain ⟨effect, rfl⟩ := hhits
    rw [outcome_call_self]
    cases effect with
    | false => exact hs
    | true => exact h s hs
  · rw [call_of_not_hits hhits]
    exact h s hs

theorem modifyObjects (hobjects : ∀ s objects, P s → P (s.withObjects objects))
    (f : (Location → Option StoredObject) → Location → Option StoredObject) :
    Keeps P (ImportM.modifyObjects f) := fun s hs => hobjects s _ hs

theorem update {f : ImportState → ImportState} (h : ∀ s, P s → P (f s)) :
    Keeps P (modify f : ImportM PUnit) := h

theorem ite {c : Prop} [Decidable c] {x y : ImportM α} (hx : Keeps P x) (hy : Keeps P y) :
    Keeps P (if c then x else y) := by
  split
  · exact hx
  · exact hy

end Keeps

end ImportM

/-- A table's row and its partitions say the same of how its rows are distributed. -/
def SQLiteCatalog.Consistent (catalog : SQLiteCatalog) : Prop :=
  ∀ key row, catalog.tables key = some row → ∀ part ∈ catalog.partitions key,
    part.strategy = row.partitionStrategy ∧ part.keys = row.partitionKeys

namespace SQLiteCatalog

variable {catalog : SQLiteCatalog} {key : TableKey}

theorem consistent_empty (namespaces : List String) : (empty namespaces).Consistent := nofun

theorem Consistent.writeImport (h : catalog.Consistent) {row : TableRow} {partitions : List Partition}
    (hspec : ∀ part ∈ partitions,
      part.strategy = row.partitionStrategy ∧ part.keys = row.partitionKeys)
    (statistics : Statistics) : (catalog.writeImport key row partitions statistics).Consistent := by
  intro key' row' hrow part hpart
  by_cases hkey : key' = key
  · subst hkey
    rw [tables_writeImport] at hrow
    cases hrow
    rw [partitions_writeImport] at hpart
    exact hspec part hpart
  · rw [tables_writeImport_of_ne _ _ _ _ _ hkey] at hrow
    rw [partitions_writeImport_of_ne _ _ _ _ _ hkey] at hpart
    exact h key' row' hrow part hpart

theorem Consistent.commitImport (h : catalog.Consistent) {strategy : PartitionStrategy}
    {keys : List String} {partitions : List Partition}
    (hspec : ∀ part ∈ partitions, part.strategy = strategy ∧ part.keys = keys)
    (statistics : Statistics) :
    (catalog.commitImport key strategy keys partitions statistics).2.Consistent := by
  rw [SQLiteCatalog.commitImport]
  cases catalog.tables key with
  | none => exact h
  | some row =>
    dsimp only
    split
    · exact h
    · exact h.writeImport hspec statistics

/-- Another row for a table whose partitions say the same. -/
theorem Consistent.setRow (h : catalog.Consistent) {row : TableRow}
    (hspec : ∀ part ∈ catalog.partitions key,
      part.strategy = row.partitionStrategy ∧ part.keys = row.partitionKeys) :
    (catalog.setRow key row).Consistent := by
  intro key' row' hrow part hpart
  by_cases hkey : key' = key
  · subst hkey
    rw [tables_setRow] at hrow
    cases hrow
    exact hspec part hpart
  · rw [tables_setRow_of_ne _ _ _ hkey] at hrow
    exact h key' row' hrow part hpart

theorem Consistent.createTable (h : catalog.Consistent) (nspace : String) (request : TableCreate) :
    (catalog.createTable nspace request).2.Consistent := by
  unfold SQLiteCatalog.createTable
  by_cases hnamespace : nspace ∉ catalog.namespaces
  · rw [if_pos hnamespace]
    exact h
  · rw [if_neg hnamespace]
    by_cases hsome : (catalog.tables (nspace, request.name)).isSome
    · rw [if_pos hsome]
      exact h
    · -- a new table has no partitions
      rw [if_neg hsome]
      have hnone := Option.not_isSome_iff_eq_none.mp hsome
      refine h.setRow fun part hpart => ?_
      rw [(catalog.foreign_key _ hnone).1] at hpart
      cases hpart

theorem Consistent.deleteTable (h : catalog.Consistent) (key : TableKey) :
    (catalog.deleteTable key).2.Consistent := by
  unfold SQLiteCatalog.deleteTable
  split
  · exact h
  · intro key' row hrow part hpart
    by_cases hkey : key' = key
    · subst hkey
      simp at hrow
    · simp only [Function.update_of_ne hkey] at hrow hpart
      exact h key' row hrow part hpart

end SQLiteCatalog

namespace DataImporter

open ImportM

variable {host : ImportHost} {fault : Option Fault} {importId : String} {key : TableKey}
  {request : ImportRequest} {prepared : Prepared}

/-- The files recorded so far are as the import has planned, and the catalog is consistent. -/
def Tracks (prepared : Prepared) (s : ImportState) : Prop :=
  (∀ part ∈ s.partitions, part.strategy = prepared.strategy ∧ part.keys = prepared.keys) ∧
    s.warehouse.catalog.Consistent

theorem Tracks.withObjects (s : ImportState) (objects : Location → Option StoredObject)
    (h : Tracks prepared s) : Tracks prepared (s.withObjects objects) := h

theorem keeps_writePart (ordinal : ℕ) (indices : List ℕ) :
    Keeps (Tracks prepared) (writePart host fault importId prepared ordinal indices) := by
  refine .bind (.of_readOnly (.lift _)) fun data => .bind (.call (.modifyObjects Tracks.withObjects _))
    fun _ => .update fun s hs => ⟨fun part hpart => ?_, hs.2⟩
  rcases List.mem_append.mp hpart with hpart | hpart
  · exact hs.1 part hpart
  · rw [List.mem_singleton.mp hpart]
    exact ⟨rfl, rfl⟩

theorem keeps_writeParts (ordinal : ℕ) (assignments : List (List ℕ)) :
    Keeps (Tracks prepared) (writeParts host fault importId prepared ordinal assignments) := by
  induction assignments generalizing ordinal with
  | nil => exact .of_readOnly (.pure _)
  | cons indices rest ih => exact .bind (keeps_writePart ordinal indices) fun _ => ih (ordinal + 1)

theorem keeps_writeAll : Keeps (Tracks prepared) (writeAll host fault importId prepared key) := by
  refine .bind (keeps_writeParts _ _) fun _ => .get_bind fun s hs => .bind ?_ fun _ => ?_
  · exact .bind (.call (.modifyObjects Tracks.withObjects _)) fun _ => .update fun _ hs => hs
  · refine .bind (.of_readOnly (.call (.reads _))) fun _ => .bind (.call ?_) fun _ =>
      .of_readOnly (.call (.reads _))
    exact fun s' hs' => ⟨hs'.1, hs'.2.commitImport hs.1 _⟩

theorem keeps_cleanUp : Keeps (Tracks prepared) (cleanUp fault prepared) := by
  have hdelete : ∀ locations ordinal, Keeps (Tracks prepared) (deleteParts fault ordinal locations) := by
    intro locations
    induction locations with
    | nil => exact fun _ => .of_readOnly (.pure _)
    | cons location rest ih =>
      exact fun ordinal => .bind (.call (.modifyObjects Tracks.withObjects _)) fun _ => ih (ordinal + 1)
  exact .get_bind fun s _ => .ite (.bind (.call (.modifyObjects Tracks.withObjects _))
    fun _ => hdelete _ _) (.bind (.of_readOnly (.pure _)) fun _ => hdelete _ _)

theorem keeps_writeOrCleanUp :
    Keeps (Tracks prepared) (writeOrCleanUp host fault importId key prepared) := by
  intro s hs
  have hwrite : Tracks prepared (outcome (writeAll host fault importId prepared key) s).2 :=
    keeps_writeAll s hs
  rw [outcome_writeOrCleanUp]
  rcases hrun : outcome (writeAll host fault importId prepared key) s with ⟨e | updated, s₁⟩
  · rw [hrun] at hwrite
    have hclean : Tracks prepared (outcome (cleanUp fault prepared) s₁).2 :=
      keeps_cleanUp s₁ hwrite
    dsimp only
    rcases hrun' : outcome (cleanUp fault prepared) s₁ with ⟨e' | _, s₂⟩ <;>
      · rw [hrun'] at hclean
        exact hclean
  · rw [hrun] at hwrite
    exact hwrite

/-- An import keeps the catalog consistent, whatever call of it raises. -/
theorem consistent_importTable {warehouse : Warehouse} (h : warehouse.catalog.Consistent) :
    (outcome (importTable host fault importId key request)
      { warehouse := warehouse }).2.warehouse.catalog.Consistent := by
  have hprepare : (outcome (prepare host fault key request) { warehouse := warehouse }).2
      = { warehouse := warehouse } := readOnly_prepare _
  rw [importTable, outcome_bind]
  rcases hrun : outcome (prepare host fault key request) { warehouse := warehouse }
    with ⟨e | prepared, s₀⟩
  · rw [hrun] at hprepare
    exact hprepare ▸ h
  · rw [hrun] at hprepare
    obtain rfl : s₀ = { warehouse := warehouse } := hprepare
    refine (keeps_writeOrCleanUp { warehouse := warehouse } ⟨?_, h⟩).2
    intro part hpart
    exact absurd hpart List.not_mem_nil

end DataImporter

/-! ### Runs -/

/-- A call that changes the warehouse; others may write and delete objects. -/
inductive CatalogCall
  | createTable (nspace : String) (request : TableCreate)
  | updateTable (key : TableKey) (request : TableUpdate)
  | importTable (host : ImportHost) (fault : Option Fault) (importId : String) (key : TableKey)
      (request : ImportRequest)
  | deleteTable (key : TableKey)
  | put (location : Location) (content : Option StoredObject)

namespace Warehouse

def step (warehouse : Warehouse) : CatalogCall → Warehouse
  | .createTable nspace request =>
    { warehouse with catalog := (warehouse.catalog.createTable nspace request).2 }
  | .updateTable key request =>
    { warehouse with catalog := (warehouse.catalog.updateTable key request).2 }
  | .importTable host fault importId key request =>
    (ImportM.outcome (DataImporter.importTable host fault importId key request)
      { warehouse := warehouse }).2.warehouse
  | .deleteTable key => { warehouse with catalog := (warehouse.catalog.deleteTable key).2 }
  | .put location content =>
    { warehouse with objects := Function.update warehouse.objects location content }

/-- The warehouse after some calls, from a catalog without tables on. -/
def run (namespaces : List String) (calls : List CatalogCall) : Warehouse :=
  calls.foldl step ⟨fun _ => none, .empty namespaces⟩

theorem run_concat (namespaces : List String) (calls : List CatalogCall) (call : CatalogCall) :
    run namespaces (calls ++ [call]) = (run namespaces calls).step call := List.foldl_append

/-- The call does not give a table that has partitions another strategy or other keys; an
update that is refused gives it nothing. -/
def KeepsPartitioning (warehouse : Warehouse) : CatalogCall → Prop
  | .updateTable key request => ∀ row, warehouse.catalog.tables key = some row →
      warehouse.catalog.partitions key ≠ [] →
      SQLiteCatalog.missingKeys (SQLiteCatalog.updatedRow row request) = [] →
      (SQLiteCatalog.updatedRow row request).partitionStrategy = row.partitionStrategy ∧
        (SQLiteCatalog.updatedRow row request).partitionKeys = row.partitionKeys
  | _ => True

/-- One call keeps the two levels alike exactly when it keeps the partitioning. -/
theorem consistent_step_iff {warehouse : Warehouse} (h : warehouse.catalog.Consistent)
    (call : CatalogCall) :
    (warehouse.step call).catalog.Consistent ↔ warehouse.KeepsPartitioning call := by
  cases call with
  | createTable nspace request => exact iff_of_true (h.createTable nspace request) trivial
  | importTable => exact iff_of_true (DataImporter.consistent_importTable h) trivial
  | deleteTable key => exact iff_of_true (h.deleteTable key) trivial
  | put => exact iff_of_true h trivial
  | updateTable key request =>
    show (warehouse.catalog.updateTable key request).2.Consistent ↔ _
    rw [SQLiteCatalog.updateTable]
    cases hrow : warehouse.catalog.tables key with
    | none =>
      refine iff_of_true h fun row hrow' => ?_
      rw [hrow] at hrow'
      cases hrow'
    | some row =>
      dsimp only
      by_cases hmissing : SQLiteCatalog.missingKeys (SQLiteCatalog.updatedRow row request) = []
      · rw [if_neg (by rw [hmissing]; decide)]
        constructor
        · intro hafter row' hrow' hparts _
          rw [hrow] at hrow'
          cases hrow'
          obtain ⟨part, hpart⟩ := List.exists_mem_of_ne_nil _ hparts
          have hold := h key row hrow part hpart
          have hnew := hafter key _ (SQLiteCatalog.tables_setRow ..) part hpart
          exact ⟨hnew.1.symm.trans hold.1, hnew.2.symm.trans hold.2⟩
        · intro hkeeps
          refine h.setRow fun part hpart => ?_
          have hold := h key row hrow part hpart
          have hsame := hkeeps row hrow (List.ne_nil_of_mem hpart) hmissing
          rw [hsame.1, hsame.2]
          exact hold
      · rw [if_pos (by rw [Bool.not_eq_true', List.isEmpty_eq_false_iff]; exact hmissing)]
        exact iff_of_true h fun row' hrow' _ hnone => by
          rw [hrow] at hrow'
          cases hrow'
          exact absurd hnone hmissing

/-- Through a run both levels stay alike exactly when every update keeps the partitioning of
tables that have partitions. -/
theorem partition_metadata_iff (namespaces : List String) (calls : List CatalogCall) :
    (∀ earlier, earlier <+: calls → (run namespaces earlier).catalog.Consistent) ↔
      ∀ earlier call, earlier ++ [call] <+: calls →
        (run namespaces earlier).KeepsPartitioning call := by
  constructor
  · intro hall earlier call hprefix
    have hbefore := hall earlier ((List.prefix_append _ _).trans hprefix)
    have hafter := hall _ hprefix
    rw [run_concat] at hafter
    exact (consistent_step_iff hbefore call).mp hafter
  · intro hkeeps earlier hprefix
    induction earlier using List.reverseRecOn with
    | nil => exact SQLiteCatalog.consistent_empty namespaces
    | append_singleton earlier call ih =>
      rw [run_concat]
      exact (consistent_step_iff (ih ((List.prefix_append _ _).trans hprefix)) call).mpr
        (hkeeps earlier call hprefix)

/-- A table is imported into without a key, and then declared to be hashed by `id`. -/
def relabelled : List CatalogCall :=
  [.createTable "main"
      { name := "t"
        schema := [⟨"id", .int64, true⟩]
        format := .parquet
        location := ⟨"/", ["t"]⟩
        keys_exist := fun _ h => absurd h List.not_mem_nil },
    .put ⟨"/", ["source"]⟩ (some (.data [])),
    .importTable DataImporter.oneRowHost none "i" ("main", "t") DataImporter.importRequest]

/-- The table's row then says that the one file, written in turn, is hashed. -/
theorem not_always_consistent :
    ¬∀ (namespaces : List String) (calls : List CatalogCall),
      (run namespaces calls).catalog.Consistent := by
  intro h
  have hafter := h ["main"] (relabelled ++ [.updateTable ("main", "t")
    { partitionStrategy := some .hash, partitionKeys := some ["id"] }])
  rw [run_concat] at hafter
  have hkeeps := (consistent_step_iff (h ["main"] relabelled) _).mp hafter
  have hsame := hkeeps _ rfl (by exact List.cons_ne_nil _ _) (List.mergeSort_nil ..)
  cases hsame.1

end Warehouse

/-! ### What a scan is told -/

/-- The distribution that `CostModel._scan` reads off a table. -/
def CatalogTable.distribution (py : Python) (tableAlias : String) (table : CatalogTable) :
    Distribution :=
  { strategy := table.partitionStrategy
    keys := table.partitionKeys.map fun key => py.casefold (tableAlias ++ "." ++ key)
    partitionCount := max table.partitions.length 1 }

/-- Where both levels are alike, a scan claims the distribution that the files were written with. -/
theorem distribution_eq {catalog : SQLiteCatalog} {key : TableKey} {table : CatalogTable}
    (h : catalog.Consistent) (htable : catalog.getTable key = .ok table) (py : Python)
    (tableAlias : String) {part : Partition} (hpart : part ∈ table.partitions) :
    table.distribution py tableAlias
      = { strategy := part.strategy
          keys := part.keys.map fun key => py.casefold (tableAlias ++ "." ++ key)
          partitionCount := max table.partitions.length 1 } := by
  rw [SQLiteCatalog.getTable] at htable
  cases hrow : catalog.tables key with
  | none =>
    rw [hrow] at htable
    cases htable
  | some row =>
    rw [hrow] at htable
    cases htable
    obtain ⟨hstrategy, hkeys⟩ := h key row hrow part (List.mem_mergeSort.mp hpart)
    rw [hstrategy, hkeys]
    rfl

end DistributedSql

/-
  MIGRATION PRESERVES DATA.

  `Store.Migration` says what each block of statements does to the catalog.  Here the blocks are put
  together, version by version, and compared with what a migration is for.
-/
import Bondry.Store.Migration

namespace Bondry.Store

open Sql

variable {Client Token Grant : Type}

/-! ## Counting -/

/-- What `usage::refresh` writes for these two tables. -/
def countedTables (log : Table deliverySchema) (seen : Table storedDedupSchema) : Option StorageUsage :=
  if h : ∀ e ∈ seen.rows, e.2.charge.isInteger = true then
    (refresh ⟨settled seen h, log, ⟨none, none⟩⟩).map Database.usage
  else none

variable {file : File Client Token Grant} {log : Table deliverySchema}
  {seen : Table storedDedupSchema}

theorem counted_eq (hlog : file.deliveryLog = some log) (hseen : file.webhookDedup = some seen)
    (husage : file.storageUsage.isSome = true) : file.counted = countedTables log seen := by
  obtain ⟨usage, husage⟩ := Option.isSome_iff_exists.mp husage
  unfold File.counted File.database countedTables
  rw [hlog, hseen, husage]
  dsimp only
  split
  · next h =>
    simp only [refresh, aggregate, Option.bind_eq_bind, Option.bind_some]
    -- both sides write the same two rows
    cases UsageRow.write .deliveryLog log.rows.length (log.total fun row => row.chargedBytes) with
    | none => rfl
    | some logged =>
      cases UsageRow.write .webhookDedup (settled seen h).rows.length
          ((settled seen h).total fun row => row.chargedBytes) with
      | none => rfl
      | some counted => rfl
  · rfl

/-- The charges of both tables can be counted: they are integers, and their sums fit an `i64`. -/
structure Countable (log : Table deliverySchema) (seen : Table storedDedupSchema) : Prop where
  integers : ∀ e ∈ seen.rows, e.2.charge.isInteger = true
  seen_fits : (seen.total fun row => row.charge.bytes) ≤ i64Max
  log_fits : (log.total fun row => row.chargedBytes) ≤ i64Max

theorem length_le_total {table : CountedTable} {charges : List Int}
    (hv : ∀ c ∈ charges, validCharge table c) : (charges.length : Int) ≤ charges.sum := by
  induction charges with
  | nil => simp
  | cons c rest ih =>
    have hrest := ih fun c' hc' => hv c' (List.mem_cons_of_mem c hc')
    have hc : 1 ≤ c := by
      have hvalid := hv c (by simp)
      cases table with
      | deliveryLog =>
        have h512 : c = 512 := hvalid
        omega
      | webhookDedup =>
        have h96 : 96 ≤ c := hvalid
        omega
    rw [List.length_cons, List.sum_cons]
    push_cast
    omega

theorem write_charges {table : CountedTable} {charges : List Int} (hv : ∀ c ∈ charges, validCharge table c) :
    (∃ row, UsageRow.write table charges.length charges.sum = some row) ↔ charges.sum ≤ i64Max := by
  constructor
  · rintro ⟨row, hrow⟩
    exact (usageCheck_iff.mp (write_eq hrow).2.2).2.1.2
  · intro hsum
    exact write_isSome (usageCheck_charges hv ((length_le_total hv).trans hsum) hsum)

theorem settled_total (seen : Table storedDedupSchema) (h : ∀ e ∈ seen.rows, e.2.charge.isInteger = true) :
    ((settled seen h).total fun row => row.chargedBytes) = seen.total fun row => row.charge.bytes := by
  change ((seen.rows.map fun e => (e.1, e.2.withCharge e.2.charge.bytes)).map fun e =>
    e.2.chargedBytes).sum = _
  rw [List.map_map]
  rfl

/-- `usage::refresh` goes through exactly when the charges can be counted. -/
theorem countedTables_isSome_iff :
    (∃ usage, countedTables log seen = some usage) ↔ Countable log seen := by
  have hlog : (∃ row, UsageRow.write .deliveryLog log.rows.length
      (log.total fun row => row.chargedBytes) = some row) ↔
        (log.total fun row => row.chargedBytes) ≤ i64Max := by
    have hvalid : ∀ c ∈ log.rows.map fun e => e.2.chargedBytes, validCharge .deliveryLog c := by
      intro c hc
      obtain ⟨e, he, rfl⟩ := List.mem_map.mp hc
      have hcheck : e.2.check = true := log.checked e he
      simp only [DeliveryRow.check, Bool.and_eq_true, decide_eq_true_eq] at hcheck
      exact hcheck.1.1.2
    have hcharges := write_charges hvalid
    rw [List.length_map] at hcharges
    exact hcharges
  have hseen : ∀ h, (∃ row, UsageRow.write .webhookDedup (settled seen h).rows.length
      ((settled seen h).total fun row => row.chargedBytes) = some row) ↔
        (seen.total fun row => row.charge.bytes) ≤ i64Max := by
    intro h
    have hvalid : ∀ c ∈ (settled seen h).rows.map fun e => e.2.chargedBytes,
        validCharge .webhookDedup c := by
      intro c hc
      obtain ⟨e, he, rfl⟩ := List.mem_map.mp hc
      exact charge_valid_of_check ((settled seen h).checked e he)
    have hcharges := write_charges hvalid
    rw [List.length_map] at hcharges
    rw [← settled_total seen h]
    exact hcharges
  constructor
  · rintro ⟨usage, husage⟩
    unfold countedTables at husage
    split at husage
    · next h =>
      obtain ⟨db, hdb, -⟩ := Option.map_eq_some_iff.mp husage
      obtain ⟨logged, hlogged, hdb⟩ := Option.bind_eq_some_iff.mp hdb
      obtain ⟨counted, hcounted, -⟩ := Option.bind_eq_some_iff.mp hdb
      exact ⟨h, (hseen h).mp ⟨counted, hcounted⟩, hlog.mp ⟨logged, hlogged⟩⟩
    · cases husage
  · rintro ⟨h, hfits, hlogfits⟩
    obtain ⟨logged, hlogged⟩ := hlog.mpr hlogfits
    obtain ⟨counted, hcounted⟩ := (hseen h).mpr hfits
    refine ⟨⟨some logged, some counted⟩, ?_⟩
    rw [countedTables, dif_pos h]
    simp only [refresh, aggregate, hlogged, hcounted, Option.bind_eq_bind, Option.bind_some,
      Option.map_some]

theorem exact_counted {usage : StorageUsage} (hlog : file.deliveryLog = some log)
    (hseen : file.webhookDedup = some seen) (husage : file.storageUsage = some usage)
    (h : countedTables log seen = some usage) : ∃ db, file.database = some db ∧ Exact db := by
  unfold countedTables at h
  split at h
  · next hall =>
    obtain ⟨db, hdb, rfl⟩ := Option.map_eq_some_iff.mp h
    refine ⟨db, ?_, exact_refresh hdb⟩
    have htables : db.webhookDedup = settled seen hall ∧ db.deliveryLog = log := by
      obtain ⟨logged, -, hdb⟩ := Option.bind_eq_some_iff.mp hdb
      obtain ⟨counted, -, hdb⟩ := Option.bind_eq_some_iff.mp hdb
      cases hdb
      exact ⟨rfl, rfl⟩
    unfold File.database
    rw [husage, hlog, hseen]
    dsimp only
    rw [dif_pos hall, ← htables.1, ← htables.2]
  · cases h

/-! ## Every version -/

/-- The rows of `webhook_dedup` in rowid order; none before the table existed. -/
def File.dedupRows (file : File Client Token Grant) : List (Nat × StoredDedupRow) :=
  (file.webhookDedup.getD (.empty storedDedupSchema)).rows

/-- The file with the schema of version 8, these events and this dedup table. -/
def File.upgraded (file : File Client Token Grant) (events : BTreeMap Int AuditRow)
    (copied : Table storedDedupSchema) (usage : StorageUsage) : File Client Token Grant :=
  { file with
    version := schemaVersion
    grants := some (file.grants.getD [])
    auditEvents := some events
    deliveryLog := some (file.deliveryLog.getD (.empty deliverySchema))
    webhookDedup := some copied
    storageUsage := some usage
    indexes := indexesOf 8
    triggers := triggersOf 8 }

theorem versionFour_runs (hlog : file.deliveryLog = some log) (hseen : file.webhookDedup = none)
    (husage : file.storageUsage = none) (hindexes : file.indexes = indexesOf 4)
    (htriggers : file.triggers = triggersOf 4) :
    Op.runStatements migrateFromVersionFour file =
      (countedTables log (.empty storedDedupSchema)).map fun usage =>
        { file with
          webhookDedup := some (.empty storedDedupSchema)
          storageUsage := some usage
          indexes := indexesOf 8
          triggers := triggersOf 8 } := by
  have hrange : 4 ≤ 4 ∧ 4 ≤ 6 := by omega
  rw [migrateFromVersionFour, Op.runStatements_append,
    createWebhookDedupTable_runs hseen hindexes htriggers, Option.bind_some,
    initializeStorageAccounting_runs hrange (by exact husage) (by simp [hlog]) rfl rfl rfl,
    counted_eq (by exact hlog) rfl rfl]

variable {version : Nat}

theorem versionThree_runs (hlow : version ≤ 3) (hlog : file.deliveryLog = none)
    (hseen : file.webhookDedup = none) (husage : file.storageUsage = none)
    (hindexes : file.indexes = indexesOf version) (htriggers : file.triggers = triggersOf version) :
    Op.runStatements migrateFromVersionThree file =
      (countedTables (.empty deliverySchema) (.empty storedDedupSchema)).map fun usage =>
        { file with
          deliveryLog := some (.empty deliverySchema)
          webhookDedup := some (.empty storedDedupSchema)
          storageUsage := some usage
          indexes := indexesOf 8
          triggers := triggersOf 8 } := by
  have hnone : triggersOf version = triggersOf 4 := by
    interval_cases version <;> funext name <;>
      rcases name with ⟨_ | _⟩ | ⟨_ | _⟩ | ⟨_ | _⟩ | _ <;> rfl
  change Op.runStatements (createDeliveryLogTable ++ migrateFromVersionFour) file = _
  rw [Op.runStatements_append, createDeliveryLogTable_runs hlow hlog hindexes, Option.bind_some,
    versionFour_runs rfl (by exact hseen) (by exact husage) rfl (by exact htriggers.trans hnone)]

variable {events : BTreeMap Int AuditRow}

theorem versionTwo_runs (hlow : version ≤ 3) (hevents : file.auditEvents = some events)
    (hscratch : file.auditEventsPrevious = none) (hlog : file.deliveryLog = none)
    (hseen : file.webhookDedup = none) (husage : file.storageUsage = none)
    (hindexes : file.indexes = indexesOf version) (htriggers : file.triggers = triggersOf version) :
    ∃ kept, (∀ n : Int, kept[n]? = events[n]?) ∧
      Op.runStatements migrateFromVersionTwo file =
        (countedTables (.empty deliverySchema) (.empty storedDedupSchema)).map fun usage =>
          { file with
            auditEvents := some kept
            deliveryLog := some (.empty deliverySchema)
            webhookDedup := some (.empty storedDedupSchema)
            storageUsage := some usage
            indexes := indexesOf 8
            triggers := triggersOf 8 } := by
  obtain ⟨kept, hrebuilt, hkept⟩ := rebuildAuditTable_runs hevents hscratch hlow hindexes htriggers
  refine ⟨kept, hkept, ?_⟩
  change Op.runStatements (rebuildAuditTable ++ migrateFromVersionThree) file = _
  rw [Op.runStatements_append, hrebuilt, Option.bind_some,
    versionThree_runs hlow (by exact hlog) (by exact hseen) (by exact husage) (by exact hindexes)
      (by exact htriggers)]

theorem isSome_decide {α : Type} {o : Option α} {p : Prop} [Decidable p]
    (h : o.isSome = decide p) : (p → ∃ a, o = some a) ∧ (¬ p → o = none) := by
  refine ⟨fun hp => ?_, fun hp => ?_⟩
  · exact Option.isSome_iff_exists.mp (h.trans (decide_eq_true hp))
  · exact Option.not_isSome_iff_eq_none.mp (Bool.eq_false_iff.mp (h.trans (decide_eq_false hp)))

/-- What the statements of a version compute: the rows are copied in their order, and the file is
    upgraded with the counters of what was copied. -/
def Upgrades (file : File Client Token Grant) (events : BTreeMap Int AuditRow) : Prop :=
  ∃ statements kept, migrationFrom file.version = some statements ∧
    (∀ n : Int, kept[n]? = events[n]?) ∧
    Op.runStatements (statements ++ [setVersion]) file =
      ((Table.empty storedDedupSchema).insertAll file.dedupRows).bind fun copied =>
        (countedTables (file.deliveryLog.getD (.empty deliverySchema)) copied).map fun usage =>
          file.upgraded kept copied usage

variable {kept : BTreeMap Int AuditRow} {statements : List (Statement Client Token Grant)}

theorem upgrades_of_run (hfrom : migrationFrom file.version = some statements)
    (hkept : ∀ n : Int, kept[n]? = events[n]?) (hrun : Op.runStatements statements file =
      ((Table.empty storedDedupSchema).insertAll file.dedupRows).bind fun copied =>
        (countedTables (file.deliveryLog.getD (.empty deliverySchema)) copied).map fun usage =>
          { file.upgraded kept copied usage with version := file.version }) :
    Upgrades file events := by
  refine ⟨statements, kept, hfrom, hkept, ?_⟩
  rw [Op.runStatements_append, hrun]
  cases (Table.empty storedDedupSchema).insertAll file.dedupRows with
  | none => rfl
  | some copied =>
    rw [Option.bind_some, Option.bind_some]
    cases countedTables (file.deliveryLog.getD (.empty deliverySchema)) copied with
    | none => rfl
    | some usage => rfl

theorem upgrades_of_young (hfrom : migrationFrom file.version = some statements)
    (hkept : ∀ n : Int, kept[n]? = events[n]?) (hseen : file.webhookDedup = none)
    (hlog : file.deliveryLog.getD (.empty deliverySchema) = log)
    (hrun : Op.runStatements statements file = (countedTables log (.empty storedDedupSchema)).map fun usage =>
        { file.upgraded kept (.empty storedDedupSchema) usage with version := file.version }) :
    Upgrades file events := by
  refine upgrades_of_run hfrom hkept ?_
  have hcopied : (Table.empty storedDedupSchema).insertAll file.dedupRows =
      some (.empty storedDedupSchema) := by
    rw [File.dedupRows, hseen]
    rfl
  rw [hrun, hcopied, hlog]
  rfl

theorem young_upgrades (hl : Legacy version file) (hyoung : version ≤ 4)
    (hevents : file.auditEvents = some events) : Upgrades file events := by
  have hseen := (isSome_decide hl.webhookDedup).2 (by omega)
  have husage := (isSome_decide hl.storageUsage).2 (by omega)
  have hlog := isSome_decide hl.deliveryLog
  have hgrants := isSome_decide hl.grants
  have hversion := hl.version_eq
  have hindexes := hl.indexes
  have htriggers := hl.triggers
  have hprevious := hl.scratch.1
  have hlow := hl.supported.1
  clear hl
  interval_cases version
  · have hlog := hlog.2 (by omega)
    have hgrants := hgrants.2 (by omega)
    have hcreated : createGrants file = some { file with grants := some [] } := by
      rw [createGrants, if_neg (by simp [File.has, hgrants])]
    obtain ⟨kept, hkept, hrun⟩ := @versionTwo_runs _ _ _ { file with grants := some [] } 1 _
      (by omega) hevents hprevious hlog hseen husage hindexes htriggers
    have hfrom : migrationFrom file.version =
        some (createGrants :: migrateFromVersionTwo : List (Statement Client Token Grant)) := by
      rw [hversion]
      rfl
    refine upgrades_of_young hfrom hkept hseen (by rw [hlog, Option.getD_none]) ?_
    rw [Op.runStatements_cons, hcreated, Option.bind_some, hrun]
    simp only [File.upgraded, hgrants, hlog, Option.getD_none]
  · have hlog := hlog.2 (by omega)
    obtain ⟨grants, hgrants⟩ := hgrants.1 (by omega)
    obtain ⟨kept, hkept, hrun⟩ :=
      versionTwo_runs (by omega : 2 ≤ 3) hevents hprevious hlog hseen husage hindexes htriggers
    refine upgrades_of_young (by rw [hversion]; rfl) hkept hseen (by rw [hlog, Option.getD_none])
      (hrun.trans ?_)
    simp only [File.upgraded, hgrants, hlog, Option.getD_some, Option.getD_none]
  · have hlog := hlog.2 (by omega)
    obtain ⟨grants, hgrants⟩ := hgrants.1 (by omega)
    have hrun := versionThree_runs (by omega : 3 ≤ 3) hlog hseen husage hindexes htriggers
    refine upgrades_of_young (by rw [hversion]; rfl) (fun _ => rfl) hseen
      (by rw [hlog, Option.getD_none]) (hrun.trans ?_)
    simp only [File.upgraded, hgrants, hlog, hevents, Option.getD_some, Option.getD_none]
  · obtain ⟨log, hlog⟩ := hlog.1 (by omega)
    obtain ⟨grants, hgrants⟩ := hgrants.1 (by omega)
    have hrun := versionFour_runs hlog hseen husage hindexes htriggers
    refine upgrades_of_young (by rw [hversion]; rfl) (fun _ => rfl) hseen
      (by rw [hlog, Option.getD_some]) (hrun.trans ?_)
    simp only [File.upgraded, hgrants, hlog, hevents, Option.getD_some]

theorem rebuilt_upgrades (hl : Legacy version file) (hold : 5 ≤ version)
    (hevents : file.auditEvents = some events) : Upgrades file events := by
  obtain ⟨seen, hseen⟩ := (isSome_decide hl.webhookDedup).1 hold
  obtain ⟨log, hlog⟩ := (isSome_decide hl.deliveryLog).1 (by omega)
  obtain ⟨grants, hgrants⟩ := (isSome_decide hl.grants).1 (by omega)
  have hrows : file.dedupRows = seen.rows := by
    rw [File.dedupRows, hseen]
    rfl
  have hrebuilt := rebuildWebhookDedupTable_runs ⟨hold, hl.supported.2⟩ hseen hl.scratch.2
    hl.indexes hl.triggers
  have hsix : version = 7 ∨ version ≤ 6 := by
    have := hl.supported.2
    omega
  rcases hsix with rfl | hsix
  · obtain ⟨usage, husage⟩ := (isSome_decide hl.storageUsage).1 (by omega)
    refine upgrades_of_run (by rw [hl.version_eq]; rfl) (fun _ => rfl) ?_
    rw [migrateFromVersionSeven, Op.runStatements_append, hrebuilt, hrows]
    cases (Table.empty storedDedupSchema).insertAll seen.rows with
    | none => rfl
    | some copied =>
      rw [Option.map_some, Option.bind_some, Option.bind_some, recount_runs rfl rfl rfl,
        counted_eq (by exact hlog) rfl (by simp [husage]), hlog]
      simp only [File.upgraded, hgrants, hlog, hevents, Option.getD_some]
  · have husage := (isSome_decide hl.storageUsage).2 (by omega)
    have hmax : max version 6 = 6 := by omega
    have hfrom : migrationFrom file.version =
        some (migrateLegacyDedup : List (Statement Client Token Grant)) := by
      rw [hl.version_eq]
      interval_cases version <;> rfl
    refine upgrades_of_run hfrom (fun _ => rfl) ?_
    rw [migrateLegacyDedup, Op.runStatements_append, hrebuilt, hrows]
    cases (Table.empty storedDedupSchema).insertAll seen.rows with
    | none => rfl
    | some copied =>
      rw [Option.map_some, Option.bind_some, Option.bind_some,
        initializeStorageAccounting_runs ⟨by omega, hsix⟩ (by exact husage) (by simp [hlog]) rfl
          (by rw [hmax]) rfl, counted_eq (by exact hlog) rfl rfl, hlog]
      simp only [File.upgraded, hgrants, hlog, hevents, Option.getD_some]

/-! ## Migration preserves data -/

/-- Every row of the old file is in the new one, under the same number where it had one of its own,
    and no other row is. -/
structure Preserved (file file' : File Client Token Grant) : Prop where
  clients : file'.clients = file.clients
  tokens : file'.tokens = file.tokens
  grants : file'.grants = some (file.grants.getD [])
  auditEvents : ∃ events, file'.auditEvents = some events ∧
    ∀ n : Int, events[n]? = (file.auditEvents.getD ∅)[n]?
  deliveryLog : file'.deliveryLog = some (file.deliveryLog.getD (.empty deliverySchema))
  webhookDedup : ∃ seen, file'.webhookDedup = some seen ∧
    seen.rows.map Prod.snd = file.dedupRows.map Prod.snd ∧
    (seen.rows.map Prod.fst).Pairwise (· < ·)
  scratch : file'.auditEventsPrevious = none ∧ file'.webhookDedupNext = none

/-- A complete file of the current version. -/
structure Current (file : File Client Token Grant) : Prop where
  version : file.version = schemaVersion
  indexes : file.indexes = indexesOf 8
  /-- Both `storage_usage` rows equal the count and the sum of their table. -/
  counters : ∃ db, file.database = some db ∧ Exact db
  usageTriggers : ∀ table : CountedTable,
    file.triggers (.usageInsert table) = some table.tableName ∧
      file.triggers (.usageDelete table) = some table.tableName ∧
      file.triggers (.usageUpdate table) = some table.tableName
  sequenceTrigger : file.triggers .webhookDedupSequenceImmutable = some .webhookDedup

/-- The counted tables of a file; a table that does not exist has no rows. -/
def File.Countable (file : File Client Token Grant) : Prop :=
  Store.Countable (file.deliveryLog.getD (.empty deliverySchema))
    (file.webhookDedup.getD (.empty storedDedupSchema))

theorem legacy_upgrades (hl : Legacy version file) (hevents : file.auditEvents = some events) :
    Upgrades file events := by
  rcases Nat.lt_or_ge version 5 with hyoung | hold
  · exact young_upgrades hl (by omega) hevents
  · exact rebuilt_upgrades hl hold hevents

theorem countable_of_rows {copied : Table storedDedupSchema}
    (h : copied.rows.map Prod.snd = seen.rows.map Prod.snd) (hc : Countable log seen) :
    Countable log copied := by
  refine ⟨fun e he => ?_, ?_, hc.log_fits⟩
  · have hmem : e.2 ∈ seen.rows.map Prod.snd := h ▸ List.mem_map_of_mem he
    obtain ⟨e', he', heq⟩ := List.mem_map.mp hmem
    rw [← heq]
    exact hc.integers e' he'
  · have htotal : ∀ t : Table storedDedupSchema, (t.total fun row => row.charge.bytes) =
        ((t.rows.map Prod.snd).map fun row => row.charge.bytes).sum := by
      intro t
      rw [List.map_map]
      rfl
    rw [htotal copied, h, ← htotal seen]
    exact hc.seen_fits

theorem copies_of_countable (hc : Countable log seen) :
    ∃ copied, (Table.empty storedDedupSchema).insertAll seen.rows = some copied := by
  have hlength : (seen.rows.length : Int) ≤ i64Max := by
    have hvalid : ∀ c ∈ (settled seen hc.integers).rows.map fun e => e.2.chargedBytes,
        validCharge .webhookDedup c := by
      intro c hcharge
      obtain ⟨e, he, rfl⟩ := List.mem_map.mp hcharge
      exact charge_valid_of_check ((settled seen hc.integers).checked e he)
    have hle := length_le_total hvalid
    have hsum := settled_total seen hc.integers
    unfold Table.total at hsum
    rw [hsum, List.length_map] at hle
    have hrows : (settled seen hc.integers).rows.length = seen.rows.length := List.length_map _
    rw [hrows] at hle
    exact hle.trans hc.seen_fits
  refine Option.isSome_iff_exists.mp (Table.insertAll_isSome seen.checked seen.unique
    (fun _ _ => Table.find_empty _) ?_)
  have hlast : (Table.empty storedDedupSchema).last = 0 := rfl
  unfold i64Max at hlength
  unfold maxRowid
  omega

theorem upgraded_preserves {copied : Table storedDedupSchema} {usage : StorageUsage}
    (hscratch : file.auditEventsPrevious = none ∧ file.webhookDedupNext = none)
    (hevents : file.auditEvents = some events) (hkept : ∀ n : Int, kept[n]? = events[n]?)
    (hcopied : (Table.empty storedDedupSchema).insertAll file.dedupRows = some copied)
    (husage : countedTables (file.deliveryLog.getD (.empty deliverySchema)) copied = some usage) :
    Preserved file (file.upgraded kept copied usage) ∧ Current (file.upgraded kept copied usage) := by
  constructor
  · refine ⟨rfl, rfl, rfl, ⟨kept, rfl, fun n => ?_⟩, rfl, ⟨copied, rfl, ?_, copied.ascending⟩, hscratch⟩
    · rw [hevents]
      exact hkept n
    · exact Table.insertAll_eq_some hcopied
  · refine ⟨rfl, rfl, exact_counted rfl rfl rfl husage, fun table => ?_, rfl⟩
    cases table <;> exact ⟨rfl, rfl, rfl⟩

theorem migrated_preserves {file' : File Client Token Grant} (hl : Legacy version file)
    (hfrom : migrationFrom file.version = some statements)
    (hrun : Op.runStatements (statements ++ [setVersion]) file = some file') :
    Preserved file file' ∧ Current file' ∧ file.Countable := by
  obtain ⟨events, hevents⟩ := Option.isSome_iff_exists.mp hl.auditEvents
  obtain ⟨statements', kept, hfrom', hkept, hruns⟩ := legacy_upgrades hl hevents
  obtain rfl : statements = statements' := Option.some.inj (hfrom.symm.trans hfrom')
  rw [hrun] at hruns
  obtain ⟨copied, hcopied, hcounted⟩ := Option.bind_eq_some_iff.mp hruns.symm
  obtain ⟨usage, husage, rfl⟩ := Option.map_eq_some_iff.mp hcounted
  have hresult := upgraded_preserves hl.scratch hevents hkept hcopied husage
  refine ⟨hresult.1, hresult.2, ?_⟩
  exact countable_of_rows (Table.insertAll_eq_some hcopied).symm
    (countedTables_isSome_iff.mp ⟨usage, husage⟩)

/-- Several connections migrate one file: each with the version its first read saw, and with the
    calls of its own that fail.  The write lock puts their transactions one after another. -/
def migrateAll (attempts : List (Int × List Bool)) (file : File Client Token Grant) :
    File Client Token Grant :=
  attempts.foldl (fun file attempt => ((migrate attempt.1).run attempt.2 file).2) file

theorem migrateAll_current (attempts : List (Int × List Bool)) (h : file.version = schemaVersion) :
    migrateAll attempts file = file := by
  unfold migrateAll
  induction attempts with
  | nil => rfl
  | cons attempt rest ih =>
    have hsame : ((migrate attempt.1).run attempt.2 file).2 = file := by
      generalize hrun : (migrate attempt.1).run attempt.2 file = outcome
      obtain ⟨answer, file'⟩ := outcome
      cases migrate_run hrun with
      | failed => rfl
      | current _ => rfl
      | unsupported _ => rfl
      | migrated _ hversion => exact absurd h hversion
    rw [List.foldl_cons, hsame]
    exact ih

theorem migrate_legacy (hl : Legacy version file) :
    (file.Countable → ∃ file', (migrate file.version).run [] file = (.ok (), file')) ∧
      (¬ file.Countable → (migrate file.version).run [] file = (.error .database, file)) := by
  obtain ⟨events, hevents⟩ := Option.isSome_iff_exists.mp hl.auditEvents
  obtain ⟨statements, kept, hfrom, hkept, hruns⟩ := legacy_upgrades hl hevents
  have hversion : file.version ≠ schemaVersion := by
    have hrange := hl.supported
    have heq := hl.version_eq
    unfold schemaVersion
    omega
  have heval := migrate_eval hversion hfrom
  constructor
  · intro hc
    obtain ⟨copied, hcopied⟩ := copies_of_countable hc
    obtain ⟨usage, husage⟩ := countedTables_isSome_iff.mpr
      (countable_of_rows (Table.insertAll_eq_some hcopied) hc)
    have hcopied : (Table.empty storedDedupSchema).insertAll file.dedupRows = some copied := hcopied
    rw [hruns, hcopied, Option.bind_some, husage, Option.map_some] at heval
    exact ⟨_, heval⟩
  · intro hc
    cases hrun : Op.runStatements (statements ++ [setVersion]) file with
    | none =>
      rw [hrun] at heval
      exact heval
    | some file' => exact absurd (migrated_preserves hl hfrom hrun).2.2 hc

/-- **Migration preserves data.**  A file of version 1 to 7 whose charges can be counted becomes a
    complete file of version 8 with exactly the rows it had; one whose charges cannot be counted is
    refused.  Whatever calls fail, a file is either upgraded like that or left as it was; so is a file
    of an unsupported version, and one that another connection has migrated in the meantime. -/
theorem migration_preserves_data (file : File Client Token Grant) : (∀ version, Legacy version file →
      (file.Countable → ∃ file', (migrate file.version).run [] file = (.ok (), file') ∧
        Preserved file file' ∧ Current file') ∧
      (¬ file.Countable → (migrate file.version).run [] file = (.error .database, file)) ∧
      ∀ faults file', (migrate file.version).run faults file = (.ok (), file') →
        Preserved file file' ∧ Current file') ∧
    (∀ earlier faults e file', (migrate earlier).run faults file = (.error e, file') → file' = file) ∧
    (file.version < 0 ∨ schemaVersion < file.version →
      (migrate file.version).run [] file = (.error (.unsupportedSchema file.version), file)) ∧
    ∀ faults file' attempts, (migrate file.version).run faults file = (.ok (), file') →
      migrateAll attempts file' = file' := by
  refine ⟨fun version hl => ?_, ?_, ?_, ?_⟩
  · have hany : ∀ faults file', (migrate file.version).run faults file = (.ok (), file') →
        Preserved file file' ∧ Current file' := by
      intro faults file' hrun
      have hrange := hl.supported
      have hversion := hl.version_eq
      cases migrate_run hrun with
      | current h =>
        unfold schemaVersion at h
        omega
      | migrated _ _ hfrom hrun =>
        have hresult := migrated_preserves hl hfrom hrun
        exact ⟨hresult.1, hresult.2.1⟩
    refine ⟨fun hc => ?_, (migrate_legacy hl).2, hany⟩
    obtain ⟨file', hrun⟩ := (migrate_legacy hl).1 hc
    exact ⟨file', hrun, hany [] file' hrun⟩
  · intro earlier faults e file' hrun
    cases migrate_run hrun with
    | failed => rfl
    | unsupported _ => rfl
  · intro hversion
    have hne : file.version ≠ schemaVersion := by
      unfold schemaVersion at hversion ⊢
      omega
    have hnone : (migrationFrom file.version : Option (List (Statement Client Token Grant))) = none := by
      unfold schemaVersion at hversion
      unfold migrationFrom
      split <;> first | omega | rfl
    unfold Op.run migrate
    simp only [Op.bind_apply, Op.enter_apply, Op.query_apply, if_neg hne, hnone, Op.fail_apply]
  · intro faults file' attempts hrun
    apply migrateAll_current
    cases migrate_run hrun with
    | current h =>
      rcases h with h | h
      · exact h
      · exact h
    | migrated _ _ hfrom hrun =>
      rw [Op.runStatements_append] at hrun
      obtain ⟨upgraded, -, hset⟩ := Option.bind_eq_some_iff.mp hrun
      cases hset
      rfl

/-! ## A file of version 6 -/

def legacyKey (hash : UInt8) : DedupKey :=
  { sampleKey with deliveryHash := ⟨List.replicate 32 hash, by simp⟩ }

/-- A claim as version 6 stored it. -/
def legacyRow (hash : UInt8) (charge : Charge) : StoredDedupRow :=
  ⟨legacyKey hash, .inFlight, true, 1000, none, charge⟩

def legacyFile (seen : Table storedDedupSchema) : File Unit Unit Unit where
  version := 6
  clients := some []
  tokens := some []
  grants := some []
  auditEvents := some ∅
  auditEventsPrevious := none
  deliveryLog := some (.empty deliverySchema)
  webhookDedup := some seen
  webhookDedupNext := none
  storageUsage := none
  indexes := indexesOf 6
  triggers := triggersOf 6

theorem legacyFile_legacy (seen : Table storedDedupSchema) : Legacy 6 (legacyFile seen) :=
  ⟨⟨by decide, by decide⟩, rfl, rfl, rfl, rfl, rfl, rfl, rfl, rfl, ⟨rfl, rfl⟩, rfl, rfl⟩

def twoClaims (first second : Charge) (hfirst : (legacyRow 1 first).check = true)
    (hsecond : (legacyRow 2 second).check = true) : Table storedDedupSchema where
  rows := [(3, legacyRow 1 first), (7, legacyRow 2 second)]
  last := 7
  checked := by
    intro e he
    rcases List.mem_cons.mp he with rfl | he
    · exact hfirst
    · rw [List.mem_singleton.mp he]
      exact hsecond
  unique := by
    change [legacyKey 1, legacyKey 2].Nodup
    decide
  ascending := by
    change [3, 7].Pairwise (· < ·)
    decide
  bounded := by
    intro e he
    rcases List.mem_cons.mp he with rfl | he
    · change 3 ≤ 7
      omega
    · rw [List.mem_singleton.mp he]

/-- Two claims of 112 bytes are migrated, and counted. -/
theorem migration_preserves_two_claims : ∃ file', (migrate 6).run []
        (legacyFile (twoClaims (.integer 112) (.integer 112) (by decide) (by decide))) = (.ok (), file') ∧
      Preserved (legacyFile (twoClaims (.integer 112) (.integer 112) (by decide) (by decide))) file' ∧
      Current file' :=
  ((migration_preserves_data _).1 6 (legacyFile_legacy _)).1
    ⟨by decide, by decide, by decide⟩

/-- The constraints of version 6 accept two claims whose charges do not fit an `i64` together, and a
    charge that is no integer; the migration refuses both files. -/
theorem migration_refuses_uncountable :
    (migrate 6).run [] (legacyFile (twoClaims (.integer (2 ^ 62)) (.integer (2 ^ 62)) (by decide)
        (by decide))) =
      (.error .database, legacyFile (twoClaims (.integer (2 ^ 62)) (.integer (2 ^ 62)) (by decide)
        (by decide))) ∧
    (migrate 6).run [] (legacyFile (twoClaims (.real (221 / 2)) (.integer 112) (by decide +kernel)
        (by decide))) =
      (.error .database, legacyFile (twoClaims (.real (221 / 2)) (.integer 112) (by decide +kernel)
        (by decide))) := by
  refine ⟨(migrate_legacy (legacyFile_legacy _)).2 fun hc => ?_,
    (migrate_legacy (legacyFile_legacy _)).2 fun hc => ?_⟩
  · exact absurd hc.seen_fits (by decide)
  · exact absurd (hc.integers (3, legacyRow 1 (.real (221 / 2))) List.mem_cons_self) (by decide)

end Bondry.Store

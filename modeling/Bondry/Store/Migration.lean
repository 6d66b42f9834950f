/-
  MIGRATION (`bondry-store-sqlcipher`: `database.rs`, `usage.rs`).

  A database FILE has a version, tables that may or may not be there, and a catalog: the table each
  index and each trigger is on.  A migration is a list of STATEMENTS in one transaction.  What makes
  it delicate is what SQLite does to the catalog by itself: `DROP TABLE` takes the indexes and the
  triggers of the table along, `ALTER TABLE … RENAME` carries them over, and `CREATE` fails on a name
  that is taken.  The seven starting versions share their blocks in different combinations, so each
  block has one lemma about the catalog it starts from and the one it leaves:

    versions 1, 2, 3   ── create_delivery_log_table ──▸  4
    version 4          ── create_webhook_dedup_table ─▸  6, and the immutability trigger
    versions 5, 6, 7   ── rebuild_webhook_dedup_table ▸  the same, without the dropped usage triggers
    then               ── usage::initialize, or refresh and create_triggers ──▸  8

  Rows of clients, tokens and grants are never touched, so they stay abstract.  The charge of a dedup
  row is what a column of INTEGER affinity can really hold: `CHECK (charged_bytes >= 96)` accepts
  110.5, and `usage::refresh` is where the migration notices.
-/
import Bondry.Store.Usage
import Bondry.Lib.BTreeMap

namespace Bondry.Store

open Sql

/-! ## Rows before the counters -/

/-- The value of a column of INTEGER affinity. -/
inductive Charge where
  | integer (n : Int)
  | real (q : ℚ)
  | text (s : String)
  | blob (bytes : List UInt8)
  deriving DecidableEq

/-- `charged_bytes >= 96`; a TEXT and a BLOB come after every number. -/
def Charge.sufficient : Charge → Bool
  | .integer n => decide (96 ≤ n)
  | .real q => decide (96 ≤ q)
  | .text _ => true
  | .blob _ => true

/-- `typeof(charged_bytes) = 'integer'`. -/
def Charge.isInteger : Charge → Bool
  | .integer _ => true
  | _ => false

/-- What an integer charge adds to `SUM(charged_bytes)`. -/
def Charge.bytes : Charge → Int
  | .integer n => n
  | _ => 0

/-- A row of `webhook_dedup` as any version stores it. -/
structure StoredDedupRow where
  key : DedupKey
  state : DedupState
  automaticExpiry : Bool
  updatedAtMs : Int
  expiresAtMs : Option Int
  charge : Charge
  deriving DecidableEq

def StoredDedupRow.withCharge (row : StoredDedupRow) (n : Int) : DedupRow :=
  ⟨row.key, row.state, row.automaticExpiry, row.updatedAtMs, row.expiresAtMs, n⟩

/-- The CHECK constraints, the same in every version: those of the other columns, and the charge. -/
def StoredDedupRow.check (row : StoredDedupRow) : Bool :=
  (row.withCharge 96).check && row.charge.sufficient

def storedDedupSchema : Schema StoredDedupRow DedupKey where
  key := StoredDedupRow.key
  check := StoredDedupRow.check

theorem StoredDedupRow.check_iff {row : StoredDedupRow} {n : Int} :
    (row.withCharge n).check = true ↔ (row.withCharge 96).check = true ∧ 96 ≤ n := by
  have hcharge : decide (96 ≤ n) = true ↔ 96 ≤ n := decide_eq_true_iff
  simp only [DedupRow.check, StoredDedupRow.withCharge, Bool.and_eq_true]
  tauto

/-- The `outcome_kind` column of `audit_events`. -/
inductive AuditKind where
  | capabilityNotFound
  | denied
  | started
  | invalidInput
  | succeeded
  | handlerFailed
  deriving DecidableEq, Repr

/-- The kinds that come with a `detail_code`. -/
def AuditKind.hasDetail : AuditKind → Bool
  | .denied | .handlerFailed => true
  | _ => false

/-- A row of `audit_events`, without its sequence number. -/
structure AuditRow where
  occurredAtMs : Int
  invocationId : String
  principalId : String
  adapterId : String
  capabilityId : String
  outcomeKind : AuditKind
  detailCode : Option String
  /-- The table's CHECK constraint. -/
  detailed : detailCode.isSome = outcomeKind.hasDetail
  deriving DecidableEq

/-! ## Files -/

inductive TableName where
  | clients
  | tokens
  | auditEvents
  | auditEventsPrevious
  | grants
  | deliveryLog
  | webhookDedup
  | webhookDedupNext
  | storageUsage
  deriving DecidableEq, Repr

inductive IndexName where
  | tokensByClient
  | auditByPrincipal
  | auditByInvocation
  | deliveryLogByState
  | deliveryLogByRoute
  | deliveryLogTerminalExpiry
  | webhookDedupByState
  | webhookDedupByExpiry
  | webhookDedupByStateKey
  deriving DecidableEq, Repr

inductive TriggerName where
  | usageInsert (table : CountedTable)
  | usageDelete (table : CountedTable)
  | usageUpdate (table : CountedTable)
  | webhookDedupSequenceImmutable
  deriving DecidableEq, Repr

def CountedTable.tableName : CountedTable → TableName
  | .deliveryLog => .deliveryLog
  | .webhookDedup => .webhookDedup

/-- A database file: `none` is a table that does not exist. -/
structure File (Client Token Grant : Type) where
  /-- `PRAGMA user_version`. -/
  version : Int
  clients : Option (List Client)
  tokens : Option (List Token)
  grants : Option (List Grant)
  /-- The events by their sequence number. -/
  auditEvents : Option (BTreeMap Int AuditRow)
  auditEventsPrevious : Option (BTreeMap Int AuditRow)
  deliveryLog : Option (Table deliverySchema)
  webhookDedup : Option (Table storedDedupSchema)
  webhookDedupNext : Option (Table storedDedupSchema)
  storageUsage : Option StorageUsage
  indexes : Objects IndexName TableName
  triggers : Objects TriggerName TableName

variable {Client Token Grant : Type}

def File.has (file : File Client Token Grant) : TableName → Bool
  | .clients => file.clients.isSome
  | .tokens => file.tokens.isSome
  | .auditEvents => file.auditEvents.isSome
  | .auditEventsPrevious => file.auditEventsPrevious.isSome
  | .grants => file.grants.isSome
  | .deliveryLog => file.deliveryLog.isSome
  | .webhookDedup => file.webhookDedup.isSome
  | .webhookDedupNext => file.webhookDedupNext.isSome
  | .storageUsage => file.storageUsage.isSome

def settled (seen : Table storedDedupSchema) (h : ∀ e ∈ seen.rows, e.2.charge.isInteger = true) :
    Table dedupSchema where
  rows := seen.rows.map fun e => (e.1, e.2.withCharge e.2.charge.bytes)
  last := seen.last
  checked := by
    intro e he
    obtain ⟨⟨n, row⟩, hrow, rfl⟩ := List.mem_map.mp he
    have hinteger := h _ hrow
    have hcheck : (row.withCharge 96).check = true ∧ row.charge.sufficient = true :=
      Bool.and_eq_true_iff.mp (seen.checked _ hrow)
    refine StoredDedupRow.check_iff.mpr ⟨hcheck.1, ?_⟩
    have hsufficient := hcheck.2
    cases hcharge : row.charge with
    | integer n =>
      rw [hcharge] at hsufficient
      exact of_decide_eq_true hsufficient
    | real q => rw [hcharge] at hinteger; cases hinteger
    | text s => rw [hcharge] at hinteger; cases hinteger
    | blob b => rw [hcharge] at hinteger; cases hinteger
  unique := by
    rw [List.map_map]
    exact seen.unique
  ascending := by
    rw [List.map_map]
    exact seen.ascending
  bounded := by
    intro e he
    obtain ⟨e', he', rfl⟩ := List.mem_map.mp he
    exact seen.bounded e' he'

/-- The tables the stores work on, once every charge is an integer. -/
def File.database (file : File Client Token Grant) : Option Database :=
  match file.storageUsage, file.deliveryLog, file.webhookDedup with
  | some usage, some log, some seen =>
    if h : ∀ e ∈ seen.rows, e.2.charge.isInteger = true then some ⟨settled seen h, log, usage⟩
    else none
  | _, _, _ => none

/-! ## Statements -/

/-- One statement of a migration; `none` is its failure. -/
abbrev Statement (Client Token Grant : Type) : Type :=
  File Client Token Grant → Option (File Client Token Grant)

/-- `CREATE INDEX name ON table`. -/
def createIndex (name : IndexName) (table : TableName) : Statement Client Token Grant :=
  Op.createOn File.indexes (fun indexes file => { file with indexes := indexes })
    (fun file => file.has table) table name

/-- `CREATE TRIGGER name … ON table`. -/
def createTrigger (name : TriggerName) (table : TableName) : Statement Client Token Grant :=
  Op.createOn File.triggers (fun triggers file => { file with triggers := triggers })
    (fun file => file.has table) table name

def createClients : Statement Client Token Grant := fun file =>
  if file.has .clients then none else some { file with clients := some [] }

def createTokens : Statement Client Token Grant := fun file =>
  if file.has .tokens then none else some { file with tokens := some [] }

def createGrants : Statement Client Token Grant := fun file =>
  if file.has .grants then none else some { file with grants := some [] }

def createAuditEvents : Statement Client Token Grant := fun file =>
  if file.has .auditEvents then none else some { file with auditEvents := some ∅ }

/-- `ALTER TABLE audit_events RENAME TO audit_events_previous`. -/
def renameAuditEvents : Statement Client Token Grant := fun file =>
  if file.has .auditEvents ∧ ¬ file.has .auditEventsPrevious then
    some { file with
      auditEvents := none
      auditEventsPrevious := file.auditEvents
      indexes := file.indexes.renameTable .auditEvents .auditEventsPrevious
      triggers := file.triggers.renameTable .auditEvents .auditEventsPrevious }
  else none

/-- Inserts events under the sequence numbers they come with. -/
def insertEvents (events : BTreeMap Int AuditRow) (rows : List (Int × AuditRow)) :
    Option (BTreeMap Int AuditRow) :=
  rows.foldlM (fun events row =>
    if (events[row.1]?).isSome then none else some (events.insert row.1 row.2)) events

/-- `INSERT INTO audit_events … SELECT … FROM audit_events_previous`. -/
def copyAuditEvents : Statement Client Token Grant := fun file => do
  let previous ← file.auditEventsPrevious
  let events ← file.auditEvents
  let filled ← insertEvents events previous.toList
  some { file with auditEvents := some filled }

/-- `DROP TABLE audit_events_previous`. -/
def dropAuditEventsPrevious : Statement Client Token Grant := fun file =>
  if file.has .auditEventsPrevious then
    some { file with
      auditEventsPrevious := none
      indexes := file.indexes.dropTable .auditEventsPrevious
      triggers := file.triggers.dropTable .auditEventsPrevious }
  else none

def createDeliveryLog : Statement Client Token Grant := fun file =>
  if file.has .deliveryLog then none
  else some { file with deliveryLog := some (.empty deliverySchema) }

/-- `create_webhook_dedup_rows` for `webhook_dedup`. -/
def createWebhookDedupRows : Statement Client Token Grant := fun file =>
  if file.has .webhookDedup then none
  else some { file with webhookDedup := some (.empty storedDedupSchema) }

/-- `create_webhook_dedup_rows` for `webhook_dedup_next`. -/
def createWebhookDedupNextRows : Statement Client Token Grant := fun file =>
  if file.has .webhookDedupNext then none
  else some { file with webhookDedupNext := some (.empty storedDedupSchema) }

/-- `INSERT INTO webhook_dedup_next … SELECT … FROM webhook_dedup ORDER BY rowid`: the new table has
    no triggers yet, so nothing counts the copies. -/
def copyWebhookDedup : Statement Client Token Grant := fun file => do
  let seen ← file.webhookDedup
  let next ← file.webhookDedupNext
  let filled ← next.insertAll seen.rows
  some { file with webhookDedupNext := some filled }

/-- `DROP TABLE webhook_dedup`: its delete trigger does not fire, it goes. -/
def dropWebhookDedup : Statement Client Token Grant := fun file =>
  if file.has .webhookDedup then
    some { file with
      webhookDedup := none
      indexes := file.indexes.dropTable .webhookDedup
      triggers := file.triggers.dropTable .webhookDedup }
  else none

/-- `ALTER TABLE webhook_dedup_next RENAME TO webhook_dedup`. -/
def renameWebhookDedupNext : Statement Client Token Grant := fun file =>
  if file.has .webhookDedupNext ∧ ¬ file.has .webhookDedup then
    some { file with
      webhookDedupNext := none
      webhookDedup := file.webhookDedupNext
      indexes := file.indexes.renameTable .webhookDedupNext .webhookDedup
      triggers := file.triggers.renameTable .webhookDedupNext .webhookDedup }
  else none

def createStorageUsage : Statement Client Token Grant := fun file =>
  if file.has .storageUsage then none else some { file with storageUsage := some ⟨none, none⟩ }

/-- The rows `usage::refresh` writes.  A charge that is no integer makes the sum `NULL`, and a sum
    that does not fit an `i64` is an error; `storage_usage` accepts neither. -/
def File.counted (file : File Client Token Grant) : Option StorageUsage := do
  let db ← file.database
  let refreshed ← refresh db
  some refreshed.usage

/-- `usage::refresh`. -/
def refreshUsage : Statement Client Token Grant := fun file =>
  file.counted.map fun usage => { file with storageUsage := some usage }

def createTriggers (table : CountedTable) : List (Statement Client Token Grant) :=
  [createTrigger (.usageInsert table) table.tableName,
   createTrigger (.usageDelete table) table.tableName,
   createTrigger (.usageUpdate table) table.tableName]

/-- `PRAGMA user_version = 8`. -/
def schemaVersion : Int := 8

def setVersion : Statement Client Token Grant := fun file =>
  some { file with version := schemaVersion }

/-! ## The migrations -/

/-- `usage::initialize`. -/
def initializeUsage : List (Statement Client Token Grant) :=
  [createStorageUsage, refreshUsage] ++ createTriggers .deliveryLog ++ createTriggers .webhookDedup

def initializeStorageAccounting : List (Statement Client Token Grant) :=
  initializeUsage ++ [createIndex .deliveryLogTerminalExpiry .deliveryLog]

def createDeliveryLogTable : List (Statement Client Token Grant) :=
  [createDeliveryLog,
   createIndex .deliveryLogByState .deliveryLog,
   createIndex .deliveryLogByRoute .deliveryLog]

def finishWebhookDedupSchema : List (Statement Client Token Grant) :=
  [createIndex .webhookDedupByState .webhookDedup,
   createIndex .webhookDedupByExpiry .webhookDedup,
   createIndex .webhookDedupByStateKey .webhookDedup,
   createTrigger .webhookDedupSequenceImmutable .webhookDedup]

def createWebhookDedupTable : List (Statement Client Token Grant) :=
  [createWebhookDedupRows] ++ finishWebhookDedupSchema

def rebuildWebhookDedupTable : List (Statement Client Token Grant) :=
  [createWebhookDedupNextRows, copyWebhookDedup, dropWebhookDedup, renameWebhookDedupNext] ++
    finishWebhookDedupSchema

def rebuildAuditTable : List (Statement Client Token Grant) :=
  [renameAuditEvents, createAuditEvents, copyAuditEvents, dropAuditEventsPrevious,
   createIndex .auditByPrincipal .auditEvents,
   createIndex .auditByInvocation .auditEvents]

def migrateFromEmpty : List (Statement Client Token Grant) :=
  [createClients, createTokens, createIndex .tokensByClient .tokens, createAuditEvents,
   createIndex .auditByPrincipal .auditEvents, createIndex .auditByInvocation .auditEvents,
   createGrants] ++
    (createDeliveryLogTable ++ (createWebhookDedupTable ++ initializeStorageAccounting))

def migrateFromVersionFour : List (Statement Client Token Grant) :=
  createWebhookDedupTable ++ initializeStorageAccounting

def migrateFromVersionThree : List (Statement Client Token Grant) :=
  createDeliveryLogTable ++ (createWebhookDedupTable ++ initializeStorageAccounting)

def migrateFromVersionTwo : List (Statement Client Token Grant) :=
  rebuildAuditTable ++
    (createDeliveryLogTable ++ (createWebhookDedupTable ++ initializeStorageAccounting))

def migrateFromVersionOne : List (Statement Client Token Grant) :=
  [createGrants] ++ (rebuildAuditTable ++
    (createDeliveryLogTable ++ (createWebhookDedupTable ++ initializeStorageAccounting)))

def migrateLegacyDedup : List (Statement Client Token Grant) :=
  rebuildWebhookDedupTable ++ initializeStorageAccounting

def migrateFromVersionSeven : List (Statement Client Token Grant) :=
  rebuildWebhookDedupTable ++ ([refreshUsage] ++ createTriggers .webhookDedup)

def migrationFrom : Int → Option (List (Statement Client Token Grant))
  | 7 => some migrateFromVersionSeven
  | 5 => some migrateLegacyDedup
  | 6 => some migrateLegacyDedup
  | 4 => some migrateFromVersionFour
  | 3 => some migrateFromVersionThree
  | 2 => some migrateFromVersionTwo
  | 1 => some migrateFromVersionOne
  | 0 => some migrateFromEmpty
  | _ => none

inductive SqlCipherStoreError where
  | fileSystem
  | database
  | unsupportedSchema (version : Int)
  | invalidKey
  | invalidData
  | unavailable
  deriving DecidableEq, Repr

/-- `migrate` of a connection whose first, unlocked read saw the version `earlier`: another
    connection may have migrated the file before this one holds the write lock. -/
def migrate (earlier : Int) : Op SqlCipherStoreError (File Client Token Grant) Unit := do
  Op.enter .database
  if earlier = schemaVersion then pure ()
  else do
    Op.enter .database
    let version ← Op.query .database fun file => some file.version
    if version = schemaVersion then pure ()
    else match (migrationFrom version : Option (List (Statement Client Token Grant))) with
      | none => Op.fail (.unsupportedSchema version)
      | some statements => do
          Op.batch .database (statements ++ [setVersion])
          Op.commit .database

/-! ## What a migration can do -/

/-- Everything `migrate` can do, whatever calls fail. -/
inductive MigrateRun (earlier : Int) (file : File Client Token Grant) :
    Except SqlCipherStoreError Unit → File Client Token Grant → Prop
  | failed : MigrateRun earlier file (.error .database) file
  | current (h : earlier = schemaVersion ∨ file.version = schemaVersion) :
      MigrateRun earlier file (.ok ()) file
  | unsupported
      (h : (migrationFrom file.version : Option (List (Statement Client Token Grant))) = none) :
      MigrateRun earlier file (.error (.unsupportedSchema file.version)) file
  | migrated {statements : List (Statement Client Token Grant)} {file' : File Client Token Grant}
      (hearlier : earlier ≠ schemaVersion) (hversion : file.version ≠ schemaVersion)
      (hfrom : migrationFrom file.version = some statements)
      (hrun : Op.runStatements (statements ++ [setVersion]) file = some file') :
      MigrateRun earlier file (.ok ()) file'

variable {file : File Client Token Grant}

theorem migrate_run {earlier : Int} {faults : List Bool} {file' : File Client Token Grant}
    {answer : Except SqlCipherStoreError Unit} (h : (migrate earlier).run faults file = (answer, file')) :
    MigrateRun earlier file answer file' := by
  refine Op.Meets.run (P := MigrateRun earlier file) h ?_
  have hfail : MigrateRun earlier file (.error .database) file := .failed
  refine .bind (.enter hfail ?_)
  split
  · next hearlier => exact .pure (.current (.inl hearlier))
  · next hearlier =>
    refine .bind (.enter hfail ?_)
    refine .bind (.query hfail fun version hv => ?_)
    cases hv
    split
    · next hversion => exact .pure (.current (.inr hversion))
    · next hversion =>
      split
      · next hfrom => exact .fail (.unsupported hfrom)
      · next statements hfrom =>
        refine .bind (.batch hfail fun w hrun => ?_)
        exact .commit hfail (.migrated hearlier hversion hfrom hrun)

theorem migrate_eval {statements : List (Statement Client Token Grant)}
    (hversion : file.version ≠ schemaVersion) (hfrom : migrationFrom file.version = some statements) :
    (migrate file.version).run [] file =
      match Op.runStatements (statements ++ [setVersion]) file with
      | none => (.error .database, file)
      | some file' => (.ok (), file') := by
  have hbatch := Op.batch_apply SqlCipherStoreError.database (statements ++ [setVersion]) file file
  unfold Op.run migrate
  simp only [Op.bind_apply, Op.enter_apply, Op.query_apply, if_neg hversion, hfrom]
  cases hrun : Op.runStatements (statements ++ [setVersion]) file with
  | none =>
    rw [hrun] at hbatch
    obtain ⟨w, hw⟩ := hbatch
    rw [hw]
  | some file' =>
    rw [hrun] at hbatch
    rw [hbatch]
    rfl

/-! ## Catalogs -/

def indexesOf (version : Nat) : Objects IndexName TableName
  | .tokensByClient => some .tokens
  | .auditByPrincipal => some .auditEvents
  | .auditByInvocation => some .auditEvents
  | .deliveryLogByState => if 4 ≤ version then some .deliveryLog else none
  | .deliveryLogByRoute => if 4 ≤ version then some .deliveryLog else none
  | .deliveryLogTerminalExpiry => if 7 ≤ version then some .deliveryLog else none
  | .webhookDedupByState => if 5 ≤ version then some .webhookDedup else none
  | .webhookDedupByExpiry => if 5 ≤ version then some .webhookDedup else none
  | .webhookDedupByStateKey => if 6 ≤ version then some .webhookDedup else none

def triggersOf (version : Nat) : Objects TriggerName TableName
  | .usageInsert table => if 7 ≤ version then some table.tableName else none
  | .usageDelete table => if 7 ≤ version then some table.tableName else none
  | .usageUpdate table => if 7 ≤ version then some table.tableName else none
  | .webhookDedupSequenceImmutable => if 8 ≤ version then some .webhookDedup else none

/-- A file with the schema of a version before 8.  Its tables carry the constraints of their rows. -/
structure Legacy (version : Nat) (file : File Client Token Grant) : Prop where
  supported : 1 ≤ version ∧ version ≤ 7
  version_eq : file.version = version
  clients : file.clients.isSome = true
  tokens : file.tokens.isSome = true
  grants : file.grants.isSome = decide (2 ≤ version)
  auditEvents : file.auditEvents.isSome = true
  deliveryLog : file.deliveryLog.isSome = decide (4 ≤ version)
  webhookDedup : file.webhookDedup.isSome = decide (5 ≤ version)
  storageUsage : file.storageUsage.isSome = decide (7 ≤ version)
  scratch : file.auditEventsPrevious = none ∧ file.webhookDedupNext = none
  indexes : file.indexes = indexesOf version
  triggers : file.triggers = triggersOf version

/-! ## The blocks -/

theorem insertEvents_eq {rows : List (Int × AuditRow)} {events : BTreeMap Int AuditRow}
    (hnodup : (rows.map Prod.fst).Nodup) (hfresh : ∀ row ∈ rows, events[row.1]? = none) :
    ∃ filled, insertEvents events rows = some filled ∧
      ∀ n row, filled[n]? = some row ↔ (n, row) ∈ rows ∨ events[n]? = some row := by
  unfold insertEvents
  induction rows generalizing events with
  | nil => exact ⟨events, rfl, by simp⟩
  | cons first rest ih =>
    rw [List.map_cons, List.nodup_cons] at hnodup
    have hfirst := hfresh first (by simp)
    have hne : ∀ row ∈ rest, first.1 ≠ row.1 := fun row hrow heq =>
      hnodup.1 (heq ▸ List.mem_map_of_mem hrow)
    have hnext : ∀ row ∈ rest, (events.insert first.1 first.2)[row.1]? = none := by
      intro row hrow
      rw [BTreeMap.find_insert_ne _ _ (hne row hrow)]
      exact hfresh row (by simp [hrow])
    obtain ⟨filled, hfilled, hmem⟩ := ih hnodup.2 hnext
    refine ⟨filled, ?_, fun n row => ?_⟩
    · rw [List.foldlM_cons, hfirst]
      exact hfilled
    · rw [hmem, List.mem_cons, BTreeMap.find_insert]
      obtain ⟨m, r⟩ := first
      by_cases hm : m = n
      · subst hm
        rw [if_pos rfl, hfirst]
        simp only [Option.some.injEq, Prod.mk.injEq, true_and, reduceCtorEq, or_false]
        tauto
      · rw [if_neg hm]
        simp only [Prod.mk.injEq, Ne.symm hm, false_and, false_or]

theorem createIndexes_runs {table : TableName} {names : List IndexName}
    (hhas : file.has table = true) (hnodup : names.Nodup) (hfree : ∀ name ∈ names, file.indexes name = none) :
    Op.runStatements (names.map fun name => createIndex name table) file =
      some { file with indexes := file.indexes.on names table } :=
  Op.runStatements_createOn (fun _ _ => rfl) (fun _ _ _ => rfl) rfl
    (fun _ _ => by cases table <;> rfl) hhas hnodup hfree

theorem createTriggers_runs {table : TableName} {names : List TriggerName}
    (hhas : file.has table = true) (hnodup : names.Nodup)
    (hfree : ∀ name ∈ names, file.triggers name = none) :
    Op.runStatements (names.map fun name => createTrigger name table) file =
      some { file with triggers := file.triggers.on names table } :=
  Op.runStatements_createOn (fun _ _ => rfl) (fun _ _ _ => rfl) rfl
    (fun _ _ => by cases table <;> rfl) hhas hnodup hfree

variable {version : Nat}

theorem rebuildAuditTable_runs {events : BTreeMap Int AuditRow}
    (hevents : file.auditEvents = some events) (hscratch : file.auditEventsPrevious = none)
    (hlow : version ≤ 3) (hindexes : file.indexes = indexesOf version)
    (htriggers : file.triggers = triggersOf version) : ∃ copied, Op.runStatements rebuildAuditTable file =
        some { file with auditEvents := some copied } ∧
      ∀ n : Int, copied[n]? = events[n]? := by
  have hnodup : (events.toList.map Prod.fst).Nodup := by
    rw [Std.TreeMap.map_fst_toList_eq_keys]
    exact BTreeMap.nodup_keys events
  obtain ⟨copied, hcopied, hmem⟩ := insertEvents_eq hnodup fun row _ => BTreeMap.find_empty row.1
  refine ⟨copied, ?_, fun n => Option.ext fun row => ?_⟩
  · -- the indexes leave with the old table and are created again on the new one
    have hleft : (((indexesOf version).renameTable .auditEvents .auditEventsPrevious).dropTable
        .auditEventsPrevious).on [.auditByPrincipal, .auditByInvocation] .auditEvents =
          indexesOf version := by
      interval_cases version <;> funext name <;> cases name <;> rfl
    have hkept : ((triggersOf version).renameTable .auditEvents .auditEventsPrevious).dropTable
        .auditEventsPrevious = triggersOf version := by
      interval_cases version <;> funext name <;> cases name <;> rfl
    have hcopy : Op.runStatements
        [renameAuditEvents, createAuditEvents, copyAuditEvents, dropAuditEventsPrevious] file =
          some { file with
            auditEvents := some copied
            indexes := ((indexesOf version).renameTable .auditEvents .auditEventsPrevious).dropTable
              .auditEventsPrevious } := by
      obtain ⟨v, clients, tokens, grants, _, _, log, seen, next, usage, indexes, triggers⟩ := file
      subst hevents hscratch hindexes htriggers
      simp [Op.runStatements, renameAuditEvents, createAuditEvents, copyAuditEvents, File.has,
        dropAuditEventsPrevious, hcopied, hkept]
    change Op.runStatements ([renameAuditEvents, createAuditEvents, copyAuditEvents,
      dropAuditEventsPrevious] ++ [IndexName.auditByPrincipal, .auditByInvocation].map
        fun name => createIndex name .auditEvents) file = _
    rw [Op.runStatements_append, hcopy, Option.bind_some, createIndexes_runs rfl (by decide)]
    · simp only [hleft, hindexes]
    · dsimp only
      interval_cases version <;> decide
  · rw [hmem, BTreeMap.mem_toList]
    simp

/-- The triggers `finish_webhook_dedup_schema` leaves: the usage triggers that were on the table are
    gone with it. -/
def guarded (version : Nat) : Objects TriggerName TableName :=
  ((triggersOf version).dropTable .webhookDedup).on [.webhookDedupSequenceImmutable] .webhookDedup

theorem createDeliveryLogTable_runs (hlow : version ≤ 3) (hnone : file.deliveryLog = none)
    (hindexes : file.indexes = indexesOf version) :
    Op.runStatements createDeliveryLogTable file =
      some { file with
        deliveryLog := some (.empty deliverySchema)
        indexes := indexesOf 4 } := by
  have hcreated : createDeliveryLog file =
      some { file with deliveryLog := some (.empty deliverySchema) } := by
    rw [createDeliveryLog, if_neg (by simp [File.has, hnone])]
  have hcatalog : (indexesOf version).on [.deliveryLogByState, .deliveryLogByRoute] .deliveryLog =
      indexesOf 4 := by
    interval_cases version <;> funext name <;> cases name <;> rfl
  change Op.runStatements (createDeliveryLog ::
    [IndexName.deliveryLogByState, .deliveryLogByRoute].map
      fun name => createIndex name .deliveryLog) file = _
  rw [Op.runStatements_cons, hcreated, Option.bind_some, createIndexes_runs rfl (by decide)]
  · simp only [hindexes, hcatalog]
  · rw [hindexes]
    interval_cases version <;> decide

theorem finishWebhookDedupSchema_runs (hrange : 4 ≤ version ∧ version ≤ 7)
    (hseen : file.webhookDedup.isSome = true)
    (hindexes : file.indexes = (indexesOf version).dropTable .webhookDedup)
    (htriggers : file.triggers = (triggersOf version).dropTable .webhookDedup) :
    Op.runStatements finishWebhookDedupSchema file =
      some { file with indexes := indexesOf (max version 6), triggers := guarded version } := by
  obtain ⟨hlow, hhigh⟩ := hrange
  have hcatalog : ((indexesOf version).dropTable .webhookDedup).on
      [.webhookDedupByState, .webhookDedupByExpiry, .webhookDedupByStateKey] .webhookDedup =
        indexesOf (max version 6) := by
    interval_cases version <;> funext name <;> cases name <;> rfl
  change Op.runStatements ([IndexName.webhookDedupByState, .webhookDedupByExpiry,
      .webhookDedupByStateKey].map (fun name => createIndex name .webhookDedup) ++
    [TriggerName.webhookDedupSequenceImmutable].map
      fun name => createTrigger name .webhookDedup) file = _
  rw [Op.runStatements_append, createIndexes_runs (by exact hseen) (by decide), Option.bind_some,
    createTriggers_runs (by exact hseen) (by decide)]
  · simp only [hindexes, htriggers, hcatalog, guarded]
  · rw [htriggers]
    interval_cases version <;> decide
  · rw [hindexes]
    interval_cases version <;> decide

theorem createWebhookDedupTable_runs (hnone : file.webhookDedup = none)
    (hindexes : file.indexes = indexesOf 4) (htriggers : file.triggers = triggersOf 4) :
    Op.runStatements createWebhookDedupTable file =
      some { file with
        webhookDedup := some (.empty storedDedupSchema)
        indexes := indexesOf 6
        triggers := guarded 4 } := by
  have hcreated : createWebhookDedupRows file =
      some { file with webhookDedup := some (.empty storedDedupSchema) } := by
    rw [createWebhookDedupRows, if_neg (by simp [File.has, hnone])]
  have hrange : 4 ≤ 4 ∧ 4 ≤ 7 := by omega
  change Op.runStatements (createWebhookDedupRows :: finishWebhookDedupSchema) file = _
  rw [Op.runStatements_cons, hcreated, Option.bind_some, finishWebhookDedupSchema_runs hrange rfl]
  · rfl
  · rw [hindexes]
    funext name
    cases name <;> rfl
  · rw [htriggers]
    funext name
    rcases name with ⟨_ | _⟩ | ⟨_ | _⟩ | ⟨_ | _⟩ | _ <;> rfl

theorem rebuildWebhookDedupTable_runs {seen : Table storedDedupSchema}
    (hrange : 5 ≤ version ∧ version ≤ 7) (hseen : file.webhookDedup = some seen)
    (hscratch : file.webhookDedupNext = none) (hindexes : file.indexes = indexesOf version)
    (htriggers : file.triggers = triggersOf version) :
    Op.runStatements rebuildWebhookDedupTable file =
      ((Table.empty storedDedupSchema).insertAll seen.rows).map fun copied =>
        { file with
          webhookDedup := some copied
          indexes := indexesOf (max version 6)
          triggers := guarded version } := by
  -- nothing is on the new table while it is filled, so the renaming carries nothing over
  have hrenamed : ((indexesOf version).dropTable .webhookDedup).renameTable .webhookDedupNext
      .webhookDedup = (indexesOf version).dropTable .webhookDedup := by
    obtain ⟨hlow, hhigh⟩ := hrange
    interval_cases version <;> funext name <;> cases name <;> rfl
  have hcarried : ((triggersOf version).dropTable .webhookDedup).renameTable .webhookDedupNext
      .webhookDedup = (triggersOf version).dropTable .webhookDedup := by
    obtain ⟨hlow, hhigh⟩ := hrange
    interval_cases version <;> funext name <;>
      rcases name with ⟨_ | _⟩ | ⟨_ | _⟩ | ⟨_ | _⟩ | _ <;> rfl
  have hswapped : Op.runStatements [createWebhookDedupNextRows, copyWebhookDedup, dropWebhookDedup,
      renameWebhookDedupNext] file =
        ((Table.empty storedDedupSchema).insertAll seen.rows).map fun copied =>
          { file with
            webhookDedup := some copied
            indexes := (indexesOf version).dropTable .webhookDedup
            triggers := (triggersOf version).dropTable .webhookDedup } := by
    obtain ⟨v, clients, tokens, grants, events, previous, log, _, _, usage, indexes, triggers⟩ := file
    subst hseen hscratch hindexes htriggers
    cases hcopied : (Table.empty storedDedupSchema).insertAll seen.rows with
    | none =>
      simp [Op.runStatements, createWebhookDedupNextRows, copyWebhookDedup, File.has, hcopied]
    | some copied =>
      simp [Op.runStatements, createWebhookDedupNextRows, copyWebhookDedup, dropWebhookDedup,
        renameWebhookDedupNext, File.has, hcopied, hrenamed, hcarried]
  change Op.runStatements ([createWebhookDedupNextRows, copyWebhookDedup, dropWebhookDedup,
    renameWebhookDedupNext] ++ finishWebhookDedupSchema) file = _
  rw [Op.runStatements_append, hswapped]
  cases (Table.empty storedDedupSchema).insertAll seen.rows with
  | none => rfl
  | some copied =>
    have hfull : 4 ≤ version ∧ version ≤ 7 := ⟨by omega, hrange.2⟩
    exact finishWebhookDedupSchema_runs hfull rfl rfl rfl

theorem initializeStorageAccounting_runs (hrange : 4 ≤ version ∧ version ≤ 6)
    (hnone : file.storageUsage = none) (hlog : file.deliveryLog.isSome = true)
    (hseen : file.webhookDedup.isSome = true) (hindexes : file.indexes = indexesOf 6)
    (htriggers : file.triggers = guarded version) :
    Op.runStatements initializeStorageAccounting file =
      ({ file with storageUsage := some ⟨none, none⟩ } : File Client Token Grant).counted.map
        fun usage =>
          { file with
            storageUsage := some usage
            indexes := indexesOf 8
            triggers := triggersOf 8 } := by
  obtain ⟨hlow, hhigh⟩ := hrange
  have hcatalog : (indexesOf 6).on [.deliveryLogTerminalExpiry] .deliveryLog = indexesOf 8 := by
    funext name
    cases name <;> rfl
  have htriggered : ((guarded version).on
      [.usageInsert .deliveryLog, .usageDelete .deliveryLog, .usageUpdate .deliveryLog]
        .deliveryLog).on
      [.usageInsert .webhookDedup, .usageDelete .webhookDedup, .usageUpdate .webhookDedup]
        .webhookDedup = triggersOf 8 := by
    interval_cases version <;> funext name <;>
      rcases name with ⟨_ | _⟩ | ⟨_ | _⟩ | ⟨_ | _⟩ | _ <;> rfl
  have hcreated : createStorageUsage file =
      some { file with storageUsage := some ⟨none, none⟩ } := by
    rw [createStorageUsage, if_neg (by simp [File.has, hnone])]
  change Op.runStatements (createStorageUsage :: refreshUsage ::
    ([TriggerName.usageInsert .deliveryLog, .usageDelete .deliveryLog,
      .usageUpdate .deliveryLog].map (fun name => createTrigger name .deliveryLog) ++
    ([TriggerName.usageInsert .webhookDedup, .usageDelete .webhookDedup,
      .usageUpdate .webhookDedup].map (fun name => createTrigger name .webhookDedup) ++
    [IndexName.deliveryLogTerminalExpiry].map fun name => createIndex name .deliveryLog))) file = _
  rw [Op.runStatements_cons, hcreated, Option.bind_some, Op.runStatements_cons, refreshUsage]
  cases ({ file with storageUsage := some ⟨none, none⟩ } : File Client Token Grant).counted with
  | none => rfl
  | some usage =>
    rw [Option.map_some, Option.bind_some, Op.runStatements_append,
      createTriggers_runs (by exact hlog) (by decide), Option.bind_some, Op.runStatements_append,
      createTriggers_runs (by exact hseen) (by decide), Option.bind_some,
      createIndexes_runs (by exact hlog) (by decide), Option.map_some]
    · simp only [hindexes, htriggers, hcatalog, htriggered]
    · rw [hindexes]
      decide
    · dsimp only
      rw [htriggers]
      interval_cases version <;> decide
    · rw [htriggers]
      interval_cases version <;> decide

/-- Version 7 has the triggers of `delivery_log` and its last index already. -/
theorem recount_runs (hseen : file.webhookDedup.isSome = true)
    (hindexes : file.indexes = indexesOf 7) (htriggers : file.triggers = guarded 7) :
    Op.runStatements ([refreshUsage] ++ createTriggers .webhookDedup) file =
      file.counted.map fun usage =>
        { file with
          storageUsage := some usage
          indexes := indexesOf 8
          triggers := triggersOf 8 } := by
  have hcatalog : indexesOf 7 = indexesOf 8 := by
    funext name
    cases name <;> rfl
  have htriggered : (guarded 7).on
      [.usageInsert .webhookDedup, .usageDelete .webhookDedup, .usageUpdate .webhookDedup]
        .webhookDedup = triggersOf 8 := by
    funext name
    rcases name with ⟨_ | _⟩ | ⟨_ | _⟩ | ⟨_ | _⟩ | _ <;> rfl
  change Op.runStatements (refreshUsage :: [TriggerName.usageInsert .webhookDedup,
    .usageDelete .webhookDedup, .usageUpdate .webhookDedup].map
      fun name => createTrigger name .webhookDedup) file = _
  rw [Op.runStatements_cons, refreshUsage]
  cases file.counted with
  | none => rfl
  | some usage =>
    rw [Option.map_some, Option.bind_some, createTriggers_runs (by exact hseen) (by decide),
      Option.map_some]
    · simp only [hindexes, htriggers, hcatalog, htriggered]
    · rw [htriggers]
      decide

end Bondry.Store

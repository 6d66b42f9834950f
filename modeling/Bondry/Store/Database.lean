/-
  THE DATABASE (`bondry-store-sqlcipher`: `database.rs`, `usage.rs`).

  Three tables: `webhook_dedup`, `delivery_log` and `storage_usage`.  The first two are `Sql.Table`s
  under their CHECK and UNIQUE constraints; `storage_usage` holds at most one row for each of them,
  maintained by the insert and delete TRIGGERS, never by the code.  The model executes a trigger once
  for each inserted or deleted row, as SQLite does, and checks the constraints of `storage_usage`
  after each of them.  A trigger that finds no row to update aborts the statement.

  Integer columns are `Int`.  SQLite turns an overflowing sum into a REAL, which the
  `typeof(…) = 'integer'` constraint refuses: that is the range condition of `usageCheck`.

  The update trigger on `charged_bytes` is left out: no statement of the two stores sets that column.
-/
import Bondry.Contract.Dedup
import Bondry.Contract.Delivery
import Bondry.Lib.Sql

namespace Bondry.Store

open Sql

/-! ## Rows -/

/-- A row of `webhook_dedup`, without its sequence number. -/
structure DedupRow where
  key : DedupKey
  state : DedupState
  automaticExpiry : Bool
  updatedAtMs : Int
  expiresAtMs : Option Int
  chargedBytes : Int
  deriving DecidableEq

/-- The table's CHECK constraints; the `IN (…)` ones are the types of the columns. -/
def DedupRow.check (row : DedupRow) : Bool :=
  decide (0 ≤ row.updatedAtMs) && decide (96 ≤ row.chargedBytes) &&
    (decide (row.state = .completed ∧ row.automaticExpiry = true ∧ row.expiresAtMs.isSome) ||
      decide (row.state = .completed ∧ row.automaticExpiry = false ∧ row.expiresAtMs.isNone) ||
      decide (row.state ≠ .completed ∧ row.expiresAtMs.isNone))

def dedupSchema : Schema DedupRow DedupKey where
  key := DedupRow.key
  check := DedupRow.check

/-- The `state` column of `delivery_log`. -/
inductive DeliveryRowState where
  | pending
  | delivered
  | failed
  | lostOnShutdown
  | unknownAfterCrash
  deriving DecidableEq, Repr

/-- A row of `delivery_log`, without its sequence number. -/
structure DeliveryRow where
  delivery : DeliveryId
  route : RouteId
  acceptedAtMs : Int
  attempts : Int
  state : DeliveryRowState
  failureKind : Option String
  updatedAtMs : Int
  resultCategory : Option String
  resultBytes : Option Int
  chargedBytes : Int
  deriving DecidableEq

def DeliveryRow.check (row : DeliveryRow) : Bool :=
  decide (0 ≤ row.acceptedAtMs) && decide (0 ≤ row.attempts ∧ row.attempts ≤ 65535) &&
    decide (0 ≤ row.updatedAtMs) && decide (row.chargedBytes = 512) &&
    (decide (row.state = .failed ∧ row.failureKind.isSome) ||
      decide (row.state ≠ .failed ∧ row.failureKind.isNone)) &&
    (decide (row.resultCategory.isNone ∧ row.resultBytes.isNone) ||
      decide (row.state ≠ .pending ∧ row.resultCategory.isSome ∧
        row.resultBytes.any fun n => decide (0 ≤ n)))

def deliverySchema : Schema DeliveryRow DeliveryId where
  key := DeliveryRow.delivery
  check := DeliveryRow.check

/-- The tables that `storage_usage` counts. -/
inductive CountedTable where
  | deliveryLog
  | webhookDedup
  deriving DecidableEq, Repr

/-- A row of `storage_usage`: two columns that hold an `i64` each. -/
structure UsageRow where
  records : Int
  chargedBytes : Int
  records_i64 : -(i64Max + 1) ≤ records ∧ records ≤ i64Max
  bytes_i64 : -(i64Max + 1) ≤ chargedBytes ∧ chargedBytes ≤ i64Max
  deriving DecidableEq

/-- The CHECK constraints of `storage_usage`. -/
def usageCheck (table : CountedTable) (records chargedBytes : Int) : Bool :=
  decide (0 ≤ records ∧ records ≤ i64Max) &&
    decide (0 ≤ chargedBytes ∧ chargedBytes ≤ i64Max) &&
    decide (records ≠ 0 ∨ chargedBytes = 0) &&
    decide (records * 96 ≤ chargedBytes) &&
    decide (table ≠ .deliveryLog ∨ chargedBytes = records * 512)

theorem usageCheck_iff {table : CountedTable} {records chargedBytes : Int} :
    usageCheck table records chargedBytes = true ↔
      (0 ≤ records ∧ records ≤ i64Max) ∧ (0 ≤ chargedBytes ∧ chargedBytes ≤ i64Max) ∧
        (records ≠ 0 ∨ chargedBytes = 0) ∧ records * 96 ≤ chargedBytes ∧
        (table ≠ .deliveryLog ∨ chargedBytes = records * 512) := by
  simp only [usageCheck, Bool.and_eq_true, decide_eq_true_eq]
  tauto

def UsageRow.write (table : CountedTable) (records chargedBytes : Int) : Option UsageRow :=
  if h : usageCheck table records chargedBytes = true then
    some {
      records := records
      chargedBytes := chargedBytes
      records_i64 := by
        have := (usageCheck_iff.mp h).1
        omega
      bytes_i64 := by
        have := (usageCheck_iff.mp h).2.1
        omega }
  else none

/-- The `storage_usage` table: at most one row for each counted table. -/
structure StorageUsage where
  deliveryLog : Option UsageRow
  webhookDedup : Option UsageRow
  deriving DecidableEq

def StorageUsage.get (usage : StorageUsage) : CountedTable → Option UsageRow
  | .deliveryLog => usage.deliveryLog
  | .webhookDedup => usage.webhookDedup

def StorageUsage.set (usage : StorageUsage) (table : CountedTable) (row : UsageRow) : StorageUsage :=
  match table with
  | .deliveryLog => { usage with deliveryLog := some row }
  | .webhookDedup => { usage with webhookDedup := some row }

structure Database where
  webhookDedup : Table dedupSchema
  deliveryLog : Table deliverySchema
  usage : StorageUsage

/-! ## Usage counters (`usage.rs`) -/

/-- `usage::read`: the counters of a table, if they are there and pass its checks. -/
def readUsage (table : CountedTable) (db : Database) : Option (Int × Int) :=
  match db.usage.get table with
  | none => none
  | some row =>
    let minimum := row.records * (if table = .deliveryLog then 512 else 96)
    -- `checked_mul`
    if minimum < -(i64Max + 1) ∨ (i64Max : Int) < minimum then none
    else if row.records < 0 ∨ row.chargedBytes < minimum ∨
        (row.records = 0 ∧ row.chargedBytes ≠ 0) ∨
        (table = .deliveryLog ∧ row.chargedBytes ≠ minimum) then none
    else some (row.records, row.chargedBytes)

/-- The limits leave no room for one more record of this charge (`saturating_add` on `i64`). -/
def exhausted (maxRecords maxBytes : Nat) (records bytes charged : Int) : Bool :=
  decide ((maxRecords : Int) ≤ records) || decide ((maxBytes : Int) < min (bytes + charged) i64Max)

/-- One execution of a trigger: the counters move by `records` and `bytes`, or the statement that
    fired it aborts. -/
def trigger (table : CountedTable) (records bytes : Int) (usage : StorageUsage) : Option StorageUsage :=
  match usage.get table with
  | none => none
  | some row =>
    (UsageRow.write table (row.records + records) (row.chargedBytes + bytes)).map (usage.set table)

/-- The delete trigger, once for each deleted row. -/
def triggerDeletes (table : CountedTable) : List Int → StorageUsage → Option StorageUsage
  | [], usage => some usage
  | charge :: rest, usage => (trigger table (-1) (-charge) usage).bind (triggerDeletes table rest)

/-! ## Statements -/

/-- `INSERT INTO webhook_dedup`. -/
def insertDedup (row : DedupRow) (db : Database) : Option (Nat × Database) :=
  (db.webhookDedup.insert row).bind fun rows =>
    (trigger .webhookDedup 1 row.chargedBytes db.usage).map fun usage =>
      (1, { db with webhookDedup := rows, usage := usage })

/-- `DELETE FROM webhook_dedup WHERE p`. -/
def deleteDedup (p : DedupRow → Bool) (db : Database) : Option (Nat × Database) :=
  let gone := db.webhookDedup.matched p
  (triggerDeletes .webhookDedup (gone.map fun e => e.2.chargedBytes) db.usage).map fun usage =>
    (gone.length, { db with webhookDedup := db.webhookDedup.delete p, usage := usage })

/-- `UPDATE webhook_dedup SET f WHERE p`. -/
def updateDedup (p : DedupRow → Bool) (f : DedupRow → DedupRow) (db : Database) : Option (Nat × Database) :=
  (db.webhookDedup.update p f).map fun rows =>
    ((db.webhookDedup.matched p).length, { db with webhookDedup := rows })

/-- `INSERT OR IGNORE INTO delivery_log`: a broken constraint of the row itself skips the row, an
    aborting trigger or an exhausted sequence fails the statement. -/
def insertOrIgnoreDelivery (row : DeliveryRow) (db : Database) : Option (Nat × Database) :=
  if row.check = false ∨ (db.deliveryLog.find row.delivery).isSome then some (0, db)
  else (db.deliveryLog.insert row).bind fun rows =>
    (trigger .deliveryLog 1 row.chargedBytes db.usage).map fun usage =>
      (1, { db with deliveryLog := rows, usage := usage })

/-- `DELETE FROM delivery_log WHERE p`. -/
def deleteDelivery (p : DeliveryRow → Bool) (db : Database) : Option (Nat × Database) :=
  let gone := db.deliveryLog.matched p
  (triggerDeletes .deliveryLog (gone.map fun e => e.2.chargedBytes) db.usage).map fun usage =>
    (gone.length, { db with deliveryLog := db.deliveryLog.delete p, usage := usage })

/-- `UPDATE delivery_log SET f WHERE p`. -/
def updateDelivery (p : DeliveryRow → Bool) (f : DeliveryRow → DeliveryRow) (db : Database) :
    Option (Nat × Database) :=
  (db.deliveryLog.update p f).map fun rows =>
    ((db.deliveryLog.matched p).length, { db with deliveryLog := rows })

/-! ## Migration -/

/-- What a full aggregation of a table gives: `COUNT(*)` and `SUM(charged_bytes)`. -/
def aggregate (db : Database) : CountedTable → Int × Int
  | .deliveryLog =>
    (db.deliveryLog.rows.length, db.deliveryLog.total fun row => row.chargedBytes)
  | .webhookDedup =>
    (db.webhookDedup.rows.length, db.webhookDedup.total fun row => row.chargedBytes)

/-- `usage::refresh`: both rows are replaced by the aggregates; a row that breaks a constraint of
    `storage_usage` fails the migration. -/
def refresh (db : Database) : Option Database := do
  let logged ← UsageRow.write .deliveryLog
    (aggregate db .deliveryLog).1 (aggregate db .deliveryLog).2
  let seen ← UsageRow.write .webhookDedup
    (aggregate db .webhookDedup).1 (aggregate db .webhookDedup).2
  some { db with usage := ⟨some logged, some seen⟩ }

/-- The tables `migrate_from_empty` creates, before `usage::initialize` fills the counters. -/
def emptyTables : Database where
  webhookDedup := .empty dedupSchema
  deliveryLog := .empty deliverySchema
  usage := ⟨none, none⟩

/-- The database `migrate_from_empty` commits. -/
def migrated : Database :=
  { emptyTables with
    usage := ⟨some ⟨0, 0, by decide, by decide⟩, some ⟨0, 0, by decide, by decide⟩⟩ }

theorem refresh_emptyTables : refresh emptyTables = some migrated := rfl

/-! ## What a statement changes -/

/-- A timed operation: refused when its time does not fit a column, otherwise what `run` says. -/
inductive Timed {ε α : Type} (lateError : ε) (now : Nat) (db : Database)
    (run : Except ε α → Database → Prop) : Except ε α → Database → Prop
  | late (ht : ¬ now ≤ i64Max) : Timed lateError now db run (.error lateError) db
  | timely {answer : Except ε α} {db' : Database} (ht : now ≤ i64Max) (h : run answer db') :
      Timed lateError now db run answer db'


variable {db db' : Database} {n : Nat}

theorem insertDedup_eq {row : DedupRow} (h : insertDedup row db = some (n, db')) :
    n = 1 ∧ db.webhookDedup.insert row = some db'.webhookDedup ∧ db'.deliveryLog = db.deliveryLog ∧
      trigger .webhookDedup 1 row.chargedBytes db.usage = some db'.usage := by
  obtain ⟨rows, hr, h⟩ := Option.bind_eq_some_iff.mp h
  obtain ⟨usage, hu, he⟩ := Option.map_eq_some_iff.mp h
  cases he
  exact ⟨rfl, hr, rfl, hu⟩

theorem deleteDedup_eq {p : DedupRow → Bool} (h : deleteDedup p db = some (n, db')) :
    n = (db.webhookDedup.matched p).length ∧ db'.webhookDedup = db.webhookDedup.delete p ∧
      db'.deliveryLog = db.deliveryLog ∧ triggerDeletes .webhookDedup
        ((db.webhookDedup.matched p).map fun e => e.2.chargedBytes) db.usage = some db'.usage := by
  obtain ⟨usage, hu, he⟩ := Option.map_eq_some_iff.mp h
  cases he
  exact ⟨rfl, rfl, rfl, hu⟩

theorem updateDedup_eq {p : DedupRow → Bool} {f : DedupRow → DedupRow}
    (h : updateDedup p f db = some (n, db')) : n = (db.webhookDedup.matched p).length ∧
      db.webhookDedup.update p f = some db'.webhookDedup ∧
      db'.deliveryLog = db.deliveryLog ∧ db'.usage = db.usage := by
  obtain ⟨rows, hr, he⟩ := Option.map_eq_some_iff.mp h
  cases he
  exact ⟨rfl, hr, rfl, rfl⟩

theorem insertOrIgnoreDelivery_eq {row : DeliveryRow} (h : insertOrIgnoreDelivery row db = some (n, db')) :
    (n = 0 ∧ db' = db) ∨ (n = 1 ∧ db.deliveryLog.insert row = some db'.deliveryLog ∧
        db'.webhookDedup = db.webhookDedup ∧
        trigger .deliveryLog 1 row.chargedBytes db.usage = some db'.usage) := by
  unfold insertOrIgnoreDelivery at h
  split at h
  · cases h
    exact .inl ⟨rfl, rfl⟩
  · obtain ⟨rows, hr, h⟩ := Option.bind_eq_some_iff.mp h
    obtain ⟨usage, hu, he⟩ := Option.map_eq_some_iff.mp h
    cases he
    exact .inr ⟨rfl, hr, rfl, hu⟩

theorem deleteDelivery_eq {p : DeliveryRow → Bool} (h : deleteDelivery p db = some (n, db')) :
    n = (db.deliveryLog.matched p).length ∧ db'.deliveryLog = db.deliveryLog.delete p ∧
      db'.webhookDedup = db.webhookDedup ∧ triggerDeletes .deliveryLog
        ((db.deliveryLog.matched p).map fun e => e.2.chargedBytes) db.usage = some db'.usage := by
  obtain ⟨usage, hu, he⟩ := Option.map_eq_some_iff.mp h
  cases he
  exact ⟨rfl, rfl, rfl, hu⟩

theorem updateDelivery_eq {p : DeliveryRow → Bool} {f : DeliveryRow → DeliveryRow}
    (h : updateDelivery p f db = some (n, db')) : n = (db.deliveryLog.matched p).length ∧
      db.deliveryLog.update p f = some db'.deliveryLog ∧
      db'.webhookDedup = db.webhookDedup ∧ db'.usage = db.usage := by
  obtain ⟨rows, hr, he⟩ := Option.map_eq_some_iff.mp h
  cases he
  exact ⟨rfl, hr, rfl, rfl⟩

end Bondry.Store

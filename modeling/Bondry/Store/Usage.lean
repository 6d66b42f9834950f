/-
  THE USAGE COUNTERS ARE EXACT.

  `storage_usage` is maintained one row at a time by triggers; admission trusts it instead of
  counting the table.  `Exact db` says that both rows are there, pass their CHECK constraints and
  equal `COUNT(*)` and `SUM(charged_bytes)`.

  The converse direction is about a database whose counters are NOT readable: no delete can repair
  them (`readUsage_delete_none`), so admission refuses.
-/
import Bondry.Store.Dedup
import Bondry.Store.Delivery

namespace Bondry.Store

open Sql

/-! ## Triggers -/

/-- The row of a table is there, valid, and holds these numbers. -/
def Counts (usage : StorageUsage) (table : CountedTable) (records bytes : Int) : Prop :=
  ∃ row, usage.get table = some row ∧ row.records = records ∧ row.chargedBytes = bytes ∧
    usageCheck table records bytes = true

/-- Both rows equal the aggregates of their tables. -/
def Exact (db : Database) : Prop :=
  ∀ table, Counts db.usage table (aggregate db table).1 (aggregate db table).2

variable {table : CountedTable} {records bytes : Int}

theorem write_eq {row : UsageRow} (h : UsageRow.write table records bytes = some row) :
    row.records = records ∧ row.chargedBytes = bytes ∧ usageCheck table records bytes = true := by
  unfold UsageRow.write at h
  split at h
  · cases h
    exact ⟨rfl, rfl, ‹_›⟩
  · cases h

theorem write_isSome (h : usageCheck table records bytes = true) :
    ∃ row, UsageRow.write table records bytes = some row := by
  rw [UsageRow.write, dif_pos h]
  exact ⟨_, rfl⟩

theorem get_set (usage : StorageUsage) (table other : CountedTable) (row : UsageRow) :
    (usage.set table row).get other = if table = other then some row else usage.get other := by
  cases table <;> cases other <;> rfl

variable {usage : StorageUsage}

theorem trigger_counts {r b : Int} {usage' : StorageUsage}
    (h : trigger table r b usage = some usage') (hc : Counts usage table records bytes) :
    Counts usage' table (records + r) (bytes + b) ∧
      ∀ other, table ≠ other → usage'.get other = usage.get other := by
  obtain ⟨row, hget, rfl, rfl, _⟩ := hc
  unfold trigger at h
  rw [hget] at h
  obtain ⟨row', hw, rfl⟩ := Option.map_eq_some_iff.mp h
  obtain ⟨hr, hb, hcheck⟩ := write_eq hw
  refine ⟨⟨row', ?_, hr, hb, hcheck⟩, fun other hne => ?_⟩
  · rw [get_set, if_pos rfl]
  · rw [get_set, if_neg hne]

variable {charges : List Int}

theorem triggerDeletes_counts {usage' : StorageUsage}
    (h : triggerDeletes table charges usage = some usage') (hc : Counts usage table records bytes) :
    Counts usage' table (records - charges.length) (bytes - charges.sum) ∧
      ∀ other, table ≠ other → usage'.get other = usage.get other := by
  induction charges generalizing usage records bytes with
  | nil =>
    cases h
    refine ⟨?_, fun _ _ => rfl⟩
    simpa using hc
  | cons charge rest ih =>
    obtain ⟨mid, hmid, h⟩ := Option.bind_eq_some_iff.mp h
    obtain ⟨hc₁, ho₁⟩ := trigger_counts hmid hc
    obtain ⟨hc₂, ho₂⟩ := ih h hc₁
    refine ⟨?_, fun other hne => (ho₂ other hne).trans (ho₁ other hne)⟩
    have hr : records + -1 - rest.length = records - (charge :: rest).length := by
      rw [List.length_cons]
      omega
    have hb : bytes + -charge - rest.sum = bytes - (charge :: rest).sum := by
      rw [List.sum_cons]
      omega
    rw [hr, hb] at hc₂
    exact hc₂

/-! ## Statements -/

variable {db db' : Database}

theorem exact_of_tables (hx : Exact db) (hd : db'.deliveryLog = db.deliveryLog)
    (hu : ∀ other, CountedTable.webhookDedup ≠ other → db'.usage.get other = db.usage.get other)
    (hc : Counts db'.usage .webhookDedup (aggregate db' .webhookDedup).1
      (aggregate db' .webhookDedup).2) : Exact db' := by
  intro table
  cases table with
  | webhookDedup => exact hc
  | deliveryLog =>
    obtain ⟨row, hget, hrest⟩ := hx .deliveryLog
    have ha : aggregate db' .deliveryLog = aggregate db .deliveryLog := by
      simp only [aggregate, hd]
    rw [ha]
    exact ⟨row, (hu .deliveryLog (by decide)).trans hget, hrest⟩

theorem exact_of_log (hx : Exact db) (hd : db'.webhookDedup = db.webhookDedup)
    (hu : ∀ other, CountedTable.deliveryLog ≠ other → db'.usage.get other = db.usage.get other)
    (hc : Counts db'.usage .deliveryLog (aggregate db' .deliveryLog).1
      (aggregate db' .deliveryLog).2) : Exact db' := by
  intro table
  cases table with
  | deliveryLog => exact hc
  | webhookDedup =>
    obtain ⟨row, hget, hrest⟩ := hx .webhookDedup
    have ha : aggregate db' .webhookDedup = aggregate db .webhookDedup := by
      simp only [aggregate, hd]
    rw [ha]
    exact ⟨row, (hu .webhookDedup (by decide)).trans hget, hrest⟩

theorem delete_moves {ρ κ : Type} {S : Schema ρ κ} (t : Table S) (p : ρ → Bool) (w : ρ → Int) :
    ((t.delete p).rows.length : Int) = t.rows.length - ((t.matched p).map fun e => w e.2).length ∧
      (t.delete p).total w = t.total w - ((t.matched p).map fun e => w e.2).sum := by
  have hone := t.total_delete (fun _ => 1) p
  have hw := t.total_delete w p
  rw [Table.total_one, Table.total_one] at hone
  have hlen : ((t.matched p).map fun _ => (1 : Int)).sum = (t.matched p).length := by
    simp
  rw [List.length_map]
  constructor <;> omega

variable {n : Nat}

theorem exact_insertDedup {row : DedupRow} (hx : Exact db) (h : insertDedup row db = some (n, db')) :
    Exact db' := by
  obtain ⟨_, hins, hd, htrig⟩ := insertDedup_eq h
  obtain ⟨hc, ho⟩ := trigger_counts htrig (hx .webhookDedup)
  obtain ⟨_, _, hrows, _⟩ := Table.insert_eq_some hins
  refine exact_of_tables hx hd ho ?_
  simp only [aggregate] at hc ⊢
  rw [Table.total_append_row _ hrows, hrows, List.length_append]
  push_cast
  exact hc

theorem exact_deleteDedup {p : DedupRow → Bool} (hx : Exact db)
    (h : deleteDedup p db = some (n, db')) : Exact db' := by
  obtain ⟨_, hdel, hd, htrig⟩ := deleteDedup_eq h
  obtain ⟨hc, ho⟩ := triggerDeletes_counts htrig (hx .webhookDedup)
  obtain ⟨hlen, hsum⟩ := delete_moves db.webhookDedup p fun row => row.chargedBytes
  refine exact_of_tables hx hd ho ?_
  simp only [aggregate] at hc ⊢
  rw [hdel, hlen, hsum]
  exact hc

theorem exact_updateDedup {p : DedupRow → Bool} {f : DedupRow → DedupRow} (hx : Exact db)
    (h : updateDedup p f db = some (n, db')) (hf : ∀ row, (f row).chargedBytes = row.chargedBytes) :
    Exact db' := by
  obtain ⟨_, hupd, hd, hu⟩ := updateDedup_eq h
  obtain ⟨hrows, _⟩ := Table.update_eq_some hupd
  refine exact_of_tables hx hd (fun _ _ => by rw [hu]) ?_
  have hc := hx .webhookDedup
  simp only [aggregate] at hc ⊢
  rw [Table.total_map _ hrows fun row _ => hf row, hrows, List.length_map, hu]
  exact hc

theorem exact_insertOrIgnore {row : DeliveryRow} (hx : Exact db)
    (h : insertOrIgnoreDelivery row db = some (n, db')) : Exact db' := by
  rcases insertOrIgnoreDelivery_eq h with ⟨_, rfl⟩ | ⟨_, hins, hd, htrig⟩
  · exact hx
  obtain ⟨hc, ho⟩ := trigger_counts htrig (hx .deliveryLog)
  obtain ⟨_, _, hrows, _⟩ := Table.insert_eq_some hins
  refine exact_of_log hx hd ho ?_
  simp only [aggregate] at hc ⊢
  rw [Table.total_append_row _ hrows, hrows, List.length_append]
  push_cast
  exact hc

variable {p : DeliveryRow → Bool}

theorem exact_deleteDelivery (hx : Exact db) (h : deleteDelivery p db = some (n, db')) : Exact db' := by
  obtain ⟨_, hdel, hd, htrig⟩ := deleteDelivery_eq h
  obtain ⟨hc, ho⟩ := triggerDeletes_counts htrig (hx .deliveryLog)
  obtain ⟨hlen, hsum⟩ := delete_moves db.deliveryLog p fun row => row.chargedBytes
  refine exact_of_log hx hd ho ?_
  simp only [aggregate] at hc ⊢
  rw [hdel, hlen, hsum]
  exact hc

theorem exact_updateDelivery {f : DeliveryRow → DeliveryRow} (hx : Exact db)
    (h : updateDelivery p f db = some (n, db'))
    (hf : ∀ row, (f row).chargedBytes = row.chargedBytes) : Exact db' := by
  obtain ⟨_, hupd, hd, hu⟩ := updateDelivery_eq h
  obtain ⟨hrows, _⟩ := Table.update_eq_some hupd
  refine exact_of_log hx hd (fun _ _ => by rw [hu]) ?_
  have hc := hx .deliveryLog
  simp only [aggregate] at hc ⊢
  rw [Table.total_map _ hrows fun row _ => hf row, hrows, List.length_map, hu]
  exact hc

/-! ## Operations -/

variable {ε : Type}

theorem exact_changeOne {unavailable refused missing : ε} {there : Database → Bool}
    {update : Database → Option (Nat × Database)} {answer : Except ε Unit} (hx : Exact db)
    (hupd : ∀ n db₁, update db = some (n, db₁) → Exact db₁)
    (h : Op.ChangeOneRun unavailable refused missing there update db answer db') : Exact db' := by
  cases h with
  | failed => exact hx
  | changed h => exact hupd _ _ h
  | refused h => exact hx
  | missing h => exact hx

theorem exact_statement {unavailable : ε} {statement : Database → Option (Nat × Database)}
    {answer : Except ε Nat} (hx : Exact db) (hstat : ∀ n db₁, statement db = some (n, db₁) → Exact db₁)
    (h : Op.StatementRun unavailable statement db answer db') : Exact db' := by
  cases h with
  | failed => exact hx
  | done h => exact hstat _ _ h

variable {now : Nat}

theorem exact_timed {α : Type} {lateError : ε} {run : Except ε α → Database → Prop}
    {answer : Except ε α} (hx : Exact db) (hrun : ∀ answer db', run answer db' → Exact db')
    (h : Timed lateError now db run answer db') : Exact db' := by
  cases h with
  | late ht => exact hx
  | timely ht h => exact hrun _ _ h

variable {key : DedupKey} {policy : DedupClaimPolicy}

theorem exact_claim {usage : Database → Option (Int × Int)} {limits : DedupStoreLimits}
    {answer : Except DedupStoreError DedupClaim} (hx : Exact db)
    (h : ClaimRun usage limits key policy now db answer db') : Exact db' := by
  cases h with
  | failed => exact hx
  | late ht => exact hx
  | duplicate ht hdel hfind => exact exact_deleteDedup hx hdel
  | full ht hdel hfind husage hfull => exact exact_deleteDedup hx hdel
  | claimed ht hdel hfind husage hroom hins =>
    exact exact_insertDedup (exact_deleteDedup hx hdel) hins

variable {limits : PersistentDeliveryLogLimits} {intent : DeliveryIntent}

theorem exact_insertIntent {usage : Database → Option (Int × Int)}
    {answer : Except DeliveryLogError Unit} (hx : Exact db)
    (h : InsertRun usage limits intent db answer db') : Exact db' := by
  cases h with
  | failed => exact hx
  | late ht => exact hx
  | conflict ht hdel hfind => exact exact_deleteDelivery hx hdel
  | full ht hdel hfind husage hfull => exact exact_deleteDelivery hx hdel
  | inserted ht hdel hfind husage hroom hins =>
    exact exact_insertOrIgnore (exact_deleteDelivery hx hdel) hins

theorem exact_dedupCall (call : DedupCall) (hx : Exact db) : Exact (call.perform db).2 := by
  have hrun := perform_run call db
  generalize call.request = request at hrun
  generalize (call.perform db).1 = answer at hrun
  generalize (call.perform db).2 = db' at hrun ⊢
  cases hrun with
  | claim h => exact exact_claim hx h
  | complete h =>
    refine exact_timed hx (fun _ _ hr => exact_changeOne hx (fun _ _ hu => ?_) hr) h
    exact exact_updateDedup hx hu fun _ => rfl
  | markUnknown h =>
    refine exact_timed hx (fun _ _ hr => exact_changeOne hx (fun _ _ hu => ?_) hr) h
    exact exact_updateDedup hx hu fun _ => rfl
  | releaseClaim h => exact exact_changeOne hx (fun _ _ hu => exact_deleteDedup hx hu) h
  | recoverInFlight h =>
    refine exact_timed hx (fun _ _ hr => exact_statement hx (fun _ _ hu => ?_) hr) h
    exact exact_updateDedup hx hu fun _ => rfl
  | @resolveUnknown key res now r db' h =>
    refine exact_timed hx (fun _ _ hr => exact_changeOne hx (fun _ _ hu => ?_) hr) h
    cases res with
    | completed => exact exact_updateDedup hx hu fun _ => rfl
    | retryAllowed => exact exact_deleteDedup hx hu
  | clearCompletedBefore h =>
    refine exact_timed hx (fun _ _ hr => exact_statement hx (fun _ _ hu => ?_) hr) h
    exact exact_deleteDedup hx hu

theorem exact_deliveryCall (call : DeliveryCall) (hx : Exact db) : Exact (call.perform db) := by
  have hrun := logPerform_run call db
  generalize call.request = request at hrun
  generalize call.perform db = db' at hrun ⊢
  cases hrun with
  | insertIntent h => exact exact_insertIntent hx h
  | attemptZero => exact hx
  | recordAttempt hpos h =>
    refine exact_timed hx (fun _ _ hr => exact_changeOne hx (fun _ _ hu => ?_) hr) h
    exact exact_updateDelivery hx hu fun _ => rfl
  | recordOutcome h =>
    refine exact_timed hx (fun _ _ hr => exact_changeOne hx (fun _ _ hu => ?_) hr) h
    exact exact_updateDelivery hx hu fun _ => rfl
  | recoverUnfinished h =>
    refine exact_timed hx (fun _ _ hr => exact_statement hx (fun _ _ hu => ?_) hr) h
    exact exact_updateDelivery hx hu fun _ => rfl

/-! ## Runs -/

/-- A call of either store. -/
inductive StoreCall where
  | dedup (call : DedupCall)
  | delivery (call : DeliveryCall)

def StoreCall.perform (call : StoreCall) (db : Database) : Database :=
  match call with
  | .dedup call => (call.perform db).2
  | .delivery call => call.perform db

/-- Any interleaving of calls: the write lock makes each of them one step. -/
def runStore (calls : List StoreCall) (db : Database) : Database :=
  calls.foldl (fun db call => call.perform db) db

theorem exact_runStore (calls : List StoreCall) (hx : Exact db) : Exact (runStore calls db) := by
  induction calls generalizing db with
  | nil => exact hx
  | cons call rest ih =>
    refine ih ?_
    cases call with
    | dedup call => exact exact_dedupCall call hx
    | delivery call => exact exact_deliveryCall call hx

theorem exact_refresh {db₀ : Database} (h : refresh db₀ = some db) : Exact db := by
  obtain ⟨logged, hl, h⟩ := Option.bind_eq_some_iff.mp h
  obtain ⟨seen, hs, h⟩ := Option.bind_eq_some_iff.mp h
  cases h
  intro table
  cases table with
  | deliveryLog => exact ⟨logged, rfl, write_eq hl⟩
  | webhookDedup => exact ⟨seen, rfl, write_eq hs⟩

/-! ## Admission -/

theorem readUsage_exact (hx : Exact db) (table : CountedTable) :
    readUsage table db = some (aggregate db table) := by
  obtain ⟨row, hget, hr, hb, hcheck⟩ := hx table
  obtain ⟨h1, h2, h3, h4, h5⟩ := usageCheck_iff.mp hcheck
  unfold readUsage
  rw [hget]
  simp only [hr, hb]
  cases table with
  | deliveryLog =>
    have h6 : (aggregate db .deliveryLog).2 = (aggregate db .deliveryLog).1 * 512 := by simpa using h5
    rw [if_neg (by simp; omega), if_neg (by simp; omega)]
  | webhookDedup =>
    rw [if_neg (by simp; omega), if_neg (by simp; omega)]

theorem claim_aggregates (hx : Exact db) (limits : DedupStoreLimits) (key : DedupKey)
    (policy : DedupClaimPolicy) (now : Nat) (faults : List Bool) :
    (claim limits key policy now).run faults db =
      (claimWith (fun d => some (aggregate d .webhookDedup)) limits key policy now).run faults db := by
  refine Op.Agree.run ?_ faults
  refine .bind ?_
  cases encodedTime now with
  | error e => exact .fail trivial
  | ok updatedAt =>
    refine .pure (.bind (.enter trivial (.bind (.enter trivial (.bind ?_)))))
    refine .call trivial fun n db₁ hdel => .bind (.query trivial fun existing _ => ?_)
    cases existing with
    | some e => exact .refl _
    | none => exact .query (readUsage_exact (exact_deleteDedup hx hdel) .webhookDedup)

theorem insertIntent_aggregates (hx : Exact db) (limits : PersistentDeliveryLogLimits)
    (intent : DeliveryIntent) (faults : List Bool) : (insertIntent limits intent).run faults db =
      (insertIntentWith (fun d => some (aggregate d .deliveryLog)) limits intent).run faults db := by
  refine Op.Agree.run ?_ faults
  refine .bind ?_
  cases encodedLogTime intent.acceptedAtUnixMs with
  | error e => exact .fail trivial
  | ok acceptedAt =>
    refine .pure (.bind ?_)
    cases cutoff limits acceptedAt with
    | error e => exact .fail trivial
    | ok before =>
      refine .pure (.bind (.enter trivial (.bind (.enter trivial (.bind ?_)))))
      refine .call trivial fun n db₁ hdel => .bind (.query trivial fun there _ => ?_)
      cases there with
      | true => exact .refl _
      | false => exact .query (readUsage_exact (exact_deleteDelivery hx hdel) .deliveryLog)

theorem fits_of_room {maxRecords maxBytes : Nat} {charged : Int} (hmax : maxBytes < i64Max)
    (h : exhausted maxRecords maxBytes records bytes charged = false) :
    records + 1 ≤ maxRecords ∧ bytes + charged ≤ maxBytes := by
  simp only [exhausted, Bool.or_eq_false_iff, decide_eq_false_iff_not, not_le, not_lt] at h
  omega

theorem claimed_fits {limits : DedupStoreLimits} {faults : List Bool} (hx : Exact db)
    (h : (claim limits key policy now).run faults db = (.ok .claimed, db')) :
    (aggregate db' .webhookDedup).1 ≤ limits.records ∧ (aggregate db' .webhookDedup).2 ≤ limits.bytes := by
  have hmax : limits.bytes < i64Max := by
    have := limits.bytes_mem
    unfold i64Max
    omega
  cases claimWith_run h with
  | claimed ht hdel hfind husage hroom hins =>
    rw [readUsage_exact (exact_deleteDedup hx hdel)] at husage
    obtain ⟨hr, hb⟩ := Prod.mk.injEq .. ▸ Option.some.inj husage
    obtain ⟨_, hrow, _, _⟩ := insertDedup_eq hins
    obtain ⟨_, _, hrows, _⟩ := Table.insert_eq_some hrow
    have hfit := fits_of_room hmax hroom
    simp only [aggregate] at hr hb ⊢
    rw [Table.total_append_row _ hrows, hrows, List.length_append]
    push_cast
    rw [hr, hb]
    exact hfit

theorem inserted_fits {faults : List Bool} (hx : Exact db)
    (h : (insertIntent limits intent).run faults db = (.ok (), db')) :
    (aggregate db' .deliveryLog).1 ≤ limits.records ∧ (aggregate db' .deliveryLog).2 ≤ limits.bytes := by
  have hmax : limits.bytes < i64Max := by
    have := limits.bytes_mem
    unfold i64Max
    omega
  cases insertIntentWith_run h with
  | inserted ht hdel hfind husage hroom hins =>
    rw [readUsage_exact (exact_deleteDelivery hx hdel)] at husage
    obtain ⟨hr, hb⟩ := Prod.mk.injEq .. ▸ Option.some.inj husage
    rcases insertOrIgnoreDelivery_eq hins with ⟨h0, _⟩ | ⟨_, hrow, _, _⟩
    · cases h0
    obtain ⟨_, _, hrows, _⟩ := Table.insert_eq_some hrow
    have hfit := fits_of_room hmax hroom
    simp only [aggregate] at hr hb ⊢
    rw [Table.total_append_row _ hrows, hrows, List.length_append]
    push_cast
    rw [hr, hb]
    exact hfit

/-! ## Unreadable counters -/

/-- What the CHECK constraints of the two tables allow as a charge. -/
def validCharge (table : CountedTable) (charge : Int) : Prop :=
  match table with
  | .deliveryLog => charge = 512
  | .webhookDedup => 96 ≤ charge

/-- A delete trigger that goes through found readable counters: had they been missing or wrong, the
    constraints on `storage_usage` would have stopped it. -/
theorem readable_of_trigger {charge : Int} (hv : validCharge table charge)
    (h : trigger table (-1) (-charge) db.usage = some usage) : readUsage table db ≠ none := by
  unfold trigger at h
  unfold readUsage
  cases hget : db.usage.get table with
  | none =>
    rw [hget] at h
    cases h
  | some row =>
    rw [hget] at h
    obtain ⟨row', hw, _⟩ := Option.map_eq_some_iff.mp h
    obtain ⟨_, _, hcheck⟩ := write_eq hw
    obtain ⟨h1, h2, h3, h4, h5⟩ := usageCheck_iff.mp hcheck
    have hb := row.bytes_i64
    simp only
    cases table with
    | deliveryLog =>
      have hc : charge = 512 := hv
      have h6 : row.chargedBytes + -charge = (row.records + -1) * 512 := by simpa using h5
      rw [if_neg (by simp; omega), if_neg (by simp; omega)]
      simp
    | webhookDedup =>
      have hc : 96 ≤ charge := hv
      rw [if_neg (by simp; omega), if_neg (by simp; omega)]
      simp

theorem readUsage_none_of_deletes (hv : ∀ c ∈ charges, validCharge table c)
    (hn : readUsage table db = none) (h : triggerDeletes table charges db.usage = some db'.usage) :
    readUsage table db' = none := by
  cases charges with
  | nil =>
    have hu : db.usage = db'.usage := Option.some.inj h
    unfold readUsage at hn ⊢
    rw [← hu]
    exact hn
  | cons charge rest =>
    obtain ⟨mid, hmid, _⟩ := Option.bind_eq_some_iff.mp h
    exact absurd hn (readable_of_trigger (hv charge (by simp)) hmid)

theorem charge_valid_of_check {row : DedupRow} (h : row.check = true) :
    validCharge .webhookDedup row.chargedBytes := by
  simp only [DedupRow.check, Bool.and_eq_true, decide_eq_true_eq] at h
  exact h.1.2

theorem dedup_charge_valid {p : DedupRow → Bool} :
    ∀ c ∈ (db.webhookDedup.matched p).map fun e => e.2.chargedBytes, validCharge .webhookDedup c := by
  intro c hc
  obtain ⟨e, he, rfl⟩ := List.mem_map.mp hc
  exact charge_valid_of_check (db.webhookDedup.checked e (List.mem_of_mem_filter he))

theorem delivery_charge_valid : ∀ c ∈ (db.deliveryLog.matched p).map fun e => e.2.chargedBytes,
      validCharge .deliveryLog c := by
  intro c hc
  obtain ⟨e, he, rfl⟩ := List.mem_map.mp hc
  have hcheck : e.2.check = true := db.deliveryLog.checked e (List.mem_of_mem_filter he)
  simp only [DeliveryRow.check, Bool.and_eq_true, decide_eq_true_eq] at hcheck
  exact hcheck.1.1.2

theorem claim_unreadable {limits : DedupStoreLimits} (faults : List Bool)
    (hn : readUsage .webhookDedup db = none) (hnew : db.webhookDedup.find key = none) (ht : now ≤ i64Max) :
    (claim limits key policy now).run faults db = (.error .unavailable, db) := by
  generalize hr : (claim limits key policy now).run faults db = out
  obtain ⟨answer, db'⟩ := out
  have hgone : ∀ {n db₁}, deleteDedup (expired now) db = some (n, db₁) →
      db₁.webhookDedup.find key = none ∧ readUsage .webhookDedup db₁ = none := by
    intro n db₁ hdel
    obtain ⟨_, htab, _, htrig⟩ := deleteDedup_eq hdel
    refine ⟨?_, readUsage_none_of_deletes dedup_charge_valid hn htrig⟩
    rw [htab, Table.find_delete, hnew]
    rfl
  cases claimWith_run hr with
  | failed => rfl
  | late hlate => exact absurd ht hlate
  | duplicate _ hdel hfind =>
    rw [(hgone hdel).1] at hfind
    cases hfind
  | full _ hdel _ husage _ =>
    rw [(hgone hdel).2] at husage
    cases husage
  | claimed _ hdel _ husage _ _ =>
    rw [(hgone hdel).2] at husage
    cases husage

theorem insertIntent_unreadable (faults : List Bool) (hn : readUsage .deliveryLog db = none)
    (hnew : db.deliveryLog.find intent.delivery = none) (ht : intent.acceptedAtUnixMs ≤ i64Max) :
    (insertIntent limits intent).run faults db = (.error .unavailable, db) := by
  generalize hr : (insertIntent limits intent).run faults db = out
  obtain ⟨answer, db'⟩ := out
  have hgone : ∀ {n db₁},
      deleteDelivery (retired (cutoffAt limits intent.acceptedAtUnixMs)) db = some (n, db₁) →
      db₁.deliveryLog.find intent.delivery = none ∧ readUsage .deliveryLog db₁ = none := by
    intro n db₁ hdel
    obtain ⟨_, htab, _, htrig⟩ := deleteDelivery_eq hdel
    refine ⟨?_, readUsage_none_of_deletes delivery_charge_valid hn htrig⟩
    rw [htab, Table.find_delete, hnew]
    rfl
  cases insertIntentWith_run hr with
  | failed => rfl
  | late hlate => exact absurd ht hlate
  | conflict _ hdel hfind =>
    rw [(hgone hdel).1] at hfind
    cases hfind
  | full _ hdel _ husage _ =>
    rw [(hgone hdel).2] at husage
    cases husage
  | inserted _ hdel _ husage _ _ =>
    rw [(hgone hdel).2] at husage
    cases husage

/-! ## Deletes go through -/

theorem usageCheck_charges (hv : ∀ c ∈ charges, validCharge table c)
    (hlen : (charges.length : Int) ≤ i64Max) (hsum : charges.sum ≤ i64Max) :
    usageCheck table charges.length charges.sum = true := by
  have hmin : (charges.length : Int) * 96 ≤ charges.sum ∧
      (table = .deliveryLog → charges.sum = charges.length * 512) := by
    clear hlen hsum
    induction charges with
    | nil => simp
    | cons c rest ih =>
      obtain ⟨h1, h2⟩ := ih fun c' hc' => hv c' (List.mem_cons_of_mem c hc')
      have hc := hv c (by simp)
      rw [List.length_cons, List.sum_cons]
      push_cast
      cases table with
      | deliveryLog =>
        have hc : c = 512 := hc
        have h2 := h2 rfl
        refine ⟨?_, fun _ => ?_⟩ <;> omega
      | webhookDedup =>
        have hc : 96 ≤ c := hc
        exact ⟨by omega, fun h => nomatch h⟩
  have hnil : (charges.length : Int) ≠ 0 ∨ charges.sum = 0 := by
    cases charges with
    | nil => exact .inr rfl
    | cons c rest => exact .inl (by rw [List.length_cons]; omega)
  rw [usageCheck_iff]
  refine ⟨⟨by omega, hlen⟩, ⟨by omega, hsum⟩, hnil, hmin.1, ?_⟩
  by_cases ht : table = .deliveryLog
  · exact .inr (hmin.2 ht)
  · exact .inl ht

theorem triggerDeletes_isSome {gone kept : List Int} (hv : ∀ c ∈ gone ++ kept, validCharge table c)
    (hc : Counts usage table (gone ++ kept).length (gone ++ kept).sum) :
    ∃ usage', triggerDeletes table gone usage = some usage' := by
  induction gone generalizing usage with
  | nil => exact ⟨usage, rfl⟩
  | cons c rest ih =>
    obtain ⟨row, hget, hr, hb, hcheck⟩ := hc
    obtain ⟨h1, h2, _⟩ := usageCheck_iff.mp hcheck
    have hv' : ∀ c ∈ rest ++ kept, validCharge table c :=
      fun c' hc' => hv c' (List.mem_cons_of_mem c hc')
    have hpos : 0 ≤ c := by
      have hc := hv c (by simp)
      cases table with
      | deliveryLog => have hc : c = 512 := hc; omega
      | webhookDedup => have hc : 96 ≤ c := hc; omega
    simp only [List.cons_append, List.length_cons, List.sum_cons] at hr hb h1 h2
    have hlen : row.records + -1 = ((rest ++ kept).length : Int) := by rw [hr]; omega
    have hsum : row.chargedBytes + -c = (rest ++ kept).sum := by rw [hb]; omega
    have hok := usageCheck_charges hv' (by omega) (by omega)
    obtain ⟨row', hw⟩ := write_isSome hok
    have htrig : trigger table (-1) (-c) usage = some (usage.set table row') := by
      unfold trigger
      rw [hget]
      simp only [hlen, hsum, hw, Option.map_some]
    obtain ⟨hr', hb', _⟩ := write_eq hw
    have hnext : Counts (usage.set table row') table (rest ++ kept).length (rest ++ kept).sum :=
      ⟨row', by rw [get_set, if_pos rfl], hr', hb', hok⟩
    obtain ⟨usage', hu⟩ := ih hv' hnext
    exact ⟨usage', by rw [triggerDeletes, htrig]; exact hu⟩

theorem deleteDedup_isSome (hx : Exact db) (p : DedupRow → Bool) :
    ∃ n db', deleteDedup p db = some (n, db') := by
  let gone := (db.webhookDedup.matched p).map fun e => e.2.chargedBytes
  let kept := (db.webhookDedup.delete p).rows.map fun e => e.2.chargedBytes
  have hmoves : ((db.webhookDedup.delete p).rows.length : Int) =
        db.webhookDedup.rows.length - gone.length ∧
      (db.webhookDedup.delete p).total (fun row => row.chargedBytes) =
        db.webhookDedup.total (fun row => row.chargedBytes) - gone.sum :=
    delete_moves db.webhookDedup p fun row => row.chargedBytes
  have hv : ∀ c ∈ gone ++ kept, validCharge .webhookDedup c := by
    intro c hc
    rcases List.mem_append.mp hc with hc | hc
    · exact dedup_charge_valid c hc
    · obtain ⟨e, he, rfl⟩ := List.mem_map.mp hc
      exact charge_valid_of_check ((db.webhookDedup.delete p).checked e he)
  have hr : (aggregate db .webhookDedup).1 = (gone ++ kept).length := by
    have hk : kept.length = (db.webhookDedup.delete p).rows.length := List.length_map _
    rw [List.length_append, hk]
    push_cast
    simp only [aggregate]
    omega
  have hb : (aggregate db .webhookDedup).2 = (gone ++ kept).sum := by
    have hk : kept.sum = (db.webhookDedup.delete p).total fun row => row.chargedBytes := rfl
    rw [List.sum_append, hk]
    simp only [aggregate]
    omega
  have hc := hx .webhookDedup
  rw [hr, hb] at hc
  obtain ⟨usage', hu⟩ := triggerDeletes_isSome hv hc
  exact ⟨_, _, by rw [deleteDedup, hu]; rfl⟩

/-! ## The result -/

/-- **The usage counters are exact**, after every interleaving of calls on a migrated database: each
    row equals the aggregates of its table; admission by counters is admission by aggregation, and
    leaves the table within the limits of the store that admitted; and on a database whose counters
    cannot be read, a new key or delivery is refused with nothing changed. -/
theorem usage_counters_exact {db₀ db : Database} (hm : refresh db₀ = some db) (calls : List StoreCall) :
    (∀ table, ∃ row, (runStore calls db).usage.get table = some row ∧
      (row.records, row.chargedBytes) = aggregate (runStore calls db) table) ∧
    (∀ limits key policy now faults, (claim limits key policy now).run faults (runStore calls db) =
        (claimWith (fun d => some (aggregate d .webhookDedup)) limits key policy now).run faults
          (runStore calls db)) ∧ (∀ limits intent faults,
      (insertIntent limits intent).run faults (runStore calls db) =
        (insertIntentWith (fun d => some (aggregate d .deliveryLog)) limits intent).run faults
          (runStore calls db)) ∧ (∀ limits key policy now faults db',
      (claim limits key policy now).run faults (runStore calls db) = (.ok .claimed, db') →
        (aggregate db' .webhookDedup).1 ≤ limits.records ∧ (aggregate db' .webhookDedup).2 ≤ limits.bytes) ∧
    (∀ limits intent faults db', (insertIntent limits intent).run faults (runStore calls db) = (.ok (), db') →
        (aggregate db' .deliveryLog).1 ≤ limits.records ∧ (aggregate db' .deliveryLog).2 ≤ limits.bytes) ∧
    (∀ (unreadable : Database) limits key policy now faults,
      readUsage .webhookDedup unreadable = none → unreadable.webhookDedup.find key = none → now ≤ i64Max →
        (claim limits key policy now).run faults unreadable = (.error .unavailable, unreadable)) ∧
    (∀ (unreadable : Database) limits (intent : DeliveryIntent) faults,
      readUsage .deliveryLog unreadable = none →
        unreadable.deliveryLog.find intent.delivery = none → intent.acceptedAtUnixMs ≤ i64Max →
        (insertIntent limits intent).run faults unreadable = (.error .unavailable, unreadable)) := by
  have hx : Exact (runStore calls db) := exact_runStore calls (exact_refresh hm)
  refine ⟨fun table => ?_, claim_aggregates hx, insertIntent_aggregates hx, ?_, ?_, ?_, ?_⟩
  · obtain ⟨row, hget, hr, hb, _⟩ := hx table
    exact ⟨row, hget, by rw [hr, hb]⟩
  · intro limits key policy now faults db' h
    exact claimed_fits hx h
  · intro limits intent faults db' h
    exact inserted_fits hx h
  · intro unreadable limits key policy now faults hn hnew ht
    exact claim_unreadable faults hn hnew ht
  · intro unreadable limits intent faults hn hnew ht
    exact insertIntent_unreadable faults hn hnew ht

/-- One claim on a fresh database: one record of 112 bytes, and the counters say so. -/
theorem usage_counters_exact_one_claim : refresh emptyTables = some migrated ∧
      ∃ row, (runStore [.dedup ⟨.claim sampleKey .expireCompleted 1000, .standard, []⟩]
          migrated).usage.get .webhookDedup = some row ∧ (row.records, row.chargedBytes) = (1, 112) := by
  refine ⟨rfl, ?_⟩
  obtain ⟨row, hget, hrow⟩ := (usage_counters_exact refresh_emptyTables
    [.dedup ⟨.claim sampleKey .expireCompleted 1000, .standard, []⟩]).1 .webhookDedup
  exact ⟨row, hget, hrow.trans (by decide)⟩

/-- A time that does not fit a column is refused before the counters are read, so a missing row is
    then not reported as `Unavailable`. -/
theorem claim_late_despite_missing_counters :
    readUsage .webhookDedup emptyTables = none ∧ emptyTables.webhookDedup.find sampleKey = none ∧
      ((claim .standard sampleKey .expireCompleted (2 ^ 63)).run [] emptyTables).1 =
        .error .invalidTransition := by
  exact ⟨rfl, rfl, by decide⟩

end Bondry.Store

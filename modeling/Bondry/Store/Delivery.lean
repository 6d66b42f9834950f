/-
  THE SQLCIPHER DELIVERY LOG (`bondry-store-sqlcipher`, `delivery.rs`).

  The operations of `SqlCipherDeliveryLog`, statement by statement, and the proof that they are a
  `LawfulLog`: whatever calls to SQLite fail, a pending record is never lost or overwritten, an
  attempt count only grows, and a terminal record never changes until retention removes it.
-/
import Bondry.Store.Database

namespace Bondry.Store

open Sql

abbrev DeliveryM := Op DeliveryLogError Database

/-! ## Encodings -/

/-- `encoded_time` of `delivery.rs`. -/
def encodedLogTime (value : Nat) : Except DeliveryLogError Int :=
  if value ≤ i64Max then .ok value else .error .invalidTransition

def encodeFailure : DeliveryFailure → String
  | .cancelled => "cancelled"
  | .deadlineExceeded => "deadline_exceeded"
  | .endpointPolicy => "endpoint_policy"
  | .secretUnavailable => "secret_unavailable"
  | .transportUnavailable => "transport_unavailable"
  | .receiverRejected => "receiver_rejected"
  | .retryExhausted => "retry_exhausted"
  | .internal => "internal"

def decodeFailure (value : String) : Except DeliveryLogError DeliveryFailure :=
  if value = "cancelled" then .ok .cancelled
  else if value = "deadline_exceeded" then .ok .deadlineExceeded
  else if value = "endpoint_policy" then .ok .endpointPolicy
  else if value = "secret_unavailable" then .ok .secretUnavailable
  else if value = "transport_unavailable" then .ok .transportUnavailable
  else if value = "receiver_rejected" then .ok .receiverRejected
  else if value = "retry_exhausted" then .ok .retryExhausted
  else if value = "internal" then .ok .internal
  else .error .unavailable

def encodeOutcome : DeliveryOutcome → DeliveryRowState × Option String
  | .delivered => (.delivered, none)
  | .failed failure => (.failed, some (encodeFailure failure))
  | .lostOnShutdown => (.lostOnShutdown, none)
  | .unknownAfterCrash => (.unknownAfterCrash, none)

/-- The category half of `encode_result`. -/
def encodeCategory : DeliveryResultCategory → String
  | .succeeded => "succeeded"
  | .failed => "failed"
  | .invalid => "invalid"

def encodeResult : Option DeliveryResultMetadata → Option String × Option Int
  | none => (none, none)
  | some result => (some (encodeCategory result.category), some (result.bytes.toNat : Int))

def decodeState (state : DeliveryRowState) (failure : Option String) :
    Except DeliveryLogError DeliveryState :=
  match state, failure with
  | .pending, none => .ok .pending
  | .delivered, none => .ok (.terminal .delivered)
  | .failed, some failure => (decodeFailure failure).map fun f => .terminal (.failed f)
  | .lostOnShutdown, none => .ok (.terminal .lostOnShutdown)
  | .unknownAfterCrash, none => .ok (.terminal .unknownAfterCrash)
  | _, _ => .error .unavailable

/-- The category half of `decode_result`. -/
def decodeCategory (category : String) : Except DeliveryLogError DeliveryResultCategory :=
  if category = "succeeded" then .ok .succeeded
  else if category = "failed" then .ok .failed
  else if category = "invalid" then .ok .invalid
  else .error .unavailable

def decodeResult (category : Option String) (bytes : Option Int) :
    Except DeliveryLogError (Option DeliveryResultMetadata) :=
  match category, bytes with
  | none, none => .ok none
  | some category, some bytes => do
      let category ← decodeCategory category
      if 0 ≤ bytes ∧ bytes ≤ 2 ^ 32 - 1 then .ok (some ⟨category, UInt32.ofNat bytes.toNat⟩)
      else .error .unavailable
  | _, _ => .error .unavailable

/-- `RawDeliveryRecord::validate`.  The identifiers need no second check: the columns only ever
    hold the text of valid identifiers, so the row stores them as such. -/
def validateRow (row : DeliveryRow) : Except DeliveryLogError DeliveryRecord := do
  let acceptedAt ← if 0 ≤ row.acceptedAtMs then .ok row.acceptedAtMs.toNat else .error .unavailable
  let attempts ← if 0 ≤ row.attempts ∧ row.attempts ≤ 65535 then .ok row.attempts.toNat
    else .error .unavailable
  let updatedAt ← if 0 ≤ row.updatedAtMs then .ok row.updatedAtMs.toNat else .error .unavailable
  let state ← decodeState row.state row.failureKind
  let result ← decodeResult row.resultCategory row.resultBytes
  .ok { intent := ⟨row.route, row.delivery, acceptedAt⟩, attempts := attempts, state := state,
        updatedAtUnixMs := updatedAt, result := result }

/-! ## Statements -/

/-- `state != 'pending' AND updated_at_ms < ?1`. -/
def retired (cutoff : Int) (row : DeliveryRow) : Bool :=
  decide (row.state ≠ .pending) && decide (row.updatedAtMs < cutoff)

def intentRow (intent : DeliveryIntent) : DeliveryRow :=
  { delivery := intent.delivery, route := intent.route, acceptedAtMs := intent.acceptedAtUnixMs,
    attempts := 0, state := .pending, failureKind := none, updatedAtMs := intent.acceptedAtUnixMs,
    resultCategory := none, resultBytes := none,
    chargedBytes := persistentDeliveryRecordChargeBytes }

/-- `delivery_id = ?1 AND state = 'pending' AND attempts < ?2`. -/
def attemptable (delivery : DeliveryId) (attempts : Int) (row : DeliveryRow) : Bool :=
  decide (row.delivery = delivery) && decide (row.state = .pending) &&
    decide (row.attempts < attempts)

/-- `delivery_id = ?1 AND state = 'pending'`. -/
def concludable (delivery : DeliveryId) (row : DeliveryRow) : Bool :=
  decide (row.delivery = delivery) && decide (row.state = .pending)

/-- `SET attempts = ?2, updated_at_ms = ?3`. -/
def setAttempts (attempts updatedAt : Int) (row : DeliveryRow) : DeliveryRow :=
  { row with attempts := attempts, updatedAtMs := updatedAt }

/-- `SET state = ?2, failure_kind = ?3, updated_at_ms = ?4, result_category = ?5, result_bytes = ?6`. -/
def setOutcome (outcome : DeliveryOutcome) (updatedAt : Int)
    (result : Option DeliveryResultMetadata) (row : DeliveryRow) : DeliveryRow :=
  { row with
    state := (encodeOutcome outcome).1, failureKind := (encodeOutcome outcome).2,
    updatedAtMs := updatedAt, resultCategory := (encodeResult result).1,
    resultBytes := (encodeResult result).2 }

/-- `SET state = 'unknown_after_crash', updated_at_ms = ?1`. -/
def setUnknownAfterCrash (updatedAt : Int) (row : DeliveryRow) : DeliveryRow :=
  { row with state := .unknownAfterCrash, updatedAtMs := updatedAt }

/-! ## Operations -/

/-- `i64::try_from(retention.as_millis())`, subtracted with `saturating_sub`. -/
def cutoff (limits : PersistentDeliveryLogLimits) (acceptedAt : Int) : Except DeliveryLogError Int :=
  if Duration.asMillis limits.retention ≤ i64Max then
    .ok (max (acceptedAt - Duration.asMillis limits.retention) (-(i64Max + 1)))
  else .error .invalidTransition

/-- `insert_intent`, over the way the usage counters are read. -/
def insertIntentWith (usage : Database → Option (Int × Int)) (limits : PersistentDeliveryLogLimits)
    (intent : DeliveryIntent) : DeliveryM Unit := do
  let acceptedAt ← Op.ofExcept (encodedLogTime intent.acceptedAtUnixMs)
  let before ← Op.ofExcept (cutoff limits acceptedAt)
  Op.enter .unavailable
  Op.enter .unavailable
  let _ ← Op.call .unavailable (deleteDelivery (retired before))
  let there ← Op.query .unavailable fun db => some (db.deliveryLog.find intent.delivery).isSome
  if there then do
    Op.commit .unavailable
    Op.fail .conflict
  else do
    let (records, bytes) ← Op.query .unavailable usage
    if exhausted limits.records limits.bytes records bytes persistentDeliveryRecordChargeBytes
    then do
      Op.commit .unavailable
      Op.fail .capacityExhausted
    else do
      let changed ← Op.call .unavailable (insertOrIgnoreDelivery (intentRow intent))
      if changed ≠ 1 then do
        Op.commit .unavailable
        Op.fail .conflict
      else Op.commit .unavailable

def insertIntent (limits : PersistentDeliveryLogLimits) (intent : DeliveryIntent) : DeliveryM Unit :=
  insertIntentWith (readUsage .deliveryLog) limits intent

/-- `SqlCipherDeliveryLog::transition`. -/
def logTransition (delivery : DeliveryId) (update : Database → Option (Nat × Database)) : DeliveryM Unit :=
  Op.changeOne .unavailable .invalidTransition .notFound
    (fun db => (db.deliveryLog.find delivery).isSome) update

def recordAttempt (delivery : DeliveryId) (attempts updatedAtUnixMs : Nat) : DeliveryM Unit :=
  if attempts = 0 then Op.fail .invalidTransition
  else do
    let updatedAt ← Op.ofExcept (encodedLogTime updatedAtUnixMs)
    logTransition delivery
      (updateDelivery (attemptable delivery attempts) (setAttempts attempts updatedAt))

def recordOutcome (delivery : DeliveryId) (outcome : DeliveryOutcome) (updatedAtUnixMs : Nat)
    (result : Option DeliveryResultMetadata) : DeliveryM Unit := do
  let updatedAt ← Op.ofExcept (encodedLogTime updatedAtUnixMs)
  logTransition delivery
    (updateDelivery (concludable delivery) (setOutcome outcome updatedAt result))

def delivery (id : DeliveryId) : DeliveryM (Option DeliveryRecord) := do
  Op.enter .unavailable
  let row ← Op.query .unavailable fun db => some ((db.deliveryLog.find id).map fun e => e.2)
  match row with
  | none => pure none
  | some row => Op.ofExcept ((validateRow row).map some)

def recoverUnfinished (updatedAtUnixMs : Nat) : DeliveryM Nat := do
  let updatedAt ← Op.ofExcept (encodedLogTime updatedAtUnixMs)
  Op.single .unavailable
    (updateDelivery (fun row => decide (row.state = .pending)) (setUnknownAfterCrash updatedAt))

/-! ## What a run of an operation can have done -/

theorem encodedLogTime_ok {value : Nat} (h : value ≤ i64Max) : encodedLogTime value = .ok value := by
  rw [encodedLogTime, if_pos h]

theorem encodedLogTime_late {value : Nat} (h : ¬ value ≤ i64Max) :
    encodedLogTime value = .error .invalidTransition := by
  rw [encodedLogTime, if_neg h]

/-- The time before which `insert_intent` removes terminal records. -/
def cutoffAt (limits : PersistentDeliveryLogLimits) (acceptedAt : Nat) : Int :=
  max ((acceptedAt : Int) - Duration.asMillis limits.retention) (-(i64Max + 1))

theorem cutoff_ok (limits : PersistentDeliveryLogLimits) (acceptedAt : Nat) :
    cutoff limits acceptedAt = .ok (cutoffAt limits acceptedAt) := by
  have h := retention_asMillis limits.retention_mem
  have hfit : Duration.asMillis limits.retention ≤ i64Max := by unfold i64Max; omega
  rw [cutoff, if_pos hfit, cutoffAt]

theorem intentRow_check (intent : DeliveryIntent) : (intentRow intent).check = true := by
  simp [DeliveryRow.check, intentRow, persistentDeliveryRecordChargeBytes]

/-- Everything `insert_intent` can do: fail with nothing changed; or remove the retired records
    (`db₁`) and then find the delivery there, find no room, or insert its row. -/
inductive InsertRun (usage : Database → Option (Int × Int)) (limits : PersistentDeliveryLogLimits)
    (intent : DeliveryIntent) (db : Database) : Except DeliveryLogError Unit → Database → Prop
  | failed : InsertRun usage limits intent db (.error .unavailable) db
  | late (ht : ¬ intent.acceptedAtUnixMs ≤ i64Max) :
      InsertRun usage limits intent db (.error .invalidTransition) db
  | conflict {n : Nat} {db₁ : Database} (ht : intent.acceptedAtUnixMs ≤ i64Max)
      (hdel : deleteDelivery (retired (cutoffAt limits intent.acceptedAtUnixMs)) db = some (n, db₁))
      (hfind : (db₁.deliveryLog.find intent.delivery).isSome = true) :
      InsertRun usage limits intent db (.error .conflict) db₁
  | full {n : Nat} {db₁ : Database} {records bytes : Int} (ht : intent.acceptedAtUnixMs ≤ i64Max)
      (hdel : deleteDelivery (retired (cutoffAt limits intent.acceptedAtUnixMs)) db = some (n, db₁))
      (hfind : db₁.deliveryLog.find intent.delivery = none)
      (husage : usage db₁ = some (records, bytes))
      (hfull : exhausted limits.records limits.bytes records bytes
        persistentDeliveryRecordChargeBytes = true) :
      InsertRun usage limits intent db (.error .capacityExhausted) db₁
  | inserted {n : Nat} {db₁ db₂ : Database} {records bytes : Int}
      (ht : intent.acceptedAtUnixMs ≤ i64Max)
      (hdel : deleteDelivery (retired (cutoffAt limits intent.acceptedAtUnixMs)) db = some (n, db₁))
      (hfind : db₁.deliveryLog.find intent.delivery = none)
      (husage : usage db₁ = some (records, bytes))
      (hroom : exhausted limits.records limits.bytes records bytes
        persistentDeliveryRecordChargeBytes = false)
      (hins : insertOrIgnoreDelivery (intentRow intent) db₁ = some (1, db₂)) :
      InsertRun usage limits intent db (.ok ()) db₂

theorem insertOrIgnore_one {intent : DeliveryIntent} {db db' : Database} {n : Nat}
    (hfind : db.deliveryLog.find intent.delivery = none)
    (h : insertOrIgnoreDelivery (intentRow intent) db = some (n, db')) : n = 1 := by
  unfold insertOrIgnoreDelivery at h
  have hno : ¬ ((intentRow intent).check = false ∨
      (db.deliveryLog.find (intentRow intent).delivery).isSome = true) := by
    rw [intentRow_check]
    change ¬ (_ ∨ (db.deliveryLog.find intent.delivery).isSome = true)
    rw [hfind]
    simp
  rw [if_neg hno] at h
  obtain ⟨rows, _, h⟩ := Option.bind_eq_some_iff.mp h
  obtain ⟨usage, _, he⟩ := Option.map_eq_some_iff.mp h
  cases he
  rfl

theorem insertIntentWith_run {usage : Database → Option (Int × Int)}
    {limits : PersistentDeliveryLogLimits} {intent : DeliveryIntent} {faults : List Bool}
    {db db' : Database} {answer : Except DeliveryLogError Unit}
    (h : (insertIntentWith usage limits intent).run faults db = (answer, db')) :
    InsertRun usage limits intent db answer db' := by
  refine Op.Meets.run (P := InsertRun usage limits intent db) h ?_
  unfold insertIntentWith
  by_cases ht : intent.acceptedAtUnixMs ≤ i64Max
  swap
  · rw [encodedLogTime_late ht]
    exact .bind (.fail (.late ht))
  rw [encodedLogTime_ok ht]
  refine .bind (.pure ?_)
  rw [cutoff_ok]
  refine .bind (.pure (.bind (.enter .failed ?_)))
  refine .bind (.enter .failed ?_)
  refine .bind (.call .failed fun n db₁ hdel => ?_)
  refine .bind (.query .failed fun there hthere => ?_)
  simp only [Option.some.injEq] at hthere
  split
  · next hyes => exact .bind (.commit .failed (.fail (.conflict ht hdel (hthere.trans hyes))))
  · next hno =>
    have hfind : db₁.deliveryLog.find intent.delivery = none := by
      rw [← Option.not_isSome_iff_eq_none, hthere]
      exact hno
    refine .bind (.query .failed fun counters husage => ?_)
    obtain ⟨records, bytes⟩ := counters
    dsimp only
    split
    · next hfull => exact .bind (.commit .failed (.fail (.full ht hdel hfind husage hfull)))
    · next hroom =>
      refine .bind (.call .failed fun m db₂ hins => ?_)
      cases insertOrIgnore_one hfind hins
      rw [if_neg (by simp)]
      exact .commit .failed
        (.inserted ht hdel hfind husage (Bool.eq_false_iff.mpr hroom) hins)

/-- Everything a transition of one record can do: change exactly one row, or nothing. -/
abbrev LogTransitionRun (id : DeliveryId) (update : Database → Option (Nat × Database))
    (db : Database) : Except DeliveryLogError Unit → Database → Prop :=
  Op.ChangeOneRun .unavailable .invalidTransition .notFound
    (fun db => (db.deliveryLog.find id).isSome) update db

theorem recordAttempt_run {id : DeliveryId} {attempts now : Nat} {faults : List Bool}
    {db db' : Database} {answer : Except DeliveryLogError Unit} (hpos : attempts ≠ 0)
    (h : (recordAttempt id attempts now).run faults db = (answer, db')) : Timed .invalidTransition now db
      (LogTransitionRun id (updateDelivery (attemptable id attempts) (setAttempts attempts now)) db)
      answer db' := by
  refine Op.Meets.run (P := Timed .invalidTransition now db _) h ?_
  unfold recordAttempt
  rw [if_neg hpos]
  by_cases ht : now ≤ i64Max
  · rw [encodedLogTime_ok ht]
    exact .bind (.pure (Op.Meets.changeOne fun _ _ hr => .timely ht hr))
  · rw [encodedLogTime_late ht]
    exact .bind (.fail (.late ht))

theorem recordOutcome_run {id : DeliveryId} {outcome : DeliveryOutcome} {now : Nat}
    {result : Option DeliveryResultMetadata} {faults : List Bool} {db db' : Database}
    {answer : Except DeliveryLogError Unit}
    (h : (recordOutcome id outcome now result).run faults db = (answer, db')) :
    Timed .invalidTransition now db
      (LogTransitionRun id (updateDelivery (concludable id) (setOutcome outcome now result)) db)
      answer db' := by
  refine Op.Meets.run (P := Timed .invalidTransition now db _) h ?_
  unfold recordOutcome
  by_cases ht : now ≤ i64Max
  · rw [encodedLogTime_ok ht]
    exact .bind (.pure (Op.Meets.changeOne fun _ _ hr => .timely ht hr))
  · rw [encodedLogTime_late ht]
    exact .bind (.fail (.late ht))

theorem recoverUnfinished_run {now : Nat} {faults : List Bool} {db db' : Database}
    {answer : Except DeliveryLogError Nat} (h : (recoverUnfinished now).run faults db = (answer, db')) :
    Timed .invalidTransition now db (Op.StatementRun .unavailable
        (updateDelivery (fun row => decide (row.state = .pending)) (setUnknownAfterCrash now)) db)
      answer db' := by
  refine Op.Meets.run (P := Timed .invalidTransition now db _) h ?_
  unfold recoverUnfinished
  by_cases ht : now ≤ i64Max
  · rw [encodedLogTime_ok ht]
    exact .bind (.pure (.single fun _ _ hr => .timely ht hr))
  · rw [encodedLogTime_late ht]
    exact .bind (.fail (.late ht))

/-! ## Calls -/

inductive DeliveryRequest where
  | insertIntent (intent : DeliveryIntent)
  | recordAttempt (id : DeliveryId) (attempts now : Nat)
  | recordOutcome (id : DeliveryId) (outcome : DeliveryOutcome) (now : Nat)
      (result : Option DeliveryResultMetadata)
  | recoverUnfinished (now : Nat)
  deriving DecidableEq

/-- A request, the limits of the log object it is made on, and which of its calls to SQLite fail. -/
structure DeliveryCall where
  request : DeliveryRequest
  limits : PersistentDeliveryLogLimits
  faults : List Bool

def DeliveryCall.perform (call : DeliveryCall) (db : Database) : Database :=
  match call.request with
  | .insertIntent intent => ((insertIntent call.limits intent).run call.faults db).2
  | .recordAttempt id attempts now => ((recordAttempt id attempts now).run call.faults db).2
  | .recordOutcome id outcome now result =>
    ((recordOutcome id outcome now result).run call.faults db).2
  | .recoverUnfinished now => ((recoverUnfinished now).run call.faults db).2

/-- Everything a call can do to the database, by its request. -/
inductive LogCallRun (limits : PersistentDeliveryLogLimits) (db : Database) :
    DeliveryRequest → Database → Prop
  | insertIntent {intent r db'} (h : InsertRun (readUsage .deliveryLog) limits intent db r db') :
      LogCallRun limits db (.insertIntent intent) db'
  | attemptZero {id now} : LogCallRun limits db (.recordAttempt id 0 now) db
  | recordAttempt {id} {attempts now : Nat} {r db'} (hpos : attempts ≠ 0)
      (h : Timed .invalidTransition now db (LogTransitionRun id
        (updateDelivery (attemptable id attempts) (setAttempts attempts now)) db) r db') :
      LogCallRun limits db (.recordAttempt id attempts now) db'
  | recordOutcome {id outcome now result r db'}
      (h : Timed .invalidTransition now db (LogTransitionRun id
        (updateDelivery (concludable id) (setOutcome outcome now result)) db) r db') :
      LogCallRun limits db (.recordOutcome id outcome now result) db'
  | recoverUnfinished {now db'} {r : Except DeliveryLogError Nat}
      (h : Timed .invalidTransition now db (Op.StatementRun .unavailable
        (updateDelivery (fun row => decide (row.state = .pending)) (setUnknownAfterCrash now)) db)
        r db') :
      LogCallRun limits db (.recoverUnfinished now) db'

theorem logPerform_run (call : DeliveryCall) (db : Database) :
    LogCallRun call.limits db call.request (call.perform db) := by
  obtain ⟨request, limits, faults⟩ := call
  cases request with
  | insertIntent intent =>
    change LogCallRun limits db _ ((insertIntent limits intent).run faults db).2
    generalize hr : (insertIntent limits intent).run faults db = answer
    exact .insertIntent (insertIntentWith_run hr)
  | recordAttempt id attempts now =>
    change LogCallRun limits db _ ((recordAttempt id attempts now).run faults db).2
    by_cases hpos : attempts = 0
    · subst hpos
      exact .attemptZero
    · generalize hr : (recordAttempt id attempts now).run faults db = answer
      exact .recordAttempt hpos (recordAttempt_run hpos hr)
  | recordOutcome id outcome now result =>
    change LogCallRun limits db _ ((recordOutcome id outcome now result).run faults db).2
    generalize hr : (recordOutcome id outcome now result).run faults db = answer
    exact .recordOutcome (recordOutcome_run hr)
  | recoverUnfinished now =>
    change LogCallRun limits db _ ((recoverUnfinished now).run faults db).2
    generalize hr : (recoverUnfinished now).run faults db = answer
    exact .recoverUnfinished (recoverUnfinished_run hr)

end Bondry.Store

/-
  SQLCIPHER REPLAY PROTECTION (`bondry-store-sqlcipher`, `dedup.rs`).

  The seven mutating operations of `SqlCipherDedupStore`, statement by statement, in the monad of
  `Sql.Op`: a `?` on a failing call stops the operation and drops the transaction, a `commit` before
  an error return keeps what was done so far (the expiry inside `claim` survives
  `CapacityExhausted`).

  Proofs never unfold an operation twice.  What a run of it can have done to the database is an
  inductive predicate with one constructor for each end of the operation (`…_run`).
-/
import Bondry.Store.Database

namespace Bondry.Store

open Sql

abbrev DedupM := Op DedupStoreError Database

/-! ## Encodings -/

def encodedTime (value : Nat) : Except DedupStoreError Int :=
  if value ≤ i64Max then .ok value else .error .invalidTransition

/-- `expiration`: the retention is added with `saturating_add`. -/
def expiration (updatedAt : Int) (limits : DedupStoreLimits) : Except DedupStoreError Int :=
  if Duration.asMillis limits.retention ≤ i64Max then
    .ok (min (updatedAt + Duration.asMillis limits.retention) i64Max)
  else .error .invalidTransition

def dedupRecordBaseChargeBytes : Nat := 96

def encodedCharge (key : DedupKey) : Except DedupStoreError Int :=
  let charge := dedupRecordBaseChargeBytes + key.route.len + key.verifier.len
  if u64Max < charge then .error .unavailable
  else if i64Max < charge then .error .unavailable
  else .ok charge

/-! ## Statements -/

/-- `state = 'completed' AND expires_at_ms IS NOT NULL AND expires_at_ms <= ?1`. -/
def expired (updatedAt : Int) (row : DedupRow) : Bool :=
  row.state = .completed && row.expiresAtMs.any fun at_ => decide (at_ ≤ updatedAt)

/-- `route_id = ?1 AND verifier_namespace = ?2 AND delivery_hash = ?3 AND state = …`. -/
def selects (key : DedupKey) (state : DedupState) (row : DedupRow) : Bool :=
  decide (row.key = key) && decide (row.state = state)

/-- `state = 'completed' AND updated_at_ms < ?1`. -/
def clearable (cutoff : Int) (row : DedupRow) : Bool :=
  decide (row.state = .completed) && decide (row.updatedAtMs < cutoff)

/-- `SET state = 'completed', updated_at_ms = ?4,
    expires_at_ms = CASE automatic_expiry WHEN 1 THEN ?5 ELSE NULL END`. -/
def toCompleted (updatedAt expiresAt : Int) (row : DedupRow) : DedupRow :=
  { row with
    state := .completed, updatedAtMs := updatedAt,
    expiresAtMs := if row.automaticExpiry then some expiresAt else none }

/-- `SET state = 'unknown', updated_at_ms = …, expires_at_ms = NULL`. -/
def toUnknown (updatedAt : Int) (row : DedupRow) : DedupRow :=
  { row with state := .unknown, updatedAtMs := updatedAt, expiresAtMs := none }

def claimedRow (key : DedupKey) (policy : DedupClaimPolicy) (updatedAt charged : Int) : DedupRow :=
  { key := key, state := .inFlight, automaticExpiry := decide (policy = .expireCompleted),
    updatedAtMs := updatedAt, expiresAtMs := none, chargedBytes := charged }

/-! ## Operations -/

/-- `claim`, over the way the usage counters are read. -/
def claimWith (usage : Database → Option (Int × Int)) (limits : DedupStoreLimits) (key : DedupKey)
    (policy : DedupClaimPolicy) (updatedAtUnixMs : Nat) : DedupM DedupClaim := do
  let updatedAt ← Op.ofExcept (encodedTime updatedAtUnixMs)
  Op.enter .unavailable
  Op.enter .unavailable
  let _ ← Op.call .unavailable (deleteDedup (expired updatedAt))
  let existing ← Op.query .unavailable fun db => some (db.webhookDedup.find key)
  match existing with
  | some (_, row) => do
      Op.commit .unavailable
      pure (.duplicate row.state)
  | none => do
      let (records, bytes) ← Op.query .unavailable usage
      let charged ← Op.ofExcept (encodedCharge key)
      if exhausted limits.records limits.bytes records bytes charged then do
        Op.commit .unavailable
        Op.fail .capacityExhausted
      else do
        let _ ← Op.call .unavailable (insertDedup (claimedRow key policy updatedAt charged))
        Op.commit .unavailable
        pure .claimed

def claim (limits : DedupStoreLimits) (key : DedupKey) (policy : DedupClaimPolicy)
    (updatedAtUnixMs : Nat) : DedupM DedupClaim :=
  claimWith (readUsage .webhookDedup) limits key policy updatedAtUnixMs

/-- `SqlCipherDedupStore::transition`, with `record_exists`. -/
def transition (key : DedupKey) (update : Database → Option (Nat × Database)) : DedupM Unit :=
  Op.changeOne .unavailable .invalidTransition .notFound
    (fun db => (db.webhookDedup.find key).isSome) update

def complete (limits : DedupStoreLimits) (key : DedupKey) (updatedAtUnixMs : Nat) :
    DedupM Unit := do
  let updatedAt ← Op.ofExcept (encodedTime updatedAtUnixMs)
  let expiresAt ← Op.ofExcept (expiration updatedAt limits)
  transition key (updateDedup (selects key .inFlight) (toCompleted updatedAt expiresAt))

def markUnknown (key : DedupKey) (updatedAtUnixMs : Nat) : DedupM Unit := do
  let updatedAt ← Op.ofExcept (encodedTime updatedAtUnixMs)
  transition key (updateDedup (selects key .inFlight) (toUnknown updatedAt))

def releaseClaim (key : DedupKey) : DedupM Unit :=
  transition key (deleteDedup (selects key .inFlight))

def recoverInFlight (updatedAtUnixMs : Nat) : DedupM Nat := do
  let updatedAt ← Op.ofExcept (encodedTime updatedAtUnixMs)
  Op.single .unavailable
    (updateDedup (fun row => decide (row.state = .inFlight)) (toUnknown updatedAt))

def resolveUnknown (limits : DedupStoreLimits) (key : DedupKey) (resolution : DedupResolution)
    (updatedAtUnixMs : Nat) : DedupM Unit := do
  let updatedAt ← Op.ofExcept (encodedTime updatedAtUnixMs)
  let expiresAt ← Op.ofExcept (expiration updatedAt limits)
  transition key (match resolution with
    | .completed => updateDedup (selects key .unknown) (toCompleted updatedAt expiresAt)
    | .retryAllowed => deleteDedup (selects key .unknown))

def clearCompletedBefore (updatedBeforeUnixMs : Nat) : DedupM Nat := do
  let cutoff ← Op.ofExcept (encodedTime updatedBeforeUnixMs)
  Op.single .unavailable (deleteDedup (clearable cutoff))

/-- A key of the route `webhook` under the namespace `github:v1`. -/
def sampleKey : DedupKey :=
  ⟨⟨['w', 'e', 'b', 'h', 'o', 'o', 'k'], by decide⟩,
    ⟨['g', 'i', 't', 'h', 'u', 'b', ':', 'v', '1'], by decide⟩,
    ⟨List.replicate 32 0x5a, by decide⟩⟩

/-! ## Encodings, evaluated -/

theorem encodedTime_ok {value : Nat} (h : value ≤ i64Max) : encodedTime value = .ok value := by
  rw [encodedTime, if_pos h]

theorem encodedTime_late {value : Nat} (h : ¬ value ≤ i64Max) :
    encodedTime value = .error .invalidTransition := by
  rw [encodedTime, if_neg h]

/-- A validated retention always fits an `i64`. -/
theorem expiration_ok (updatedAt : Int) (limits : DedupStoreLimits) : expiration updatedAt limits =
      .ok (min (updatedAt + Duration.asMillis limits.retention) i64Max) := by
  have h := retention_asMillis limits.retention_mem
  have hfit : Duration.asMillis limits.retention ≤ i64Max := by unfold i64Max; omega
  rw [expiration, if_pos hfit]

def charge (key : DedupKey) : Int := (96 + key.route.len + key.verifier.len : Nat)

theorem encodedCharge_ok (key : DedupKey) : encodedCharge key = .ok (charge key) := by
  have hr : key.route.len ≤ 128 := key.route.len_le
  have hn : key.verifier.len ≤ 128 := key.verifier.len_le
  have hu : ¬ u64Max < 96 + key.route.len + key.verifier.len := by unfold u64Max; omega
  have hi : ¬ i64Max < 96 + key.route.len + key.verifier.len := by unfold i64Max; omega
  unfold encodedCharge dedupRecordBaseChargeBytes
  simp only [hu, hi, if_false]
  rfl

/-! ## What a run of an operation can have done -/

/-- Everything `claim` can do: fail with nothing changed; or remove the expired records (`db₁`) and
    then find the key taken, find no room, or insert the key's row. -/
inductive ClaimRun (usage : Database → Option (Int × Int)) (limits : DedupStoreLimits)
    (key : DedupKey) (policy : DedupClaimPolicy) (now : Nat) (db : Database) :
    Except DedupStoreError DedupClaim → Database → Prop
  | failed : ClaimRun usage limits key policy now db (.error .unavailable) db
  | late (ht : ¬ now ≤ i64Max) :
      ClaimRun usage limits key policy now db (.error .invalidTransition) db
  | duplicate {n : Nat} {db₁ : Database} {e : Nat × DedupRow} (ht : now ≤ i64Max)
      (hdel : deleteDedup (expired now) db = some (n, db₁))
      (hfind : db₁.webhookDedup.find key = some e) :
      ClaimRun usage limits key policy now db (.ok (.duplicate e.2.state)) db₁
  | full {n : Nat} {db₁ : Database} {records bytes : Int} (ht : now ≤ i64Max)
      (hdel : deleteDedup (expired now) db = some (n, db₁))
      (hfind : db₁.webhookDedup.find key = none) (husage : usage db₁ = some (records, bytes))
      (hfull : exhausted limits.records limits.bytes records bytes (charge key) = true) :
      ClaimRun usage limits key policy now db (.error .capacityExhausted) db₁
  | claimed {n m : Nat} {db₁ db₂ : Database} {records bytes : Int} (ht : now ≤ i64Max)
      (hdel : deleteDedup (expired now) db = some (n, db₁))
      (hfind : db₁.webhookDedup.find key = none) (husage : usage db₁ = some (records, bytes))
      (hroom : exhausted limits.records limits.bytes records bytes (charge key) = false)
      (hins : insertDedup (claimedRow key policy now (charge key)) db₁ = some (m, db₂)) :
      ClaimRun usage limits key policy now db (.ok .claimed) db₂

variable {limits : DedupStoreLimits} {key : DedupKey} {now : Nat} {faults : List Bool}
  {db db' : Database}

theorem claimWith_run {usage : Database → Option (Int × Int)} {policy : DedupClaimPolicy}
    {answer : Except DedupStoreError DedupClaim}
    (h : (claimWith usage limits key policy now).run faults db = (answer, db')) :
    ClaimRun usage limits key policy now db answer db' := by
  refine Op.Meets.run (P := ClaimRun usage limits key policy now db) h ?_
  unfold claimWith
  by_cases ht : now ≤ i64Max
  swap
  · rw [encodedTime_late ht]
    exact .bind (.fail (.late ht))
  rw [encodedTime_ok ht]
  refine .bind (.pure (.bind (.enter .failed ?_)))
  refine .bind (.enter .failed ?_)
  refine .bind (.call .failed fun n db₁ hdel => ?_)
  refine .bind (.query .failed fun existing hfind => ?_)
  simp only [Option.some.injEq] at hfind
  cases existing with
  | some e => exact .bind (.commit .failed (.pure (.duplicate ht hdel hfind)))
  | none =>
    refine .bind (.query .failed fun counters husage => ?_)
    obtain ⟨records, bytes⟩ := counters
    rw [encodedCharge_ok]
    refine .bind (.pure ?_)
    split
    · next hfull => exact .bind (.commit .failed (.fail (.full ht hdel hfind husage hfull)))
    · next hroom =>
      refine .bind (.call .failed fun m db₂ hins => ?_)
      exact .bind (.commit .failed
        (.pure (.claimed ht hdel hfind husage (Bool.eq_false_iff.mpr hroom) hins)))

/-- Everything a keyed transition can do: change exactly one row, or nothing. -/
abbrev TransitionRun (key : DedupKey) (update : Database → Option (Nat × Database))
    (db : Database) : Except DedupStoreError Unit → Database → Prop :=
  Op.ChangeOneRun .unavailable .invalidTransition .notFound
    (fun db => (db.webhookDedup.find key).isSome) update db

/-- A keyed transition at a time. -/
abbrev TimedRun (now : Nat) (key : DedupKey) (update : Database → Option (Nat × Database))
    (db : Database) : Except DedupStoreError Unit → Database → Prop :=
  Timed .invalidTransition now db (TransitionRun key update db)

/-- A bare statement at a time. -/
abbrev SweepRun (now : Nat) (statement : Database → Option (Nat × Database)) (db : Database) :
    Except DedupStoreError Nat → Database → Prop :=
  Timed .invalidTransition now db (Op.StatementRun .unavailable statement db)

/-- The expiry time a completion at `now` writes. -/
def expiresAt (limits : DedupStoreLimits) (now : Nat) : Int :=
  min ((now : Int) + Duration.asMillis limits.retention) i64Max

variable {answer : Except DedupStoreError Unit}

theorem complete_run (h : (complete limits key now).run faults db = (answer, db')) : TimedRun now key
      (updateDedup (selects key .inFlight) (toCompleted now (expiresAt limits now))) db answer db' := by
  refine Op.Meets.run (P := TimedRun now key _ db) h ?_
  unfold complete
  by_cases ht : now ≤ i64Max
  · rw [encodedTime_ok ht]
    refine .bind (.pure ?_)
    rw [expiration_ok]
    exact .bind (.pure (Op.Meets.changeOne fun _ _ hr => .timely ht hr))
  · rw [encodedTime_late ht]
    exact .bind (.fail (.late ht))

theorem markUnknown_run (h : (markUnknown key now).run faults db = (answer, db')) :
    TimedRun now key (updateDedup (selects key .inFlight) (toUnknown now)) db answer db' := by
  refine Op.Meets.run (P := TimedRun now key _ db) h ?_
  unfold markUnknown
  by_cases ht : now ≤ i64Max
  · rw [encodedTime_ok ht]
    exact .bind (.pure (Op.Meets.changeOne fun _ _ hr => .timely ht hr))
  · rw [encodedTime_late ht]
    exact .bind (.fail (.late ht))

theorem releaseClaim_run (h : (releaseClaim key).run faults db = (answer, db')) :
    TransitionRun key (deleteDedup (selects key .inFlight)) db answer db' :=
  Op.Meets.run (P := TransitionRun key _ db) h (Op.Meets.changeOne fun _ _ hr => hr)

/-- The statement `resolve_unknown` runs. -/
def resolution (limits : DedupStoreLimits) (key : DedupKey) (now : Nat) :
    DedupResolution → Database → Option (Nat × Database)
  | .completed => updateDedup (selects key .unknown) (toCompleted now (expiresAt limits now))
  | .retryAllowed => deleteDedup (selects key .unknown)

theorem resolveUnknown_run {res : DedupResolution}
    (h : (resolveUnknown limits key res now).run faults db = (answer, db')) :
    TimedRun now key (resolution limits key now res) db answer db' := by
  refine Op.Meets.run (P := TimedRun now key _ db) h ?_
  unfold resolveUnknown
  by_cases ht : now ≤ i64Max
  · rw [encodedTime_ok ht]
    refine .bind (.pure ?_)
    rw [expiration_ok]
    refine .bind (.pure ?_)
    cases res with
    | completed => exact Op.Meets.changeOne fun _ _ hr => .timely ht hr
    | retryAllowed => exact Op.Meets.changeOne fun _ _ hr => .timely ht hr
  · rw [encodedTime_late ht]
    exact .bind (.fail (.late ht))

theorem recoverInFlight_run {answer : Except DedupStoreError Nat}
    (h : (recoverInFlight now).run faults db = (answer, db')) :
    SweepRun now (updateDedup (fun row => decide (row.state = .inFlight)) (toUnknown now)) db answer db' := by
  refine Op.Meets.run (P := SweepRun now _ db) h ?_
  unfold recoverInFlight
  by_cases ht : now ≤ i64Max
  · rw [encodedTime_ok ht]
    exact .bind (.pure (.single fun _ _ hr => .timely ht hr))
  · rw [encodedTime_late ht]
    exact .bind (.fail (.late ht))

theorem clearCompletedBefore_run {answer : Except DedupStoreError Nat}
    (h : (clearCompletedBefore now).run faults db = (answer, db')) :
    SweepRun now (deleteDedup (clearable now)) db answer db' := by
  refine Op.Meets.run (P := SweepRun now _ db) h ?_
  unfold clearCompletedBefore
  by_cases ht : now ≤ i64Max
  · rw [encodedTime_ok ht]
    exact .bind (.pure (.single fun _ _ hr => .timely ht hr))
  · rw [encodedTime_late ht]
    exact .bind (.fail (.late ht))

/-! ## Calls -/

/-- A mutating request to the store. -/
inductive DedupRequest where
  | claim (key : DedupKey) (policy : DedupClaimPolicy) (now : Nat)
  | complete (key : DedupKey) (now : Nat)
  | markUnknown (key : DedupKey) (now : Nat)
  | releaseClaim (key : DedupKey)
  | recoverInFlight (now : Nat)
  | resolveUnknown (key : DedupKey) (resolution : DedupResolution) (now : Nat)
  | clearCompletedBefore (cutoff : Nat)
  deriving DecidableEq

/-- What a request is answered with. -/
inductive DedupAnswer where
  | claim (answer : Except DedupStoreError DedupClaim)
  | change (answer : Except DedupStoreError Unit)
  | count (answer : Except DedupStoreError Nat)
  deriving DecidableEq

/-- A request, the limits of the store object it is made on, and which of its calls to SQLite
    fail. -/
structure DedupCall where
  request : DedupRequest
  limits : DedupStoreLimits
  faults : List Bool

/-- One call against the committed database. -/
def DedupCall.perform (call : DedupCall) (db : Database) : DedupAnswer × Database :=
  match call.request with
  | .claim key policy now =>
    let (r, db') := (claim call.limits key policy now).run call.faults db
    (.claim r, db')
  | .complete key now =>
    let (r, db') := (complete call.limits key now).run call.faults db
    (.change r, db')
  | .markUnknown key now =>
    let (r, db') := (markUnknown key now).run call.faults db
    (.change r, db')
  | .releaseClaim key =>
    let (r, db') := (releaseClaim key).run call.faults db
    (.change r, db')
  | .recoverInFlight now =>
    let (r, db') := (recoverInFlight now).run call.faults db
    (.count r, db')
  | .resolveUnknown key resolution now =>
    let (r, db') := (resolveUnknown call.limits key resolution now).run call.faults db
    (.change r, db')
  | .clearCompletedBefore cutoff =>
    let (r, db') := (clearCompletedBefore cutoff).run call.faults db
    (.count r, db')

/-- Everything a call can do, by its request. -/
inductive CallRun (limits : DedupStoreLimits) (db : Database) :
    DedupRequest → DedupAnswer → Database → Prop
  | claim {key policy now r db'}
      (h : ClaimRun (readUsage .webhookDedup) limits key policy now db r db') :
      CallRun limits db (.claim key policy now) (.claim r) db'
  | complete {key now r db'}
      (h : TimedRun now key
        (updateDedup (selects key .inFlight) (toCompleted now (expiresAt limits now))) db r db') :
      CallRun limits db (.complete key now) (.change r) db'
  | markUnknown {key now r db'}
      (h : TimedRun now key (updateDedup (selects key .inFlight) (toUnknown now)) db r db') :
      CallRun limits db (.markUnknown key now) (.change r) db'
  | releaseClaim {key r db'}
      (h : TransitionRun key (deleteDedup (selects key .inFlight)) db r db') :
      CallRun limits db (.releaseClaim key) (.change r) db'
  | recoverInFlight {now r db'}
      (h : SweepRun now
        (updateDedup (fun row => decide (row.state = .inFlight)) (toUnknown now)) db r db') :
      CallRun limits db (.recoverInFlight now) (.count r) db'
  | resolveUnknown {key res now r db'}
      (h : TimedRun now key (resolution limits key now res) db r db') :
      CallRun limits db (.resolveUnknown key res now) (.change r) db'
  | clearCompletedBefore {cutoff r db'} (h : SweepRun cutoff (deleteDedup (clearable cutoff)) db r db') :
      CallRun limits db (.clearCompletedBefore cutoff) (.count r) db'

theorem perform_run (call : DedupCall) (db : Database) :
    CallRun call.limits db call.request (call.perform db).1 (call.perform db).2 := by
  obtain ⟨request, limits, faults⟩ := call
  cases request with
  | claim key policy now => exact .claim (claimWith_run rfl)
  | complete key now => exact .complete (complete_run rfl)
  | markUnknown key now => exact .markUnknown (markUnknown_run rfl)
  | releaseClaim key => exact .releaseClaim (releaseClaim_run rfl)
  | recoverInFlight now => exact .recoverInFlight (recoverInFlight_run rfl)
  | resolveUnknown key res now => exact .resolveUnknown (resolveUnknown_run rfl)
  | clearCompletedBefore cutoff => exact .clearCompletedBefore (clearCompletedBefore_run rfl)

end Bondry.Store

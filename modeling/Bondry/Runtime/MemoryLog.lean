/-
  THE PROCESS-LOCAL DELIVERY LOG (`bondry-egress-runtime`, `memory_log.rs`).

  A map of records and the order in which they became terminal.  A full log makes room by dropping its
  OLDEST terminal records; pending ones are never dropped, so a log full of those refuses.

  The state sits behind a mutex that no operation can poison, so the `Unavailable` answers do not occur.
-/
import Bondry.Runtime.Handlers

namespace Bondry.Runtime

/-! ## The log -/

structure InMemoryDeliveryLogLimit where
  value : Nat
  mem : 64 ≤ value ∧ value ≤ 8192
  deriving DecidableEq

/-- `InMemoryDeliveryLogLimit::default`. -/
def InMemoryDeliveryLogLimit.standard : InMemoryDeliveryLogLimit := ⟨1024, by decide⟩

structure MemoryLogState where
  records : BTreeMap DeliveryId DeliveryRecord
  terminalOrder : List DeliveryId

namespace InMemoryDeliveryLog

/-- `MemoryLogState::default`. -/
def empty : MemoryLogState := ⟨∅, []⟩

def reclaimOne (records : BTreeMap DeliveryId DeliveryRecord) (expired : DeliveryId) :
    BTreeMap DeliveryId DeliveryRecord :=
  match records[expired]? with
  | none => records
  | some record => if record.state.isTerminal then records.erase expired else records

/-- The loop of `insert_intent`: whether there is room now, and the state it leaves. -/
def reclaim (limit : Nat) : List DeliveryId → BTreeMap DeliveryId DeliveryRecord → Bool × MemoryLogState
  | [], records => (decide (records.size < limit), ⟨records, []⟩)
  | expired :: rest, records =>
    if records.size < limit then (true, ⟨records, expired :: rest⟩)
    else reclaim limit rest (reclaimOne records expired)

def insertIntent (limit : InMemoryDeliveryLogLimit) (intent : DeliveryIntent) (s : MemoryLogState) :
    Except DeliveryLogError Unit × MemoryLogState :=
  if s.records[intent.delivery]?.isSome then (.error .conflict, s)
  else
    let room := reclaim limit.value s.terminalOrder s.records
    if room.1 then
      (.ok (), { room.2 with records := room.2.records.insert intent.delivery intent.record })
    else (.error .capacityExhausted, room.2)

def recordAttempt (delivery : DeliveryId) (attempts updatedAtUnixMs : Nat) (s : MemoryLogState) :
    Except DeliveryLogError Unit × MemoryLogState :=
  match s.records[delivery]? with
  | none => (.error .notFound, s)
  | some record =>
    if record.state.isTerminal ∨ attempts ≤ record.attempts then (.error .invalidTransition, s)
    else
      let updated := ⟨record.intent, attempts, .pending, updatedAtUnixMs, none⟩
      (.ok (), { s with records := s.records.insert delivery updated })

def recordOutcome (delivery : DeliveryId) (outcome : DeliveryOutcome) (updatedAtUnixMs : Nat)
    (result : Option DeliveryResultMetadata) (s : MemoryLogState) :
    Except DeliveryLogError Unit × MemoryLogState :=
  match s.records[delivery]? with
  | none => (.error .notFound, s)
  | some record =>
    if record.state.isTerminal ∨ outcome = .unknownAfterCrash then (.error .invalidTransition, s)
    else
      let updated :=
        ⟨record.intent, record.attempts, .terminal outcome, updatedAtUnixMs, result⟩
      (.ok (), ⟨s.records.insert delivery updated, s.terminalOrder ++ [delivery]⟩)

end InMemoryDeliveryLog

open InMemoryDeliveryLog in
def inMemoryDeliveryLog (limit : InMemoryDeliveryLogLimit) : DeliveryLog MemoryLogState where
  durability := .processLocal
  insertIntent := insertIntent limit
  recordAttempt := recordAttempt
  recordOutcome := recordOutcome
  delivery := fun delivery s => (.ok s.records[delivery]?, s)
  recoverUnfinished := fun _ s => (.ok 0, s)

/-! ## The log is lawful -/

namespace InMemoryDeliveryLog

def table (s : MemoryLogState) (d : DeliveryId) : Option DeliveryRecord := s.records[d]?

theorem reclaimOne_kept (records : BTreeMap DeliveryId DeliveryRecord) (expired d : DeliveryId) :
    Kept records[d]? (reclaimOne records expired)[d]? := by
  unfold reclaimOne
  split
  · exact .inl rfl
  · next record hrecord =>
    split
    · next hterminal =>
      rw [BTreeMap.find_erase]
      split
      · next heq =>
        subst heq
        refine .inr ⟨fun other hother => ?_, rfl⟩
        rw [hrecord] at hother
        cases hother
        exact hterminal
      · exact .inl rfl
    · exact .inl rfl

theorem reclaim_kept (limit : Nat) (order : List DeliveryId)
    (records : BTreeMap DeliveryId DeliveryRecord) (d : DeliveryId) :
    Kept records[d]? (reclaim limit order records).2.records[d]? := by
  induction order generalizing records with
  | nil => exact .inl rfl
  | cons expired rest ih =>
    unfold reclaim
    split
    · exact .inl rfl
    · exact (reclaimOne_kept records expired d).trans (ih (reclaimOne records expired))

theorem insertIntent_at (limit : InMemoryDeliveryLogLimit) (intent : DeliveryIntent) (s : MemoryLogState) :
    Effect (Inserted intent) (insertIntent limit intent s).1 (table s intent.delivery)
      (table (insertIntent limit intent s).2 intent.delivery) := by
  unfold insertIntent
  split
  · exact .inl (.inl rfl)
  · next hfree =>
    have hnone : s.records[intent.delivery]? = none := by simpa using hfree
    dsimp only
    split
    · refine ⟨fun record hrecord => ?_, BTreeMap.find_insert_self _ _ _⟩
      rw [table, hnone] at hrecord
      cases hrecord
    · exact .inl (reclaim_kept limit.value s.terminalOrder s.records intent.delivery)

theorem insertIntent_other (limit : InMemoryDeliveryLogLimit) (intent : DeliveryIntent)
    (s : MemoryLogState) (d : DeliveryId) (hd : d ≠ intent.delivery) :
    Kept (table s d) (table (insertIntent limit intent s).2 d) := by
  have hkept := reclaim_kept limit.value s.terminalOrder s.records d
  unfold insertIntent
  split
  · exact .inl rfl
  · dsimp only
    split
    · dsimp only [table]
      rw [BTreeMap.find_insert_ne _ _ hd.symm]
      exact hkept
    · exact hkept

theorem recordAttempt_at (d : DeliveryId) (n t : Nat) (s : MemoryLogState) :
    Effect (Attempted n) (recordAttempt d n t s).1 (table s d) (table (recordAttempt d n t s).2 d) := by
  unfold recordAttempt
  split
  · exact .inl (.inl rfl)
  · next record hrecord =>
    split
    · exact .inl (.inl rfl)
    · next hguard =>
      obtain ⟨hlive, hmore⟩ := not_or.mp hguard
      have hpending : record.state = .pending := by
        cases hstate : record.state with
        | pending => rfl
        | terminal _ => simp [hstate, DeliveryState.isTerminal] at hlive
      exact ⟨record, _, hrecord, BTreeMap.find_insert_self _ _ _, hpending, rfl, rfl,
        Nat.lt_of_not_le hmore, rfl⟩

theorem recordOutcome_at (d : DeliveryId) (o : DeliveryOutcome) (t : Nat)
    (r : Option DeliveryResultMetadata) (s : MemoryLogState) :
    Effect (Concluded o r) (recordOutcome d o t r s).1 (table s d) (table (recordOutcome d o t r s).2 d) := by
  unfold recordOutcome
  split
  · exact .inl (.inl rfl)
  · next record hrecord =>
    split
    · exact .inl (.inl rfl)
    · next hguard =>
      obtain ⟨hlive, _⟩ := not_or.mp hguard
      have hpending : record.state = .pending := by
        cases hstate : record.state with
        | pending => rfl
        | terminal _ => simp [hstate, DeliveryState.isTerminal] at hlive
      exact ⟨record, _, hrecord, BTreeMap.find_insert_self _ _ _, hpending, rfl, rfl, rfl, rfl⟩

theorem other_kept {d d' : DeliveryId} (hd : d' ≠ d) {s s' : MemoryLogState}
    (h : s' = s ∨ ∃ record, s'.records = s.records.insert d record) : Kept (table s d') (table s' d') := by
  rcases h with rfl | ⟨record, heq⟩
  · exact .inl rfl
  · refine .inl ?_
    rw [table, heq]
    exact BTreeMap.find_insert_ne _ _ hd.symm

/-- **The in-memory log keeps the contract of a delivery log.** -/
theorem lawful (limit : InMemoryDeliveryLogLimit) : LawfulLog (inMemoryDeliveryLog limit) table where
  insert_at := insertIntent_at limit
  insert_other := insertIntent_other limit
  attempt_at := recordAttempt_at
  attempt_other := by
    intro d n t s d' hd
    refine other_kept hd ?_
    simp only [inMemoryDeliveryLog, recordAttempt]
    split
    · exact .inl rfl
    · split
      · exact .inl rfl
      · exact .inr ⟨_, rfl⟩
  outcome_at := recordOutcome_at
  outcome_other := by
    intro d o t r s d' hd
    refine other_kept hd ?_
    simp only [inMemoryDeliveryLog, recordOutcome]
    split
    · exact .inl rfl
    · split
      · exact .inl rfl
      · exact .inr ⟨_, rfl⟩
  lookup_exact := by
    intro d s entry h
    cases h
    rfl
  lookup_keeps := fun _ _ _ => .inl rfl

end InMemoryDeliveryLog

/-! ## A small host over the log

  One kind that asks for one request, fed by a clock that gains a second at every reading.  The runs that
  show the theorems at work are runs of this host. -/

namespace Host

open Egress

def route (name : Char) (h : validate [name] 128 = .ok () := by decide) : RouteId := ⟨[name], h⟩

def delivery (name : Char) (h : validate [name] 128 = .ok () := by decide) : DeliveryId := ⟨[name], h⟩

def operation : DeliveryOperation Unit Bool where
  secretReferences := []
  respond := fun _ _ history => match history with
    | [] => .http ()
    | (_, true) :: _ => .complete (.delivered none)
    | (_, false) :: _ => .complete (.retryable .receiverRejected)

def kind : DeliveryKind Unit Bool where
  name := "kind"
  targetSummary := "target"
  supportsCall := true
  permitsAutomaticRetry := true
  maxPayloadBytes := 300000
  validatePayload := fun _ _ => .ok ()
  operation := fun _ _ _ => .ok operation

theorem route_valid : validate ['r'] 128 = .ok () := by decide

theorem delivery_valid : validate ['a'] 128 = .ok () := by decide

theorem payload_limit : 1024 ≤ 1024 ∧ 1024 ≤ 224 * 1024 := by decide

theorem request_timeout : nanosPerSecond ≤ nanosPerSecond ∧ nanosPerSecond ≤ 120 * nanosPerSecond := by
  decide

def configured (id : RouteId) : Route Unit Bool where
  id := id
  enabled := true
  payload := ⟨∅, ⟨1024, payload_limit⟩⟩
  timeout := ⟨nanosPerSecond, request_timeout⟩
  retry := ⟨2, nanosPerSecond, 60 * nanosPerSecond, by decide, RetryPolicy.withoutRetries.base_mem,
    RetryPolicy.withoutRetries.cap_mem⟩
  admission := ⟨50, 256, by decide, by decide⟩
  kind := kind

def registry : RouteRegistry Unit Bool := .new ⟨4, by decide⟩ ⟨200, 512, by decide, by decide⟩

def services : Services MemoryLogState where
  limits := .standard
  log := inMemoryDeliveryLog .standard
  parse := fun _ => some (.object [])
  clock := fun n => ⟨n * nanosPerSecond, n⟩

def answered (taken : Bool) : AttemptWorld Bool where
  deadline := 100
  unixMs := 0
  secrets := fun _ => .error .notFound
  rounds := [⟨1, some taken, 0⟩]

/-- A delivery that is rejected once, waits, and is delivered by its second attempt. -/
def retried : List (Engine.Label Unit Bool) :=
  [.command (.register (configured (route 'r')) 0),
   .command (.emit (route 'r') (delivery 'a') [1, 2] 1),
   .attemptJoined 0 (.completed (answered false)),
   .deadline,
   .deadline,
   .attemptJoined 1 (.completed (answered true))]

end Host

end Bondry.Runtime

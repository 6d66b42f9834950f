/-
  THE DELIVERY-LOG CONTRACT (`bondry-delivery-store`, `delivery.rs`).

  Records, outcomes and errors of the delivery log, and the log itself as an interface: a
  `DeliveryLog σ` is what the Rust trait object is, five operations over a hidden state `σ`.
  Nothing is assumed about an arbitrary log; its state may hold anything, a script of failures
  included, so quantifying over `σ` and the log covers every behaviour a log can show.
-/
import Bondry.Contract.Identifier

namespace Bondry

/-! ## Records -/

inductive StoreDurability where
  | processLocal
  | persistent
  deriving DecidableEq, Repr

def persistentDeliveryRecordChargeBytes : Nat := 512

inductive DeliveryFailure where
  | cancelled
  | deadlineExceeded
  | endpointPolicy
  | secretUnavailable
  | transportUnavailable
  | receiverRejected
  | retryExhausted
  | internal
  deriving DecidableEq, Repr

inductive DeliveryResultCategory where
  | succeeded
  | failed
  | invalid
  deriving DecidableEq, Repr

/-- Optional bounded result metadata retained for host `call` operations. -/
structure DeliveryResultMetadata where
  category : DeliveryResultCategory
  bytes : UInt32
  deriving DecidableEq, Repr

inductive DeliveryOutcome where
  | delivered
  | failed (failure : DeliveryFailure)
  | lostOnShutdown
  | unknownAfterCrash
  deriving DecidableEq, Repr

inductive DeliveryState where
  | pending
  | terminal (outcome : DeliveryOutcome)
  deriving DecidableEq, Repr

def DeliveryState.isTerminal : DeliveryState → Bool
  | .pending => false
  | .terminal _ => true

structure DeliveryIntent where
  route : RouteId
  delivery : DeliveryId
  acceptedAtUnixMs : Nat
  deriving DecidableEq

structure DeliveryRecord where
  intent : DeliveryIntent
  attempts : Nat
  state : DeliveryState
  updatedAtUnixMs : Nat
  result : Option DeliveryResultMetadata
  deriving DecidableEq

def DeliveryIntent.record (intent : DeliveryIntent) : DeliveryRecord :=
  { intent := intent, attempts := 0, state := .pending,
    updatedAtUnixMs := intent.acceptedAtUnixMs, result := none }

inductive DeliveryLogError where
  | conflict
  | capacityExhausted
  | notFound
  | invalidTransition
  | unavailable
  deriving DecidableEq, Repr

/-! ## The log as an interface -/

/-- Storage operations driven exclusively by the egress runtime, over the log's own state `σ`. -/
structure DeliveryLog (σ : Type) where
  durability : StoreDurability
  insertIntent : DeliveryIntent → σ → Except DeliveryLogError Unit × σ
  recordAttempt : DeliveryId → Nat → Nat → σ → Except DeliveryLogError Unit × σ
  recordOutcome : DeliveryId → DeliveryOutcome → Nat → Option DeliveryResultMetadata → σ →
    Except DeliveryLogError Unit × σ
  delivery : DeliveryId → σ → Except DeliveryLogError (Option DeliveryRecord) × σ
  recoverUnfinished : Nat → σ → Except DeliveryLogError Nat × σ

/-! ## What a lawful log may do to one record -/

/-- No record, or one that is already terminal: nothing here is still being delivered. -/
def Settled (entry : Option DeliveryRecord) : Prop :=
  ∀ record, entry = some record → record.state.isTerminal = true

/-- There is a record, and it is pending. -/
def Pending (entry : Option DeliveryRecord) : Prop :=
  ∃ record, entry = some record ∧ record.state = .pending

/-- The record stays as it is, or a terminal record is evicted. -/
def Kept (before after : Option DeliveryRecord) : Prop :=
  after = before ∨ (Settled before ∧ after = none)

/-- The intent was inserted; a pending record is never overwritten. -/
def Inserted (intent : DeliveryIntent) (before after : Option DeliveryRecord) : Prop :=
  Settled before ∧ after = some intent.record

/-- A strictly larger attempt count was recorded while pending. -/
def Attempted (attempts : Nat) (before after : Option DeliveryRecord) : Prop :=
  ∃ old new, before = some old ∧ after = some new ∧ old.state = .pending ∧ new.state = .pending ∧
    new.intent = old.intent ∧ old.attempts < attempts ∧ new.attempts = attempts

/-- The pending record became terminal with this outcome and result. -/
def Concluded (outcome : DeliveryOutcome) (result : Option DeliveryResultMetadata)
    (before after : Option DeliveryRecord) : Prop :=
  ∃ old new, before = some old ∧ after = some new ∧ old.state = .pending ∧
    new.state = .terminal outcome ∧ new.result = result ∧ new.intent = old.intent ∧
    new.attempts = old.attempts

/-- The effect of one operation on the record it names: done when it answers `ok`; done or not
    done when it answers with an error. -/
def Effect {α : Type} (applied : Option DeliveryRecord → Option DeliveryRecord → Prop)
    (answer : Except DeliveryLogError α) (before after : Option DeliveryRecord) : Prop :=
  match answer with
  | .ok _ => applied before after
  | .error _ => Kept before after ∨ applied before after

/-- The documented contract of a delivery log, over the table `records` it stores. -/
structure LawfulLog {σ : Type} (log : DeliveryLog σ)
    (records : σ → DeliveryId → Option DeliveryRecord) : Prop where
  insert_at : ∀ intent s, Effect (Inserted intent) (log.insertIntent intent s).1
    (records s intent.delivery) (records (log.insertIntent intent s).2 intent.delivery)
  insert_other : ∀ intent s d, d ≠ intent.delivery →
    Kept (records s d) (records (log.insertIntent intent s).2 d)
  attempt_at : ∀ d n t s, Effect (Attempted n) (log.recordAttempt d n t s).1
    (records s d) (records (log.recordAttempt d n t s).2 d)
  attempt_other : ∀ d n t s d', d' ≠ d →
    Kept (records s d') (records (log.recordAttempt d n t s).2 d')
  outcome_at : ∀ d o t r s, Effect (Concluded o r) (log.recordOutcome d o t r s).1
    (records s d) (records (log.recordOutcome d o t r s).2 d)
  outcome_other : ∀ d o t r s d', d' ≠ d →
    Kept (records s d') (records (log.recordOutcome d o t r s).2 d')
  lookup_exact : ∀ d s entry, (log.delivery d s).1 = .ok entry → entry = records s d
  lookup_keeps : ∀ d s d', Kept (records s d') (records (log.delivery d s).2 d')

/-! ## Pending records survive what happens around them -/

theorem Pending.not_settled {entry : Option DeliveryRecord} (h : Pending entry) : ¬ Settled entry := by
  obtain ⟨record, he, hp⟩ := h
  intro hs
  have ht := hs record he
  rw [hp] at ht
  exact absurd ht (by decide)

variable {before after : Option DeliveryRecord}

theorem Kept.eq_of_pending (hk : Kept before after) (hp : Pending before) : after = before := by
  rcases hk with h | ⟨hs, _⟩
  · exact h
  · exact absurd hs hp.not_settled

theorem Kept.pending (hk : Kept before after) (hp : Pending before) : Pending after := by
  rw [hk.eq_of_pending hp]
  exact hp

theorem Kept.trans {x y z : Option DeliveryRecord} (hxy : Kept x y) (hyz : Kept y z) : Kept x z := by
  rcases hxy with rfl | ⟨hx, rfl⟩
  · exact hyz
  · rcases hyz with rfl | ⟨_, rfl⟩ <;> exact .inr ⟨hx, rfl⟩

theorem Inserted.pending {intent : DeliveryIntent} (h : Inserted intent before after) : Pending after :=
  ⟨intent.record, h.2, rfl⟩

theorem Attempted.pending {n : Nat} (h : Attempted n before after) : Pending after := by
  obtain ⟨_, new, _, ha, _, hs, _⟩ := h
  exact ⟨new, ha, hs⟩

end Bondry

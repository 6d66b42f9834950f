/-
  THE PURE DELIVERY LIFECYCLE (`bondry-egress`: `time.rs`, `delivery.rs`, and the retry policy of
  `limits.rs`).

  A `DeliveryLifecycle` consumes explicit events and times and answers with the persistence action
  that must run first, the runtime effect, and the next deadline.  The Rust method takes `&mut self`
  and returns a `Result`, so `transition` returns BOTH: the answer, and the lifecycle afterwards.

  Durations and instants are nanoseconds.  Rust's `Duration` saturates at `durationMax`; the
  attempt counter is a `u16` and saturates at `65535`; the back-off is computed in `u128`.

  The engine never looks inside `transition`.  What it relies on is `Moved`, at the end: the six ways
  a lifecycle can answer, with the state each one leaves behind.
-/
import Bondry.Contract.Delivery
import Bondry.Contract.Limits

namespace Bondry.Egress

/-! ## Time -/

/-- The largest `Duration`: `u64::MAX` seconds and `999_999_999` nanoseconds. -/
def durationMax : Nat := (2 ^ 64 - 1) * 1000000000 + 999999999

/-- `EgressInstant::saturating_add`, on nanoseconds elapsed since the runtime origin. -/
def EgressInstant.saturatingAdd (instant duration : Nat) : Nat :=
  min (instant + duration) durationMax

structure TransitionTime where
  monotonic : Nat
  unixMs : Nat
  deriving DecidableEq, Repr

/-! ## The retry policy -/

/-- What `RetryPolicy::new` accepts; the durations are in nanoseconds. -/
structure RetryPolicy where
  retries : Nat
  base : Nat
  cap : Nat
  retries_le : retries ≤ 16
  base_mem : 500 * nanosPerMilli ≤ base ∧ base ≤ 5 * nanosPerSecond
  cap_mem : 30 * nanosPerSecond ≤ cap ∧ cap ≤ 300 * nanosPerSecond
  deriving DecidableEq

def RetryPolicy.withoutRetries : RetryPolicy :=
  ⟨0, nanosPerSecond, 60 * nanosPerSecond, by decide, by decide, by decide⟩

/-! ## Events, actions and persistence -/

inductive RetryableFailure where
  | deadlineExceeded
  | secretUnavailable
  | transportUnavailable
  | receiverRejected
  deriving DecidableEq, Repr

/-- `impl From<RetryableFailure> for DeliveryFailure`. -/
def RetryableFailure.toFailure : RetryableFailure → DeliveryFailure
  | .deadlineExceeded => .deadlineExceeded
  | .secretUnavailable => .secretUnavailable
  | .transportUnavailable => .transportUnavailable
  | .receiverRejected => .receiverRejected

inductive DeliveryEvent where
  | drive
  | delivered (result : Option DeliveryResultMetadata)
  | retryable (failure : RetryableFailure)
  | failed (failure : DeliveryFailure)
  | failedWithResult (failure : DeliveryFailure) (result : DeliveryResultMetadata)
  | cancel
  | shutdownDeadline
  deriving DecidableEq, Repr

inductive DeliveryAction where
  | none
  | startAttempt (attempts : Nat)
  | wait
  | terminal (outcome : DeliveryOutcome) (result : Option DeliveryResultMetadata)
  deriving DecidableEq, Repr

inductive DeliveryPersistenceAction where
  | insertIntent (intent : DeliveryIntent)
  | recordAttempt (delivery : DeliveryId) (attempts : Nat) (updatedAtUnixMs : Nat)
  | recordOutcome (delivery : DeliveryId) (outcome : DeliveryOutcome) (updatedAtUnixMs : Nat)
      (result : Option DeliveryResultMetadata)
  deriving DecidableEq

structure DeliveryTransition where
  persistence : Option DeliveryPersistenceAction
  action : DeliveryAction
  nextDeadline : Option Nat
  deriving DecidableEq

def DeliveryTransition.none : DeliveryTransition :=
  { persistence := .none, action := .none, nextDeadline := .none }

inductive DeliveryLifecycleError where
  | invalid
  deriving DecidableEq, Repr

/-! ## The lifecycle -/

/-- `State` of `delivery.rs`. -/
inductive LifecycleState where
  | ready
  | inFlight
  | waitingRetry (deadline : Nat)
  | terminal
  deriving DecidableEq, Repr

structure DeliveryLifecycle where
  route : RouteId
  delivery : DeliveryId
  retry : RetryPolicy
  attempts : Nat
  state : LifecycleState
  deriving DecidableEq

namespace DeliveryLifecycle

def new (route : RouteId) (delivery : DeliveryId) (retry : RetryPolicy) : DeliveryLifecycle :=
  { route, delivery, retry, attempts := 0, state := .ready }

def nextDeadline (l : DeliveryLifecycle) : Option Nat :=
  match l.state with
  | .waitingRetry deadline => some deadline
  | .ready | .inFlight | .terminal => none

/-- One FNV-1a step: fold a byte into the running 64-bit hash (`wrapping_mul`). -/
def fnvByte (hash : UInt64) (byte : UInt8) : UInt64 := (hash ^^^ byte.toUInt64) * 0x00000100000001b3

/-- The deterministic jitter of an attempt, in `0 ..= 4000`: FNV-1a over the identifier's bytes
    and the attempt's two little-endian bytes. -/
def stableJitter (delivery : DeliveryId) (attempts : Nat) : Nat :=
  let text := delivery.text.flatMap String.utf8EncodeChar
  let attemptBytes : Bytes := [UInt8.ofNat (attempts % 256), UInt8.ofNat (attempts / 256 % 256)]
  ((text ++ attemptBytes).foldl fnvByte 0xcbf29ce484222325 % 4001).toNat

/-- `u128::saturating_mul`. -/
def saturatingMul128 (a b : Nat) : Nat := min (a * b) (2 ^ 128 - 1)

/-- The jittered exponential back-off before the attempt after `attempts`. -/
def retryDelay (l : DeliveryLifecycle) (attempts : Nat) : Nat :=
  let shift := min (attempts - 1) 31
  let exponential := min (saturatingMul128 l.retry.base (2 ^ shift)) l.retry.cap
  let multiplier := 8000 + stableJitter l.delivery attempts
  let jittered := min (saturatingMul128 exponential multiplier / 10000) l.retry.cap
  -- `u64::try_from(jittered).unwrap_or(u64::MAX)`
  min jittered (2 ^ 64 - 1)

/-- When the attempt after a failure at `time` may start. -/
def retryDeadline (l : DeliveryLifecycle) (time : TransitionTime) : Nat :=
  EgressInstant.saturatingAdd time.monotonic (l.retryDelay l.attempts)

def startAttempt (l : DeliveryLifecycle) (time : TransitionTime) : DeliveryTransition × DeliveryLifecycle :=
  let attempts := min (l.attempts + 1) 65535
  ({ persistence := some (.recordAttempt l.delivery attempts time.unixMs),
     action := .startAttempt attempts, nextDeadline := none },
   { l with attempts := attempts, state := .inFlight })

def terminal (l : DeliveryLifecycle) (time : TransitionTime) (outcome : DeliveryOutcome)
    (result : Option DeliveryResultMetadata) : DeliveryTransition × DeliveryLifecycle :=
  ({ persistence := some (.recordOutcome l.delivery outcome time.unixMs result),
     action := .terminal outcome result, nextDeadline := none },
   { l with state := .terminal })

def drive (l : DeliveryLifecycle) (time : TransitionTime) :
    Except DeliveryLifecycleError DeliveryTransition × DeliveryLifecycle :=
  match l.state with
  | .ready => let (t, l') := l.startAttempt time; (.ok t, l')
  | .waitingRetry deadline =>
    if deadline ≤ time.monotonic then let (t, l') := l.startAttempt time; (.ok t, l')
    else (.ok { persistence := none, action := .wait, nextDeadline := some deadline }, l)
  | .inFlight => (.error .invalid, l)
  | .terminal => (.ok .none, l)

def whenInFlight (l : DeliveryLifecycle) (answer : DeliveryTransition × DeliveryLifecycle) :
    Except DeliveryLifecycleError DeliveryTransition × DeliveryLifecycle :=
  if l.state = .inFlight then (.ok answer.1, answer.2) else (.error .invalid, l)

/-- Consumes an explicit event and time without reading clocks or performing I/O. -/
def transition (l : DeliveryLifecycle) (time : TransitionTime) (event : DeliveryEvent) :
    Except DeliveryLifecycleError DeliveryTransition × DeliveryLifecycle :=
  if l.state = .terminal then (.ok .none, l)
  else match event with
    | .drive => l.drive time
    | .delivered result => l.whenInFlight (l.terminal time .delivered result)
    | .retryable failure =>
      l.whenInFlight
        (if l.attempts ≤ l.retry.retries then
          ({ persistence := none, action := .wait, nextDeadline := some (l.retryDeadline time) },
           { l with state := .waitingRetry (l.retryDeadline time) })
        else l.terminal time (.failed failure.toFailure) none)
    | .failed failure => l.whenInFlight (l.terminal time (.failed failure) none)
    | .failedWithResult failure result =>
      l.whenInFlight (l.terminal time (.failed failure) (some result))
    | .cancel => let (t, l') := l.terminal time (.failed .cancelled) none; (.ok t, l')
    | .shutdownDeadline => let (t, l') := l.terminal time .lostOnShutdown none; (.ok t, l')

/-! ## What the engine relies on -/

def Due (l : DeliveryLifecycle) (time : TransitionTime) : Prop :=
  l.state = .ready ∨ ∃ deadline, l.state = .waitingRetry deadline ∧ deadline ≤ time.monotonic

def endOf : DeliveryEvent → Option (DeliveryOutcome × Option DeliveryResultMetadata)
  | .drive => none
  | .delivered result => some (.delivered, result)
  | .retryable failure => some (.failed failure.toFailure, none)
  | .failed failure => some (.failed failure, none)
  | .failedWithResult failure result => some (.failed failure, some result)
  | .cancel => some (.failed .cancelled, none)
  | .shutdownDeadline => some (.lostOnShutdown, none)

/-- Cancellation and the shutdown deadline reach a delivery in any state. -/
def reachesAll : DeliveryEvent → Bool
  | .cancel | .shutdownDeadline => true
  | .drive | .delivered _ | .retryable _ | .failed _ | .failedWithResult _ _ => false

/-- **Every way a lifecycle can move.**  Only a drive starts an attempt, only a retryable failure of an
    attempt in flight parks it, and every other move changes the state alone. -/
inductive Moved (l : DeliveryLifecycle) (time : TransitionTime) :
    DeliveryEvent → Except DeliveryLifecycleError DeliveryTransition → DeliveryLifecycle → Prop
  | started (h : l.Due time) :
      Moved l time .drive (.ok (l.startAttempt time).1) (l.startAttempt time).2
  | early {deadline : Nat} (h : l.state = .waitingRetry deadline)
      (hearly : ¬ deadline ≤ time.monotonic) :
      Moved l time .drive
        (.ok { persistence := none, action := .wait, nextDeadline := some deadline }) l
  | parked {failure : RetryableFailure} (h : l.state = .inFlight)
      (hleft : l.attempts ≤ l.retry.retries) :
      Moved l time (.retryable failure)
        (.ok { persistence := none, action := .wait, nextDeadline := some (l.retryDeadline time) })
        { l with state := .waitingRetry (l.retryDeadline time) }
  | ended {event : DeliveryEvent} {outcome : DeliveryOutcome}
      {result : Option DeliveryResultMetadata} (h : endOf event = some (outcome, result))
      (hlive : l.state ≠ .terminal) (hflight : reachesAll event = false → l.state = .inFlight)
      (hspent : ∀ failure, event = .retryable failure → ¬ l.attempts ≤ l.retry.retries) :
      Moved l time event (.ok (l.terminal time outcome result).1) { l with state := .terminal }
  | done {event : DeliveryEvent} (h : l.state = .terminal) : Moved l time event (.ok .none) l
  | refused {event : DeliveryEvent} (hall : reachesAll event = false) (hlive : l.state ≠ .terminal)
      (hstate : event = .drive ↔ l.state = .inFlight) : Moved l time event (.error .invalid) l

theorem whenInFlight_moved {l : DeliveryLifecycle} (time : TransitionTime) {event : DeliveryEvent}
    {outcome : DeliveryOutcome} {result : Option DeliveryResultMetadata}
    (hend : endOf event = some (outcome, result)) (hlive : l.state ≠ .terminal)
    (hall : reachesAll event = false)
    (hspent : ∀ failure, event = .retryable failure → ¬ l.attempts ≤ l.retry.retries) :
    Moved l time event (l.whenInFlight (l.terminal time outcome result)).1
      (l.whenInFlight (l.terminal time outcome result)).2 := by
  unfold whenInFlight
  split
  · next hflight => exact .ended hend hlive (fun _ => hflight) hspent
  · next hflight =>
    refine .refused hall hlive ⟨fun hdrive => ?_, fun h => absurd h hflight⟩
    rw [hdrive] at hend
    exact absurd hend (by simp [endOf])

theorem drive_moved {l : DeliveryLifecycle} (time : TransitionTime) (hlive : l.state ≠ .terminal) :
    Moved l time .drive (l.drive time).1 (l.drive time).2 := by
  unfold drive
  split
  · next hready => exact .started (.inl hready)
  · next deadline hwait =>
    split
    · next hdue => exact .started (.inr ⟨deadline, hwait, hdue⟩)
    · next hearly => exact .early hwait hearly
  · next hflight => exact .refused rfl hlive ⟨fun _ => hflight, fun _ => rfl⟩
  · next hover => exact absurd hover hlive

theorem transition_moved (l : DeliveryLifecycle) (time : TransitionTime) (event : DeliveryEvent) :
    Moved l time event (l.transition time event).1 (l.transition time event).2 := by
  unfold transition
  split
  · next hover => exact .done hover
  next hlive =>
  cases event with
  | drive => exact drive_moved time hlive
  | delivered result => exact whenInFlight_moved time rfl hlive rfl (fun _ h => nomatch h)
  | failed failure => exact whenInFlight_moved time rfl hlive rfl (fun _ h => nomatch h)
  | failedWithResult failure result =>
    exact whenInFlight_moved time rfl hlive rfl (fun _ h => nomatch h)
  | cancel => exact .ended rfl hlive (fun h => nomatch h) (fun _ h => nomatch h)
  | shutdownDeadline => exact .ended rfl hlive (fun h => nomatch h) (fun _ h => nomatch h)
  | retryable failure =>
    dsimp only
    by_cases hleft : l.attempts ≤ l.retry.retries
    · rw [if_pos hleft]
      unfold whenInFlight
      split
      · next hflight => exact .parked hflight hleft
      · next hflight =>
        exact .refused rfl hlive ⟨(fun h => nomatch h), fun h => absurd h hflight⟩
    · rw [if_neg hleft]
      exact whenInFlight_moved time rfl hlive rfl (fun _ _ => hleft)

end DeliveryLifecycle

end Bondry.Egress

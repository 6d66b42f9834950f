/-
  THE STATE OF THE EGRESS ENGINE (`bondry-egress-runtime`, `limits.rs` and the types of `runtime.rs`).

  The engine is one thread that owns all of this.  What it shares with the outside is

  * the delivery LOG, any `DeliveryLog σ`, whose state `σ` is a field;
  * the CLOCK, any sequence of readings; `tick` counts how many were taken;
  * the TASKS it spawned: a `JoinSet` is a map from task numbers, an `AbortHandle` is a number.

  The binary heap of retries is the list of its entries in ascending order, which is the order it pops
  them in.  Counters are natural numbers: the accounting theorem bounds them by the limits, far below
  the ranges of their machine types.

  Two fields are kept only for the statements: `trace`, everything observable in the order it happened,
  and `saturated`, whether a `saturating_sub` ever had less than it was to take away.
-/
import Bondry.Egress.Registry

namespace Bondry.Runtime

open Egress

/-! ## Limits -/

structure EgressRuntimeLimits where
  globalPendingDeliveries : Nat
  routePendingDeliveries : Nat
  globalPendingBytes : Nat
  routePendingBytes : Nat
  globalInFlight : Nat
  routeInFlight : Nat
  callInFlight : Nat
  drainTimeout : Nat
  globalPendingDeliveries_mem : 16 ≤ globalPendingDeliveries ∧ globalPendingDeliveries ≤ 4096
  routePendingDeliveries_mem : 1 ≤ routePendingDeliveries ∧ routePendingDeliveries ≤ 256 ∧
    routePendingDeliveries ≤ globalPendingDeliveries
  globalPendingBytes_mem : 1048576 ≤ globalPendingBytes ∧ globalPendingBytes ≤ 32 * 1048576
  routePendingBytes_mem : 65536 ≤ routePendingBytes ∧ routePendingBytes ≤ 4 * 1048576 ∧
    routePendingBytes ≤ globalPendingBytes
  globalInFlight_mem : 1 ≤ globalInFlight ∧ globalInFlight ≤ 16
  routeInFlight_mem : 1 ≤ routeInFlight ∧ routeInFlight ≤ globalInFlight
  callInFlight_mem : 1 ≤ callInFlight ∧ callInFlight ≤ 16
  drainTimeout_mem : nanosPerSecond ≤ drainTimeout ∧ drainTimeout ≤ 60 * nanosPerSecond

/-- `EgressRuntimeLimits::default`. -/
def EgressRuntimeLimits.standard : EgressRuntimeLimits where
  globalPendingDeliveries := 1024
  routePendingDeliveries := 64
  globalPendingBytes := 8 * 1048576
  routePendingBytes := 1048576
  globalInFlight := 4
  routeInFlight := 2
  callInFlight := 4
  drainTimeout := 10 * nanosPerSecond
  globalPendingDeliveries_mem := by decide
  routePendingDeliveries_mem := by decide
  globalPendingBytes_mem := by decide
  routePendingBytes_mem := by decide
  globalInFlight_mem := by decide
  routeInFlight_mem := by decide
  callInFlight_mem := by decide
  drainTimeout_mem := by decide

/-! ## Commands and answers -/

inductive EgressRuntimeError where
  | busy
  | stopped
  | route (error : RouteRegistryError)
  | admission (error : AdmissionError)
  | routeDraining
  | pendingCapacity
  | pendingBytes
  | callCapacity
  | callFailed (failure : DeliveryFailure)
  | deliveryLog (error : DeliveryLogError)
  deriving DecidableEq, Repr

/-- One bounded untrusted JSON result returned by a host `call`. -/
structure CallResult where
  delivery : DeliveryId
  metadata : DeliveryResultMetadata
  json : Bytes
  deriving DecidableEq

inductive Response where
  | done (result : Except EgressRuntimeError Unit)
  | routes (result : Except EgressRuntimeError (List RouteSummary))
  | receipt (result : Except EgressRuntimeError DeliveryId)
  | result (result : Except EgressRuntimeError CallResult)
  | status (result : Except EgressRuntimeError (Option DeliveryRecord))

/-- A command of the host.  Every command brings the number of its reply channel. -/
inductive Command (Q A : Type) where
  | register (route : Route Q A) (reply : Nat)
  | enable (route : RouteId) (reply : Nat)
  | drain (route : RouteId) (remove : Bool) (reply : Nat)
  | routes (reply : Nat)
  | emit (route : RouteId) (delivery : DeliveryId) (payload : Bytes) (reply : Nat)
  | call (route : RouteId) (delivery : DeliveryId) (payload : Bytes) (reply : Nat)
  | delivery (delivery : DeliveryId) (reply : Nat)

/-! ## What happens -/

/-- One observable thing.  A call of the log is noted with whether it answered `ok`, and with the
    state it left the log in. -/
inductive Event (σ : Type) where
  | inserted (intent : DeliveryIntent) (ok : Bool) (log : σ)
  | attempted (delivery : DeliveryId) (attempts : Nat) (ok : Bool) (log : σ)
  | concluded (delivery : DeliveryId) (outcome : DeliveryOutcome)
      (result : Option DeliveryResultMetadata) (ok : Bool) (log : σ)
  | looked (delivery : DeliveryId) (log : σ)
  | accepted (mode : OperationMode) (delivery : DeliveryId) (retries : Nat) (permitsRetry : Bool)
  | spawned (mode : OperationMode) (delivery : DeliveryId) (attempts task time : Nat)
  | joined (mode : OperationMode) (delivery : DeliveryId) (task : Nat)
      (disposition : AttemptDisposition)
  | parked (delivery : DeliveryId) (deadline : Nat)
  | finished (mode : OperationMode) (delivery : DeliveryId) (outcome : DeliveryOutcome)
      (result : Option DeliveryResultMetadata)
  | replied (reply : Nat) (response : Response)

/-! ## The engine -/

structure RouteUsage where
  pending : Nat
  bytes : Nat
  inFlight : Nat
  calls : Nat
  deriving DecidableEq, Repr

/-- `RouteUsage::default`. -/
def RouteUsage.zero : RouteUsage := ⟨0, 0, 0, 0⟩

def RouteUsage.isIdle (usage : RouteUsage) : Bool :=
  usage.pending == 0 && usage.inFlight == 0 && usage.calls == 0

/-- A spawned `execute_attempt`, and whether its abort handle was used. -/
structure Task (Q A : Type) where
  delivery : DeliveryId
  kind : DeliveryKind Q A
  mode : OperationMode
  payload : Bytes
  aborted : Bool

/-- An accepted delivery; `ρ` is what it answers to when it ends. -/
structure Active (Q A ρ : Type) where
  acceptedAtUnixMs : Nat
  parts : AdmittedDeliveryParts Q A
  lifecycle : DeliveryLifecycle
  abort : Option Nat
  reply : ρ

/-- `ActiveDelivery`: an event answers to nobody. -/
abbrev ActiveDelivery (Q A : Type) := Active Q A Unit

/-- `ActiveCall`: a call answers to the channel it came with. -/
abbrev ActiveCall (Q A : Type) := Active Q A Nat

structure RouteDrain where
  deadline : Nat
  remove : Bool
  reply : Nat
  deriving DecidableEq

/-- `Engine`, with the locals `stopping` and `shutdown_deadline` of `run`. -/
structure Engine (σ Q A : Type) where
  registry : RouteRegistry Q A
  log : σ
  tick : Nat
  active : BTreeMap DeliveryId (ActiveDelivery Q A)
  usage : BTreeMap RouteId RouteUsage
  ready : BTreeMap RouteId (List DeliveryId)
  readyRoutes : List RouteId
  retries : List (Nat × DeliveryId)
  attempts : BTreeMap Nat (Task Q A)
  activeCalls : BTreeMap DeliveryId (ActiveCall Q A)
  calls : BTreeMap Nat (Task Q A)
  nextTask : Nat
  drains : BTreeMap RouteId RouteDrain
  overrides : BTreeMap DeliveryId DeliveryRecord
  persistenceDegraded : Bool
  globalPending : Nat
  globalBytes : Nat
  globalInFlight : Nat
  callInFlight : Nat
  stopping : Bool
  shutdownDeadline : Option Nat
  trace : List (Event σ)
  saturated : Bool

structure Services (σ : Type) where
  limits : EgressRuntimeLimits
  log : DeliveryLog σ
  parse : Bytes → Option Json
  clock : Nat → TransitionTime

def Engine.new {σ Q A : Type} (registry : RouteRegistry Q A) (log : σ) : Engine σ Q A where
  registry := registry
  log := log
  tick := 0
  active := ∅
  usage := ∅
  ready := ∅
  readyRoutes := []
  retries := []
  attempts := ∅
  activeCalls := ∅
  calls := ∅
  nextTask := 0
  drains := ∅
  overrides := ∅
  persistenceDegraded := false
  globalPending := 0
  globalBytes := 0
  globalInFlight := 0
  callInFlight := 0
  stopping := false
  shutdownDeadline := none
  trace := []
  saturated := false

namespace Engine

variable {σ Q A : Type}

/-! ## Clock, replies and the log -/

def time (svc : Services σ) (s : Engine σ Q A) : TransitionTime := svc.clock s.tick

def ticked (s : Engine σ Q A) : Engine σ Q A := { s with tick := s.tick + 1 }

def note (s : Engine σ Q A) (event : Event σ) : Engine σ Q A := { s with trace := s.trace ++ [event] }

/-- `reply.send`. -/
def send (s : Engine σ Q A) (reply : Nat) (response : Response) : Engine σ Q A :=
  s.note (.replied reply response)

def isOk {ε α : Type} : Except ε α → Bool
  | .ok _ => true
  | .error _ => false

def persist (svc : Services σ) (s : Engine σ Q A) :
    DeliveryPersistenceAction → Except DeliveryLogError Unit × Engine σ Q A
  | .insertIntent intent =>
    let call := svc.log.insertIntent intent s.log
    (call.1, { s with log := call.2 }.note (.inserted intent (isOk call.1) call.2))
  | .recordAttempt delivery attempts at_ =>
    let call := svc.log.recordAttempt delivery attempts at_ s.log
    (call.1, { s with log := call.2 }.note (.attempted delivery attempts (isOk call.1) call.2))
  | .recordOutcome delivery outcome at_ result =>
    let call := svc.log.recordOutcome delivery outcome at_ result s.log
    (call.1,
      { s with log := call.2 }.note (.concluded delivery outcome result (isOk call.1) call.2))

/-- `self.log.delivery`. -/
def lookup (svc : Services σ) (s : Engine σ Q A) (delivery : DeliveryId) :
    Except DeliveryLogError (Option DeliveryRecord) × Engine σ Q A :=
  let call := svc.log.delivery delivery s.log
  (call.1, { s with log := call.2 }.note (.looked delivery call.2))

def confirms (outcome : DeliveryOutcome) (result : Option DeliveryResultMetadata) :
    Except DeliveryLogError (Option DeliveryRecord) → Bool
  | .ok (some record) => decide (record.state = .terminal outcome ∧ record.result = result)
  | .ok none | .error _ => false

/-! ## Counters -/

/-- `u16::saturating_sub` and its likes note when they saturate. -/
def lack (have_ take : Nat) : Bool := decide (have_ < take)

/-- `usage.entry(route).or_default()`, changed. -/
def withUsage (s : Engine σ Q A) (route : RouteId) (f : RouteUsage → RouteUsage) : Engine σ Q A :=
  { s with usage := s.usage.insert route (f (s.usage[route]?.getD .zero)) }

def landed (s : Engine σ Q A) (route : RouteId) : Engine σ Q A :=
  let s := { s with
    globalInFlight := s.globalInFlight - 1
    saturated := s.saturated || lack s.globalInFlight 1 }
  match s.usage[route]? with
  | none => s
  | some usage =>
    { s with
      usage := s.usage.insert route { usage with inFlight := usage.inFlight - 1 }
      saturated := s.saturated || lack usage.inFlight 1 }

def callLanded (s : Engine σ Q A) : Engine σ Q A :=
  { s with
    callInFlight := s.callInFlight - 1
    saturated := s.saturated || lack s.callInFlight 1 }

/-- `AbortHandle::abort`.  A task that was already joined is not there any more. -/
def abortTask (tasks : BTreeMap Nat (Task Q A)) (task : Nat) : BTreeMap Nat (Task Q A) :=
  match tasks[task]? with
  | none => tasks
  | some t => tasks.insert task { t with aborted := true }

/-! ## Queues -/

def enqueueReady (s : Engine σ Q A) (route : RouteId) (delivery : DeliveryId) : Engine σ Q A :=
  let queue := s.ready[route]?.getD []
  { s with
    readyRoutes := if queue = [] then s.readyRoutes ++ [route] else s.readyRoutes
    ready := s.ready.insert route (queue ++ [delivery]) }

def due (a b : Nat × DeliveryId) : Prop := a.1 < b.1 ∨ (a.1 = b.1 ∧ a.2 ≤ b.2)

instance : DecidableRel due := fun a b => by unfold due; infer_instance

/-- `BinaryHeap::push`. -/
def pushRetry (retries : List (Nat × DeliveryId)) (entry : Nat × DeliveryId) : List (Nat × DeliveryId) :=
  retries.orderedInsert due entry

end Engine

end Bondry.Runtime

/-
  THE ENGINE (`bondry-egress-runtime`, `runtime.rs`: `impl Engine`).

  Every method of the source under its own name, as a function of the state.  A state between two
  `step`s is one in which `run` waits in its `select!`: a `Label` is what the select picks, `handle` is
  the arm it runs, and `settle` is the head of the loop up to the next wait.

  What a task comes back with is not up to the label: a completion is what `executeAttempt` computes for
  that task from what the outside did, and only a task whose abort handle was used can be cancelled.
  A label that the select could not have picked is a wake-up with nothing to do.
-/
import Bondry.Runtime.State

namespace Bondry.Runtime

open Egress

namespace Engine

variable {σ Q A : Type} (svc : Services σ)

/-! ## Ends -/

def released (s : Engine σ Q A) (route : RouteId) (bytes : Nat) : Engine σ Q A :=
  let s := { s with
    globalPending := s.globalPending - 1
    globalBytes := s.globalBytes - bytes
    saturated := s.saturated || lack s.globalPending 1 || lack s.globalBytes bytes }
  match s.usage[route]? with
  | none => s
  | some usage =>
    let usage' := { usage with pending := usage.pending - 1, bytes := usage.bytes - bytes }
    { s with
      usage := if usage'.isIdle then s.usage.erase route else s.usage.insert route usage'
      saturated := s.saturated || lack usage.pending 1 || lack usage.bytes bytes }

def callReleased (s : Engine σ Q A) (route : RouteId) : Engine σ Q A :=
  match s.usage[route]? with
  | none => s
  | some usage =>
    let usage' := { usage with calls := usage.calls - 1 }
    { s with
      usage := if usage'.isIdle then s.usage.erase route else s.usage.insert route usage'
      saturated := s.saturated || lack usage.calls 1 }

/-- `Engine::finish_delivery`.  The end itself is an argument only for the trace. -/
def finishDelivery (s : Engine σ Q A) (delivery : DeliveryId) (outcome : DeliveryOutcome)
    (result : Option DeliveryResultMetadata) : Engine σ Q A :=
  match s.active[delivery]? with
  | none => s
  | some active =>
    let s := { s with active := s.active.erase delivery }
    let s := match active.abort with
      | none => s
      | some task => { s with attempts := abortTask s.attempts task }.landed active.parts.route
    (s.released active.parts.route active.parts.payload.length).note
      (.finished .emit delivery outcome result)

def finishCall (s : Engine σ Q A) (delivery : DeliveryId) (outcome : DeliveryOutcome)
    (result : Option DeliveryResultMetadata) (response : Except EgressRuntimeError CallResult) :
    Engine σ Q A :=
  match s.activeCalls[delivery]? with
  | none => s
  | some active =>
    let s := { s with activeCalls := s.activeCalls.erase delivery }
    let s := match active.abort with
      | none => s
      | some task => { s with calls := abortTask s.calls task }.callLanded
    ((s.callReleased active.parts.route).note (.finished .call delivery outcome result)).send
      active.reply (.result response)

/-- The record the engine answers with when the log was not told. -/
def overridden {ρ : Type} (active : Active Q A ρ) (delivery : DeliveryId)
    (outcome : DeliveryOutcome) (result : Option DeliveryResultMetadata) (now : Nat) : DeliveryRecord :=
  { intent := ⟨active.parts.route, delivery, active.acceptedAtUnixMs⟩
    attempts := active.lifecycle.attempts
    state := .terminal outcome
    updatedAtUnixMs := now
    result := result }

/-- `Engine::insert_override` and `Engine::insert_call_override`, over the map they look in. -/
def overrideWith {ρ : Type} (s : Engine σ Q A) (lane : BTreeMap DeliveryId (Active Q A ρ))
    (delivery : DeliveryId) (outcome : DeliveryOutcome) (result : Option DeliveryResultMetadata) :
    Engine σ Q A :=
  match lane[delivery]? with
  | none => s
  | some active =>
    { s with
      overrides := s.overrides.insert delivery
        (overridden active delivery outcome result (s.time svc).unixMs)
      tick := s.tick + 1 }

def insertOverride (s : Engine σ Q A) (delivery : DeliveryId) (outcome : DeliveryOutcome)
    (result : Option DeliveryResultMetadata) : Engine σ Q A :=
  s.overrideWith svc s.active delivery outcome result

def insertCallOverride (s : Engine σ Q A) (delivery : DeliveryId) (outcome : DeliveryOutcome)
    (result : Option DeliveryResultMetadata) : Engine σ Q A :=
  s.overrideWith svc s.activeCalls delivery outcome result

def persistedTerminalMatches (s : Engine σ Q A) (delivery : DeliveryId) (outcome : DeliveryOutcome)
    (result : Option DeliveryResultMetadata) : Bool × Engine σ Q A :=
  let found := s.lookup svc delivery
  (confirms outcome result found.1, found.2)

/-- What the four ways of storing an end share: an end that was not stored, and is not found in the
    log either, degrades the engine and goes to the override map. -/
def secure (s : Engine σ Q A) (insert : Engine σ Q A → Engine σ Q A) (persisted : Bool)
    (delivery : DeliveryId) (outcome : DeliveryOutcome) (result : Option DeliveryResultMetadata) :
    Engine σ Q A :=
  if persisted then s
  else
    let found := s.persistedTerminalMatches svc delivery outcome result
    if found.1 then found.2 else insert { found.2 with persistenceDegraded := true }

/-- `persistence.is_some_and(|action| self.persist(action).is_ok())`. -/
def persisted (s : Engine σ Q A) (persistence : Option DeliveryPersistenceAction) : Bool × Engine σ Q A :=
  match persistence with
  | none => (false, s)
  | some action =>
    let stored := s.persist svc action
    (isOk stored.1, stored.2)

/-- `persist_terminal`: the outcome is stored, or overridden. -/
def persistTerminal (s : Engine σ Q A) (delivery : DeliveryId) (outcome : DeliveryOutcome)
    (result : Option DeliveryResultMetadata) (persistence : Option DeliveryPersistenceAction) :
    Engine σ Q A :=
  let stored := s.persisted svc persistence
  let s := stored.2.secure svc (fun s => s.insertOverride svc delivery outcome result) stored.1
    delivery outcome result
  s.finishDelivery delivery outcome result

def persistCallTerminal (s : Engine σ Q A) (delivery : DeliveryId) (outcome : DeliveryOutcome)
    (result : Option DeliveryResultMetadata) (persistence : Option DeliveryPersistenceAction) :
    Engine σ Q A :=
  let stored := s.persisted svc persistence
  stored.2.secure svc (fun s => s.insertCallOverride svc delivery outcome result) stored.1
    delivery outcome result

/-- `record_outcome` with a reading of its own. -/
def recordOutcomeNow (s : Engine σ Q A) (delivery : DeliveryId) (outcome : DeliveryOutcome)
    (result : Option DeliveryResultMetadata) : Bool × Engine σ Q A :=
  s.ticked.persisted svc (some (.recordOutcome delivery outcome (s.time svc).unixMs result))

def forceTerminal (s : Engine σ Q A) (delivery : DeliveryId) (outcome : DeliveryOutcome)
    (result : Option DeliveryResultMetadata) : Engine σ Q A :=
  let stored := s.recordOutcomeNow svc delivery outcome result
  let s := stored.2.secure svc (fun s => s.insertOverride svc delivery outcome result) stored.1
    delivery outcome result
  s.finishDelivery delivery outcome result

def forceCallTerminal (s : Engine σ Q A) (delivery : DeliveryId) (outcome : DeliveryOutcome)
    (result : Option DeliveryResultMetadata) (response : Except EgressRuntimeError CallResult) :
    Engine σ Q A :=
  let stored := s.recordOutcomeNow svc delivery outcome result
  let s := stored.2.secure svc (fun s => s.insertCallOverride svc delivery outcome result) stored.1
    delivery outcome result
  s.finishCall delivery outcome result response

/-! ## Lifecycles -/

/-- `self.active.get_mut(delivery).map(|active| active.lifecycle.transition(time, event))`. -/
def transition (s : Engine σ Q A) (delivery : DeliveryId) (event : DeliveryEvent) :
    Option (Except DeliveryLifecycleError DeliveryTransition) × Engine σ Q A :=
  match s.active[delivery]? with
  | none => (none, s.ticked)
  | some active =>
    let moved := active.lifecycle.transition (s.time svc) event
    (some moved.1,
      { s with
        active := s.active.insert delivery { active with lifecycle := moved.2 }
        tick := s.tick + 1 })

def callTransition (s : Engine σ Q A) (delivery : DeliveryId) (event : DeliveryEvent) :
    Option (Except DeliveryLifecycleError DeliveryTransition) × Engine σ Q A :=
  match s.activeCalls[delivery]? with
  | none => (none, s.ticked)
  | some active =>
    let moved := active.lifecycle.transition (s.time svc) event
    (some moved.1,
      { s with
        activeCalls := s.activeCalls.insert delivery { active with lifecycle := moved.2 }
        tick := s.tick + 1 })

def failInternally (s : Engine σ Q A) (delivery : DeliveryId) : Engine σ Q A :=
  s.forceTerminal svc delivery (.failed .internal) none

def failCallInternally (s : Engine σ Q A) (delivery : DeliveryId) : Engine σ Q A :=
  s.forceCallTerminal svc delivery (.failed .internal) none (.error (.callFailed .internal))

def applyTerminalEvent (s : Engine σ Q A) (delivery : DeliveryId) (event : DeliveryEvent) : Engine σ Q A :=
  let moved := s.transition svc delivery event
  match moved.1 with
  | some (.ok transition) =>
    match transition.action with
    | .terminal outcome result =>
      moved.2.persistTerminal svc delivery outcome result transition.persistence
    | _ => moved.2.failInternally svc delivery
  | _ => moved.2.failInternally svc delivery

def applyCallTerminalEvent (s : Engine σ Q A) (delivery : DeliveryId) (event : DeliveryEvent)
    (response : Except EgressRuntimeError CallResult) : Engine σ Q A :=
  let moved := s.callTransition svc delivery event
  match moved.1 with
  | some (.ok transition) =>
    match transition.action with
    | .terminal outcome result =>
      (moved.2.persistCallTerminal svc delivery outcome result
        transition.persistence).finishCall delivery outcome result response
    | _ => moved.2.failCallInternally svc delivery
  | _ => moved.2.failCallInternally svc delivery

/-! ## Attempts -/

def taskOf {ρ : Type} (active : Active Q A ρ) (delivery : DeliveryId) : Task Q A :=
  ⟨delivery, active.parts.kind, active.parts.mode, active.parts.payload, false⟩

/-- The end of `start_attempt`: the task is spawned and counted. -/
def spawnAttempt (s : Engine σ Q A) (delivery : DeliveryId) (attempts time : Nat) : Engine σ Q A :=
  match s.active[delivery]? with
  | none => s
  | some active =>
    let task := s.nextTask
    let s := { s with
      attempts := s.attempts.insert task (taskOf active delivery)
      nextTask := task + 1
      active := s.active.insert delivery { active with abort := some task }
      globalInFlight := s.globalInFlight + 1 }
    (s.withUsage active.parts.route fun usage => { usage with inFlight := usage.inFlight + 1 }).note
      (.spawned .emit delivery attempts task time)

/-- The end of `start_call`. -/
def spawnCall (s : Engine σ Q A) (delivery : DeliveryId) (attempts time : Nat) : Engine σ Q A :=
  match s.activeCalls[delivery]? with
  | none => s
  | some active =>
    let task := s.nextTask
    { s with
      calls := s.calls.insert task (taskOf active delivery)
      nextTask := task + 1
      activeCalls := s.activeCalls.insert delivery { active with abort := some task }
      callInFlight := s.callInFlight + 1 }.note (.spawned .call delivery attempts task time)

def startAttempt (s : Engine σ Q A) (delivery : DeliveryId) : Engine σ Q A :=
  let time := (s.time svc).monotonic
  let moved := s.transition svc delivery .drive
  match moved.1 with
  | some (.ok transition) =>
    match transition.persistence with
    | none => moved.2
    | some persistence =>
      let stored := moved.2.persist svc persistence
      if isOk stored.1 then
        match transition.action with
        | .startAttempt attempts => stored.2.spawnAttempt delivery attempts time
        | _ => stored.2.failInternally svc delivery
      else
        { stored.2 with persistenceDegraded := true }.applyTerminalEvent svc delivery
          (.failed .internal)
  | _ => moved.2.failInternally svc delivery

def startCall (s : Engine σ Q A) (delivery : DeliveryId) : Engine σ Q A :=
  let time := (s.time svc).monotonic
  let moved := s.callTransition svc delivery .drive
  match moved.1 with
  | some (.ok transition) =>
    match transition.persistence with
    | none => moved.2.failCallInternally svc delivery
    | some persistence =>
      let stored := moved.2.persist svc persistence
      if isOk stored.1 then
        match transition.action with
        | .startAttempt attempts => stored.2.spawnCall delivery attempts time
        | _ => stored.2.failCallInternally svc delivery
      else
        { stored.2 with persistenceDegraded := true }.forceCallTerminal svc delivery
          (.failed .internal) none (.error (.deliveryLog .unavailable))
  | _ => moved.2.failCallInternally svc delivery

def clearInFlight (s : Engine σ Q A) (delivery : DeliveryId) : Bool × Engine σ Q A :=
  match s.active[delivery]? with
  | none => (false, s)
  | some active =>
    match active.abort with
    | none => (false, s)
    | some _ =>
      (true, { s with active := s.active.insert delivery { active with abort := none } }.landed
        active.parts.route)

def abortInFlight (s : Engine σ Q A) (delivery : DeliveryId) : Engine σ Q A :=
  match s.active[delivery]? with
  | none => s
  | some active =>
    match active.abort with
    | none => s
    | some task =>
      { s with
        active := s.active.insert delivery { active with abort := none }
        attempts := abortTask s.attempts task }.landed active.parts.route

def clearCallInFlight (s : Engine σ Q A) (delivery : DeliveryId) : Bool × Engine σ Q A :=
  match s.activeCalls[delivery]? with
  | none => (false, s)
  | some active =>
    match active.abort with
    | none => (false, s)
    | some _ =>
      (true, { s with
        activeCalls := s.activeCalls.insert delivery { active with abort := none } }.callLanded)

def abortCall (s : Engine σ Q A) (delivery : DeliveryId) : Engine σ Q A :=
  match s.activeCalls[delivery]? with
  | none => s
  | some active =>
    match active.abort with
    | none => s
    | some task =>
      { s with
        activeCalls := s.activeCalls.insert delivery { active with abort := none }
        calls := abortTask s.calls task }.callLanded

def dispositionEvent : AttemptDisposition → DeliveryEvent
  | .delivered result => .delivered result
  | .retryable failure => .retryable failure
  | .failed failure => .failed failure
  | .failedWithResult failure result => .failedWithResult failure result

/-- The rest of `complete_attempt`, for a delivery that was in flight. -/
def applyReturned (s : Engine σ Q A) (delivery : DeliveryId) (event : DeliveryEvent) : Engine σ Q A :=
  let moved := s.transition svc delivery event
  match moved.1 with
  | some (.ok transition) =>
    match transition.action with
    | .wait =>
      match transition.nextDeadline with
      | none => moved.2
      | some deadline =>
        { moved.2 with retries := pushRetry moved.2.retries (deadline, delivery) }.note
          (.parked delivery deadline)
    | .terminal outcome result =>
      moved.2.persistTerminal svc delivery outcome result transition.persistence
    | .none | .startAttempt _ => moved.2.failInternally svc delivery
  | _ => moved.2.failInternally svc delivery

def completeAttempt (s : Engine σ Q A) (delivery : DeliveryId) (completion : AttemptCompletion) :
    Engine σ Q A :=
  let cleared := s.clearInFlight delivery
  if cleared.1 then
    cleared.2.applyReturned svc delivery (dispositionEvent completion.disposition)
  else cleared.2

def callResponse (delivery : DeliveryId) (outcome : DeliveryOutcome)
    (result : Option DeliveryResultMetadata) (raw : Option Bytes) : Except EgressRuntimeError CallResult :=
  match outcome, result, raw with
  | .delivered, some metadata, some json => .ok ⟨delivery, metadata, json⟩
  | .failed failure, _, _ => .error (.callFailed failure)
  | .lostOnShutdown, _, _ | .unknownAfterCrash, _, _ => .error .stopped
  | .delivered, _, _ => .error (.callFailed .internal)

/-- The rest of `complete_call`, for a call that was in flight. -/
def applyCallReturned (s : Engine σ Q A) (delivery : DeliveryId) (event : DeliveryEvent)
    (raw : Option Bytes) : Engine σ Q A :=
  let moved := s.callTransition svc delivery event
  match moved.1 with
  | some (.ok transition) =>
    match transition.action with
    | .terminal outcome result =>
      (moved.2.persistCallTerminal svc delivery outcome result
        transition.persistence).finishCall delivery outcome result
          (callResponse delivery outcome result raw)
    | _ => moved.2.failCallInternally svc delivery
  | _ => moved.2.failCallInternally svc delivery

def completeCall (s : Engine σ Q A) (delivery : DeliveryId) (completion : AttemptCompletion) : Engine σ Q A :=
  let cleared := s.clearCallInFlight delivery
  if cleared.1 then
    cleared.2.applyCallReturned svc delivery (dispositionEvent completion.disposition)
      completion.result
  else cleared.2

/-! ## Admission -/

def checkPendingCapacity (s : Engine σ Q A) (route : RouteId) (bytes : Nat) :
    Except EgressRuntimeError Unit :=
  let usage := s.usage[route]?.getD .zero
  if svc.limits.globalPendingDeliveries ≤ s.globalPending ∨
      svc.limits.routePendingDeliveries ≤ usage.pending then .error .pendingCapacity
  else if svc.limits.globalPendingBytes < s.globalBytes + bytes ∨
      svc.limits.routePendingBytes < usage.bytes + bytes then .error .pendingBytes
  else .ok ()

/-- An accepted delivery, before its first attempt. -/
def activeOf {ρ : Type} (parts : AdmittedDeliveryParts Q A) (acceptedAtUnixMs : Nat) (reply : ρ) :
    Active Q A ρ :=
  { acceptedAtUnixMs := acceptedAtUnixMs, parts := parts
    lifecycle := .new parts.route parts.delivery parts.retry, abort := none, reply := reply }

/-- The end of `admit_emit`: the stored delivery is queued and counted. -/
def acceptEmit (s : Engine σ Q A) (parts : AdmittedDeliveryParts Q A) (acceptedAtUnixMs : Nat)
    (route : RouteId) (delivery : DeliveryId) : Engine σ Q A :=
  let bytes := parts.payload.length
  let s := { s with
    active := s.active.insert delivery (activeOf parts acceptedAtUnixMs ())
    globalPending := s.globalPending + 1
    globalBytes := s.globalBytes + bytes }
  let s := s.withUsage route fun usage =>
    { usage with pending := usage.pending + 1, bytes := usage.bytes + bytes }
  (s.enqueueReady route delivery).note
    (.accepted .emit delivery parts.retry.retries parts.kind.permitsAutomaticRetry)

def admitEmit (s : Engine σ Q A) (route : RouteId) (delivery : DeliveryId) (payload : Bytes) :
    Except EgressRuntimeError DeliveryId × Engine σ Q A :=
  if s.persistenceDegraded then (.error (.deliveryLog .unavailable), s)
  else
    let time := s.time svc
    let admission := s.registry.admitDelivery svc.parse route delivery payload .emit time.monotonic
    let s := { s.ticked with registry := admission.2 }
    match admission.1 with
    | .error error => (.error (.admission error), s)
    | .ok parts =>
      match s.checkPendingCapacity svc route parts.payload.length with
      | .error error => (.error error, s)
      | .ok () =>
        let stored := s.persist svc (.insertIntent (parts.intent time.unixMs))
        match stored.1 with
        | .error error => (.error (.deliveryLog error), stored.2)
        | .ok () => (.ok delivery, stored.2.acceptEmit parts time.unixMs route delivery)

/-- The middle of `prepare_call`: the stored call is counted. -/
def acceptCall (s : Engine σ Q A) (parts : AdmittedDeliveryParts Q A) (acceptedAtUnixMs : Nat)
    (route : RouteId) (delivery : DeliveryId) (reply : Nat) : Engine σ Q A :=
  let s := { s with
    activeCalls := s.activeCalls.insert delivery (activeOf parts acceptedAtUnixMs reply) }
  (s.withUsage route fun usage => { usage with calls := usage.calls + 1 }).note
    (.accepted .call delivery parts.retry.retries parts.kind.permitsAutomaticRetry)

def prepareCall (s : Engine σ Q A) (route : RouteId) (delivery : DeliveryId) (payload : Bytes)
    (reply : Nat) : Except EgressRuntimeError Unit × Engine σ Q A :=
  if s.persistenceDegraded then (.error (.deliveryLog .unavailable), s)
  else match s.registry.validateCallRoute route with
    | .error error => (.error (.admission error), s)
    | .ok () =>
      if svc.limits.callInFlight ≤ s.activeCalls.size then (.error .callCapacity, s)
      else
        let time := s.time svc
        let admission := s.registry.admitDelivery svc.parse route delivery payload .call time.monotonic
        let s := { s.ticked with registry := admission.2 }
        match admission.1 with
        | .error error => (.error (.admission error), s)
        | .ok parts =>
          let stored := s.persist svc (.insertIntent (parts.intent time.unixMs))
          match stored.1 with
          | .error error => (.error (.deliveryLog error), stored.2)
          | .ok () =>
            (.ok (), (stored.2.acceptCall parts time.unixMs route delivery reply).startCall
              svc delivery)

def admitCall (s : Engine σ Q A) (route : RouteId) (delivery : DeliveryId) (payload : Bytes)
    (reply : Nat) : Engine σ Q A :=
  let prepared := s.prepareCall svc route delivery payload reply
  match prepared.1 with
  | .error error => prepared.2.send reply (.result (.error error))
  | .ok () => prepared.2

def deliveryStatus (s : Engine σ Q A) (delivery : DeliveryId) :
    Except EgressRuntimeError (Option DeliveryRecord) × Engine σ Q A :=
  match s.overrides[delivery]? with
  | some record => (.ok (some record), s)
  | none =>
    let found := s.lookup svc delivery
    (match found.1 with
      | .ok record => .ok record
      | .error error => .error (.deliveryLog error), found.2)

/-! ## Drains -/

/-- `self.usage.get(route).is_none_or(RouteUsage::is_idle)`. -/
def routeIdle (s : Engine σ Q A) (route : RouteId) : Bool :=
  match s.usage[route]? with
  | none => true
  | some usage => usage.isIdle

def beginDrain (s : Engine σ Q A) (route : RouteId) (remove : Bool) (reply : Nat) : Engine σ Q A :=
  if s.drains[route]?.isSome then s.send reply (.done (.error .routeDraining))
  else
    let disabled := s.registry.setEnabled route false
    match disabled.1 with
    | .error error => { s with registry := disabled.2 }.send reply (.done (.error (.route error)))
    | .ok () =>
      let s := { s with registry := disabled.2 }
      if s.routeIdle route then
        let s := if remove then { s with registry := s.registry.unregister route } else s
        s.send reply (.done (.ok ()))
      else
        let deadline := EgressInstant.saturatingAdd (s.time svc).monotonic svc.limits.drainTimeout
        { s.ticked with drains := s.drains.insert route ⟨deadline, remove, reply⟩ }

/-- One round of `complete_empty_drains`. -/
def completeDrain (s : Engine σ Q A) (route : RouteId) : Engine σ Q A :=
  match s.drains[route]? with
  | none => s
  | some drain =>
    let s := { s with drains := s.drains.erase route }
    let s := if drain.remove then { s with registry := s.registry.unregister route } else s
    s.send drain.reply (.done (.ok ()))

def completeEmptyDrains (s : Engine σ Q A) : Engine σ Q A :=
  (s.drains.keys.filter s.routeIdle).foldl completeDrain s

def rejectDrainsForShutdown (s : Engine σ Q A) : Engine σ Q A :=
  s.drains.toList.foldl (fun s drain => s.send drain.2.reply (.done (.error .stopped)))
    { s with drains := ∅ }

/-! ## Dispatch -/

/-- Whether a queued delivery is still there and not in flight. -/
def waiting (s : Engine σ Q A) (delivery : DeliveryId) : Bool :=
  match s.active[delivery]? with
  | none => false
  | some active => active.abort.isNone

/-- The inner loop of `take_fair_ready`: pop until a delivery is waiting. -/
def popWaiting (s : Engine σ Q A) : List DeliveryId → Option DeliveryId × List DeliveryId
  | [] => (none, [])
  | delivery :: queue => if s.waiting delivery then (some delivery, queue) else s.popWaiting queue

/-- `usage.get(route).map_or(0, |usage| usage.in_flight)`. -/
def routeInFlight (s : Engine σ Q A) (route : RouteId) : Nat := (s.usage[route]?.getD .zero).inFlight

/-- A route taken from the front goes to the back again, unless its queue is empty. -/
def requeued (s : Engine σ Q A) (route : RouteId) (routes : List RouteId)
    (queue : List DeliveryId) : Engine σ Q A :=
  if queue = [] then { s with ready := s.ready.erase route, readyRoutes := routes }
  else { s with ready := s.ready.insert route queue, readyRoutes := routes ++ [route] }

/-- The loop of `take_fair_ready`, over the number of routes it still looks at. -/
def takeFairReadyLoop : Nat → Engine σ Q A → Option DeliveryId × Engine σ Q A
  | 0, s => (none, s)
  | rounds + 1, s =>
    match s.readyRoutes with
    | [] => (none, s)
    | route :: routes =>
      if svc.limits.routeInFlight ≤ s.routeInFlight route then
        takeFairReadyLoop rounds { s with readyRoutes := routes ++ [route] }
      else match s.ready[route]? with
        | none => takeFairReadyLoop rounds { s with readyRoutes := routes ++ [route] }
        | some queue =>
          let popped := s.popWaiting queue
          let s := s.requeued route routes popped.2
          match popped.1 with
          | some delivery => (some delivery, s)
          | none => takeFairReadyLoop rounds s

def takeFairReady (s : Engine σ Q A) : Option DeliveryId × Engine σ Q A :=
  takeFairReadyLoop svc s.readyRoutes.length s

/-- How many identifiers the ready queues hold. -/
def queued (s : Engine σ Q A) : Nat := BTreeMap.sumOf (fun _ queue => queue.length) s.ready

/-- The loop of `dispatch_ready`.  Every round takes an identifier out of a queue, so one round more
    than there are identifiers is enough (`dispatchReady_eq`). -/
def dispatchLoop : Nat → Engine σ Q A → Engine σ Q A
  | 0, s => s
  | rounds + 1, s =>
    if s.globalInFlight < svc.limits.globalInFlight then
      let taken := s.takeFairReady svc
      match taken.1 with
      | none => taken.2
      | some delivery => dispatchLoop rounds (taken.2.startAttempt svc delivery)
    else s

def dispatchReady (s : Engine σ Q A) : Engine σ Q A := dispatchLoop svc (s.queued + 1) s

/-- Whether a retry entry is the one its delivery waits for. -/
def validRetry (s : Engine σ Q A) (entry : Nat × DeliveryId) : Bool :=
  match s.active[entry.2]? with
  | none => false
  | some active => decide (active.lifecycle.nextDeadline = some entry.1)

def discardStaleRetries (s : Engine σ Q A) : Engine σ Q A :=
  { s with retries := s.retries.dropWhile fun entry => !s.validRetry entry }

/-! ## Joins -/

inductive Joined (A : Type) where
  | completed (world : AttemptWorld A)
  | cancelled
  | panicked

def inFlight {ρ : Type} (lane : BTreeMap DeliveryId (Active Q A ρ)) : List DeliveryId :=
  (lane.toList.filter fun entry => entry.2.abort.isSome).map Prod.fst

def ofRoute {ρ : Type} (lane : BTreeMap DeliveryId (Active Q A ρ)) (route : RouteId) : List DeliveryId :=
  (lane.toList.filter fun entry => entry.2.parts.route = route).map Prod.fst

/-- What `handle_attempt_join` does to each delivery when a task panicked. -/
def failAttempt (s : Engine σ Q A) (delivery : DeliveryId) : Engine σ Q A :=
  (s.abortInFlight delivery).applyTerminalEvent svc delivery (.failed .internal)

/-- What `handle_call_join` does to each call when a task panicked. -/
def failCall (s : Engine σ Q A) (delivery : DeliveryId) : Engine σ Q A :=
  (s.abortCall delivery).failCallInternally svc delivery

/-- `join_next` on the attempts, and `Engine::handle_attempt_join`. -/
def attemptJoined (s : Engine σ Q A) (task : Nat) (how : Joined A) : Engine σ Q A :=
  match s.attempts[task]? with
  | none => s
  | some t =>
    match how with
    | .completed world =>
      match executeAttempt t.kind t.mode t.delivery t.payload world with
      | none => s
      | some completion =>
        ({ s with attempts := s.attempts.erase task }.note
          (.joined .emit t.delivery task completion.disposition)).completeAttempt svc
            t.delivery completion
    | .cancelled => if t.aborted then { s with attempts := s.attempts.erase task } else s
    | .panicked =>
      (inFlight s.active).foldl (failAttempt svc) { s with attempts := s.attempts.erase task }

/-- `join_next` on the calls, and `Engine::handle_call_join`. -/
def callJoined (s : Engine σ Q A) (task : Nat) (how : Joined A) : Engine σ Q A :=
  match s.calls[task]? with
  | none => s
  | some t =>
    match how with
    | .completed world =>
      match executeAttempt t.kind t.mode t.delivery t.payload world with
      | none => s
      | some completion =>
        ({ s with calls := s.calls.erase task }.note
          (.joined .call t.delivery task completion.disposition)).completeCall svc
            t.delivery completion
    | .cancelled => if t.aborted then { s with calls := s.calls.erase task } else s
    | .panicked =>
      (inFlight s.activeCalls).foldl (failCall svc) { s with calls := s.calls.erase task }

/-! ## Deadlines -/

/-- The loop of `process_retry_deadlines`, over the heap as it pops. -/
def processRetries (now : Nat) : List (Nat × DeliveryId) → Engine σ Q A → Engine σ Q A
  | [], s => s
  | entry :: rest, s =>
    if entry.1 ≤ now then
      let s := { s with retries := rest }
      match s.active[entry.2]? with
      | none => processRetries now rest s
      | some active =>
        if active.lifecycle.nextDeadline = some entry.1 then
          processRetries now rest (s.enqueueReady active.parts.route entry.2)
        else processRetries now rest s
    else s

def processRetryDeadlines (s : Engine σ Q A) : Engine σ Q A :=
  processRetries (s.time svc).monotonic s.retries s.ticked

def cancelCall (s : Engine σ Q A) (delivery : DeliveryId) : Engine σ Q A :=
  s.applyCallTerminalEvent svc delivery .cancel (.error (.callFailed .cancelled))

/-- One expired drain of `process_drain_deadlines`. -/
def expireDrain (s : Engine σ Q A) (route : RouteId) : Engine σ Q A :=
  let s := (ofRoute s.active route).foldl
    (fun s delivery => s.applyTerminalEvent svc delivery .cancel) s
  (ofRoute s.activeCalls route).foldl (cancelCall svc) s

def processDrainDeadlines (s : Engine σ Q A) : Engine σ Q A :=
  let now := (s.time svc).monotonic
  let expired := (s.drains.toList.filter fun entry => decide (entry.2.deadline ≤ now)).map Prod.fst
  expired.foldl (expireDrain svc) s.ticked

def loseCall (s : Engine σ Q A) (delivery : DeliveryId) : Engine σ Q A :=
  s.applyCallTerminalEvent svc delivery .shutdownDeadline (.error .stopped)

def expireShutdown (s : Engine σ Q A) : Engine σ Q A :=
  let s := s.active.keys.foldl
    (fun s delivery => s.applyTerminalEvent svc delivery .shutdownDeadline) s
  s.activeCalls.keys.foldl (loseCall svc) s

def nextDeadline (s : Engine σ Q A) : Option Nat :=
  ((s.retries.head?.map Prod.fst).toList ++ s.drains.toList.map (fun entry => entry.2.deadline) ++
    s.shutdownDeadline.toList).min?

/-- The deadline arm of `run`. -/
def deadlinePassed (s : Engine σ Q A) : Engine σ Q A :=
  let s := (s.processRetryDeadlines svc).processDrainDeadlines svc
  match s.shutdownDeadline with
  | none => s
  | some deadline =>
    if deadline ≤ (s.time svc).monotonic then s.ticked.expireShutdown svc else s.ticked

/-! ## The loop -/

def rejectCommand (s : Engine σ Q A) : Command Q A → Engine σ Q A
  | .register _ reply | .enable _ reply | .drain _ _ reply => s.send reply (.done (.error .stopped))
  | .routes reply => s.send reply (.routes (.error .stopped))
  | .emit _ _ _ reply => s.send reply (.receipt (.error .stopped))
  | .call _ _ _ reply => s.send reply (.result (.error .stopped))
  | .delivery _ reply => s.send reply (.status (.error .stopped))

/-- `Result::map_err(Into::into)` on a registry answer. -/
def registryAnswer : Except RouteRegistryError Unit → Response
  | .ok () => .done (.ok ())
  | .error error => .done (.error (.route error))

def handleCommand (s : Engine σ Q A) : Command Q A → Engine σ Q A
  | .register route reply =>
    let registered := s.registry.register route
    { s with registry := registered.2 }.send reply (registryAnswer registered.1)
  | .enable route reply =>
    if s.drains[route]?.isSome then s.send reply (.done (.error .routeDraining))
    else
      let enabled := s.registry.setEnabled route true
      { s with registry := enabled.2 }.send reply (registryAnswer enabled.1)
  | .drain route remove reply => s.beginDrain svc route remove reply
  | .routes reply => s.send reply (.routes (.ok s.registry.summaries))
  | .emit route delivery payload reply =>
    let admitted := s.admitEmit svc route delivery payload
    admitted.2.send reply (.receipt admitted.1)
  | .call route delivery payload reply => s.admitCall svc route delivery payload reply
  | .delivery delivery reply =>
    let status := s.deliveryStatus svc delivery
    status.2.send reply (.status status.1)

/-- What `tokio::select!` may wake up for. -/
inductive Label (Q A : Type) where
  /-- The shutdown signal, with the commands that were still queued. -/
  | shutdown (queued : List (Command Q A))
  | command (command : Command Q A)
  /-- The last sender of commands is gone. -/
  | closed
  | attemptJoined (task : Nat) (how : Joined A)
  | callJoined (task : Nat) (how : Joined A)
  | deadline

def beginStopping (s : Engine σ Q A) : Engine σ Q A :=
  { s.ticked with
    stopping := true
    shutdownDeadline := some
      (EgressInstant.saturatingAdd (s.time svc).monotonic svc.limits.drainTimeout) }

/-- `run` has left its loop. -/
def exited (s : Engine σ Q A) : Bool := s.stopping && s.active.isEmpty && s.activeCalls.isEmpty

def handle (s : Engine σ Q A) (label : Label Q A) : Engine σ Q A :=
  if s.exited then s
  else match label with
    | .shutdown queued =>
      if s.stopping then s
      else (queued.foldl rejectCommand (s.beginStopping svc)).rejectDrainsForShutdown
    | .command command => if s.stopping then s else s.handleCommand svc command
    | .closed => if s.stopping then s else (s.beginStopping svc).rejectDrainsForShutdown
    | .attemptJoined task how => s.attemptJoined svc task how
    | .callJoined task how => s.callJoined svc task how
    | .deadline => if s.nextDeadline.isSome then s.deadlinePassed svc else s

/-- What follows every event. -/
def settle (s : Engine σ Q A) : Engine σ Q A :=
  (s.dispatchReady svc).completeEmptyDrains.discardStaleRetries

def step (s : Engine σ Q A) (label : Label Q A) : Engine σ Q A :=
  if s.exited then s else (s.handle svc label).settle svc

def start (registry : RouteRegistry Q A) (log : σ) : Engine σ Q A := (Engine.new registry log).settle svc

end Engine

end Bondry.Runtime

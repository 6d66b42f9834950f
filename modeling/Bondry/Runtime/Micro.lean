/-
  THE ENGINE, ONE EFFECT AT A TIME.

  The handlers share a small number of effects: a delivery is taken from its queue, an attempt is
  recorded, a task is spawned, an end is stored.  `Micro` lists each of them ONCE, with the guard under
  which the code does it.  What holds of every run of the engine is then proved once for each effect, and
  not once for each of the handlers it occurs in.

  The engine is sequential, so between two effects it is in the middle of something.  That is its `Hand`:
  which delivery it is busy with, and how far it got.
-/
import Bondry.Runtime.Handlers

namespace Bondry.Runtime

open Egress

namespace Engine

variable {σ Q A : Type} (svc : Services σ)

/-! ## Where the engine is -/

/-- What the engine is in the middle of.  With an idle hand it is between two handlers, or in a loop that
    has just finished with one delivery. -/
inductive Hand where
  | idle
  /-- Out of its queue (or just accepted, for a call), not started yet. -/
  | taken (mode : OperationMode) (delivery : DeliveryId)
  /-- The lifecycle went in flight at this time. -/
  | driven (mode : OperationMode) (delivery : DeliveryId) (attempts time : Nat)
  /-- The attempt is in the log, its task not spawned yet. -/
  | recorded (mode : OperationMode) (delivery : DeliveryId) (attempts time : Nat)
  /-- Its task has come back. -/
  | back (mode : OperationMode) (delivery : DeliveryId) (task : Nat)
      (disposition : AttemptDisposition)
  /-- Its task has come back, and its abort handle is cleared. -/
  | returned (mode : OperationMode) (delivery : DeliveryId) (disposition : AttemptDisposition)
  /-- It is going to end. -/
  | ending (mode : OperationMode) (delivery : DeliveryId)
  /-- Its end was not stored. -/
  | doubted (mode : OperationMode) (delivery : DeliveryId) (outcome : DeliveryOutcome)
      (result : Option DeliveryResultMetadata)
  /-- Its end is in the log or in the override map. -/
  | secured (mode : OperationMode) (delivery : DeliveryId) (outcome : DeliveryOutcome)
      (result : Option DeliveryResultMetadata)

/-- From here the engine may turn to ending a delivery. -/
inductive Hand.Releases (mode : OperationMode) (d : DeliveryId) : Hand → Prop
  | idle : Releases mode d .idle
  | taken : Releases mode d (.taken mode d)
  | returned (disposition : AttemptDisposition) : Releases mode d (.returned mode d disposition)
  | ending : Releases mode d (.ending mode d)

/-- The trace says that the delivery was accepted. -/
def Accepted (s : Engine σ Q A) (mode : OperationMode) (d : DeliveryId) : Prop :=
  ∃ retries permitsRetry, Event.accepted mode d retries permitsRetry ∈ s.trace

/-- The lifecycle of a delivery that an attempt was started of. -/
def inFlightAt {ρ : Type} (a : Active Q A ρ) (time : TransitionTime) : Active Q A ρ :=
  { a with lifecycle := (a.lifecycle.startAttempt time).2 }

/-- A delivery whose lifecycle changed its state alone. -/
def withState {ρ : Type} (a : Active Q A ρ) (state : LifecycleState) : Active Q A ρ :=
  { a with lifecycle := { a.lifecycle with state := state } }

def unhandled {ρ : Type} (a : Active Q A ρ) : Active Q A ρ := { a with abort := none }

/-- The number of the next attempt, saturating. -/
def nextAttempt {ρ : Type} (a : Active Q A ρ) : Nat := min (a.lifecycle.attempts + 1) 65535

/-! ## The effects -/

/-- **One effect of the engine**, from a hand and a state to a hand and a state. -/
inductive Micro : Hand → Engine σ Q A → Hand → Engine σ Q A → Prop
  -- what leaves every delivery alone
  | ticked {h : Hand} {s : Engine σ Q A} : Micro h s h s.ticked
  | looked {h : Hand} {s : Engine σ Q A} (d : DeliveryId) : Micro h s h (s.lookup svc d).2
  | sent {h : Hand} {s : Engine σ Q A} (reply : Nat) (response : Response)
      (hreceipt : ∀ d, response = .receipt (.ok d) → s.Accepted .emit d) :
      Micro h s h (s.send reply response)
  | configured {h : Hand} {s : Engine σ Q A} (registry : RouteRegistry Q A) :
      Micro h s h { s with registry := registry }
  | drained {h : Hand} {s : Engine σ Q A} (drains : BTreeMap RouteId RouteDrain) :
      Micro h s h { s with drains := drains }
  | stopped {h : Hand} {s : Engine σ Q A} (deadline : Nat) :
      Micro h s h { s with stopping := true, shutdownDeadline := some deadline }
  -- the ready queues
  | rotated {s : Engine σ Q A} {route : RouteId} {routes : List RouteId}
      (hroutes : s.readyRoutes = route :: routes) :
      Micro .idle s .idle { s with readyRoutes := routes ++ [route] }
  | skipped {s : Engine σ Q A} {route : RouteId} {routes : List RouteId} {queue : List DeliveryId}
      (hroutes : s.readyRoutes = route :: routes) (hqueue : s.ready[route]? = some queue)
      (hnone : (s.popWaiting queue).1 = none) :
      Micro .idle s .idle (s.requeued route routes (s.popWaiting queue).2)
  | took {s : Engine σ Q A} {route : RouteId} {routes : List RouteId} {queue : List DeliveryId}
      {d : DeliveryId} (hroutes : s.readyRoutes = route :: routes)
      (hqueue : s.ready[route]? = some queue) (hsome : (s.popWaiting queue).1 = some d)
      (hroute : s.routeInFlight route < svc.limits.routeInFlight)
      (hglobal : s.globalInFlight < svc.limits.globalInFlight) :
      Micro .idle s (.taken .emit d) (s.requeued route routes (s.popWaiting queue).2)
  -- an attempt begins
  | drove {s : Engine σ Q A} {d : DeliveryId} {a : ActiveDelivery Q A}
      (hactive : s.active[d]? = some a) (hdue : a.lifecycle.Due (s.time svc)) :
      Micro (.taken .emit d) s (.driven .emit d (nextAttempt a) (s.time svc).monotonic)
        { s with active := s.active.insert d (inFlightAt a (s.time svc)), tick := s.tick + 1 }
  | callDrove {s : Engine σ Q A} {d : DeliveryId} {a : ActiveCall Q A}
      (hactive : s.activeCalls[d]? = some a) (hdue : a.lifecycle.Due (s.time svc)) :
      Micro (.taken .call d) s (.driven .call d (nextAttempt a) (s.time svc).monotonic)
        { s with
          activeCalls := s.activeCalls.insert d (inFlightAt a (s.time svc)), tick := s.tick + 1 }
  /-- A delivery that is driven too early is in no queue afterwards. -/
  | stranded {s : Engine σ Q A} {d : DeliveryId} {a : ActiveDelivery Q A}
      (hactive : s.active[d]? = some a) (hdue : ¬ a.lifecycle.Due (s.time svc)) :
      Micro (.taken .emit d) s .idle { s with active := s.active.insert d a, tick := s.tick + 1 }
  | recorded {s : Engine σ Q A} {mode : OperationMode} {d : DeliveryId} {k time : Nat} (at_ : Nat)
      (hok : isOk (s.persist svc (.recordAttempt d k at_)).1 = true) :
      Micro (.driven mode d k time) s (.recorded mode d k time)
        (s.persist svc (.recordAttempt d k at_)).2
  | unrecorded {s : Engine σ Q A} {mode : OperationMode} {d : DeliveryId} {k time : Nat} (at_ : Nat)
      (hfail : isOk (s.persist svc (.recordAttempt d k at_)).1 = false) :
      Micro (.driven mode d k time) s (.ending mode d)
        { (s.persist svc (.recordAttempt d k at_)).2 with persistenceDegraded := true }
  | spawned {s : Engine σ Q A} {d : DeliveryId} {k time : Nat} {a : ActiveDelivery Q A}
      (hactive : s.active[d]? = some a) :
      Micro (.recorded .emit d k time) s .idle (s.spawnAttempt d k time)
  | callSpawned {s : Engine σ Q A} {d : DeliveryId} {k time : Nat} {a : ActiveCall Q A}
      (hactive : s.activeCalls[d]? = some a) :
      Micro (.recorded .call d k time) s .idle (s.spawnCall d k time)
  -- a task comes back
  | joined {s : Engine σ Q A} {task : Nat} {t : Task Q A} {world : AttemptWorld A}
      {completion : AttemptCompletion} (htask : s.attempts[task]? = some t)
      (hdone : executeAttempt t.kind t.mode t.delivery t.payload world = some completion) :
      Micro .idle s (.back .emit t.delivery task completion.disposition)
        ({ s with attempts := s.attempts.erase task }.note
          (.joined .emit t.delivery task completion.disposition))
  | callJoined {s : Engine σ Q A} {task : Nat} {t : Task Q A} {world : AttemptWorld A}
      {completion : AttemptCompletion} (htask : s.calls[task]? = some t)
      (hdone : executeAttempt t.kind t.mode t.delivery t.payload world = some completion) :
      Micro .idle s (.back .call t.delivery task completion.disposition)
        ({ s with calls := s.calls.erase task }.note
          (.joined .call t.delivery task completion.disposition))
  | ignored {s : Engine σ Q A} {d : DeliveryId} {task : Nat} {disposition : AttemptDisposition}
      (hgone : ∀ a, s.active[d]? = some a → a.abort = none) :
      Micro (.back .emit d task disposition) s .idle s
  | callIgnored {s : Engine σ Q A} {d : DeliveryId} {task : Nat} {disposition : AttemptDisposition}
      (hgone : ∀ a, s.activeCalls[d]? = some a → a.abort = none) :
      Micro (.back .call d task disposition) s .idle s
  | cleared {s : Engine σ Q A} {d : DeliveryId} {task handle : Nat}
      {disposition : AttemptDisposition} {a : ActiveDelivery Q A}
      (hactive : s.active[d]? = some a) (habort : a.abort = some handle) :
      Micro (.back .emit d task disposition) s (.returned .emit d disposition)
        ({ s with active := s.active.insert d (unhandled a) }.landed a.parts.route)
  | callCleared {s : Engine σ Q A} {d : DeliveryId} {task handle : Nat}
      {disposition : AttemptDisposition} {a : ActiveCall Q A}
      (hactive : s.activeCalls[d]? = some a) (habort : a.abort = some handle) :
      Micro (.back .call d task disposition) s (.returned .call d disposition)
        { s with activeCalls := s.activeCalls.insert d (unhandled a) }.callLanded
  | discarded {s : Engine σ Q A} {task : Nat} {t : Task Q A} (htask : s.attempts[task]? = some t)
      (haborted : t.aborted = true) :
      Micro .idle s .idle { s with attempts := s.attempts.erase task }
  | callDiscarded {s : Engine σ Q A} {task : Nat} {t : Task Q A} (htask : s.calls[task]? = some t)
      (haborted : t.aborted = true) :
      Micro .idle s .idle { s with calls := s.calls.erase task }
  -- retries
  | parked {s : Engine σ Q A} {d : DeliveryId} {failure : RetryableFailure}
      {a : ActiveDelivery Q A} (hactive : s.active[d]? = some a)
      (hflight : a.lifecycle.state = .inFlight)
      (hleft : a.lifecycle.attempts ≤ a.lifecycle.retry.retries) :
      Micro (.returned .emit d (.retryable failure)) s .idle
        ({ s with
          active := s.active.insert d
            (withState a (.waitingRetry (a.lifecycle.retryDeadline (s.time svc))))
          tick := s.tick + 1
          retries := pushRetry s.retries (a.lifecycle.retryDeadline (s.time svc), d) }.note
            (.parked d (a.lifecycle.retryDeadline (s.time svc))))
  | retryDropped {s : Engine σ Q A} {entry : Nat × DeliveryId} {rest : List (Nat × DeliveryId)}
      (hretries : s.retries = entry :: rest) (hstale : s.validRetry entry = false) :
      Micro .idle s .idle { s with retries := rest }
  | retryDue {s : Engine σ Q A} {entry : Nat × DeliveryId} {rest : List (Nat × DeliveryId)}
      {a : ActiveDelivery Q A} (hretries : s.retries = entry :: rest)
      (hactive : s.active[entry.2]? = some a)
      (hnext : a.lifecycle.nextDeadline = some entry.1)
      (hpast : ∃ i, i < s.tick ∧ entry.1 ≤ (svc.clock i).monotonic) :
      Micro .idle s .idle ({ s with retries := rest }.enqueueReady a.parts.route entry.2)
  -- a delivery ends
  | aborted {s : Engine σ Q A} {d : DeliveryId} {task : Nat} {a : ActiveDelivery Q A}
      (hactive : s.active[d]? = some a) (habort : a.abort = some task) :
      Micro .idle s (.ending .emit d)
        ({ s with
          active := s.active.insert d (unhandled a)
          attempts := abortTask s.attempts task }.landed a.parts.route)
  | callAborted {s : Engine σ Q A} {d : DeliveryId} {task : Nat} {a : ActiveCall Q A}
      (hactive : s.activeCalls[d]? = some a) (habort : a.abort = some task) :
      Micro .idle s (.ending .call d)
        { s with
          activeCalls := s.activeCalls.insert d (unhandled a)
          calls := abortTask s.calls task }.callLanded
  | advanced {h : Hand} {s : Engine σ Q A} {d : DeliveryId} {a : ActiveDelivery Q A}
      (state : LifecycleState) (hfree : h.Releases .emit d) (hactive : s.active[d]? = some a) :
      Micro h s (.ending .emit d)
        { s with active := s.active.insert d (withState a state), tick := s.tick + 1 }
  | callAdvanced {h : Hand} {s : Engine σ Q A} {d : DeliveryId} {a : ActiveCall Q A}
      (state : LifecycleState) (hfree : h.Releases .call d) (hactive : s.activeCalls[d]? = some a) :
      Micro h s (.ending .call d)
        { s with activeCalls := s.activeCalls.insert d (withState a state), tick := s.tick + 1 }
  | stored {s : Engine σ Q A} {mode : OperationMode} {d : DeliveryId} (outcome : DeliveryOutcome)
      (result : Option DeliveryResultMetadata) (at_ : Nat)
      (hok : isOk (s.persist svc (.recordOutcome d outcome at_ result)).1 = true) :
      Micro (.ending mode d) s (.secured mode d outcome result)
        (s.persist svc (.recordOutcome d outcome at_ result)).2
  | unstored {s : Engine σ Q A} {mode : OperationMode} {d : DeliveryId} (outcome : DeliveryOutcome)
      (result : Option DeliveryResultMetadata) (at_ : Nat)
      (hfail : isOk (s.persist svc (.recordOutcome d outcome at_ result)).1 = false) :
      Micro (.ending mode d) s (.doubted mode d outcome result)
        (s.persist svc (.recordOutcome d outcome at_ result)).2
  | confirmed {s : Engine σ Q A} {mode : OperationMode} {d : DeliveryId} {outcome : DeliveryOutcome}
      {result : Option DeliveryResultMetadata}
      (hyes : confirms outcome result (s.lookup svc d).1 = true) :
      Micro (.doubted mode d outcome result) s (.secured mode d outcome result) (s.lookup svc d).2
  | overrode {s : Engine σ Q A} {mode : OperationMode} {d : DeliveryId} {outcome : DeliveryOutcome}
      {result : Option DeliveryResultMetadata} (record : DeliveryRecord)
      (hstate : record.state = .terminal outcome) (hresult : record.result = result) :
      Micro (.doubted mode d outcome result) s (.secured mode d outcome result)
        { (s.lookup svc d).2 with
          persistenceDegraded := true
          overrides := s.overrides.insert d record
          tick := s.tick + 1 }
  | finished {s : Engine σ Q A} {d : DeliveryId} {outcome : DeliveryOutcome}
      {result : Option DeliveryResultMetadata} {a : ActiveDelivery Q A}
      (hactive : s.active[d]? = some a) :
      Micro (.secured .emit d outcome result) s .idle (s.finishDelivery d outcome result)
  | callFinished {s : Engine σ Q A} {d : DeliveryId} {outcome : DeliveryOutcome}
      {result : Option DeliveryResultMetadata} {a : ActiveCall Q A}
      (response : Except EgressRuntimeError CallResult) (hactive : s.activeCalls[d]? = some a) :
      Micro (.secured .call d outcome result) s .idle (s.finishCall d outcome result response)

/-- **What a label begins with**, before the chain of effects: most labels with nothing, a command with
    its admission, a panicked task with its leaving the set. -/
inductive Begins (s : Engine σ Q A) : Label Q A → Hand → Engine σ Q A → Prop
  | nothing (label : Label Q A) : Begins s label .idle s
  | emitted {route : RouteId} {d : DeliveryId} {payload : Bytes} {reply : Nat}
      {parts : AdmittedDeliveryParts Q A} {registry : RouteRegistry Q A}
      (hhealthy : s.persistenceDegraded = false)
      (hadmitted : s.registry.admitDelivery svc.parse route d payload .emit (s.time svc).monotonic =
        (.ok parts, registry))
      (hroom : s.checkPendingCapacity svc route parts.payload.length = .ok ())
      (hok : isOk (s.persist svc (.insertIntent (parts.intent (s.time svc).unixMs))).1 = true) :
      Begins s (.command (.emit route d payload reply)) .idle
        (({ s.ticked with registry := registry }.persist svc
          (.insertIntent (parts.intent (s.time svc).unixMs))).2.acceptEmit parts
            (s.time svc).unixMs route d)
  | called {route : RouteId} {d : DeliveryId} {payload : Bytes} {reply : Nat}
      {parts : AdmittedDeliveryParts Q A} {registry : RouteRegistry Q A}
      (hhealthy : s.persistenceDegraded = false)
      (hadmitted : s.registry.admitDelivery svc.parse route d payload .call (s.time svc).monotonic =
        (.ok parts, registry))
      (hroom : s.activeCalls.size < svc.limits.callInFlight)
      (hok : isOk (s.persist svc (.insertIntent (parts.intent (s.time svc).unixMs))).1 = true) :
      Begins s (.command (.call route d payload reply)) (.taken .call d)
        (({ s.ticked with registry := registry }.persist svc
          (.insertIntent (parts.intent (s.time svc).unixMs))).2.acceptCall parts
            (s.time svc).unixMs route d reply)
  | refused {command : Command Q A} (intent : DeliveryIntent) (registry : RouteRegistry Q A)
      (hhealthy : s.persistenceDegraded = false)
      (hfor : ∃ route payload reply, command = .emit route intent.delivery payload reply ∨
        command = .call route intent.delivery payload reply)
      (hfail : isOk (s.persist svc (.insertIntent intent)).1 = false) :
      Begins s (.command command) .idle
        ({ s.ticked with registry := registry }.persist svc (.insertIntent intent)).2
  | lost {task : Nat} {t : Task Q A} (hrunning : s.exited = false)
      (htask : s.attempts[task]? = some t) :
      Begins s (.attemptJoined task .panicked) .idle { s with attempts := s.attempts.erase task }
  | callLost {task : Nat} {t : Task Q A} (hrunning : s.exited = false)
      (htask : s.calls[task]? = some t) :
      Begins s (.callJoined task .panicked) .idle { s with calls := s.calls.erase task }

/-! ## Chains of effects -/

/-- Any number of micro-steps. -/
def Chain (h : Hand) (s : Engine σ Q A) (h' : Hand) (s' : Engine σ Q A) : Prop :=
  Relation.ReflTransGen (fun x y : Hand × Engine σ Q A => Micro svc x.1 x.2 y.1 y.2) (h, s) (h', s')

variable {svc}

theorem Chain.refl (h : Hand) (s : Engine σ Q A) : Chain svc h s h s := Relation.ReflTransGen.refl

variable {h h' : Hand} {s s' : Engine σ Q A}

theorem Micro.chain (hm : Micro svc h s h' s') : Chain svc h s h' s' :=
  Relation.ReflTransGen.single hm

theorem Chain.trans {h'' : Hand} {s'' : Engine σ Q A} (hfirst : Chain svc h s h' s')
    (hrest : Chain svc h' s' h'' s'') : Chain svc h s h'' s'' :=
  Relation.ReflTransGen.trans hfirst hrest

/-- **The invariant rule for chains.** -/
theorem Chain.keeps (Inv : Hand → Engine σ Q A → Prop)
    (hmicro : ∀ h s h' s', Micro svc h s h' s' → Inv h s → Inv h' s') (hchain : Chain svc h s h' s')
    (hinv : Inv h s) : Inv h' s' := by
  have hpair : ∀ x y : Hand × Engine σ Q A, Relation.ReflTransGen
      (fun x y : Hand × Engine σ Q A => Micro svc x.1 x.2 y.1 y.2) x y → Inv x.1 x.2 → Inv y.1 y.2 := by
    intro x y hxy hx
    induction hxy with
    | refl => exact hx
    | tail _ hlast ih => exact hmicro _ _ _ _ hlast ih
  exact hpair (h, s) (h', s') hchain hinv

end Engine

end Bondry.Runtime

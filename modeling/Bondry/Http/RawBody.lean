/-
  RAW-BODY HANDLERS of the HTTP server (`raw_body.rs`): registry, generations, requests.

  A route has at most one live GENERATION: a handler that is enabled, then draining, then detached.  The
  registry's lock guards the route map, each generation's lock its own state.  Every call that touches
  them is a process; its program point says what it does next.

  * A `CriticalSection` is a stretch of code under one lock.  `entering` it waits for the lock, `inside`
    it the stretch runs as one step, and with its end the guard is dropped.
  * Three sections lie inside a section of the registry: reading the lifecycle of the generation
    found under a path, reading those of the others in `retain`, and closing a generation.
  * An accepted request is the process that was accepted: `serving` until it drops its handler, then on
    its way to `finish_request`.
  * What the outside decides is in the `Move`: which call an idle process makes, and whether a wait
    has run out of time.
-/
import Bondry.Contract.Identifier
import Bondry.Contract.Limits
import Bondry.Lib.BTreeMap
import Bondry.Lib.Run
import Bondry.Lib.Token

namespace Bondry.Http

def maxRegisteredHandlers : Nat := 16

inductive RawBodyLifecycle where
  | enabled
  | draining
  | detached
  deriving DecidableEq, Repr

/-- A generation; `handler` says whether the registry's own reference is still in its slot. -/
structure Generation where
  path : Text
  lifecycle : RawBodyLifecycle
  activeRequests : Nat
  handler : Bool

inductive Lock where
  | registry
  | generation (g : Nat)
  deriving DecidableEq

/-- What a process does after it has begun to drain a generation. -/
inductive Next where
  | finish
  /-- `disable`: wait for the generation. -/
  | wait (g : Nat)
  /-- `begin_shutdown`: drain the rest. -/
  | drain (rest : List Nat)

/-- Who waits in `wait_detached`. -/
inductive Waiter where
  | disable
  /-- `wait_for_shutdown`, with the generations still to wait for; `stopping` is what the flag said
      when they were collected. -/
  | shutdown (rest : List Nat) (stopping : Bool)

inductive CriticalSection where
  | register (path : Text)
  /-- `existing.lifecycle()`, under the registry's lock. -/
  | existing (path : Text) (g : Nat)
  /-- One entry of `retain`, under the registry's lock, and the keys still to look at. -/
  | retain (path key : Text) (g : Nat) (rest : List Text)
  | matchRequest (path : Text)
  | accept (g : Nat)
  | finishRequest (g : Nat)
  | beginDraining (g : Nat) (next : Next)
  /-- The registry's part of `finish_detachment`. -/
  | detach (g : Nat) (next : Next)
  /-- The generation's part of `finish_detachment`, under the registry's lock. -/
  | close (g : Nat) (next : Next)
  | beginShutdown
  | waitForShutdown
  | waitDetached (g : Nat) (waiter : Waiter)

namespace CriticalSection

def lock : CriticalSection → Lock
  | .register _ | .matchRequest _ | .detach _ _ | .beginShutdown | .waitForShutdown => .registry
  | .existing _ g | .retain _ _ g _ | .accept g | .finishRequest g | .beginDraining g _ | .close g _
  | .waitDetached g _ => .generation g

def nested : CriticalSection → Bool
  | .existing _ _ | .retain _ _ _ _ | .close _ _ => true
  | _ => false

end CriticalSection

inductive ProcessPoint where
  | idle
  | entering (code : CriticalSection)
  | inside (code : CriticalSection)
  /-- The end of `register`: the capacity check and the insertion, under the registry's lock. -/
  | inserting (path : Text)
  /-- About to drop the registry's guard. -/
  | unlocking (next : Next)
  /-- A live `ActiveRequest` with its handler. -/
  | serving (g : Nat)
  /-- Has taken the registry's own reference out of the slot. -/
  | detaching (g : Nat) (next : Next)
  | returned
  /-- `wait_for_shutdown` has returned. -/
  | waited (result stopping : Bool)

def ProcessPoint.holds (lock : Lock) : ProcessPoint → Bool
  | .entering code => code.nested && decide (lock = .registry)
  | .inside code => decide (lock = code.lock) || code.nested && decide (lock = .registry)
  | .inserting _ | .unlocking _ => decide (lock = .registry)
  | _ => false

def ProcessPoint.wants : ProcessPoint → Option Lock
  | .entering code => some code.lock
  | _ => none

inductive RegistryCall where
  | register (path : Text) (retainedBytes : Nat)
  | matchRequest (post : Bool) (path : Text)
  | disable (g : Nat) (validDeadline : Bool)
  | dropRegistration (g : Nat)
  | beginShutdown
  | waitForShutdown

/-- A step of a process: the call it makes if it is idle, and whether its time has run out. -/
structure Move (ι : Type) where
  process : ι
  call : RegistryCall
  timeout : Bool

/-- The registry with every generation ever registered, its locks, and the processes; `dropped` counts how
    often the registry's own reference to a handler was dropped. -/
structure RawBodyRegistry (ι : Type) where
  aggregateRetainedBytes : Nat
  stopping : Bool
  routes : BTreeMap Text Nat
  registered : Nat
  generations : Nat → Generation
  dropped : Nat → Nat
  locked : Lock → Bool
  points : ι → ProcessPoint

/-- `detach_if_idle`: whether the handler was taken, and the state behind. -/
def detachIfIdle (generation : Generation) : Bool × Generation :=
  if generation.lifecycle = .draining ∧ generation.activeRequests = 0 then
    (generation.handler, { generation with handler := false })
  else (false, generation)

/-- The change of `begin_draining` under the lock. -/
def drained (generation : Generation) : Bool × Generation :=
  detachIfIdle
    (if generation.lifecycle = .enabled then { generation with lifecycle := .draining } else generation)

/-- The change of `finish_request` under the lock. -/
def finished (generation : Generation) : Bool × Generation :=
  detachIfIdle { generation with activeRequests := generation.activeRequests - 1 }

/-- `accept` under the lock: none for a closed generation, and when the count would overflow. -/
def accepted (generation : Generation) : Option Generation :=
  if generation.lifecycle ≠ .enabled then none
  else if generation.handler = false then none
  else if generation.activeRequests + 1 ≤ u64Max then
    some { generation with activeRequests := generation.activeRequests + 1 }
  else none

def Next.point : Next → ProcessPoint
  | .finish => .returned
  | .wait g => .entering (.waitDetached g .disable)
  | .drain [] => .returned
  | .drain (g :: rest) => .entering (.beginDraining g (.drain rest))

/-- Where `retain` goes on: the next key that is in the map, or the insertion. -/
def retainFrom (routes : BTreeMap Text Nat) (path : Text) : List Text → ProcessPoint
  | [] => .inserting path
  | key :: rest =>
    match routes[key]? with
    | some g => .entering (.retain path key g rest)
    | none => retainFrom routes path rest

def waitFrom (timeout stopping : Bool) : List Nat → ProcessPoint
  | [] => .waited true stopping
  | g :: rest =>
    if timeout then .waited false stopping
    else .entering (.waitDetached g (.shutdown rest stopping))

namespace RawBodyRegistry

variable {ι : Type}

def new (aggregateRetainedBytes : Nat) : RawBodyRegistry ι where
  aggregateRetainedBytes := aggregateRetainedBytes
  stopping := false
  routes := ∅
  registered := 0
  generations := fun _ => ⟨[], .enabled, 0, true⟩
  dropped := fun _ => 0
  locked := fun _ => false
  points := fun _ => .idle

variable [DecidableEq ι]

def goto (s : RawBodyRegistry ι) (i : ι) (point : ProcessPoint) : RawBodyRegistry ι :=
  { s with points := Function.update s.points i point }

/-- The process drops a guard and goes to a point. -/
def unlock (s : RawBodyRegistry ι) (lock : Lock) (i : ι) (point : ProcessPoint) : RawBodyRegistry ι :=
  { s with locked := Function.update s.locked lock false, points := Function.update s.points i point }

def setGeneration (s : RawBodyRegistry ι) (g : Nat) (generation : Generation) : RawBodyRegistry ι :=
  { s with generations := Function.update s.generations g generation }

def start (s : RawBodyRegistry ι) : RegistryCall → ProcessPoint
  | .register path retainedBytes =>
    if s.aggregateRetainedBytes < retainedBytes then .returned else .entering (.register path)
  | .matchRequest post path => if post then .entering (.matchRequest path) else .returned
  | .disable g validDeadline =>
    if validDeadline ∧ g < s.registered then .entering (.beginDraining g (.wait g)) else .returned
  | .dropRegistration g =>
    if g < s.registered then .entering (.beginDraining g .finish) else .returned
  | .beginShutdown => .entering .beginShutdown
  | .waitForShutdown => .entering .waitForShutdown

def body (s : RawBodyRegistry ι) (i : ι) (timeout : Bool) : CriticalSection → RawBodyRegistry ι
  | .register path =>
    if s.stopping then s.goto i (.unlocking .finish)
    else match s.routes[path]? with
      | some g => s.goto i (.entering (.existing path g))
      | none => s.goto i (retainFrom s.routes path s.routes.keys)
  | .existing path g =>
    if (s.generations g).lifecycle ≠ .detached then s.unlock (.generation g) i (.unlocking .finish)
    else s.unlock (.generation g) i (retainFrom s.routes path s.routes.keys)
  | .retain path key g rest =>
    let routes := if (s.generations g).lifecycle = .detached then s.routes.erase key else s.routes
    { s with routes }.unlock (.generation g) i (retainFrom routes path rest)
  | .matchRequest path =>
    match s.routes[path]? with
    | some g => s.unlock .registry i (.entering (.accept g))
    | none => s.unlock .registry i .returned
  | .accept g =>
    match accepted (s.generations g) with
    | some generation => (s.setGeneration g generation).unlock (.generation g) i (.serving g)
    | none => s.unlock (.generation g) i .returned
  | .finishRequest g =>
    let (took, generation) := finished (s.generations g)
    (s.setGeneration g generation).unlock (.generation g) i
      (if took then .detaching g .finish else .returned)
  | .beginDraining g next =>
    let (took, generation) := drained (s.generations g)
    (s.setGeneration g generation).unlock (.generation g) i
      (if took then .detaching g next else next.point)
  | .detach g next => s.goto i (.entering (.close g next))
  | .close g next =>
    let routes :=
      if s.routes[(s.generations g).path]? = some g then s.routes.erase (s.generations g).path
      else s.routes
    ({ s with routes }.setGeneration g { s.generations g with lifecycle := .detached }).unlock
      (.generation g) i (.unlocking next)
  | .beginShutdown =>
    { s with stopping := true }.unlock .registry i (Next.drain (s.routes.toList.map Prod.snd)).point
  | .waitForShutdown => s.unlock .registry i (waitFrom timeout s.stopping (s.routes.toList.map Prod.snd))
  | .waitDetached g waiter =>
    if (s.generations g).lifecycle = .detached then
      match waiter with
      | .disable => s.unlock (.generation g) i .returned
      | .shutdown rest stopping => s.unlock (.generation g) i (waitFrom timeout stopping rest)
    else if timeout then
      match waiter with
      | .disable => s.unlock (.generation g) i .returned
      | .shutdown _ stopping => s.unlock (.generation g) i (.waited false stopping)
    else s.unlock (.generation g) i (.entering (.waitDetached g waiter))

/-- The end of `register`. -/
def insertGeneration (s : RawBodyRegistry ι) (i : ι) (path : Text) : RawBodyRegistry ι :=
  if maxRegisteredHandlers ≤ s.routes.size then s.unlock .registry i .returned
  else
    ({ s with
        routes := s.routes.insert path s.registered
        registered := s.registered + 1 }.setGeneration s.registered ⟨path, .enabled, 0, true⟩).unlock
      .registry i .returned

def step (s : RawBodyRegistry ι) (move : Move ι) : RawBodyRegistry ι :=
  let i := move.process
  match s.points i with
  | .idle => s.goto i (s.start move.call)
  | .entering code =>
    if s.locked code.lock then s
    else { s with locked := Function.update s.locked code.lock true }.goto i (.inside code)
  | .inside code => s.body i move.timeout code
  | .inserting path => s.insertGeneration i path
  | .unlocking next => s.unlock .registry i next.point
  | .serving g => s.goto i (.entering (.finishRequest g))
  | .detaching g next =>
    { s with dropped := Function.update s.dropped g (s.dropped g + 1) }.goto i
      (.entering (.detach g next))
  | .returned | .waited _ _ => s

end RawBodyRegistry

end Bondry.Http

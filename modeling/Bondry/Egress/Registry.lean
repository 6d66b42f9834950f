/-
  THE ROUTE REGISTRY (`bondry-egress`, `route.rs`).

  Routes with their payload contract, retry policy and delivery kind, and the two token buckets an
  `emit` has to pass.  A refused admission has refilled the buckets it looked at, so `admit` returns the
  registry in every case.

  Token units are nanoseconds times the refill rate, computed in `u128`; with the bounds of the limits
  nothing there comes near `u128::MAX`, but the saturation stands as the source has it.
-/
import Bondry.Egress.Kind
import Bondry.Egress.Payload

namespace Bondry.Egress

/-! ## Limits -/

structure RouteRegistryLimit where
  value : Nat
  mem : 1 ≤ value ∧ value ≤ 256
  deriving DecidableEq

structure AdmissionLimit (maxRefill minCapacity maxCapacity : Nat) where
  refillPerSecond : Nat
  capacity : Nat
  refill_mem : 1 ≤ refillPerSecond ∧ refillPerSecond ≤ maxRefill
  capacity_mem : minCapacity ≤ capacity ∧ capacity ≤ maxCapacity
  deriving DecidableEq

abbrev GlobalAdmissionLimit := AdmissionLimit 1000 64 1024

abbrev RouteAdmissionLimit := AdmissionLimit 500 8 256

structure RequestTimeout where
  value : Nat
  mem : nanosPerSecond ≤ value ∧ value ≤ 120 * nanosPerSecond
  deriving DecidableEq

/-! ## Token buckets -/

def tokenUnits : Nat := 1000000000

def u128Max : Nat := 2 ^ 128 - 1

/-- Tokens in units of 1/`tokenUnits`, so that a refill does not round. -/
structure TokenBucket where
  refillPerSecond : Nat
  capacityUnits : Nat
  availableUnits : Nat
  lastRefill : Nat
  deriving DecidableEq

def TokenBucket.new (refillPerSecond capacity : Nat) : TokenBucket :=
  ⟨refillPerSecond, capacity * tokenUnits, capacity * tokenUnits, 0⟩

/-- `TokenBucket::refill`, with the saturation of `u128`. -/
def TokenBucket.refill (bucket : TokenBucket) (now : Nat) : TokenBucket :=
  if now ≤ bucket.lastRefill then bucket
  else
    let added := min ((now - bucket.lastRefill) * bucket.refillPerSecond) u128Max
    { bucket with
      availableUnits := min (min (bucket.availableUnits + added) u128Max) bucket.capacityUnits
      lastRefill := now }

def TokenBucket.hasToken (bucket : TokenBucket) : Bool := decide (tokenUnits ≤ bucket.availableUnits)

def TokenBucket.take (bucket : TokenBucket) : TokenBucket :=
  { bucket with availableUnits := bucket.availableUnits - tokenUnits }

/-! ## Routes -/

inductive RouteRegistryError where
  | alreadyExists
  | capacityExhausted
  | payloadLimitUnsupported
  | notFound
  deriving DecidableEq, Repr

inductive AdmissionError where
  | routeNotFound
  | routeDisabled
  | unsupportedOperation
  | payload (error : PayloadError)
  | globalRateLimited
  | routeRateLimited
  | kind (error : KindOperationError)
  deriving DecidableEq, Repr

structure RouteSummary where
  id : RouteId
  enabled : Bool
  kind : String
  target : String
  deriving DecidableEq

section

variable (Q A : Type)

structure Route where
  id : RouteId
  enabled : Bool
  payload : PayloadContract
  timeout : RequestTimeout
  retry : RetryPolicy
  admission : RouteAdmissionLimit
  kind : DeliveryKind Q A

structure RouteEntry where
  route : Route Q A
  admission : TokenBucket

/-- The routes with their buckets, and one bucket for all of them. -/
structure RouteRegistry where
  limit : RouteRegistryLimit
  globalAdmission : TokenBucket
  routes : BTreeMap RouteId (RouteEntry Q A)

structure AdmittedDeliveryParts where
  route : RouteId
  delivery : DeliveryId
  mode : OperationMode
  payload : Bytes
  timeout : RequestTimeout
  retry : RetryPolicy
  kind : DeliveryKind Q A

end

variable {Q A : Type}

def AdmittedDeliveryParts.intent (parts : AdmittedDeliveryParts Q A) (acceptedAtUnixMs : Nat) :
    DeliveryIntent :=
  ⟨parts.route, parts.delivery, acceptedAtUnixMs⟩

def Route.summary (route : Route Q A) : RouteSummary :=
  ⟨route.id, route.enabled, route.kind.name, route.kind.targetSummary⟩

namespace RouteRegistry

def new (limit : RouteRegistryLimit) (globalAdmission : GlobalAdmissionLimit) : RouteRegistry Q A :=
  ⟨limit, .new globalAdmission.refillPerSecond globalAdmission.capacity, ∅⟩

/-- `RouteRegistry::register`: a new route starts with a full bucket. -/
def register (registry : RouteRegistry Q A) (route : Route Q A) :
    Except RouteRegistryError Unit × RouteRegistry Q A :=
  if registry.routes[route.id]?.isSome then (.error .alreadyExists, registry)
  else if registry.limit.value ≤ registry.routes.size then (.error .capacityExhausted, registry)
  else if route.kind.maxPayloadBytes < route.payload.limit.value then
    (.error .payloadLimitUnsupported, registry)
  else
    let admission := TokenBucket.new route.admission.refillPerSecond route.admission.capacity
    (.ok (), { registry with routes := registry.routes.insert route.id ⟨route, admission⟩ })

def setEnabled (registry : RouteRegistry Q A) (id : RouteId) (enabled : Bool) :
    Except RouteRegistryError Unit × RouteRegistry Q A :=
  match registry.routes[id]? with
  | none => (.error .notFound, registry)
  | some entry =>
    (.ok (), { registry with
      routes := registry.routes.insert id
        { entry with route := { entry.route with enabled := enabled } } })

def unregister (registry : RouteRegistry Q A) (id : RouteId) : RouteRegistry Q A :=
  { registry with routes := registry.routes.erase id }

/-- `RouteRegistry::routes`. -/
def summaries (registry : RouteRegistry Q A) : List RouteSummary :=
  registry.routes.toList.map fun entry => entry.2.route.summary

/-- What a call asks of its route before it is admitted. -/
def validateCallRoute (registry : RouteRegistry Q A) (id : RouteId) : Except AdmissionError Unit :=
  match registry.routes[id]? with
  | none => .error .routeNotFound
  | some entry =>
    if entry.route.enabled = false then .error .routeDisabled
    else if entry.route.kind.supportsCall = false then .error .unsupportedOperation
    else .ok ()

/-- The checks of `admit` in front of the buckets: the payload they let pass. -/
def checkRoute (route : Route Q A) (parse : Bytes → Option Json) (payload : Bytes)
    (mode : OperationMode) : Except AdmissionError Bytes :=
  if route.enabled = false then .error .routeDisabled
  else if mode = .call ∧ route.kind.supportsCall = false then .error .unsupportedOperation
  else match route.payload.validate parse payload with
    | .error error => .error (.payload error)
    | .ok payload =>
      match route.kind.validatePayload mode payload with
      | .error error => .error (.kind error)
      | .ok () => .ok payload

/-- The parts of an admitted delivery: a call is never retried. -/
def admitted (route : Route Q A) (id : RouteId) (delivery : DeliveryId) (mode : OperationMode)
    (payload : Bytes) : AdmittedDeliveryParts Q A :=
  { route := id, delivery := delivery, mode := mode, payload := payload, timeout := route.timeout,
    retry := if mode = .call then .withoutRetries else route.retry, kind := route.kind }

/-- `RouteRegistry::admit`. -/
def admitDelivery (registry : RouteRegistry Q A) (parse : Bytes → Option Json) (id : RouteId)
    (delivery : DeliveryId) (payload : Bytes) (mode : OperationMode) (now : Nat) :
    Except AdmissionError (AdmittedDeliveryParts Q A) × RouteRegistry Q A :=
  match registry.routes[id]? with
  | none => (.error .routeNotFound, registry)
  | some entry =>
    match checkRoute entry.route parse payload mode with
    | .error error => (.error error, registry)
    | .ok payload =>
      let parts := admitted entry.route id delivery mode payload
      match mode with
      | .call => (.ok parts, registry)
      | .emit =>
        let everyone := registry.globalAdmission.refill now
        let own := entry.admission.refill now
        if everyone.hasToken = false then
          (.error .globalRateLimited, { registry with
            globalAdmission := everyone
            routes := registry.routes.insert id { entry with admission := own } })
        else if own.hasToken = false then
          (.error .routeRateLimited, { registry with
            globalAdmission := everyone
            routes := registry.routes.insert id { entry with admission := own } })
        else
          (.ok parts, { registry with
            globalAdmission := everyone.take
            routes := registry.routes.insert id { entry with admission := own.take } })

/-! ## What an admission has shown -/

/-- **An admitted delivery** goes to a registered, enabled route under the identifier it was given. -/
theorem admitDelivery_ok {registry registry' : RouteRegistry Q A} {parse : Bytes → Option Json}
    {id : RouteId} {delivery : DeliveryId} {payload : Bytes} {mode : OperationMode} {now : Nat}
    {parts : AdmittedDeliveryParts Q A}
    (h : registry.admitDelivery parse id delivery payload mode now = (.ok parts, registry')) :
    parts.route = id ∧ parts.delivery = delivery ∧ parts.mode = mode ∧
      (mode = .call → parts.retry = .withoutRetries) ∧
      ∃ entry, registry.routes[id]? = some entry ∧ entry.route.enabled = true ∧
        parts.kind = entry.route.kind ∧ (mode = .emit → parts.retry = entry.route.retry) := by
  unfold admitDelivery at h
  split at h
  · cases h
  · next entry hentry =>
    split at h
    · cases h
    · next valid hcheck =>
      have henabled : entry.route.enabled = true := by
        unfold checkRoute at hcheck
        split_ifs at hcheck with hoff
        all_goals simpa using hoff
      have hparts : parts = admitted entry.route id delivery mode valid := by
        cases mode with
        | call =>
          cases h
          rfl
        | emit =>
          dsimp only at h
          split_ifs at h <;> cases h
          rfl
      subst hparts
      refine ⟨rfl, rfl, rfl, fun hcall => ?_, entry, hentry, henabled, rfl, fun hemit => ?_⟩
      · simp [admitted, hcall]
      · simp [admitted, hemit]

end RouteRegistry

end Bondry.Egress

/-
  WEBHOOK ROUTES (`bondry-webhook-ingress`, `route.rs`).

  A `WebhookRoute` is a configuration and a verifier that `WebhookRoute::new` accepted, so a route for
  a NON-IDEMPOTENT capability carries the proof that its verifier identifies every delivery.

  `prepare` is the part of a request before its first store call: method, clock, signature, rate,
  content type, payload, and the replay key with its policy.  What follows (claim, identifier,
  dispatch, settlement) touches shared state and is the business of the system of requests.  The
  mappings from store answers and dispatch results to responses stand here.
-/
import Bondry.Webhook.Ingress

namespace Bondry.Webhook

/-! ## Configuration -/

inductive CapabilitySemantics where
  | readOnly
  | idempotentMutation
  | nonIdempotentMutation
  deriving DecidableEq, Repr

structure WebhookRouteConfiguration where
  id : RouteId
  principal : Principal
  capability : CapabilityId
  semantics : CapabilitySemantics
  mapping : PayloadMapping
  successStatus : Nat
  limits : WebhookIngressLimits
  successStatus_mem : 200 ≤ successStatus ∧ successStatus < 300
  deriving DecidableEq

inductive StoreDurability where
  | volatile
  | persistent
  deriving DecidableEq, Repr

inductive WebhookRouteError where
  | policyUnavailable
  | capabilityUnavailable
  | capabilityEffectMismatch
  | trustedIdentityRequired
  | persistentStoreRequired
  | tooManySelectedHeaders
  | duplicateSelectedHeader
  | credentialHeaderNotSelected
  | credentialMetadataOverlap
  deriving DecidableEq, Repr

def maxSelectedHeaders : Nat := 32

def selectedHeaders (mapping : PayloadMapping) (verifier : WebhookVerifier) :
    Except WebhookRouteError (List HeaderName) :=
  if ¬ mapping.metadataHeaders.Nodup then .error .duplicateSelectedHeader
  else
    let names := verifier.selectedHeaders ++ ["content-type"] ++ mapping.metadataHeaders
    -- the first occurrence of every name, in order
    let selected := names.foldl (fun kept name => if name ∈ kept then kept else kept ++ [name]) []
    if maxSelectedHeaders < selected.length then .error .tooManySelectedHeaders
    else if verifier.credentialHeaders.any fun c => c ∉ verifier.selectedHeaders then
      .error .credentialHeaderNotSelected
    else if mapping.metadataHeaders.any fun name => name ∈ verifier.credentialHeaders then
      .error .credentialMetadataOverlap
    else .ok selected

def validateSemantics : CapabilitySemantics → CapabilityEffect → Except WebhookRouteError Unit
  | .readOnly, .readOnly => .ok ()
  | .idempotentMutation, .mutating => .ok ()
  | .nonIdempotentMutation, .mutating => .ok ()
  | _, _ => .error .capabilityEffectMismatch

structure WebhookRoute where
  configuration : WebhookRouteConfiguration
  verifier : WebhookVerifier
  selectedHeaders : List HeaderName
  identity_required : configuration.semantics = .nonIdempotentMutation →
    verifier.identityGuarantee = .required
  deriving DecidableEq

/-- `WebhookRoute::new`, over what capability discovery answers and the store's durability. -/
def WebhookRoute.new (configuration : WebhookRouteConfiguration) (verifier : WebhookVerifier)
    (capabilities : Option (List CapabilityDescriptor)) (durability : StoreDurability) :
    Except WebhookRouteError WebhookRoute := do
  let some capabilities := capabilities | .error .policyUnavailable
  let some descriptor := capabilities.find? fun d => d.id = configuration.capability
    | .error .capabilityUnavailable
  validateSemantics configuration.semantics descriptor.effect
  if hident : configuration.semantics = .nonIdempotentMutation ∧
      verifier.identityGuarantee ≠ .required then
    .error .trustedIdentityRequired
  else if configuration.semantics = .nonIdempotentMutation ∧ durability ≠ .persistent then
    .error .persistentStoreRequired
  else
    let selected ← Webhook.selectedHeaders configuration.mapping verifier
    if configuration.limits.selectedHeaders < selected.length then .error .tooManySelectedHeaders
    else
      pure ⟨configuration, verifier, selected, fun hs => by
        by_contra hne
        exact hident ⟨hs, hne⟩⟩

/-- The fixed adapter of this crate: `webhook`. -/
def webhookAdapter : AdapterId := ⟨['w', 'e', 'b', 'h', 'o', 'o', 'k'], by decide⟩

/-! ## Before the first store call -/

structure WebhookIngressTime where
  unixMilliseconds : Nat
  monotonicMilliseconds : Nat
  deriving DecidableEq

/-- What a request that passed every check before the store is about to do. -/
structure Prepared where
  claim : Option (DedupKey × DedupClaimPolicy)
  input : Json

/-- The replay key of an identity on this route. -/
def WebhookRoute.key (route : WebhookRoute) (identity : TrustedDeliveryIdentity) : DedupKey :=
  ⟨route.configuration.id, identity.verifier, identity.hash⟩

/-- Completed records are retained only where nothing else stops a repetition. -/
def WebhookRoute.policy (route : WebhookRoute) (identity : TrustedDeliveryIdentity) : DedupClaimPolicy :=
  if route.configuration.semantics = .nonIdempotentMutation ∧ identity.freshness = none then
    .retainCompleted
  else .expireCompleted

section

variable (crypto : Crypto) (parseJson : Bytes → Option Json)

/-- The checks in front of the limiter. -/
def WebhookRoute.verifyDelivery (route : WebhookRoute) (request : VerificationRequest)
    (now : WebhookIngressTime) (secrets : SecretAnswer) : Except WebhookIngressResponse VerificationResult :=
  if request.method ≠ "POST" then .error (.error 405 "method_not_allowed")
  else if i64Max < now.unixMilliseconds / 1000 then .error (retryable "clock_unavailable")
  else
    match route.verifier.verify crypto request secrets (now.unixMilliseconds / 1000 : Nat) with
    | .error .rejected => .error (.error 401 "authentication_rejected")
    | .error .unavailable => .error (retryable "verification_unavailable")
    | .ok verified =>
      if route.verifier.identityGuarantee = .required ∧ verified.identity = none then
        .error (retryable "verification_unavailable")
      else if route.verifier.identityGuarantee = .never ∧ verified.identity.isSome then
        .error (retryable "verification_unavailable")
      else .ok verified

/-- The checks behind the limiter. -/
def WebhookRoute.mapDelivery (route : WebhookRoute) (request : VerificationRequest) :
    Except WebhookIngressResponse Json :=
  if hasJsonContentType request then
    mapPayload parseJson route.configuration.mapping request route.configuration.limits
  else .error (.error 415 "unsupported_media_type")

/-- `prepare` up to the claim, and the limiter it leaves. -/
def WebhookRoute.prepare (route : WebhookRoute) (request : VerificationRequest)
    (now : WebhookIngressTime) (secrets : SecretAnswer) (limiter : AuthenticatedRequestLimiter) :
    Except WebhookIngressResponse Prepared × AuthenticatedRequestLimiter :=
  match route.verifyDelivery crypto request now secrets with
  | .error response => (.error response, limiter)
  | .ok verified =>
    match limiter.admitRequest route.configuration.principal.id now.monotonicMilliseconds with
    | (.limited seconds, limiter) => (.error (.retryable 429 "rate_limited" seconds), limiter)
    | (.allowed, limiter) =>
      ((route.mapDelivery parseJson request).map fun input =>
        ⟨verified.identity.map fun identity => (route.key identity, route.policy identity),
          input⟩, limiter)

end

/-- How the answer of `claim` continues: the delivery is ours, or this is the response. -/
def WebhookRoute.claimed (route : WebhookRoute) :
    Except DedupStoreError DedupClaim → Except WebhookIngressResponse Unit
  | .ok .claimed => .ok ()
  | .ok (.duplicate .inFlight) => .error (.retryable 503 "delivery_in_flight" 1)
  | .ok (.duplicate .completed) | .ok (.duplicate .unknown) =>
    .error (.success route.configuration.successStatus)
  | .error .capacityExhausted => .error (retryable "dedup_capacity")
  | .error .notFound | .error .invalidTransition | .error .unavailable =>
    .error (retryable "dedup_store_unavailable")

/-! ## Settlement -/

/-- The transition `complete` asks its guard for. -/
inductive Settlement where
  | complete
  | markUnknown
  | release
  deriving DecidableEq, Repr

/-- Which transition a dispatch result asks for: an audit failure leaves the outcome unknown, a
    refusal before the handler frees the key, everything else completes it. -/
def settlement : Except DispatchError Json → Settlement
  | .error .audit => .markUnknown
  | .error (.capabilityNotFound _) | .error (.accessDenied _) | .error .invalidInput => .release
  | .ok _ | .error (.handler _) => .complete

/-- The response to a dispatch result whose transition was stored. -/
def WebhookRoute.settled (route : WebhookRoute) : Except DispatchError Json → WebhookIngressResponse
  | .ok _ => .success route.configuration.successStatus
  | .error (.capabilityNotFound _) | .error (.accessDenied .notGranted) =>
    .error 404 "route_unavailable"
  | .error .invalidInput => .error 422 "invalid_input"
  | .error (.handler _) => .error 422 "capability_failed"
  | .error (.accessDenied .policyUnavailable) => retryable "policy_unavailable"
  | .error .audit => retryable "audit_unavailable"

/-! ## What a prepared request has shown -/

section

variable {crypto : Crypto} {parseJson : Bytes → Option Json} {route : WebhookRoute}
  {request : VerificationRequest} {now : WebhookIngressTime} {secrets : SecretAnswer}
  {limiter : AuthenticatedRequestLimiter}

theorem verifyDelivery_ok {verified : VerificationResult}
    (h : route.verifyDelivery crypto request now secrets = .ok verified) :
    route.verifier.verify crypto request secrets (now.unixMilliseconds / 1000 : Nat) = .ok verified ∧
      (route.verifier.identityGuarantee = .required → verified.identity ≠ none) := by
  revert h
  fun_cases WebhookRoute.verifyDelivery crypto route request now secrets <;> intro h <;> cases h
  next hverify hrequired _ => exact ⟨hverify, fun hr hn => hrequired ⟨hr, hn⟩⟩

theorem prepare_ok {prepared : Prepared}
    (h : (route.prepare crypto parseJson request now secrets limiter).1 = .ok prepared) :
    ∃ verified, route.verifyDelivery crypto request now secrets = .ok verified ∧ prepared.claim =
        verified.identity.map fun identity => (route.key identity, route.policy identity) := by
  unfold WebhookRoute.prepare at h
  split at h
  · cases h
  · next verified hverified =>
    split at h
    · cases h
    dsimp only at h
    cases hmap : route.mapDelivery parseJson request with
    | error response =>
      rw [hmap] at h
      cases h
    | ok input =>
      rw [hmap] at h
      cases h
      exact ⟨verified, hverified, rfl⟩

/-- The identity under which a route claims a request at a time. -/
def Claims (crypto : Crypto) (route : WebhookRoute) (request : VerificationRequest) (now : Nat)
    (key : DedupKey) (policy : DedupClaimPolicy) : Prop :=
  ∃ identity, Identifies crypto request (now / 1000 : Nat) route.verifier identity ∧
    key = route.key identity ∧ policy = route.policy identity

theorem prepare_claims {key : DedupKey} {policy : DedupClaimPolicy} {input : Json}
    (h : (route.prepare crypto parseJson request now secrets limiter).1 = .ok ⟨some (key, policy), input⟩) :
    Claims crypto route request now.unixMilliseconds key policy := by
  obtain ⟨verified, hverified, hclaim⟩ := prepare_ok h
  obtain ⟨identity, hidentity, heq⟩ := Option.map_eq_some_iff.mp hclaim.symm
  cases heq
  have hresult : verified = ⟨some identity⟩ := by
    cases verified
    cases hidentity
    rfl
  rw [hresult] at hverified
  exact ⟨identity, verify_identifies (verifyDelivery_ok hverified).1, rfl, rfl⟩

theorem prepare_identified {input : Json} (hrequired : route.verifier.identityGuarantee = .required) :
    (route.prepare crypto parseJson request now secrets limiter).1 ≠ .ok ⟨none, input⟩ := by
  intro h
  obtain ⟨verified, hverified, hclaim⟩ := prepare_ok h
  have hnone : verified.identity = none := Option.map_eq_none_iff.mp hclaim.symm
  exact (verifyDelivery_ok hverified).2 hrequired hnone

/-- **No refusal before the store is a success.** -/
theorem prepare_error {response : WebhookIngressResponse}
    (h : (route.prepare crypto parseJson request now secrets limiter).1 = .error response) :
    response.isSuccess = false := by
  revert h
  fun_cases WebhookRoute.prepare crypto parseJson route request now secrets limiter <;> intro h
  case case1 hverify =>
    cases h
    revert hverify
    fun_cases WebhookRoute.verifyDelivery crypto route request now secrets <;> rintro ⟨⟩ <;> rfl
  case case2 => cases h; rfl
  case case3 =>
    dsimp only at h
    cases hmap : route.mapDelivery parseJson request with
    | ok input =>
      rw [hmap] at h
      cases h
    | error refusal =>
      rw [hmap] at h
      cases h
      unfold WebhookRoute.mapDelivery at hmap
      split_ifs at hmap
      · exact mapPayload_error hmap
      · cases hmap
        rfl

end

section

variable {crypto : Crypto} {route : WebhookRoute} {request : VerificationRequest} {t₁ t₂ : Nat}
  {k₁ k₂ : DedupKey} {p₁ p₂ : DedupClaimPolicy}

theorem Claims.unique (h₁ : Claims crypto route request t₁ k₁ p₁)
    (h₂ : Claims crypto route request t₂ k₂ p₂) : k₁ = k₂ ∧ p₁ = p₂ := by
  obtain ⟨i₁, hi₁, rfl, rfl⟩ := h₁
  obtain ⟨i₂, hi₂, rfl, rfl⟩ := h₂
  rw [identifies_unique hi₁ hi₂]
  exact ⟨rfl, rfl⟩

theorem Claims.required (h : Claims crypto route request t₁ k₁ p₁) :
    route.verifier.identityGuarantee = .required := by
  obtain ⟨identity, hidentifies, _, _⟩ := h
  generalize route.verifier = verifier at hidentifies ⊢
  cases hidentifies <;> rfl

/-- **The replay window.**  A non-idempotent delivery whose record may expire is accepted again only
    within half an hour: two clock readings within fifteen minutes of one signed time. -/
theorem Claims.window (h₁ : Claims crypto route request t₁ k₁ .expireCompleted)
    (h₂ : Claims crypto route request t₂ k₂ p₂)
    (hsem : route.configuration.semantics = .nonIdempotentMutation) : t₂ ≤ t₁ + 1800999 := by
  obtain ⟨i₁, hi₁, _, hpolicy⟩ := h₁
  obtain ⟨i₂, hi₂, _, _⟩ := h₂
  cases hf : i₁.freshness with
  | none =>
    rw [WebhookRoute.policy, if_pos ⟨hsem, hf⟩] at hpolicy
    cases hpolicy
  | some freshness =>
    have h₁ := identifies_fresh hi₁ hf
    have h₂ := identifies_fresh hi₂ (identifies_unique hi₁ hi₂ ▸ hf)
    omega

end

end Bondry.Webhook

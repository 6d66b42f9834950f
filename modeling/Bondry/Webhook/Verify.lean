/-
  WEBHOOK VERIFIERS (`bondry-webhook-verify`).

  A verifier looks at the exact bytes of a request, at the clock and at the secret the host resolves,
  and answers with a trusted delivery IDENTITY: a namespace, a hash, and, for the signed-timestamp
  forms, the FRESHNESS that was checked.
-/
import Bondry.Contract.Dedup
import Bondry.Contract.Secrets
import Bondry.Lib.Except

namespace Bondry.Webhook

open Encoding

/-! ## Requests -/

abbrev HeaderName := String

/-- The data a verifier sees: selected headers keep their exact value bytes and duplicates. -/
structure VerificationRequest where
  method : String
  target : String
  headers : List (HeaderName × Bytes)
  body : Bytes
  deriving DecidableEq

def VerificationRequest.headerValues (request : VerificationRequest) (name : HeaderName) : List Bytes :=
  fieldValues request.headers name

inductive VerificationError where
  | rejected
  | unavailable
  deriving DecidableEq, Repr

def exactlyOneHeader (request : VerificationRequest) (name : HeaderName) : Except VerificationError Bytes :=
  match request.headerValues name with
  | [value] => .ok value
  | _ => .error .rejected

/-! ## Identities -/

inductive IdentityGuarantee where
  | never
  | optional
  | required
  deriving DecidableEq, Repr

/-- An accepted timestamp skew: 30 seconds through 15 minutes. -/
structure Tolerance where
  duration : Nat
  mem : Duration.fromSecs 30 ≤ duration ∧ duration ≤ Duration.fromSecs (15 * 60)
  deriving DecidableEq

/-- `PROVIDER_SIGNATURE_TIMESTAMP_TOLERANCE`. -/
def Tolerance.standard : Tolerance := ⟨Duration.fromSecs (5 * 60), by decide⟩

/-- Signed freshness evidence that independently rejects old deliveries. -/
structure VerifiedFreshness where
  signedAtUnixSeconds : Int
  tolerance : Tolerance
  deriving DecidableEq

structure TrustedDeliveryIdentity where
  verifier : VerifierNamespace
  hash : TrustedDeliveryIdHash
  freshness : Option VerifiedFreshness
  deriving DecidableEq

/-- A verified request, with its identity when the verifier has one. -/
structure VerificationResult where
  identity : Option TrustedDeliveryIdentity
  deriving DecidableEq

section

variable (crypto : Crypto)

/-- `TrustedDeliveryIdentity::from_normalized`: hashes a non-empty identifier. -/
def fromNormalized (verifier : VerifierNamespace) (normalized : Bytes)
    (freshness : Option VerifiedFreshness) : Option TrustedDeliveryIdentity :=
  if normalized = [] then none
  else some ⟨verifier, ⟨crypto.sha256 normalized, crypto.sha256_length _⟩, freshness⟩

def bodyIdentity (verifier : VerifierNamespace) (body : Bytes)
    (freshness : Option VerifiedFreshness) : Except VerificationError TrustedDeliveryIdentity :=
  match fromNormalized crypto verifier (crypto.sha256 body) freshness with
  | some identity => .ok identity
  | none => .error .unavailable

end

/-! ## Pieces of a signature header -/

/-- `parse_signature`.  The UTF-8 check of the source is implied: hexadecimal digits are ASCII. -/
def parseSignature (value : Bytes) : Except VerificationError HmacSignature :=
  match HmacSignature.fromHex value with
  | some signature => .ok signature
  | none => .error .rejected

/-- `parse_canonical_timestamp`: a non-negative `i64` printed the one way it is printed. -/
def parseCanonicalTimestamp (value : Bytes) : Except VerificationError Int :=
  match parseI64 value with
  | none => .error .rejected
  | some timestamp =>
    if timestamp < 0 ∨ decimal timestamp ≠ value then .error .rejected else .ok timestamp

/-- `verify_freshness`: whole seconds, in both directions. -/
def verifyFreshness (nowUnixSeconds signedAtUnixSeconds : Int) (tolerance : Tolerance) :
    Except VerificationError Unit :=
  if nowUnixSeconds < 0 ∨
      Duration.asSecs tolerance.duration < (nowUnixSeconds - signedAtUnixSeconds).natAbs then
    .error .rejected
  else .ok ()

structure StripeHeader where
  timestamp : Int
  timestampBytes : Bytes
  signatures : List HmacSignature

/-- What the components read so far have given. -/
abbrev StripeParts := Option (Int × Bytes) × List HmacSignature

/-- One `key=value` component; unknown keys are ignored. -/
def stripeComponent (parts : StripeParts) (component : Bytes) : Except VerificationError StripeParts :=
  let key := component.takeWhile (· ≠ 0x3D)
  match component.dropWhile (· ≠ 0x3D) with
  | [] => .error .rejected
  | _ :: value =>
    if key = ascii "t" then
      if parts.1.isSome ∨ 0x3D ∈ value then .error .rejected
      else do
        let timestamp ← parseCanonicalTimestamp value
        pure (some (timestamp, value), parts.2)
    else if key = ascii "v1" then
      if 0x3D ∈ value then .error .rejected
      else do
        let signature ← parseSignature value
        pure (parts.1, parts.2 ++ [signature])
    else .ok parts

def parseStripeHeader (value : Bytes) : Except VerificationError StripeHeader := do
  let (timestamp, signatures) ← (value.splitOn 0x2C).foldlM stripeComponent (none, [])
  match timestamp with
  | none => .error .rejected
  | some (timestamp, bytes) =>
    if signatures = [] then .error .rejected else pure ⟨timestamp, bytes, signatures⟩

/-! ## The verifiers -/

/-- The verifiers a route can be built with. -/
inductive WebhookVerifier where
  | bearer
  | bondryHmac (tolerance : Tolerance)
  | gitHub
  | stripe (tolerance : Tolerance)
  deriving DecidableEq

/-- `BONDRY_HMAC_NAMESPACE`: `bondry:hmac-sha256:v1`. -/
def bondryHmacNamespace : VerifierNamespace :=
  ⟨['b', 'o', 'n', 'd', 'r', 'y', ':', 'h', 'm', 'a', 'c', '-', 's', 'h', 'a', '2', '5', '6', ':',
    'v', '1'], by decide⟩

/-- `GITHUB_HMAC_NAMESPACE`: `github:hmac-sha256:v1`. -/
def gitHubHmacNamespace : VerifierNamespace :=
  ⟨['g', 'i', 't', 'h', 'u', 'b', ':', 'h', 'm', 'a', 'c', '-', 's', 'h', 'a', '2', '5', '6', ':',
    'v', '1'], by decide⟩

/-- `STRIPE_HMAC_NAMESPACE`: `stripe:hmac-sha256:v1`. -/
def stripeHmacNamespace : VerifierNamespace :=
  ⟨['s', 't', 'r', 'i', 'p', 'e', ':', 'h', 'm', 'a', 'c', '-', 's', 'h', 'a', '2', '5', '6', ':',
    'v', '1'], by decide⟩

def WebhookVerifier.selectedHeaders : WebhookVerifier → List HeaderName
  | .bearer => ["authorization"]
  | .bondryHmac _ => ["x-bondry-delivery-id", "x-bondry-timestamp", "x-bondry-signature"]
  | .gitHub => ["x-hub-signature-256"]
  | .stripe _ => ["stripe-signature"]

def WebhookVerifier.credentialHeaders : WebhookVerifier → List HeaderName
  | .bearer => ["authorization"]
  | .bondryHmac _ => ["x-bondry-signature"]
  | .gitHub => ["x-hub-signature-256"]
  | .stripe _ => ["stripe-signature"]

def WebhookVerifier.identityGuarantee : WebhookVerifier → IdentityGuarantee
  | .bearer => .never
  | .bondryHmac _ | .gitHub | .stripe _ => .required

/-- `SecretSource::resolve`: every provider failure is `Unavailable`. -/
def resolveSecrets : SecretAnswer → Except VerificationError ResolvedSecret
  | .ok secrets => .ok secrets
  | .error _ => .error .unavailable

def isAsciiWhitespace (b : UInt8) : Bool := b ∈ [0x20, 0x09, 0x0A, 0x0C, 0x0D]

def toAsciiLower (b : UInt8) : UInt8 := if 0x41 ≤ b ∧ b ≤ 0x5A then b + 0x20 else b

def verifyBearer (request : VerificationRequest) (secrets : SecretAnswer) :
    Except VerificationError VerificationResult := do
  let authorization ← exactlyOneHeader request "authorization"
  let scheme := authorization.takeWhile (· ≠ 0x20)
  match authorization.dropWhile (· ≠ 0x20) with
  | [] => .error .rejected
  | _ :: token =>
    if scheme.map toAsciiLower ≠ ascii "bearer" ∨ token = [] ∨ token.any isAsciiWhitespace then
      .error .rejected
    else do
      let secrets ← resolveSecrets secrets
      if matchesSecret secrets token then pure ⟨none⟩ else .error .rejected

section

variable (crypto : Crypto)

def maxDeliveryIdBytes : Nat := IdentifierKind.delivery.maximum

def verifyBondryHmac (tolerance : Tolerance) (request : VerificationRequest) (secrets : SecretAnswer)
    (nowUnixSeconds : Int) : Except VerificationError VerificationResult := do
  let deliveryId ← exactlyOneHeader request "x-bondry-delivery-id"
  if deliveryId = [] ∨ maxDeliveryIdBytes < deliveryId.length then .error .rejected
  else do
    let timestampHeader ← exactlyOneHeader request "x-bondry-timestamp"
    let timestamp ← parseCanonicalTimestamp timestampHeader
    verifyFreshness nowUnixSeconds timestamp tolerance
    let signatureHeader ← exactlyOneHeader request "x-bondry-signature"
    let signature ← parseSignature signatureHeader
    let secrets ← resolveSecrets secrets
    if verifyWebhook crypto secrets ⟨timestamp, deliveryId, request.body⟩ signature then
      match fromNormalized crypto bondryHmacNamespace deliveryId (some ⟨timestamp, tolerance⟩) with
      | some identity => pure ⟨some identity⟩
      | none => .error .rejected
    else .error .rejected

def verifyGitHub (request : VerificationRequest) (secrets : SecretAnswer) :
    Except VerificationError VerificationResult := do
  let value ← exactlyOneHeader request "x-hub-signature-256"
  if ascii "sha256=" <+: value then do
    let candidate ← parseSignature (value.drop (ascii "sha256=").length)
    let secrets ← resolveSecrets secrets
    if verifyHmacSha256 crypto secrets [request.body] [candidate] then do
      let identity ← bodyIdentity crypto gitHubHmacNamespace request.body none
      pure ⟨some identity⟩
    else .error .rejected
  else .error .rejected

def verifyStripe (tolerance : Tolerance) (request : VerificationRequest) (secrets : SecretAnswer)
    (nowUnixSeconds : Int) : Except VerificationError VerificationResult := do
  let header ← exactlyOneHeader request "stripe-signature"
  let parsed ← parseStripeHeader header
  verifyFreshness nowUnixSeconds parsed.timestamp tolerance
  let secrets ← resolveSecrets secrets
  if verifyHmacSha256 crypto secrets [parsed.timestampBytes, ascii ".", request.body]
      parsed.signatures then do
    let identity ← bodyIdentity crypto stripeHmacNamespace request.body
      (some ⟨parsed.timestamp, tolerance⟩)
    pure ⟨some identity⟩
  else .error .rejected

def WebhookVerifier.verify (verifier : WebhookVerifier) (request : VerificationRequest)
    (secrets : SecretAnswer) (nowUnixSeconds : Int) : Except VerificationError VerificationResult :=
  match verifier with
  | .bearer => verifyBearer request secrets
  | .bondryHmac tolerance => verifyBondryHmac crypto tolerance request secrets nowUnixSeconds
  | .gitHub => verifyGitHub crypto request secrets
  | .stripe tolerance => verifyStripe crypto tolerance request secrets nowUnixSeconds

/-! ## What an accepted request was checked for -/

/-- How each verifier arrives at an identity: the parts of the request it is made from, and the
    freshness check it passed. -/
inductive Identifies (request : VerificationRequest) (now : Int) :
    WebhookVerifier → TrustedDeliveryIdentity → Prop
  | bondryHmac {tolerance id header timestamp identity}
      (hid : exactlyOneHeader request "x-bondry-delivery-id" = .ok id)
      (hheader : exactlyOneHeader request "x-bondry-timestamp" = .ok header)
      (htime : parseCanonicalTimestamp header = .ok timestamp)
      (hfresh : verifyFreshness now timestamp tolerance = .ok ())
      (hident : fromNormalized crypto bondryHmacNamespace id (some ⟨timestamp, tolerance⟩) =
        some identity) :
      Identifies request now (.bondryHmac tolerance) identity
  | gitHub {identity}
      (hident : bodyIdentity crypto gitHubHmacNamespace request.body none = .ok identity) :
      Identifies request now .gitHub identity
  | stripe {tolerance header parsed identity}
      (hheader : exactlyOneHeader request "stripe-signature" = .ok header)
      (hparsed : parseStripeHeader header = .ok parsed)
      (hfresh : verifyFreshness now parsed.timestamp tolerance = .ok ())
      (hident : bodyIdentity crypto stripeHmacNamespace request.body
        (some ⟨parsed.timestamp, tolerance⟩) = .ok identity) :
      Identifies request now (.stripe tolerance) identity

variable {crypto}

variable {request : VerificationRequest} {secrets : SecretAnswer} {result : VerificationResult}

theorem verifyBearer_identity (h : verifyBearer request secrets = .ok result) : result.identity = none := by
  obtain ⟨authorization, _, h⟩ := bind_ok h
  dsimp only at h
  split at h
  · cases h
  · split at h
    · cases h
    · obtain ⟨resolved, _, h⟩ := bind_ok h
      split at h <;> cases h
      rfl

variable {tolerance : Tolerance} {now : Int}

theorem verifyBondryHmac_identifies (h : verifyBondryHmac crypto tolerance request secrets now = .ok result) :
    ∃ identity, result = ⟨some identity⟩ ∧
      Identifies crypto request now (.bondryHmac tolerance) identity := by
  obtain ⟨id, hid, h⟩ := bind_ok h
  split at h
  · cases h
  obtain ⟨header, hheader, h⟩ := bind_ok h
  obtain ⟨timestamp, htime, h⟩ := bind_ok h
  obtain ⟨_, hfresh, h⟩ := bind_ok h
  obtain ⟨_, _, h⟩ := bind_ok h
  obtain ⟨_, _, h⟩ := bind_ok h
  obtain ⟨_, _, h⟩ := bind_ok h
  split at h
  · split at h
    · next identity hident =>
      cases h
      exact ⟨identity, rfl, .bondryHmac hid hheader htime hfresh hident⟩
    · cases h
  · cases h

theorem verifyGitHub_identifies (now : Int) (h : verifyGitHub crypto request secrets = .ok result) :
    ∃ identity, result = ⟨some identity⟩ ∧ Identifies crypto request now .gitHub identity := by
  obtain ⟨value, _, h⟩ := bind_ok h
  split at h
  · obtain ⟨_, _, h⟩ := bind_ok h
    obtain ⟨_, _, h⟩ := bind_ok h
    split at h
    · obtain ⟨identity, hident, h⟩ := bind_ok h
      cases h
      exact ⟨identity, rfl, .gitHub hident⟩
    · cases h
  · cases h

theorem verifyStripe_identifies (h : verifyStripe crypto tolerance request secrets now = .ok result) :
    ∃ identity, result = ⟨some identity⟩ ∧ Identifies crypto request now (.stripe tolerance) identity := by
  obtain ⟨header, hheader, h⟩ := bind_ok h
  obtain ⟨parsed, hparsed, h⟩ := bind_ok h
  obtain ⟨_, hfresh, h⟩ := bind_ok h
  obtain ⟨_, _, h⟩ := bind_ok h
  split at h
  · obtain ⟨identity, hident, h⟩ := bind_ok h
    cases h
    exact ⟨identity, rfl, .stripe hheader hparsed hfresh hident⟩
  · cases h

variable {verifier : WebhookVerifier}

/-- **What an accepted request is identified by**: nothing for a bearer token, and otherwise an identity
    that comes from the request's own bytes and a passed freshness check. -/
theorem verify_result (h : verifier.verify crypto request secrets now = .ok result) :
    (verifier = .bearer ∧ result.identity = none) ∨
      ∃ identity, result = ⟨some identity⟩ ∧ Identifies crypto request now verifier identity := by
  cases verifier with
  | bearer => exact .inl ⟨rfl, verifyBearer_identity h⟩
  | bondryHmac tolerance => exact .inr (verifyBondryHmac_identifies h)
  | gitHub => exact .inr (verifyGitHub_identifies now h)
  | stripe tolerance => exact .inr (verifyStripe_identifies h)

variable {identity : TrustedDeliveryIdentity}

theorem verify_identifies (h : verifier.verify crypto request secrets now = .ok ⟨some identity⟩) :
    Identifies crypto request now verifier identity := by
  rcases verify_result h with ⟨_, hnone⟩ | ⟨identity', hresult, hident⟩
  · cases hnone
  · cases hresult
    exact hident

/-- **A request that verifies twice has one identity**, whenever it is verified. -/
theorem identifies_unique {now₁ now₂ : Int} {i₁ i₂ : TrustedDeliveryIdentity}
    (h₁ : Identifies crypto request now₁ verifier i₁)
    (h₂ : Identifies crypto request now₂ verifier i₂) : i₁ = i₂ := by
  cases h₁ with
  | bondryHmac hid hheader htime _ hident =>
    cases h₂ with
    | bondryHmac hid' hheader' htime' _ hident' => simp_all
  | gitHub hident =>
    cases h₂ with
    | gitHub hident' => simp_all
  | stripe hheader hparsed _ hident =>
    cases h₂ with
    | stripe hheader' hparsed' _ hident' => simp_all

theorem fromNormalized_freshness {verifier : VerifierNamespace} {normalized : Bytes}
    {freshness : Option VerifiedFreshness}
    (h : fromNormalized crypto verifier normalized freshness = some identity) :
    identity.freshness = freshness := by
  unfold fromNormalized at h
  split at h <;> cases h
  rfl

theorem bodyIdentity_freshness {verifier : VerifierNamespace} {body : Bytes}
    {freshness : Option VerifiedFreshness} (h : bodyIdentity crypto verifier body freshness = .ok identity) :
    identity.freshness = freshness := by
  unfold bodyIdentity at h
  split at h
  · next hident =>
    cases h
    exact fromNormalized_freshness hident
  · cases h

/-- A passed freshness check: the clock is within the tolerance of the signed time, and the
    tolerance is at most fifteen minutes. -/
theorem verifyFreshness_ok {signedAt : Int} (h : verifyFreshness now signedAt tolerance = .ok ()) :
    0 ≤ now ∧ (now - signedAt).natAbs ≤ 900 := by
  have hmem := tolerance.mem.2
  unfold verifyFreshness at h
  split at h
  · cases h
  · next hok =>
    unfold Duration.asSecs Duration.fromSecs nanosPerSecond at *
    omega

/-- **An identity with freshness was verified within fifteen minutes of its signed time.** -/
theorem identifies_fresh {freshness : VerifiedFreshness}
    (h : Identifies crypto request now verifier identity) (hf : identity.freshness = some freshness) :
    0 ≤ now ∧ (now - freshness.signedAtUnixSeconds).natAbs ≤ 900 := by
  cases h with
  | bondryHmac hid hheader htime hfresh hident =>
    rw [fromNormalized_freshness hident] at hf
    cases hf
    exact verifyFreshness_ok hfresh
  | gitHub hident =>
    rw [bodyIdentity_freshness hident] at hf
    cases hf
  | stripe hheader hparsed hfresh hident =>
    rw [bodyIdentity_freshness hident] at hf
    cases hf
    exact verifyFreshness_ok hfresh

end

end Bondry.Webhook

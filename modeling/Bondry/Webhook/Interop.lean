/-
  A SENDER AND A RECEIVER.

  The outbound webhook kind and the inbound verifier are separate crates that write and read the same
  four fields: content type, delivery identifier, timestamp, signature.  Each has its own idea of how a
  number is printed, what a header may hold and which bytes are signed; here the two meet.

  TIME.  A verifier refuses every clock before 1970, whatever the tolerance.  And a retry is signed in
  its own second, so two verified requests of one delivery share the namespace and the hash, not the
  freshness.
-/
import Bondry.Egress.Webhook
import Bondry.Webhook.Ingress
import Bondry.Webhook.Signatures

namespace Bondry.Webhook

open Encoding Egress

/-! ## From the sender to the receiver -/

/-- The fields both sides agree on. -/
def sharedHeaders : List HeaderName :=
  ["content-type", "x-bondry-delivery-id", "x-bondry-timestamp", "x-bondry-signature"]

/-- The verifier sees what was sent: the body, and every value of the shared headers. -/
def Arrives (request : HttpRequest) (seen : VerificationRequest) : Prop :=
  seen.body = request.body ∧
    ∀ name ∈ sharedHeaders, seen.headerValues name = request.headers.getAll name

def delivered (request : HttpRequest) : VerificationRequest :=
  ⟨request.method, request.endpoint.pathAndQuery, request.headers, request.body⟩

theorem delivered_arrives (request : HttpRequest) : Arrives request (delivered request) :=
  ⟨rfl, fun _ _ => rfl⟩

def deliveryHash (crypto : Crypto) (delivery : DeliveryId) : TrustedDeliveryIdHash :=
  ⟨crypto.sha256 delivery.bytes, crypto.sha256_length _⟩

/-- The identity of a delivery that was signed in this second. -/
def signedIdentity (crypto : Crypto) (tolerance : Tolerance) (delivery : DeliveryId) (seconds : Nat) :
    TrustedDeliveryIdentity :=
  ⟨bondryHmacNamespace, deliveryHash crypto delivery, some ⟨seconds, tolerance⟩⟩

variable {crypto : Crypto}

theorem deliveryHash_ne {delivery delivery' : DeliveryId}
    (hapart : crypto.sha256 delivery.bytes = crypto.sha256 delivery'.bytes →
      delivery.bytes = delivery'.bytes) (hne : delivery ≠ delivery') :
    deliveryHash crypto delivery ≠ deliveryHash crypto delivery' := by
  intro hsame
  have hdigest : crypto.sha256 delivery.bytes = crypto.sha256 delivery'.bytes :=
    congrArg TrustedDeliveryIdHash.bytes hsame
  exact hne (Identifier.bytes_injective (hapart hdigest))

/-! ## What was composed is accepted -/

section

variable {crypto : Crypto} {endpoint : NetworkEndpoint} {secret : SecretValue} {delivery : DeliveryId}
  {payload : Bytes} {context : AttemptContext} {seen : VerificationRequest}

theorem Arrives.headers (h : Arrives (signedRequest crypto endpoint secret delivery payload context) seen) :
    seen.headerValues "content-type" = [ascii "application/json"] ∧
      seen.headerValues "x-bondry-delivery-id" = [delivery.bytes] ∧
      seen.headerValues "x-bondry-timestamp" = [decimal (context.unixMs / 1000 : Nat)] ∧
      seen.headerValues "x-bondry-signature" = [(signWebhook crypto secret
          ⟨(context.unixMs / 1000 : Nat), delivery.bytes, payload⟩).toHex] := by
  have hget : ∀ name ∈ sharedHeaders, seen.headerValues name =
      (signedHeaders crypto secret delivery payload (context.unixMs / 1000)).getAll name := h.2
  refine ⟨?_, ?_, ?_, ?_⟩ <;>
    · rw [hget _ (by simp [sharedHeaders])]
      simp [HeaderMap.getAll, fieldValues, signedHeaders]

theorem hasJsonContentType_composed
    (h : Arrives (signedRequest crypto endpoint secret delivery payload context) seen) :
    hasJsonContentType seen = true := by
  unfold hasJsonContentType
  rw [h.headers.1]
  decide +kernel

theorem exactlyOneHeader_eq {name : HeaderName} {value : Bytes}
    (h : seen.headerValues name = [value]) : exactlyOneHeader seen name = .ok value := by
  rw [exactlyOneHeader, h]

theorem parseCanonicalTimestamp_decimal {seconds : Nat} (h : seconds ≤ i64Max) :
    parseCanonicalTimestamp (decimal seconds) = .ok (seconds : Int) := by
  have hread : parseI64 (decimal seconds) = some (seconds : Int) := by
    rw [decimal_natCast]
    exact parseI64_toDecimal (Nat.lt_of_le_of_lt h (by decide))
  unfold parseCanonicalTimestamp
  rw [hread]
  exact if_neg (by simp)

/-- **What was composed is accepted**, for the delivery it is about. -/
theorem verifyBondryHmac_composed
    (h : Arrives (signedRequest crypto endpoint secret delivery payload context) seen)
    (htime : context.unixMs / 1000 ≤ i64Max) {tolerance : Tolerance} {receiver : ResolvedSecret}
    (hsecret : secret ∈ receiver.values) {now : Int} (hnow : 0 ≤ now)
    (hnear : (now - (context.unixMs / 1000 : Nat)).natAbs ≤ Duration.asSecs tolerance.duration) :
    verifyBondryHmac crypto tolerance seen (.ok receiver) now =
      .ok ⟨some (signedIdentity crypto tolerance delivery (context.unixMs / 1000))⟩ := by
  obtain ⟨_, hid, hstamp, hsignature⟩ := h.headers
  have hbounds : ¬ (delivery.bytes = [] ∨ maxDeliveryIdBytes < delivery.bytes.length) := by
    refine not_or.mpr ⟨delivery.bytes_ne_nil, Nat.not_lt.mpr ?_⟩
    rw [delivery.bytes_length]
    exact delivery.len_le
  have hfresh : verifyFreshness now (context.unixMs / 1000 : Nat) tolerance = .ok () :=
    if_neg (not_or.mpr ⟨Int.not_lt.mpr hnow, Nat.not_lt.mpr hnear⟩)
  have hparse : ∀ signature : HmacSignature, parseSignature signature.toHex = .ok signature :=
    fun signature => by rw [parseSignature, HmacSignature.fromHex_toHex]
  have hverify : verifyWebhook crypto receiver
      ⟨(context.unixMs / 1000 : Nat), delivery.bytes, seen.body⟩
      (signWebhook crypto secret ⟨(context.unixMs / 1000 : Nat), delivery.bytes, payload⟩) = true := by
    rw [h.1, verifyWebhook_iff, ← components_flatten]
    exact ⟨secret, hsecret, rfl⟩
  have hident : fromNormalized crypto bondryHmacNamespace delivery.bytes
      (some ⟨(context.unixMs / 1000 : Nat), tolerance⟩) =
        some (signedIdentity crypto tolerance delivery (context.unixMs / 1000)) :=
    if_neg delivery.bytes_ne_nil
  unfold verifyBondryHmac
  rw [exactlyOneHeader_eq hid, exactlyOneHeader_eq hstamp, exactlyOneHeader_eq hsignature]
  simp only [bind, Except.bind, if_neg hbounds, parseCanonicalTimestamp_decimal htime, hfresh, hparse,
    resolveSecrets, hverify, if_true, hident]
  rfl

end

/-! ## What is accepted was signed -/

/-- The request carries one value for each signed field, and the signature is the HMAC of exactly
    these, under a value the verifier holds. -/
def Signed (crypto : Crypto) (secrets : ResolvedSecret) (seen : VerificationRequest) : Prop :=
  ∃ id timestamp hex signature key,
    seen.headerValues "x-bondry-delivery-id" = [id] ∧
      seen.headerValues "x-bondry-timestamp" = [decimal timestamp] ∧
      seen.headerValues "x-bondry-signature" = [hex] ∧ HmacSignature.fromHex hex = some signature ∧
      key ∈ secrets.values ∧
      signature.bytes = crypto.hmacSha256 key.bytes (canonicalWebhookBytes ⟨timestamp, id, seen.body⟩)

variable {seen : VerificationRequest}

theorem headerValues_of_exactlyOne {name : HeaderName} {value : Bytes}
    (h : exactlyOneHeader seen name = .ok value) : seen.headerValues name = [value] := by
  unfold exactlyOneHeader at h
  split at h
  · next only hvalues =>
    cases h
    exact hvalues
  · cases h

theorem fromHex_of_parseSignature {hex : Bytes} {signature : HmacSignature}
    (h : parseSignature hex = .ok signature) : HmacSignature.fromHex hex = some signature := by
  unfold parseSignature at h
  split at h
  · next hhex =>
    cases h
    exact hhex
  · cases h

/-- **What is accepted was signed.** -/
theorem verifyBondryHmac_signed {tolerance : Tolerance} {answer : SecretAnswer} {now : Int}
    {result : VerificationResult} (h : verifyBondryHmac crypto tolerance seen answer now = .ok result) :
    ∃ secrets, answer = .ok secrets ∧ Signed crypto secrets seen := by
  obtain ⟨id, hid, h⟩ := bind_ok h
  split at h
  · cases h
  obtain ⟨stamp, hstamp, h⟩ := bind_ok h
  obtain ⟨timestamp, htime, h⟩ := bind_ok h
  obtain ⟨_, _, h⟩ := bind_ok h
  obtain ⟨hex, hhex, h⟩ := bind_ok h
  obtain ⟨signature, hsignature, h⟩ := bind_ok h
  obtain ⟨secrets, hsecrets, h⟩ := bind_ok h
  split at h
  · next hverify =>
    obtain ⟨key, hkey, htag⟩ := verifyWebhook_iff.mp hverify
    refine ⟨secrets, ?_, ⟨id, timestamp, hex, signature, key, headerValues_of_exactlyOne hid, ?_,
      headerValues_of_exactlyOne hhex, fromHex_of_parseSignature hsignature, hkey, htag.symm⟩⟩
    · cases answer with
      | error error => cases hsecrets
      | ok value =>
        cases hsecrets
        rfl
    · -- the header is the canonical decimal of what was read from it
      rw [headerValues_of_exactlyOne hstamp, (parseCanonicalTimestamp_ok htime).2]
  · cases h

theorem verifyBondryHmac_before_epoch {tolerance : Tolerance} {answer : SecretAnswer} {now : Int}
    {result : VerificationResult} (hnow : now < 0) :
    verifyBondryHmac crypto tolerance seen answer now ≠ .ok result := by
  intro h
  obtain ⟨id, _, h⟩ := bind_ok h
  split at h
  · cases h
  · obtain ⟨stamp, _, h⟩ := bind_ok h
    obtain ⟨timestamp, _, h⟩ := bind_ok h
    obtain ⟨_, hfresh, _⟩ := bind_ok h
    rw [verifyFreshness, if_pos (.inl hnow)] at hfresh
    cases hfresh

/-! ## The theorem -/

/-- **Webhook signatures interoperate.**  Every admitted payload is sent in a request that a verifier
    holding the signing secret accepts, as JSON and for the delivery it is about; different identifiers
    have different hashes; and an accepted request was signed as it was received. -/
theorem webhook_signatures_interoperate (crypto : Crypto) :
    (∀ (configuration : WebhookConfiguration) (reference : SecretRef),
      configuration.authentication = .hmac reference → ∀ delivery payload operation,
        (webhookDeliveryKind crypto configuration).operation .emit delivery payload = .ok operation →
      ∀ context : AttemptContext, context.unixMs / 1000 ≤ i64Max → ∀ sender : ResolvedSecret,
        ∃ request, operation.respond context [sender] [] = .http request ∧
          ∀ seen, Arrives request seen → hasJsonContentType seen = true ∧
            ∀ (tolerance : Tolerance) (receiver : ResolvedSecret), sender.current ∈ receiver.values →
            ∀ now : Int, 0 ≤ now →
              (now - (context.unixMs / 1000 : Nat)).natAbs ≤ Duration.asSecs tolerance.duration →
              verifyBondryHmac crypto tolerance seen (.ok receiver) now = .ok ⟨some ⟨bondryHmacNamespace,
                deliveryHash crypto delivery, some ⟨(context.unixMs / 1000 : Nat), tolerance⟩⟩⟩) ∧
      (∀ delivery delivery' : DeliveryId, (crypto.sha256 delivery.bytes = crypto.sha256 delivery'.bytes →
          delivery.bytes = delivery'.bytes) →
        delivery ≠ delivery' → deliveryHash crypto delivery ≠ deliveryHash crypto delivery') ∧
      ∀ tolerance seen answer now result, verifyBondryHmac crypto tolerance seen answer now = .ok result →
          ∃ secrets, answer = .ok secrets ∧ Signed crypto secrets seen := by
  refine ⟨?_, fun _ _ => deliveryHash_ne, fun _ _ _ _ _ => verifyBondryHmac_signed⟩
  intro configuration reference hauth delivery payload operation hoperation context htime sender
  -- the payload was admitted, so it fits the body of a request
  have hpayload : payload.length ≤ configuration.limits.bodyBytes ∧
      operation = webhookOperation crypto configuration delivery payload := by
    simp only [webhookDeliveryKind, validateWebhookPayload] at hoperation
    split at hoperation
    · cases hoperation
    · next hvalid =>
      cases hoperation
      refine ⟨?_, rfl⟩
      by_contra hlong
      rw [if_neg (by simp), if_pos (Nat.not_le.mp hlong)] at hvalid
      cases hvalid
  obtain ⟨hfits, rfl⟩ := hpayload
  obtain ⟨endpoint, hcomposed⟩ := composeRequest_signed crypto hauth delivery hfits htime sender
  refine ⟨signedRequest crypto endpoint sender.current delivery payload context, ?_, ?_⟩
  · simp only [webhookOperation, hcomposed]
  · intro seen harrives
    refine ⟨hasJsonContentType_composed harrives, ?_⟩
    intro tolerance receiver hsecret now hnow hnear
    exact verifyBondryHmac_composed harrives htime hsecret hnow hnear

/-! ## A receiver -/

namespace Receiver

def configuration : WebhookConfiguration where
  target := .fixed ⟨.https, "example.test", "/hook"⟩
  authentication := .hmac "secret".toList
  limits := ⟨1024, by decide⟩
  fixed_http := fun _ heq => by cases heq; rfl
  template_bare := fun _ _ _ heq => nomatch heq

def delivery : DeliveryId := ⟨['a'], by decide⟩

end Receiver

open Receiver in
/-- A request signed at second 1 is accepted at second 2. -/
theorem webhook_signatures_interoperate_second :
    ∃ request, (webhookOperation SharedTag.crypto configuration delivery []).respond ⟨1000, 0⟩
        [SharedTag.secrets] [] = .http request ∧
      verifyBondryHmac SharedTag.crypto .standard (delivered request) (.ok SharedTag.secrets) 2 =
        .ok ⟨some (signedIdentity SharedTag.crypto .standard delivery 1)⟩ := by
  obtain ⟨request, hrequest, haccepted⟩ := (webhook_signatures_interoperate SharedTag.crypto).1
    configuration "secret".toList rfl delivery [] _ rfl ⟨1000, 0⟩ (by decide) SharedTag.secrets
  exact ⟨request, hrequest, (haccepted _ (delivered_arrives request)).2 .standard SharedTag.secrets
    (List.mem_cons_self ..) 2 (by decide) (by decide)⟩

open Receiver in
/-- **Neither time is free**: a clock before 1970 is refused within the tolerance, and a retry in the
    next second has an identity of its own. -/
theorem clock_before_epoch_refused : ∃ first second,
      composeRequest SharedTag.crypto configuration delivery [] ⟨0, 0⟩ [SharedTag.secrets] = .ok first ∧
        composeRequest SharedTag.crypto configuration delivery [] ⟨1000, 0⟩ [SharedTag.secrets] = .ok second ∧
        ((-1 : Int) - 0).natAbs ≤ Duration.asSecs Tolerance.standard.duration ∧
        (∀ result, verifyBondryHmac SharedTag.crypto .standard (delivered first) (.ok SharedTag.secrets)
          (-1) ≠ .ok result) ∧ ∃ identity identity', identity ≠ identity' ∧
          verifyBondryHmac SharedTag.crypto .standard (delivered first) (.ok SharedTag.secrets) 1 =
            .ok ⟨some identity⟩ ∧
          verifyBondryHmac SharedTag.crypto .standard (delivered second) (.ok SharedTag.secrets) 1 =
            .ok ⟨some identity'⟩ := by
  have hcomposed : ∀ unixMs, unixMs / 1000 ≤ i64Max → ∃ endpoint,
      composeRequest SharedTag.crypto configuration delivery [] ⟨unixMs, 0⟩ [SharedTag.secrets] =
        .ok (signedRequest SharedTag.crypto endpoint SharedTag.secrets.current delivery []
          ⟨unixMs, 0⟩) := fun _ htime =>
    composeRequest_signed SharedTag.crypto rfl delivery (Nat.zero_le _) htime SharedTag.secrets
  obtain ⟨endpoint, hfirst⟩ := hcomposed 0 (by decide)
  obtain ⟨endpoint', hsecond⟩ := hcomposed 1000 (by decide)
  refine ⟨_, _, hfirst, hsecond, by decide, fun _ => verifyBondryHmac_before_epoch (by decide),
    signedIdentity SharedTag.crypto .standard delivery 0,
    signedIdentity SharedTag.crypto .standard delivery 1, ?_, ?_, ?_⟩
  · intro hsame
    have hfresh := congrArg TrustedDeliveryIdentity.freshness hsame
    exact absurd (congrArg VerifiedFreshness.signedAtUnixSeconds (Option.some.inj hfresh)) (by decide)
  · exact verifyBondryHmac_composed (delivered_arrives _) (by decide) (List.mem_cons_self ..)
      (by decide) (by decide)
  · exact verifyBondryHmac_composed (delivered_arrives _) (by decide) (List.mem_cons_self ..)
      (by decide) (by decide)

end Bondry.Webhook

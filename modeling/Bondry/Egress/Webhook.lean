/-
  OUTBOUND WEBHOOKS (`bondry-egress-webhook`; the requests of `bondry-transport`).

  The delivery kind that POSTs an event to a configured endpoint, bare, with a bearer token, or signed.
  `http::Uri` is outside the repository: an endpoint is its scheme, its authority and its target, and the
  expansion of a secret URL template is a function the target comes with.

  A `HeaderMap` is the list of its entries; `insert` drops what was there under the name.  A request also
  carries the endpoint policy and the response limits to the transport, which nothing here looks at.
-/
import Bondry.Egress.Kind

namespace Bondry.Egress

open Encoding

/-! ## Requests -/

inductive NetworkScheme where
  | http
  | https
  | webSocket
  | webSocketSecure
  deriving DecidableEq, Repr

def NetworkScheme.asStr : NetworkScheme → String
  | .http => "http"
  | .https => "https"
  | .webSocket => "ws"
  | .webSocketSecure => "wss"

structure NetworkEndpoint where
  scheme : NetworkScheme
  authority : String
  pathAndQuery : String
  deriving DecidableEq

def NetworkEndpoint.isHttp (endpoint : NetworkEndpoint) : Bool :=
  match endpoint.scheme with
  | .http | .https => true
  | .webSocket | .webSocketSecure => false

/-- A stable transport failure.  `policy` stands for every rejection of the endpoint policy. -/
inductive TransportError where
  | invalidLimits
  | unsupportedEndpoint
  | requestTooLarge
  | responseTooLarge
  | policy
  | deadlineExceeded
  | connectionFailed
  | tlsFailed
  | invalidResponse
  | invalidMessage
  deriving DecidableEq, Repr

abbrev HeaderMap := List (String × Bytes)

def HeaderMap.insert (headers : HeaderMap) (name : String) (value : Bytes) : HeaderMap :=
  headers.filter (fun header => header.1 ≠ name) ++ [(name, value)]

def HeaderMap.getAll (headers : HeaderMap) (name : String) : List Bytes := fieldValues headers name

/-- `HeaderValue::from_str`: visible ASCII and tabs. -/
def headerFromStr (value : Bytes) : Option Bytes :=
  if value.all fun b => (decide (0x20 ≤ b) && decide (b < 0x7F)) || b == 0x09 then some value else none

/-- `HeaderValue::from_bytes`: everything but the other control characters. -/
def headerFromBytes (value : Bytes) : Option Bytes :=
  if value.all fun b => (decide (0x20 ≤ b) && decide (b ≠ 0x7F)) || b == 0x09 then some value else none

def maxHttpRequestBodyBytes : Nat := 256 * 1024

def maxHttpHeaderBytes : Nat := 16 * 1024

def maxHttpHeaders : Nat := 64

structure HttpRequest where
  method : String
  endpoint : NetworkEndpoint
  headers : HeaderMap
  body : Bytes
  deadline : Nat
  deriving DecidableEq

def headerBytes (headers : HeaderMap) : Nat :=
  (headers.map fun header => utf8Len header.1.toList + header.2.length + 4).sum

def validateHeaders (headers : HeaderMap) (overflow : TransportError) : Except TransportError Unit :=
  if maxHttpHeaders < headers.length then .error overflow
  else if maxHttpHeaderBytes < headerBytes headers then .error overflow
  else .ok ()

def HttpRequest.new (method : String) (endpoint : NetworkEndpoint) (headers : HeaderMap)
    (body : Bytes) (deadline : Nat) : Except TransportError HttpRequest :=
  if endpoint.isHttp = false then .error .unsupportedEndpoint
  else if maxHttpRequestBodyBytes < body.length then .error .requestTooLarge
  else match validateHeaders headers .requestTooLarge with
    | .error error => .error error
    | .ok () => .ok ⟨method, endpoint, headers, body, deadline⟩

/-! ## Configuration -/

inductive WebhookAuthentication where
  | none
  | bearer (reference : SecretRef)
  | hmac (reference : SecretRef)
  deriving DecidableEq

/-- Where events are sent: a fixed endpoint, or a template around one secret, with its `expand`. -/
inductive WebhookTarget where
  | fixed (endpoint : NetworkEndpoint)
  | template (redacted : String) (reference : SecretRef)
      (expand : ResolvedSecret → Option NetworkEndpoint)

structure WebhookLimits where
  bodyBytes : Nat
  mem : 1024 ≤ bodyBytes ∧ bodyBytes ≤ maxHttpRequestBodyBytes
  deriving DecidableEq

/-- `WebhookConfiguration`: the two constructors of the kind allow no other endpoint than an HTTP one,
    and no authentication beside a template. -/
structure WebhookConfiguration where
  target : WebhookTarget
  authentication : WebhookAuthentication
  limits : WebhookLimits
  fixed_http : ∀ endpoint, target = .fixed endpoint → endpoint.isHttp = true
  template_bare : ∀ redacted reference expand, target = .template redacted reference expand →
    authentication = .none

/-- `redacted_origin`, or the redacted template. -/
def WebhookConfiguration.summary (configuration : WebhookConfiguration) : String :=
  match configuration.target with
  | .fixed endpoint => endpoint.scheme.asStr ++ "://" ++ endpoint.authority
  | .template redacted _ _ => redacted

def WebhookConfiguration.secretReference (configuration : WebhookConfiguration) : Option SecretRef :=
  match configuration.target, configuration.authentication with
  | .template _ reference _, .none => some reference
  | .fixed _, .bearer reference | .fixed _, .hmac reference => some reference
  | .fixed _, .none => none
  | .template _ _ _, _ => none

/-! ## One attempt -/

def secretUnavailable : AttemptDisposition := .failed .secretUnavailable

def composedInternally : AttemptDisposition := .failed .internal

/-- `byte.is_ascii_alphanumeric()` or one of the marks of a token. -/
def isTokenByte (b : UInt8) : Bool :=
  isDigit b || (decide (0x41 ≤ b) && decide (b ≤ 0x5A)) || (decide (0x61 ≤ b) && decide (b ≤ 0x7A)) ||
    b ∈ ascii "-._~+/"

/-- `bearer_header`: an RFC 6750 token, with its padding at the end. -/
def bearerHeader (secret : ResolvedSecret) : Except AttemptDisposition Bytes :=
  let token := secret.current.bytes
  let core := token.takeWhile (· ≠ 0x3D)
  let padding := token.dropWhile (· ≠ 0x3D)
  if core = [] ∨ core.all isTokenByte = false ∨ padding.all (· == 0x3D) = false then
    .error secretUnavailable
  else match headerFromBytes (ascii "Bearer " ++ token) with
    | some value => .ok value
    | none => .error secretUnavailable

def classifyRequestError : TransportError → AttemptDisposition
  | .requestTooLarge | .invalidLimits | .unsupportedEndpoint | .invalidMessage => .failed .internal
  | .policy | .tlsFailed => .failed .endpointPolicy
  | .responseTooLarge | .deadlineExceeded | .connectionFailed | .invalidResponse => .failed .internal

def required {ε α : Type} (error : ε) : Option α → Except ε α
  | some value => .ok value
  | none => .error error

section

variable (crypto : Crypto)

def WebhookTarget.endpoint (target : WebhookTarget) (secret : Option ResolvedSecret) :
    Except AttemptDisposition NetworkEndpoint :=
  match target with
  | .fixed endpoint => .ok endpoint
  | .template _ _ expand => do
      let secret ← required secretUnavailable secret
      required secretUnavailable (expand secret)

def WebhookAuthentication.headers (authentication : WebhookAuthentication)
    (secret : Option ResolvedSecret) (delivery : DeliveryId) (payload : Bytes)
    (context : AttemptContext) (headers : HeaderMap) : Except AttemptDisposition HeaderMap :=
  match authentication with
  | .none => .ok headers
  | .bearer _ => do
      let secret ← required secretUnavailable secret
      let value ← bearerHeader secret
      pure (headers.insert "authorization" value)
  | .hmac _ =>
    let seconds := context.unixMs / 1000
    if i64Max < seconds then .error composedInternally
    else do
      let timestamp : Int := seconds
      let secret ← required secretUnavailable secret
      let signature := signWebhook crypto secret.current ⟨timestamp, delivery.bytes, payload⟩
      let time ← required composedInternally (headerFromStr (decimal timestamp))
      let headers := headers.insert "x-bondry-timestamp" time
      let value ← required composedInternally (headerFromStr signature.toHex)
      pure (headers.insert "x-bondry-signature" value)

def composeRequest (configuration : WebhookConfiguration) (delivery : DeliveryId) (payload : Bytes)
    (context : AttemptContext) (secrets : List ResolvedSecret) : Except AttemptDisposition HttpRequest :=
  let expected := if configuration.secretReference.isSome then 1 else 0
  if secrets.length ≠ expected then .error secretUnavailable
  else do
    let secret := secrets.head?
    let endpoint ← configuration.target.endpoint secret
    let headers := HeaderMap.insert [] "content-type" (ascii "application/json")
    let id ← required composedInternally (headerFromStr delivery.bytes)
    let headers := headers.insert "x-bondry-delivery-id" id
    let headers ← configuration.authentication.headers crypto secret delivery payload context headers
    match HttpRequest.new "POST" endpoint headers payload context.deadline with
    | .error error => .error (classifyRequestError error)
    | .ok request => .ok request

end

/-! ## The kind -/

def classifyStatus (status : Nat) : AttemptDisposition :=
  if 200 ≤ status ∧ status < 300 then .delivered none
  else if status = 408 ∨ status = 425 ∨ status = 429 ∨ (500 ≤ status ∧ status < 600) then
    .retryable .receiverRejected
  else .failed .receiverRejected

def classifyTransport : TransportError → AttemptDisposition
  | .deadlineExceeded => .retryable .deadlineExceeded
  | .connectionFailed | .invalidResponse => .retryable .transportUnavailable
  | .policy | .tlsFailed => .failed .endpointPolicy
  | .responseTooLarge => .failed .receiverRejected
  | .requestTooLarge | .invalidLimits | .unsupportedEndpoint | .invalidMessage => .failed .internal

/-- `TransportCompletion::Http`: the status of the response, or what went wrong. -/
abbrev TransportCompletion := Except TransportError Nat

/-- `WebhookOperation`: one request, whose completion ends the attempt. -/
def webhookOperation (crypto : Crypto) (configuration : WebhookConfiguration) (delivery : DeliveryId)
    (payload : Bytes) : DeliveryOperation HttpRequest TransportCompletion where
  secretReferences := configuration.secretReference.toList
  respond := fun context secrets history =>
    match composeRequest crypto configuration delivery payload context secrets, history with
    | .ok request, [] => .http request
    | .error disposition, [] => .complete disposition
    | .ok _, [(_, .ok status)] => .complete (classifyStatus status)
    | .ok _, [(_, .error error)] => .complete (classifyTransport error)
    | _, _ => .complete (.failed .internal)

/-- `WebhookDeliveryKind::validate_payload`. -/
def validateWebhookPayload (configuration : WebhookConfiguration) (mode : OperationMode)
    (payload : Bytes) : Except KindOperationError Unit :=
  if mode ≠ .emit then .error .unsupportedOperation
  else if configuration.limits.bodyBytes < payload.length then .error .invalidEvent
  else .ok ()

def webhookDeliveryKind (crypto : Crypto) (configuration : WebhookConfiguration) :
    DeliveryKind HttpRequest TransportCompletion where
  name := "webhook"
  targetSummary := configuration.summary
  supportsCall := false
  permitsAutomaticRetry := true
  maxPayloadBytes := configuration.limits.bodyBytes
  validatePayload := validateWebhookPayload configuration
  operation := fun mode delivery payload =>
    match validateWebhookPayload configuration mode payload with
    | .error error => .error error
    | .ok () => .ok (webhookOperation crypto configuration delivery payload)

/-! ## What a signed request looks like -/

theorem headerFromStr_visible {value : Bytes} (h : ∀ b ∈ value, 0x20 ≤ b ∧ b < 0x7F) :
    headerFromStr value = some value := by
  refine if_pos (List.all_eq_true.mpr fun b hb => ?_)
  simp [h b hb]

theorem headerFromStr_identifier (delivery : DeliveryId) :
    headerFromStr delivery.bytes = some delivery.bytes :=
  headerFromStr_visible fun _ hb =>
    (delivery.visible hb).imp_left UInt8.le_of_lt

theorem visible_of_isDigit {b : UInt8} (h : isDigit b = true) : 0x20 ≤ b ∧ b < 0x7F := by
  simp only [isDigit, Bool.and_eq_true, decide_eq_true_eq] at h
  exact ⟨UInt8.le_trans (by decide) h.1, UInt8.lt_of_le_of_lt h.2 (by decide)⟩

theorem headerFromStr_decimal (n : Nat) : headerFromStr (decimal n) = some (decimal n) := by
  rw [decimal_natCast]
  exact headerFromStr_visible fun b hb => visible_of_isDigit (isDigit_of_mem_toDecimal hb)

theorem encodeNibble_visible : ∀ b : UInt8,
    ((0x20 : UInt8) ≤ encodeNibble (b >>> 4) ∧ encodeNibble (b >>> 4) < 0x7F) ∧
      (0x20 : UInt8) ≤ encodeNibble (b &&& 0x0f) ∧ encodeNibble (b &&& 0x0f) < 0x7F := by
  decide +kernel

theorem headerFromStr_hex (signature : HmacSignature) :
    headerFromStr signature.toHex = some signature.toHex := by
  refine headerFromStr_visible ?_
  unfold HmacSignature.toHex
  induction signature.bytes with
  | nil => exact fun b hb => nomatch hb
  | cons first rest ih =>
    intro b hb
    rcases List.mem_cons.mp hb with rfl | hb
    · exact (encodeNibble_visible first).1
    · rcases List.mem_cons.mp hb with rfl | hb
      · exact (encodeNibble_visible first).2
      · exact ih b hb

def signedHeaders (crypto : Crypto) (secret : SecretValue) (delivery : DeliveryId) (payload : Bytes)
    (seconds : Nat) : HeaderMap :=
  [("content-type", ascii "application/json"), ("x-bondry-delivery-id", delivery.bytes),
    ("x-bondry-timestamp", decimal seconds),
    ("x-bondry-signature", (signWebhook crypto secret ⟨seconds, delivery.bytes, payload⟩).toHex)]

theorem signedHeaders_insert (crypto : Crypto) (secret : SecretValue) (delivery : DeliveryId)
    (payload : Bytes) (seconds : Nat) :
    (((HeaderMap.insert [] "content-type" (ascii "application/json")).insert "x-bondry-delivery-id"
      delivery.bytes).insert "x-bondry-timestamp" (decimal seconds)).insert "x-bondry-signature"
        (signWebhook crypto secret ⟨seconds, delivery.bytes, payload⟩).toHex =
      signedHeaders crypto secret delivery payload seconds := by
  simp [HeaderMap.insert, signedHeaders]

theorem signedHeaders_valid (crypto : Crypto) (secret : SecretValue) (delivery : DeliveryId)
    (payload : Bytes) {seconds : Nat} (h : seconds ≤ i64Max) :
    validateHeaders (signedHeaders crypto secret delivery payload seconds) .requestTooLarge = .ok () := by
  have hid : delivery.bytes.length ≤ 128 := delivery.bytes_length ▸ delivery.len_le
  have htime : (decimal seconds).length ≤ 19 := by
    rw [decimal_natCast]
    exact toDecimal_length_le (by decide) (Nat.lt_of_le_of_lt h (by decide))
  have hhex : ∀ signature : HmacSignature, signature.toHex.length = 64 := fun signature => by
    rw [HmacSignature.toHex, encodeHex_length, signature.length_eq]
  have hnames : utf8Len "content-type".toList = 12 ∧ utf8Len "x-bondry-delivery-id".toList = 20 ∧
      utf8Len "x-bondry-timestamp".toList = 18 ∧ utf8Len "x-bondry-signature".toList = 18 ∧
      (ascii "application/json").length = 16 := by decide
  obtain ⟨hname₁, hname₂, hname₃, hname₄, hjson⟩ := hnames
  have hsum : headerBytes (signedHeaders crypto secret delivery payload seconds) ≤
      maxHttpHeaderBytes := by
    simp only [headerBytes, signedHeaders, List.map_cons, List.map_nil, List.sum_cons, List.sum_nil,
      hname₁, hname₂, hname₃, hname₄, hjson, hhex, maxHttpHeaderBytes]
    omega
  have hfour : (signedHeaders crypto secret delivery payload seconds).length = 4 := rfl
  unfold validateHeaders
  rw [hfour, if_neg (by decide), if_neg (Nat.not_lt.mpr hsum)]

def signedRequest (crypto : Crypto) (endpoint : NetworkEndpoint) (secret : SecretValue)
    (delivery : DeliveryId) (payload : Bytes) (context : AttemptContext) : HttpRequest where
  method := "POST"
  endpoint := endpoint
  headers := signedHeaders crypto secret delivery payload (context.unixMs / 1000)
  body := payload
  deadline := context.deadline

/-- **A signed request is always composed**, and carries exactly its four headers and the payload. -/
theorem composeRequest_signed (crypto : Crypto) {configuration : WebhookConfiguration}
    {reference : SecretRef} (hauth : configuration.authentication = .hmac reference)
    (delivery : DeliveryId) {payload : Bytes}
    (hpayload : payload.length ≤ configuration.limits.bodyBytes) {context : AttemptContext}
    (htime : context.unixMs / 1000 ≤ i64Max) (secret : ResolvedSecret) :
    ∃ endpoint, composeRequest crypto configuration delivery payload context [secret] =
      .ok (signedRequest crypto endpoint secret.current delivery payload context) := by
  -- a template comes without authentication, so the target is fixed
  obtain ⟨endpoint, hfixed⟩ : ∃ endpoint, configuration.target = .fixed endpoint := by
    cases htarget : configuration.target with
    | fixed endpoint => exact ⟨endpoint, rfl⟩
    | template redacted other expand =>
      rw [configuration.template_bare redacted other expand htarget] at hauth
      cases hauth
  have hone : configuration.secretReference = some reference := by
    simp only [WebhookConfiguration.secretReference, hfixed, hauth]
  have hnew : HttpRequest.new "POST" endpoint
      (signedHeaders crypto secret.current delivery payload (context.unixMs / 1000)) payload
      context.deadline = .ok (signedRequest crypto endpoint secret.current delivery payload context) := by
    have hbody : ¬ maxHttpRequestBodyBytes < payload.length :=
      Nat.not_lt.mpr (hpayload.trans configuration.limits.mem.2)
    rw [HttpRequest.new, configuration.fixed_http endpoint hfixed, if_neg (by decide), if_neg hbody,
      signedHeaders_valid crypto secret.current delivery payload htime]
    rfl
  refine ⟨endpoint, ?_⟩
  simp only [composeRequest, hone, hfixed, hauth, WebhookTarget.endpoint,
    WebhookAuthentication.headers, headerFromStr_identifier, headerFromStr_decimal,
    headerFromStr_hex, required, if_neg (Nat.not_lt.mpr htime)]
  rw [if_neg (by simp)]
  simp only [List.head?_cons, bind, Except.bind, pure, Except.pure]
  rw [signedHeaders_insert, hnew]

end Bondry.Egress

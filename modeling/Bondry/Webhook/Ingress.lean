/-
  INGRESS PARTS (`bondry-webhook-ingress`: `limits.rs`, `response.rs`, `limiter.rs`, `payload.rs`).

  The pieces a route is assembled from: validated limits, the response it answers with, the limiter
  shared by all routes, and the mapping from a verified body to capability input.

  `serde_json` is outside the repository: the parser is a parameter.  The charge that is compared with
  the retained-memory budget BEFORE parsing is the repository's own count and is modelled in full.
-/
import Bondry.Contract.Dispatch
import Bondry.Contract.Limits
import Bondry.Lib.BTreeMap
import Bondry.Lib.JsonValue
import Bondry.Webhook.Verify

namespace Bondry.Webhook

open Encoding

/-! ## Limits -/

structure WebhookIngressLimits where
  bodyBytes : Nat
  retainedBytes : Nat
  selectedHeaders : Nat
  bodyBytes_mem : 1024 ≤ bodyBytes ∧ bodyBytes ≤ 4 * 1048576
  retainedBytes_mem : bodyBytes ≤ retainedBytes ∧ retainedBytes ≤ 10 * 1048576
  selectedHeaders_mem : 1 ≤ selectedHeaders ∧ selectedHeaders ≤ 32
  deriving DecidableEq

/-- `WebhookIngressLimits::default`. -/
def WebhookIngressLimits.standard : WebhookIngressLimits :=
  ⟨1048576, 3 * 1048576, 16, by decide, by decide, by decide⟩

/-! ## Responses -/

structure WebhookIngressResponse where
  status : Nat
  retryAfterSeconds : Option Nat
  errorCode : Option String
  deriving DecidableEq, Repr

def WebhookIngressResponse.success (status : Nat) : WebhookIngressResponse := ⟨status, none, none⟩

def WebhookIngressResponse.error (status : Nat) (errorCode : String) : WebhookIngressResponse :=
  ⟨status, none, some errorCode⟩

def WebhookIngressResponse.retryable (status : Nat) (errorCode : String) (retryAfterSeconds : Nat) :
    WebhookIngressResponse :=
  ⟨status, some retryAfterSeconds, some errorCode⟩

/-- `retryable` of `route.rs`: 503, again in one second. -/
def retryable (errorCode : String) : WebhookIngressResponse := .retryable 503 errorCode 1

def WebhookIngressResponse.isSuccess (response : WebhookIngressResponse) : Bool :=
  decide (200 ≤ response.status ∧ response.status < 300)

/-! ## The authenticated limiter -/

def windowMilliseconds : Nat := 60000

structure AuthenticatedRequestLimiter where
  requestsPerMinute : Nat
  lastMonotonicMilliseconds : Nat
  principals : BTreeMap PrincipalId (List Nat)
  requestsPerMinute_mem : 1 ≤ requestsPerMinute ∧ requestsPerMinute ≤ 60000

/-- `AuthenticatedRequestLimiter::default`. -/
def AuthenticatedRequestLimiter.standard : AuthenticatedRequestLimiter :=
  ⟨120, 0, ∅, by decide⟩

inductive AuthenticatedAdmission where
  | allowed
  | limited (retryAfter : Nat)
  deriving DecidableEq, Repr

/-- Seconds until the oldest request leaves the window. -/
def retryAfter (requests : List Nat) (now : Nat) : Nat :=
  match requests with
  | [] => 60
  | oldest :: _ => max 1 ((min (oldest + windowMilliseconds) u64Max - now + 999) / 1000)

/-- `AuthenticatedRequestLimiter::admit`: the clock is clamped to its running maximum, requests that
    left the window are forgotten, and one more is admitted while there is room. -/
def AuthenticatedRequestLimiter.admitRequest (limiter : AuthenticatedRequestLimiter)
    (principal : PrincipalId) (nowMonotonicMilliseconds : Nat) :
    AuthenticatedAdmission × AuthenticatedRequestLimiter :=
  let now := max nowMonotonicMilliseconds limiter.lastMonotonicMilliseconds
  let cutoff := now - windowMilliseconds
  let requests := (limiter.principals[principal]?.getD []).dropWhile (· ≤ cutoff)
  if limiter.requestsPerMinute ≤ requests.length then
    (.limited (retryAfter requests now),
      { limiter with
        lastMonotonicMilliseconds := now, principals := limiter.principals.insert principal requests })
  else
    (.allowed,
      { limiter with
        lastMonotonicMilliseconds := now
        principals := limiter.principals.insert principal (requests ++ [now]) })

/-! ## Payload mapping -/

inductive PayloadMapping where
  | jsonBody
  | envelope (metadataHeaders : List HeaderName)
  deriving DecidableEq

def PayloadMapping.metadataHeaders : PayloadMapping → List HeaderName
  | .jsonBody => []
  | .envelope metadataHeaders => metadataHeaders

def checkedAdd (a b : Nat) : Option Nat := if a + b ≤ u64Max then some (a + b) else none

def checkedMul (a b : Nat) : Option Nat := if a * b ≤ u64Max then some (a * b) else none

def valueAllocationCharge : Nat := 128

/-- The bytes that end a bare token: white space, closing brackets, `,` and `:`. -/
def isSeparator (b : UInt8) : Bool := b ∈ [0x20, 0x09, 0x0D, 0x0A, 0x7D, 0x5D, 0x2C, 0x3A]

/-- `string_end`: the bytes behind the closing quote. -/
def stringEnd : Bytes → Option Bytes
  | [] => none
  | [b] => if b = 0x22 then some [] else none
  | b :: c :: rest =>
    if b = 0x22 then some (c :: rest)
    else if b = 0x5C then stringEnd rest
    else stringEnd (c :: rest)

/-- The loop of `count_json_values`.  Every round consumes a byte, so the number of bytes left is
    enough fuel. -/
def countFrom : Nat → Nat → Bytes → Option Nat
  | _, count, [] => some count
  | 0, count, _ :: _ => some count
  | fuel + 1, count, b :: rest =>
    if isSeparator b then countFrom fuel count rest
    else (checkedAdd count 1).bind fun count =>
      if b = 0x7B ∨ b = 0x5B then countFrom fuel count rest
      else if b = 0x22 then (stringEnd rest).bind (countFrom fuel count)
      else countFrom fuel count (rest.dropWhile fun c => !isSeparator c)

def countJsonValues (input : Bytes) : Option Nat := countFrom input.length 0 input

/-- The charge of one metadata header: each value, and the name when it is present at all. -/
def headerCharge (request : VerificationRequest) (charge : Nat) (name : HeaderName) : Option Nat :=
  let values := request.headerValues name
  (values.foldlM (fun charge value => (checkedAdd charge value.length).bind
    (checkedAdd · valueAllocationCharge)) charge).bind fun charge =>
      if values = [] then some charge
      else (checkedAdd charge name.utf8ByteSize).bind (checkedAdd · valueAllocationCharge)

def metadataCharge (mapping : PayloadMapping) (request : VerificationRequest) : Option Nat :=
  match mapping with
  | .jsonBody => some 0
  | .envelope metadataHeaders =>
    (checkedMul valueAllocationCharge 2).bind fun charge =>
      metadataHeaders.foldlM (headerCharge request) charge

def retainedCharge (mapping : PayloadMapping) (request : VerificationRequest) : Option Nat := do
  let bodyBytes ← checkedMul request.body.length 2
  let jsonValues ← countJsonValues request.body
  let jsonCharge ← checkedMul jsonValues valueAllocationCharge
  let metadataCharge ← metadataCharge mapping request
  let charge ← checkedAdd bodyBytes jsonCharge
  checkedAdd charge metadataCharge

def capacityResponse : WebhookIngressResponse := .error 413 "retained_capacity"

/-- The member an envelope gets for one metadata header: none when the header is absent. -/
def metadataMember (request : VerificationRequest) (name : HeaderName) :
    Except WebhookIngressResponse (Option (Text × Json)) := do
  let values ← (request.headerValues name).mapM fun value =>
    match decodeUtf8 value with
    | some text => .ok (Json.string text)
    | none => .error (.error 400 "invalid_metadata")
  pure (if values = [] then none else some (name.toList, .array values))

def mapPayload (parseJson : Bytes → Option Json) (mapping : PayloadMapping)
    (request : VerificationRequest) (limits : WebhookIngressLimits) : Except WebhookIngressResponse Json :=
  if limits.bodyBytes < request.body.length then .error (.error 413 "body_too_large")
  else match retainedCharge mapping request with
    | none => .error capacityResponse
    | some charge =>
      if limits.retainedBytes < charge then .error capacityResponse
      else match parseJson request.body with
        | none => .error (.error 400 "invalid_json")
        | some body =>
          match mapping with
          | .jsonBody => .ok body
          | .envelope metadataHeaders => do
              let members ← metadataHeaders.mapM (metadataMember request)
              let metadata := (members.filterMap id).foldl
                (fun metadata member => Json.insertMember member.1 member.2 metadata) []
              pure (.object [("body".toList, body), ("metadata".toList, .object metadata)])

/-! ## No refusal is a success -/

theorem metadataMember_error {request : VerificationRequest} {name : HeaderName}
    {response : WebhookIngressResponse} (h : metadataMember request name = .error response) :
    response.isSuccess = false := by
  rcases bind_error h with hvalues | ⟨_, _, h⟩
  · obtain ⟨value, _, hvalue⟩ := mapM_error hvalues
    split at hvalue <;> cases hvalue
    rfl
  · cases h

theorem mapPayload_error {parseJson : Bytes → Option Json} {mapping : PayloadMapping}
    {request : VerificationRequest} {limits : WebhookIngressLimits} {response : WebhookIngressResponse}
    (h : mapPayload parseJson mapping request limits = .error response) : response.isSuccess = false := by
  revert h
  fun_cases mapPayload parseJson mapping request limits <;> intro h
  case case6 =>
    rcases bind_error h with hmembers | ⟨_, _, h⟩
    · obtain ⟨name, _, hname⟩ := mapM_error hmembers
      exact metadataMember_error hname
    · cases h
  all_goals cases h <;> rfl

/-! ## Content type -/

/-- `has_json_content_type`: one value, whose media type is JSON. -/
def hasJsonContentType (request : VerificationRequest) : Bool :=
  match request.headerValues "content-type" with
  | [value] =>
    match decodeUtf8 value with
    | some text =>
      decide ((trim (text.takeWhile (· ≠ ';'))).map Char.toLower = "application/json".toList)
    | none => false
  | _ => false

end Bondry.Webhook

/-
  OUTBOUND MCP CALLS (`bondry-egress-mcp`, `mcp.rs` and `limits.rs`).

  The delivery kind that hands an event to one tool of an MCP server.  The payload is parsed and written
  again as the arguments of a `tools/call`, so what is sent is not the bytes that were admitted.

  How much a payload may take is settled when the kind is configured, from a PROBE: the request for the
  empty arguments, without a credential.  What follows from that:

  * the body of an admitted payload fits the transport's bound, if no number of it is printed longer than
    it was written (`length_body_le`);
  * the headers fit if there was room left for the credential: the probe did not have it.

  `jsonschema` is outside the repository; a compiled schema is the inputs it accepts.
-/
import Bondry.Egress.Buckets
import Bondry.Mcp.Client

namespace Bondry.Egress

open Encoding Json Mcp

/-! ## Tools -/

/-- `jsonschema::draft202012`: which documents are schemas, and what a schema accepts. -/
structure JsonSchema where
  isValid : Json → Bool
  new : Json → Option (Json → Bool)

inductive McpToolBindingError where
  | invalidName
  | schemaTooLarge
  | invalidSchema
  deriving DecidableEq, Repr

inductive McpInputError where
  | invalidShape
  | schemaMismatch
  deriving DecidableEq, Repr

structure McpToolBinding where
  name : Text
  schema : Json
  validator : Json → Bool
  name_valid : ToolName name

/-- `McpToolBinding::from_parts_with_schema_limit`. -/
def McpToolBinding.fromParts (schemas : JsonSchema) (name : Text) (schema : Json)
    (schemaBytes : Nat) : Except McpToolBindingError McpToolBinding :=
  if hname : ToolName name then
    if schemaBytes < (toVec schema).length then .error .schemaTooLarge
    else if schema.isObject = false ∨ schemas.isValid schema = false then .error .invalidSchema
    else match schemas.new schema with
      | none => .error .invalidSchema
      | some validator => .ok ⟨name, schema, validator, hname⟩
  else .error .invalidName

def McpToolBinding.validateInput (tool : McpToolBinding) (input : Json) : Except McpInputError Unit :=
  if input.isObject = false ∨ maxJsonNestingDepth < depth input then .error .invalidShape
  else if tool.validator input = false then .error .schemaMismatch
  else .ok ()

/-! ## Configuration -/

inductive McpAuthentication where
  | none
  | bearer (reference : SecretRef)
  deriving DecidableEq

def McpAuthentication.secretReference : McpAuthentication → Option SecretRef
  | .none => Option.none
  | .bearer reference => some reference

structure McpLimits where
  schemaBytes : Nat
  resultBytes : Nat
  schema_mem : 1 ≤ schemaBytes ∧ schemaBytes ≤ 64 * 1024
  result_mem : 4 * 1024 ≤ resultBytes ∧ resultBytes ≤ 1024 * 1024

inductive McpConfigurationError where
  | unsupportedScheme
  | invalidProtocolShape
  deriving DecidableEq, Repr

def maxEventPayloadBytes : Nat := 224 * 1024

def bodyOverhead (client : McpClient) (version : McpProtocolVersion) (tool : McpToolBinding) : Nat :=
  (toVec (client.callBody 0 version tool.name (.object []))).length - 2

def payloadBudget (client : McpClient) (version : McpProtocolVersion) (tool : McpToolBinding) : Nat :=
  min maxEventPayloadBytes (maxHttpRequestBodyBytes - bodyOverhead client version tool)

/-- `McpConfiguration`, with what `McpDeliveryKind::new` has checked.  An endpoint's host and port are what
    the URI type answers for it. -/
structure McpConfiguration where
  endpoint : NetworkEndpoint
  host : String
  port : Nat
  authentication : McpAuthentication
  client : McpClient
  version : McpProtocolVersion
  tool : McpToolBinding
  limits : McpLimits
  automaticRetry : Bool
  endpoint_http : endpoint.isHttp = true
  headers_fit : headerBytes (callHeaders version tool.name) ≤ maxHttpHeaderBytes
  budget_pos : payloadBudget client version tool ≠ 0

def McpConfiguration.new (endpoint : NetworkEndpoint) (host : String) (port : Nat)
    (authentication : McpAuthentication) (client : McpClient) (version : McpProtocolVersion)
    (tool : McpToolBinding) (limits : McpLimits) : Except McpConfigurationError McpConfiguration :=
  if hhttp : endpoint.isHttp = true then
    -- the probe is always a request: `tool` has a name that `call_tool` accepts
    if hheaders : headerBytes (callHeaders version tool.name) ≤ maxHttpHeaderBytes then
      if hbudget : payloadBudget client version tool ≠ 0 then
        .ok ⟨endpoint, host, port, authentication, client, version, tool, limits, false, hhttp, hheaders,
          hbudget⟩
      else .error .invalidProtocolShape
    else .error .invalidProtocolShape
  else .error .unsupportedScheme

namespace McpConfiguration

def maxPayloadBytes (configuration : McpConfiguration) : Nat :=
  payloadBudget configuration.client configuration.version configuration.tool

/-- `redacted_target`. -/
def summary (configuration : McpConfiguration) : String :=
  configuration.endpoint.scheme.asStr ++ "://" ++ configuration.host ++ ":" ++
    toString configuration.port ++ "#" ++ String.ofList configuration.tool.name

end McpConfiguration

/-! ## One attempt -/

/-- `TransportCompletion::Http`: the response, or what went wrong. -/
abbrev McpCompletion := Except TransportError Response

section

variable (float : List Char → Option (List Char))

def McpAuthentication.headers (authentication : McpAuthentication) (secret : Option ResolvedSecret)
    (headers : HeaderMap) : Except AttemptDisposition HeaderMap :=
  match authentication with
  | .none => .ok headers
  | .bearer _ => do
      let secret ← required secretUnavailable secret
      let value ← bearerHeader secret
      pure (headers.insert "authorization" value)

/-- `McpOperation::compose_request`. -/
def composeCall (configuration : McpConfiguration) (payload : Bytes) (context : AttemptContext)
    (secrets : List ResolvedSecret) : Except AttemptDisposition (HttpRequest × McpResponseDecoder) :=
  let expected := if configuration.authentication.secretReference.isSome then 1 else 0
  if secrets.length ≠ expected then .error secretUnavailable
  else match fromSlice float payload with
    | none => .error composedInternally
    | some arguments =>
      match configuration.client.callTool 1 configuration.version configuration.tool.name arguments with
      | .error _ => .error composedInternally
      | .ok parts =>
        match configuration.authentication.headers secrets.head? parts.headers with
        | .error disposition => .error disposition
        | .ok headers =>
          match HttpRequest.new "POST" configuration.endpoint headers parts.body
              context.deadline with
          | .error error => .error (classifyRequestError error)
          | .ok request => .ok (request, parts.decoder)

def saturatingU32 (length : Nat) : UInt32 :=
  if length < 2 ^ 32 then UInt32.ofNat length else UInt32.ofNat (2 ^ 32 - 1)

def invalidResult (bytes : Nat) : AttemptDisposition :=
  .failedWithResult .receiverRejected ⟨.invalid, saturatingU32 bytes⟩

def classifyClient (error : McpClientError) (bytes : Nat) : AttemptDisposition :=
  match error with
  | .peerUnavailable | .unexpectedHttpStatus => .retryable .receiverRejected
  | .unsupportedResponseMode | .invalidContentType | .invalidJson | .invalidEnvelope
  | .mismatchedResponseId => .failedWithResult .receiverRejected ⟨.invalid, saturatingU32 bytes⟩
  | .unsupportedProtocolVersion | .methodNotFound | .requestRejected | .remoteFailure
  | .toolListTooLarge => .failed .receiverRejected

/-- `classify_transport`: a response too large is an invalid result here. -/
def classifyMcpTransport : TransportError → AttemptDisposition
  | .deadlineExceeded => .retryable .deadlineExceeded
  | .connectionFailed | .invalidResponse => .retryable .transportUnavailable
  | .policy | .tlsFailed => .failed .endpointPolicy
  | .responseTooLarge => invalidResult 0
  | .requestTooLarge | .invalidLimits | .unsupportedEndpoint | .invalidMessage => .failed .internal

def classifyResponse (configuration : McpConfiguration) (mode : OperationMode)
    (decoder : McpResponseDecoder) (response : Response) : KindTransition HttpRequest :=
  match decoder.decode float response.status response.headers response.body with
  | .ok (.toolCall result) =>
    if configuration.limits.resultBytes < result.json.length ∨
        maxJsonNestingDepth < result.nestingDepth then
      .complete (invalidResult result.json.length)
    else
      let category : DeliveryResultCategory := match result.outcome with
        | .succeeded => .succeeded
        | .failed => .failed
      let disposition : AttemptDisposition :=
        .delivered (some ⟨category, saturatingU32 result.json.length⟩)
      match mode with
      | .call => .completeWithResult disposition result.json
      | .emit => .complete disposition
  | .ok _ => .complete (invalidResult response.body.length)
  | .error error => .complete (classifyClient error response.body.length)

/-- `McpOperation`: one request, whose completion ends the attempt. -/
def mcpOperation (configuration : McpConfiguration) (mode : OperationMode) (payload : Bytes) :
    DeliveryOperation HttpRequest McpCompletion where
  secretReferences := configuration.authentication.secretReference.toList
  respond := fun context secrets history =>
    match composeCall float configuration payload context secrets, history with
    | .ok (request, _), [] => .http request
    | .error disposition, [] => .complete disposition
    | .ok (_, decoder), [(_, .ok response)] => classifyResponse float configuration mode decoder response
    | .ok _, [(_, .error error)] => .complete (classifyMcpTransport error)
    | _, _ => .complete (.failed .internal)

/-- `McpDeliveryKind::validate_payload`. -/
def validateMcpPayload (configuration : McpConfiguration) (_mode : OperationMode) (payload : Bytes) :
    Except KindOperationError Unit :=
  match fromSlice float payload with
  | none => .error .invalidEvent
  | some value =>
    match configuration.tool.validateInput value with
    | .error _ => .error .invalidEvent
    | .ok () => .ok ()

def mcpDeliveryKind (configuration : McpConfiguration) : DeliveryKind HttpRequest McpCompletion where
  name := "mcp"
  targetSummary := configuration.summary
  supportsCall := true
  permitsAutomaticRetry := configuration.automaticRetry
  maxPayloadBytes := configuration.maxPayloadBytes
  validatePayload := validateMcpPayload float configuration
  operation := fun mode _ payload =>
    match validateMcpPayload float configuration mode payload with
    | .error error => .error error
    | .ok () => .ok (mcpOperation float configuration mode payload)

end

/-! ## Routes over a kind -/

section

variable {Q A : Type}

/-- No route takes more than its kind can send. -/
def Supported (registry : RouteRegistry Q A) : Prop :=
  ∀ (id : RouteId) (entry : RouteEntry Q A), registry.routes[id]? = some entry →
    entry.route.payload.limit.value ≤ entry.route.kind.maxPayloadBytes

variable {registry : RouteRegistry Q A}

theorem Supported.insert (h : Supported registry) (id : RouteId) {route : Route Q A}
    (hroute : route.payload.limit.value ≤ route.kind.maxPayloadBytes) (everyone own : TokenBucket) :
    Supported { registry with
      globalAdmission := everyone, routes := registry.routes.insert id ⟨route, own⟩ } := by
  intro other found hfound
  by_cases hid : id = other
  · subst hid
    rw [BTreeMap.find_insert_self] at hfound
    cases hfound
    exact hroute
  · rw [BTreeMap.find_insert_ne _ _ hid] at hfound
    exact h other found hfound

theorem Supported.admitDelivery (h : Supported registry) (parse : Bytes → Option Json)
    (id : RouteId) (delivery : DeliveryId) (payload : Bytes) (mode : OperationMode) (now : Nat) :
    Supported (registry.admitDelivery parse id delivery payload mode now).2 := by
  rcases hentry : registry.routes[id]? with _ | entry
  · rw [RouteRegistry.admitDelivery_unregistered hentry]
    exact h
  rcases hcheck : RouteRegistry.checkRoute entry.route parse payload mode with error | valid
  · rw [RouteRegistry.admitDelivery_unchecked hentry hcheck]
    exact h
  rcases mode
  · rw [RouteRegistry.admitDelivery_emit hentry hcheck]
    -- whatever the buckets say, the route under `id` stays the one it was
    have hroute := h id entry hentry
    split_ifs
    · exact h.insert id hroute _ (entry.admission.refill now)
    · exact h.insert id hroute _ (entry.admission.refill now)
    · exact h.insert id hroute _ (entry.admission.refill now).take
  · rw [RouteRegistry.admitDelivery_call]
    exact h

variable {parse : Bytes → Option Json}

theorem Supported.step {ledger : BucketLedger Q A} (h : Supported ledger.registry)
    (command : RegistryCommand Q A) : Supported (ledger.step parse command).registry := by
  rcases command with route | ⟨id, enabled⟩ | id | ⟨id, delivery, payload, mode, now⟩
  · simp only [BucketLedger.step, RouteRegistry.register]
    split_ifs with hthere hfull hlimit
    · exact h
    · exact h
    · exact h
    · exact h.insert route.id (Nat.le_of_not_lt hlimit) _ _
  · simp only [BucketLedger.step, RouteRegistry.setEnabled]
    rcases hentry : ledger.registry.routes[id]? with _ | entry
    · exact h
    · let route : Route Q A := { entry.route with enabled := enabled }
      have hroute : route.payload.limit.value ≤ route.kind.maxPayloadBytes := h id entry hentry
      exact h.insert id hroute _ entry.admission
  · intro other entry hentry
    simp only [BucketLedger.step, RouteRegistry.unregister, BTreeMap.find_erase] at hentry
    split at hentry
    · cases hentry
    · exact h other entry hentry
  · have hregistry : (ledger.admission parse id delivery payload mode now).registry =
        (ledger.registry.admitDelivery parse id delivery payload mode now).2 := by
      unfold BucketLedger.admission
      dsimp only
      split
      · rfl
      · split
        · split <;> rfl
        · rfl
    show Supported (ledger.admission parse id delivery payload mode now).registry
    rw [hregistry]
    exact h.admitDelivery parse id delivery payload mode now

theorem supported_run (limit : RouteRegistryLimit) (globalAdmission : GlobalAdmissionLimit)
    (parse : Bytes → Option Json) (commands : List (RegistryCommand Q A)) :
    Supported (run (BucketLedger.step parse) (BucketLedger.new limit globalAdmission) commands).registry := by
  refine All.run (C := fun _ _ => True) (fun ledger : BucketLedger Q A => Supported ledger.registry)
    (fun s a h _ => h.step a) ?_ (All.always fun _ _ => trivial)
  intro id entry hentry
  simp [BucketLedger.new, RouteRegistry.new] at hentry

theorem checkRoute_ok {route : Route Q A} {payload valid : Bytes} {mode : OperationMode}
    (h : RouteRegistry.checkRoute route parse payload mode = .ok valid) :
    route.payload.validate parse payload = .ok payload ∧ valid = payload ∧
      route.kind.validatePayload mode payload = .ok () := by
  unfold RouteRegistry.checkRoute at h
  split_ifs at h
  rcases hvalid : route.payload.validate parse payload with error | bytes
  · simp only [hvalid] at h
    cases h
  · obtain ⟨rfl, -⟩ := validate_ok hvalid
    rcases hkind : route.kind.validatePayload mode bytes with error | done
    · simp only [hvalid, hkind] at h
      cases h
    · simp only [hvalid, hkind] at h
      cases h
      exact ⟨rfl, rfl, rfl⟩

/-- **What an admitted payload has passed**: its size is within what its kind takes, and its kind
    accepted it. -/
theorem admitted_payload {registry' : RouteRegistry Q A} (hsupported : Supported registry)
    {id : RouteId} {delivery : DeliveryId} {payload : Bytes} {mode : OperationMode} {now : Nat}
    {parts : AdmittedDeliveryParts Q A}
    (h : registry.admitDelivery parse id delivery payload mode now = (.ok parts, registry')) :
    parts.payload = payload ∧ payload.length ≤ parts.kind.maxPayloadBytes ∧
      parts.kind.validatePayload mode payload = .ok () := by
  rcases hentry : registry.routes[id]? with _ | entry
  · rw [RouteRegistry.admitDelivery_unregistered hentry] at h
    cases h
  rcases hcheck : RouteRegistry.checkRoute entry.route parse payload mode with error | valid
  · rw [RouteRegistry.admitDelivery_unchecked hentry hcheck] at h
    cases h
  obtain ⟨hvalid, rfl, hkind⟩ := checkRoute_ok hcheck
  have hparts : parts = RouteRegistry.admitted entry.route id delivery mode valid := by
    rcases mode
    · rw [RouteRegistry.admitDelivery_emit hentry hcheck] at h
      split_ifs at h <;> cases h
      rfl
    · rw [RouteRegistry.admitDelivery, hentry] at h
      simp only [hcheck] at h
      cases h
      rfl
  subst hparts
  exact ⟨rfl, (validate_ok hvalid).2.trans (hsupported id entry hentry), hkind⟩

end

/-! ## What fits -/

/-- What a bearer token adds to the headers: its name, `Bearer `, the token, and 4 bytes for each header. -/
def credentialBytes (authentication : McpAuthentication) (secrets : List ResolvedSecret) : Nat :=
  match authentication with
  | .none => 0
  | .bearer _ => (secrets.map fun secret => 24 + secret.current.bytes.length).sum

/-- The secrets fit the authentication. -/
def Usable (authentication : McpAuthentication) (secrets : List ResolvedSecret) : Prop :=
  match authentication with
  | .none => secrets = []
  | .bearer _ => ∃ secret value, secrets = [secret] ∧ bearerHeader secret = .ok value

theorem bearerHeader_ok {secret : ResolvedSecret} {value : Bytes} (h : bearerHeader secret = .ok value) :
    value = ascii "Bearer " ++ secret.current.bytes := by
  unfold bearerHeader at h
  dsimp only at h
  split_ifs at h
  unfold headerFromBytes at h
  split_ifs at h
  cases h
  rfl

theorem headerBytes_append (headers more : HeaderMap) :
    headerBytes (headers ++ more) = headerBytes headers + headerBytes more := by
  simp [headerBytes]

/-- A call has no credential of its own, so inserting one adds it at the end. -/
theorem insert_authorization (version : McpProtocolVersion) (name : Text) (value : Bytes) :
    (callHeaders version name).insert "authorization" value =
      callHeaders version name ++ [("authorization", value)] := by
  cases version <;>
    simp [HeaderMap.insert, callHeaders, McpProtocolVersion.isModern, protocolVersionHeader,
      methodHeader, nameHeader]

theorem length_callHeaders (version : McpProtocolVersion) (name : Text) :
    (callHeaders version name).length ≤ 5 := by
  cases version <;> simp [callHeaders, McpProtocolVersion.isModern]

theorem length_marked (text : Text) :
    ("=?base64?".toList ++ text ++ "?=".toList).length = 11 + text.length := by
  have hmarks : "=?base64?".toList.length = 9 ∧ "?=".toList.length = 2 := by decide
  rw [List.length_append, List.length_append, hmarks.1, hmarks.2, Nat.add_right_comm]

/-- A name is sent in Base64: four characters for three bytes, between two marks. -/
theorem length_encodedName (name : Text) :
    (encodeUtf8 (encodedName name)).length = 11 + 4 * (((encodeUtf8 name).length + 2) / 3) := by
  have hbytes : encodeUtf8 (encodedName name) = (encodedName name).map fun c => UInt8.ofNat c.toNat :=
    encodeUtf8_ascii fun c hc => (visible_encodedName hc).2.trans (by decide)
  have hmarked : (encodedName name).length = 11 + (Base64.standard.encode (encodeUtf8 name)).length :=
    length_marked _
  rw [hbytes, List.length_map, hmarked, Base64.standard.length_encode rfl]

/-- **How long the headers of a call are**, by the length of the tool's name. -/
theorem headerBytes_callHeaders (version : McpProtocolVersion) (name : Text) :
    headerBytes (callHeaders version name) =
      if version.isModern then 158 + 4 * (((encodeUtf8 name).length + 2) / 3) else 111 := by
  have hfixed : headerBytes [("content-type", ascii "application/json"),
      ("accept", ascii "application/json, text/event-stream"), (protocolVersionHeader, ascii "2026-07-28")] = 111 ∧
      headerBytes [(methodHeader, ascii callToolMethod)] = 24 := by decide
  have hname : utf8Len nameHeader.toList = 8 := by decide
  cases version with
  | v2026_07_28 =>
    show headerBytes (_ ++ ([(methodHeader, ascii callToolMethod)] ++ [(nameHeader, _)])) = 158 + _
    rw [headerBytes_append, headerBytes_append]
    show headerBytes [("content-type", ascii "application/json"),
      ("accept", ascii "application/json, text/event-stream"), (protocolVersionHeader, ascii "2026-07-28")] + _ = _
    rw [hfixed.1, hfixed.2]
    simp only [headerBytes, List.map_cons, List.map_nil, List.sum_cons, List.sum_nil, hname, length_encodedName]
    omega
  | v2025_11_25 => rfl

variable {secrets : List ResolvedSecret}

theorem headers_usable {authentication : McpAuthentication} (h : Usable authentication secrets)
    (version : McpProtocolVersion) (name : Text) :
    ∃ headers, authentication.headers secrets.head? (callHeaders version name) = .ok headers ∧
      headers.length ≤ 6 ∧ headerBytes headers =
        headerBytes (callHeaders version name) + credentialBytes authentication secrets := by
  have hfew := length_callHeaders version name
  rcases authentication with _ | reference
  · exact ⟨callHeaders version name, rfl, hfew.trans (by decide), rfl⟩
  obtain ⟨secret, value, rfl, hvalue⟩ := h
  have hlength : value.length = 7 + secret.current.bytes.length := by
    rw [bearerHeader_ok hvalue, List.length_append]
    rfl
  have hname : utf8Len "authorization".toList = 13 := rfl
  refine ⟨(callHeaders version name).insert "authorization" value, ?_, ?_, ?_⟩
  · show (bearerHeader secret >>= fun value =>
      pure ((callHeaders version name).insert "authorization" value)) = _
    rw [hvalue]
    rfl
  · rw [insert_authorization, List.length_append]
    exact Nat.succ_le_succ hfew
  · rw [insert_authorization, headerBytes_append]
    simp only [headerBytes, credentialBytes, List.map_cons, List.map_nil, List.sum_cons,
      List.sum_nil, hname, hlength]
    omega

theorem length_body (client : McpClient) (version : McpProtocolVersion) (tool : McpToolBinding)
    (arguments : Json) : (toVec (client.callBody 1 version tool.name arguments)).length =
      bodyOverhead client version tool + size arguments := by
  have hsize := client.size_callBody version tool.name arguments
  have hlong : 2 ≤ size (client.callBody 0 version tool.name (.object [])) := by
    rw [McpClient.callBody_eq, size_ofMembers (by simp) (by simp)]
    simp only [List.map_cons, List.sum_cons, entrySize]
    omega
  rw [bodyOverhead, length_toVec, length_toVec]
  omega

theorem size_string (value : Text) : size (.string value) = escapedLen value + 2 := by
  rw [size, tokens, weigh_cons, weigh_nil, byteLen_string, Nat.add_zero]

theorem size_modernMetadata (client : McpClient) : size (client.modernMetadata .v2026_07_28) =
    166 + escapedLen client.info.name.text + escapedLen client.info.version.text := by
  have hnames : escapedLen protocolVersionMeta.toList = 39 ∧ escapedLen clientInfoMeta.toList = 34 ∧
      escapedLen clientCapabilitiesMeta.toList = 42 ∧ escapedLen "name".toList = 4 ∧
      escapedLen "version".toList = 7 := by decide +kernel
  have hvalues : size (str McpProtocolVersion.v2026_07_28.asStr) = 12 ∧ size (.object []) = 2 := by decide +kernel
  have hnodup : [protocolVersionMeta, clientInfoMeta, clientCapabilitiesMeta].Nodup := by decide
  rw [McpClient.modernMetadata, size_ofMembers (by simp) (by exact hnodup)]
  simp only [List.map_cons, List.map_nil, List.sum_cons, List.sum_nil, entrySize, McpClientInfo.asJson]
  rw [size_ofMembers (by simp) (by simp)]
  simp only [List.map_cons, List.map_nil, List.sum_cons, List.sum_nil, entrySize, hnames, hvalues, size_string]
  omega

/-- The bytes of a call's body beside its arguments, by the lengths of the texts in it. -/
def envelopeBytes (client : McpClient) (version : McpProtocolVersion) (name : Text) : Nat :=
  escapedLen name + if version.isModern then
    255 + escapedLen client.info.name.text + escapedLen client.info.version.text else 80

theorem bodyOverhead_eq (client : McpClient) (version : McpProtocolVersion) (tool : McpToolBinding) :
    bodyOverhead client version tool = envelopeBytes client version tool.name := by
  have hnames : escapedLen "name".toList = 4 ∧ escapedLen "arguments".toList = 9 ∧
      escapedLen "_meta".toList = 5 ∧ escapedLen "jsonrpc".toList = 7 ∧ escapedLen "id".toList = 2 ∧
      escapedLen "method".toList = 6 ∧ escapedLen "params".toList = 6 := by decide +kernel
  have hvalues : size (str "2.0") = 5 ∧ size (ofNat (0 : UInt64).toNat) = 1 ∧
      size (str callToolMethod) = 12 ∧ size (.object []) = 2 := by decide +kernel
  have hparams : size (client.callParams version tool.name (.object [])) = escapedLen tool.name +
      if version.isModern then 201 + escapedLen client.info.name.text + escapedLen client.info.version.text
      else 26 := by
    cases version with
    | v2026_07_28 =>
      show size (ofMembers [("name", .string tool.name), ("arguments", .object []),
        ("_meta", client.modernMetadata .v2026_07_28)]) = _ + (201 + _ + _)
      rw [size_ofMembers (by simp) (by simp)]
      simp only [List.map_cons, List.map_nil, List.sum_cons, List.sum_nil, entrySize, hnames, hvalues,
        size_string, size_modernMetadata]
      omega
    | v2025_11_25 =>
      show size (ofMembers [("name", .string tool.name), ("arguments", .object [])]) = _ + 26
      rw [size_ofMembers (by simp) (by simp)]
      simp only [List.map_cons, List.map_nil, List.sum_cons, List.sum_nil, entrySize, hnames, hvalues,
        size_string]
      omega
  rw [bodyOverhead, length_toVec, McpClient.callBody_eq, size_ofMembers (by simp) (by simp), envelopeBytes]
  simp only [List.map_cons, List.map_nil, List.sum_cons, List.sum_nil, entrySize, hnames, hvalues, hparams]
  split_ifs <;> omega

variable {arguments : Json}

variable {float : List Char → Option (List Char)} {configuration : McpConfiguration}
  {payload : Bytes}

theorem validateMcpPayload_ok {mode : OperationMode}
    (h : validateMcpPayload float configuration mode payload = .ok ()) :
    ∃ arguments, fromSlice float payload = some arguments ∧ arguments.isObject = true := by
  unfold validateMcpPayload at h
  rcases hvalue : fromSlice float payload with _ | value
  · simp only [hvalue] at h
    cases h
  · refine ⟨value, rfl, ?_⟩
    rcases hinput : configuration.tool.validateInput value with error | done
    · simp only [hvalue, hinput] at h
      cases h
    · unfold McpToolBinding.validateInput at hinput
      split_ifs at hinput with hshape
      exact Bool.not_eq_false _ ▸ not_or.mp hshape |>.1

theorem composeCall_usable (hparsed : fromSlice float payload = some arguments)
    (hobject : arguments.isObject = true) (husable : Usable configuration.authentication secrets)
    (context : AttemptContext) :
    ∃ headers, headers.length ≤ 6 ∧
      headerBytes headers = headerBytes (callHeaders configuration.version configuration.tool.name) +
        credentialBytes configuration.authentication secrets ∧
      composeCall float configuration payload context secrets =
        match HttpRequest.new "POST" configuration.endpoint headers
            (toVec (configuration.client.callBody 1 configuration.version configuration.tool.name
              arguments)) context.deadline with
        | .error error => .error (classifyRequestError error)
        | .ok request => .ok (request, ⟨some 1, some configuration.version, .toolCall⟩) := by
  obtain ⟨headers, hcredential, hfew, hbytes⟩ :=
    headers_usable husable configuration.version configuration.tool.name
  have hcount : secrets.length =
      if configuration.authentication.secretReference.isSome then 1 else 0 := by
    rcases hauth : configuration.authentication with _ | reference
    · rw [hauth] at husable
      rw [show secrets = [] from husable]
      rfl
    · rw [hauth] at husable
      obtain ⟨secret, value, rfl, -⟩ := husable
      rfl
  refine ⟨headers, hfew, hbytes, ?_⟩
  unfold composeCall
  rw [if_neg (not_not.mpr hcount), hparsed]
  dsimp only
  rw [McpClient.callTool_eq _ _ _ configuration.tool.name_valid hobject]
  dsimp only
  rw [hcredential]

/-- The headers of a modern call leave room for the token: the name is sent in Base64. -/
def HeadersFit (configuration : McpConfiguration) (secrets : List ResolvedSecret) : Prop :=
  configuration.version.isModern = true → ∀ secret ∈ secrets,
    182 + 4 * (((encodeUtf8 configuration.tool.name).length + 2) / 3) + secret.current.bytes.length ≤
      maxHttpHeaderBytes

/-- The body has room for arguments that are printed in so many bytes. -/
def BodyFits (configuration : McpConfiguration) (printed : Nat) : Prop :=
  envelopeBytes configuration.client configuration.version configuration.tool.name + printed ≤
    maxHttpRequestBodyBytes

/-- A token of at most 1024 bytes always fits beside the headers of an older call. -/
theorem headersFit_iff (husable : Usable configuration.authentication secrets) :
    HeadersFit configuration secrets ↔ headerBytes (callHeaders configuration.version configuration.tool.name) +
      credentialBytes configuration.authentication secrets ≤ maxHttpHeaderBytes := by
  have hfit := configuration.headers_fit
  rw [HeadersFit]
  rcases hauth : configuration.authentication with _ | reference
  · rw [hauth] at husable
    rw [show secrets = [] from husable]
    exact ⟨fun _ => hfit, fun _ _ secret hsecret => absurd hsecret List.not_mem_nil⟩
  rw [hauth] at husable
  obtain ⟨secret, value, rfl, -⟩ := husable
  have hsecret := secret.current.bounded
  rw [headerBytes_callHeaders]
  simp only [credentialBytes, List.map_cons, List.map_nil, List.sum_cons, List.sum_nil, List.mem_singleton,
    forall_eq]
  cases configuration.version with
  | v2026_07_28 => simp only [McpProtocolVersion.isModern, if_true, forall_const]; omega
  | v2025_11_25 =>
    simp only [McpProtocolVersion.isModern, Bool.false_eq_true, if_false, false_imp_iff, true_iff]
    unfold maxHttpHeaderBytes
    unfold maxSecretBytes at hsecret
    omega

/-- **What is composed, and what is refused.** -/
theorem composeCall_fits (hparsed : fromSlice float payload = some arguments)
    (hobject : arguments.isObject = true) (husable : Usable configuration.authentication secrets)
    (context : AttemptContext) :
    (HeadersFit configuration secrets ∧ BodyFits configuration (size arguments) → ∃ request decoder,
      composeCall float configuration payload context secrets = .ok (request, decoder) ∧
        request.body.length ≤ maxHttpRequestBodyBytes ∧ headerBytes request.headers ≤ maxHttpHeaderBytes) ∧
    (¬ (HeadersFit configuration secrets ∧ BodyFits configuration (size arguments)) →
      composeCall float configuration payload context secrets = .error (classifyRequestError .requestTooLarge)) := by
  obtain ⟨headers, hfew, hbytes, hcompose⟩ := composeCall_usable hparsed hobject husable context
  have hlength := length_body configuration.client configuration.version configuration.tool arguments
  rw [bodyOverhead_eq] at hlength
  rw [HttpRequest.new, configuration.endpoint_http, if_neg (by simp), validateHeaders,
    if_neg (show ¬ maxHttpHeaders < headers.length by unfold maxHttpHeaders; omega)] at hcompose
  rw [headersFit_iff husable, BodyFits, ← hlength, ← hbytes]
  constructor
  · rintro ⟨hheaders, hbody⟩
    rw [if_neg (Nat.not_lt.mpr hbody), if_neg (Nat.not_lt.mpr hheaders)] at hcompose
    exact ⟨_, _, hcompose, hbody, hheaders⟩
  · intro hfits
    rw [hcompose]
    split_ifs with hbody hheaders
    · rfl
    · rfl
    · exact absurd ⟨Nat.not_lt.mp hheaders, Nat.not_lt.mp hbody⟩ hfits

/-- **When an admitted payload can be sent**: exactly if the name and the token of a modern call fit into the
    headers, and the payload as it is printed fits into the body.  The second is so if no number of the payload is
    printed longer than it was written. -/
theorem admitted_call_composed (float : List Char → Option (List Char)) (limit : RouteRegistryLimit)
    (globalAdmission : GlobalAdmissionLimit) (commands : List (RegistryCommand HttpRequest McpCompletion))
    (configuration : McpConfiguration) (id : RouteId) (delivery : DeliveryId) (payload : Bytes)
    (mode : OperationMode) (now : Nat) (parts : AdmittedDeliveryParts HttpRequest McpCompletion)
    (registry' : RouteRegistry HttpRequest McpCompletion)
    (hadmitted : (run (BucketLedger.step (document float)) (BucketLedger.new limit globalAdmission)
      commands).registry.admitDelivery (document float) id delivery payload mode now = (.ok parts, registry'))
    (hkind : parts.kind = mcpDeliveryKind float configuration)
    (context : AttemptContext) (secrets : List ResolvedSecret)
    (husable : Usable configuration.authentication secrets) : ∃ tree, document float payload = some tree ∧
      ((∃ request decoder,
          composeCall float configuration parts.payload context secrets = .ok (request, decoder) ∧
          request.body.length ≤ maxHttpRequestBodyBytes ∧ headerBytes request.headers ≤ maxHttpHeaderBytes) ↔
        HeadersFit configuration secrets ∧ BodyFits configuration (size (normal float tree))) ∧
      (NoLonger float tree → BodyFits configuration (size (normal float tree))) := by
  obtain ⟨hpayload, hsize, hvalid⟩ :=
    admitted_payload (supported_run limit globalAdmission (document float) commands) hadmitted
  rw [hkind] at hsize hvalid
  obtain ⟨arguments, hparsed, hobject⟩ :=
    validateMcpPayload_ok (show validateMcpPayload float configuration mode payload = .ok () from hvalid)
  obtain ⟨tree, htree, rfl⟩ := Option.map_eq_some_iff.mp hparsed
  refine ⟨tree, htree, ?_, fun hnumbers => ?_⟩
  · obtain ⟨hok, herror⟩ := composeCall_fits hparsed hobject husable context
    rw [hpayload]
    refine ⟨fun ⟨request, decoder, hcomposed, _⟩ => ?_, hok⟩
    by_contra hfits
    rw [herror hfits] at hcomposed
    cases hcomposed
  · -- the payload is within the budget, which leaves room for the envelope
    have hshort := (size_normal_le htree hnumbers).trans hsize
    have hbudget := configuration.budget_pos
    simp only [mcpDeliveryKind, McpConfiguration.maxPayloadBytes, payloadBudget, bodyOverhead_eq] at hshort
    simp only [payloadBudget, bodyOverhead_eq] at hbudget
    unfold BodyFits
    omega

/-! ## A tool whose name leaves no room -/

def permissive : JsonSchema := ⟨fun _ => true, fun _ => some fun _ => true⟩

def letters (n : Nat) : Text := List.replicate n 'a'

theorem toolName_letters {n : Nat} (h : 0 < n) : ToolName (letters n) := by
  obtain ⟨m, rfl⟩ := Nat.exists_eq_succ_of_ne_zero h.ne'
  have hfree : isWhitespace 'a' = false := by decide
  have hcontrol : isControl 'a' = false := by decide
  rintro (hempty | hany)
  · have hlast : letters (m + 1) = List.replicate m 'a' ++ ['a'] := List.replicate_succ'
    have hfirst : (letters (m + 1)).dropWhile isWhitespace = letters (m + 1) :=
      List.dropWhile_cons_of_neg (by simp [hfree])
    rw [trim, hfirst, hlast, List.rdropWhile_concat_neg _ _ _ (by simp [hfree])] at hempty
    simp at hempty
  · obtain ⟨c, hc, hbad⟩ := List.any_eq_true.mp hany
    rw [List.eq_of_mem_replicate hc, hcontrol] at hbad
    cases hbad

theorem encodeUtf8_letters (n : Nat) : (encodeUtf8 (letters n)).length = n := by
  rw [encodeUtf8_ascii fun c hc => by rw [List.eq_of_mem_replicate hc]; decide]
  simp [letters]

theorem headerBytes_letters (n : Nat) :
    headerBytes (callHeaders .v2026_07_28 (letters n)) = 158 + 4 * ((n + 2) / 3) := by
  rw [headerBytes_callHeaders, encodeUtf8_letters]
  rfl

theorem escapedLen_letters (n : Nat) : escapedLen (letters n) = n := by
  have hflat : (letters n).flatMap Json.escape = letters n := by
    have hsingle : ∀ c ∈ letters n, Json.escape c = [c] := fun c hc => by
      rw [List.eq_of_mem_replicate hc]
      decide
    rw [List.flatMap_congr hsingle, List.flatMap_singleton']
  rw [escapedLen, hflat, byteLen, encodeUtf8_letters]

/-- A client of the name `c`, version `1`. -/
def plainClient : McpClient := ⟨⟨⟨['c'], by decide⟩, ⟨['1'], by decide⟩⟩⟩

def plainTool (n : Nat) (h : 0 < n) : McpToolBinding :=
  ⟨letters n, .object [], fun _ => true, toolName_letters h⟩

theorem fromParts_letters (n : Nat) (h : 0 < n) :
    McpToolBinding.fromParts permissive (letters n) (.object []) (16 * 1024) = .ok (plainTool n h) := by
  unfold McpToolBinding.fromParts
  rw [dif_pos (toolName_letters h)]
  rfl

theorem bodyOverhead_letters (n : Nat) (h : 0 < n) :
    bodyOverhead plainClient .v2026_07_28 (plainTool n h) = 257 + n := by
  have hclient : escapedLen ['c'] = 1 ∧ escapedLen ['1'] = 1 := by decide
  rw [bodyOverhead_eq]
  show escapedLen (letters n) + (255 + escapedLen ['c'] + escapedLen ['1']) = _
  rw [escapedLen_letters, hclient.1, hclient.2]
  omega

def McpLimits.default : McpLimits := ⟨16 * 1024, 256 * 1024, by decide, by decide⟩

def plainEndpoint : NetworkEndpoint := ⟨.https, "example.com", "/mcp"⟩

theorem plain_http : plainEndpoint.isHttp = true := rfl

theorem plain_headers (n : Nat) (h : 0 < n) (hfit : n ≤ 12168) :
    headerBytes (callHeaders .v2026_07_28 (plainTool n h).name) ≤ maxHttpHeaderBytes := by
  rw [show (plainTool n h).name = letters n from rfl, headerBytes_letters, maxHttpHeaderBytes]
  omega

theorem plain_budget_ne (n : Nat) (h : 0 < n) (hfit : n ≤ 12168) :
    payloadBudget plainClient .v2026_07_28 (plainTool n h) ≠ 0 := by
  rw [payloadBudget, bodyOverhead_letters, maxEventPayloadBytes, maxHttpRequestBodyBytes]
  omega

def plainConfiguration (n : Nat) (h : 0 < n) (hfit : n ≤ 12168) : McpConfiguration where
  endpoint := plainEndpoint
  host := "example.com"
  port := 443
  authentication := .bearer "token".toList
  client := plainClient
  version := .v2026_07_28
  tool := plainTool n h
  limits := .default
  automaticRetry := false
  endpoint_http := plain_http
  headers_fit := plain_headers n h hfit
  budget_pos := plain_budget_ne n h hfit

theorem new_plain (n : Nat) (h : 0 < n) (hfit : n ≤ 12168) :
    McpConfiguration.new plainEndpoint "example.com" 443 (.bearer "token".toList) plainClient
      .v2026_07_28 (plainTool n h) .default = .ok (plainConfiguration n h hfit) := by
  rw [McpConfiguration.new, dif_pos plain_http, dif_pos (plain_headers n h hfit),
    dif_pos (plain_budget_ne n h hfit)]
  rfl

def plainRoute (float : List Char → Option (List Char)) (configuration : McpConfiguration) :
    Route HttpRequest McpCompletion where
  id := ⟨"mcp".toList, by decide⟩
  enabled := true
  payload := ⟨∅, ⟨1024, by decide⟩⟩
  timeout := ⟨nanosPerSecond, by decide⟩
  retry := .withoutRetries
  admission := ⟨1, 8, by decide, by decide⟩
  kind := mcpDeliveryKind float configuration

def braces : Bytes := [0x7B, 0x7D]

theorem plainRoute_admitted (float : List Char → Option (List Char)) (configuration : McpConfiguration)
    (hbudget : 1024 ≤ configuration.maxPayloadBytes)
    (haccepts : configuration.tool.validator (.object []) = true) (limit : RouteRegistryLimit)
    (globalAdmission : GlobalAdmissionLimit) (delivery : DeliveryId) :
    let route := plainRoute float configuration
    let registry := (run (BucketLedger.step (document float)) (BucketLedger.new limit globalAdmission)
      [.register route]).registry
    registry.admitDelivery (document float) route.id delivery braces .call 0 =
      (.ok (RouteRegistry.admitted route route.id delivery .call braces), registry) := by
  intro route registry
  let empty : RouteRegistry HttpRequest McpCompletion := .new limit globalAdmission
  have hregistered : empty.register route =
      (.ok (), { empty with routes := empty.routes.insert route.id ⟨route, .new 1 8⟩ }) := by
    have hlimit := limit.mem.1
    have hempty : (∅ : BTreeMap RouteId (RouteEntry HttpRequest McpCompletion)).size = 0 := rfl
    rw [RouteRegistry.register]
    simp only [empty, RouteRegistry.new, BTreeMap.find_empty, Option.isSome_none, Bool.false_eq_true, if_false,
      hempty]
    have hsupported : ¬ route.kind.maxPayloadBytes < route.payload.limit.value := Nat.not_lt.mpr hbudget
    rw [if_neg (by omega), if_neg hsupported]
    rfl
  have hroutes : registry.routes[route.id]? = some ⟨route, .new 1 8⟩ := by
    show (BucketLedger.step (document float) (BucketLedger.new limit globalAdmission)
      (.register route)).registry.routes[route.id]? = _
    unfold BucketLedger.step
    dsimp only
    rw [show (BucketLedger.new limit globalAdmission : BucketLedger HttpRequest McpCompletion).registry =
      empty from rfl, hregistered]
    exact BTreeMap.find_insert_self _ _ _
  have hinput : configuration.tool.validateInput (.object []) = .ok () := by
    unfold McpToolBinding.validateInput
    rw [haccepts]
    rfl
  have hkind : route.kind.validatePayload .call braces = .ok () := by
    show validateMcpPayload float configuration .call braces = .ok ()
    unfold validateMcpPayload
    rw [show fromSlice float braces = some (.object []) from rfl]
    dsimp only
    rw [hinput]
  have hcheck : RouteRegistry.checkRoute route (document float) braces .call = .ok braces := by
    unfold RouteRegistry.checkRoute
    rw [if_neg (by simp [route, plainRoute]), if_neg (by simp [route, plainRoute, mcpDeliveryKind]),
      show route.payload.validate (document float) braces = .ok braces from rfl]
    dsimp only
    rw [hkind]
  rw [RouteRegistry.admitDelivery, hroutes]
  dsimp only
  rw [hcheck]

theorem plain_budget (n : Nat) (h : 0 < n) (hfit : n ≤ 12168) :
    1024 ≤ (plainConfiguration n h hfit).maxPayloadBytes := by
  show 1024 ≤ payloadBudget plainClient .v2026_07_28 (plainTool n h)
  rw [payloadBudget, bodyOverhead_letters, maxEventPayloadBytes, maxHttpRequestBodyBytes]
  omega

/-- The bearer token `x`. -/
def plainSecret : ResolvedSecret := ⟨⟨[0x78], by decide, by decide⟩, none⟩

theorem bearerHeader_plain : bearerHeader plainSecret = .ok (ascii "Bearer x") := by decide

/-- A printer of numbers for documents without fractions. -/
def integersOnly : List Char → Option (List Char) := fun _ => none

/-- **A tool whose name leaves no room for the credential.**  The kind is accepted, the route registered and
    the payload admitted; the token is a valid one; and no attempt can be composed, because the headers
    are over the bound with the credential and were not without it. -/
theorem long_name_uncomposed : ∃ tool configuration parts registry',
      McpToolBinding.fromParts permissive (letters 12168) (.object []) (16 * 1024) = .ok tool ∧
      McpConfiguration.new plainEndpoint "example.com" 443 (.bearer "token".toList) plainClient
        .v2026_07_28 tool .default = .ok configuration ∧ (run (BucketLedger.step (document integersOnly))
        (BucketLedger.new ⟨1, by decide⟩ ⟨1, 64, by decide, by decide⟩)
        [.register (plainRoute integersOnly configuration)]).registry.admitDelivery
          (document integersOnly) (plainRoute integersOnly configuration).id
          ⟨"d".toList, by decide⟩ braces .call 0 = (.ok parts, registry') ∧
      parts.kind = mcpDeliveryKind integersOnly configuration ∧
      bearerHeader plainSecret = .ok (ascii "Bearer x") ∧
      composeCall integersOnly configuration parts.payload ⟨0, 0⟩ [plainSecret] = .error (.failed .internal) ∧
      headerBytes (callHeaders .v2026_07_28 tool.name) ≤ maxHttpHeaderBytes ∧
      maxHttpHeaderBytes < headerBytes ((callHeaders .v2026_07_28 tool.name).insert "authorization"
        (ascii "Bearer x")) := by
  have hpos : 0 < 12168 := by decide
  have hbearer := bearerHeader_plain
  let configuration := plainConfiguration 12168 hpos (Nat.le_refl _)
  have hover : maxHttpHeaderBytes < headerBytes (callHeaders .v2026_07_28 (letters 12168)) + 25 := by
    rw [headerBytes_letters]
    decide
  have husable : Usable configuration.authentication [plainSecret] := ⟨plainSecret, _, rfl, hbearer⟩
  have hparsed : fromSlice integersOnly braces = some (.object []) := rfl
  have hcompose : composeCall integersOnly configuration braces ⟨0, 0⟩ [plainSecret] =
      .error (classifyRequestError .requestTooLarge) :=
    (composeCall_fits hparsed rfl husable ⟨0, 0⟩).2 fun h => Nat.not_le.mpr hover ((headersFit_iff husable).mp h.1)
  refine ⟨plainTool 12168 hpos, configuration, _, _, fromParts_letters 12168 hpos,
    new_plain 12168 hpos (Nat.le_refl _),
    plainRoute_admitted integersOnly configuration (plain_budget 12168 hpos (Nat.le_refl _)) rfl _ _ _,
    rfl, hbearer, hcompose, configuration.headers_fit, ?_⟩
  rw [insert_authorization, headerBytes_append]
  exact hover

/-- A tool with a short name, the same token, and a call that is composed. -/
theorem short_name_composed : ∃ request decoder,
      composeCall integersOnly (plainConfiguration 1 (by decide) (by decide)) braces ⟨0, 0⟩
        [plainSecret] = .ok (request, decoder) ∧ request.body.length ≤ maxHttpRequestBodyBytes ∧
      headerBytes request.headers ≤ maxHttpHeaderBytes := by
  let configuration := plainConfiguration 1 (by decide) (by decide)
  obtain ⟨tree, htree, hiff, hbody⟩ := admitted_call_composed integersOnly ⟨1, by decide⟩
    ⟨1, 64, by decide, by decide⟩ [.register (plainRoute integersOnly configuration)] configuration _
    ⟨"d".toList, by decide⟩ braces .call 0 _ _
    (plainRoute_admitted integersOnly configuration (plain_budget 1 (by decide) (by decide)) rfl _ _ _)
    rfl ⟨0, 0⟩ [plainSecret] ⟨plainSecret, _, rfl, bearerHeader_plain⟩
  refine hiff.mpr ⟨fun _ secret hsecret => ?_, hbody ?_⟩
  · rw [List.mem_singleton.mp hsecret]
    show 182 + 4 * (((encodeUtf8 (letters 1)).length + 2) / 3) + 1 ≤ maxHttpHeaderBytes
    decide
  · cases htree
    intro text ht
    simp [tokens, memberTokens] at ht

end Bondry.Egress

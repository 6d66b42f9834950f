/-
  MCP DISCOVERY (`bondry-egress-mcp`, `discovery.rs`).

  A configuration-time state machine: `start` sends the modern discovery, every `resume` takes the completion of
  the request before it and either sends the next one or completes.  A peer that refuses the modern revision is
  initialized with the legacy one, acknowledged, and asked for its tools; otherwise it is asked at once.

  Every call replaces the state by `Complete` before it looks at anything, so whatever goes wrong ends there.
-/
import Bondry.Egress.Mcp
import Bondry.Lib.Except
import Bondry.Lib.Run
import Bondry.Mcp.Requests

namespace Bondry.Egress

open Encoding Json Mcp

/-! ## Types -/

structure McpDiscoveryLimits where
  tools : Nat
  schemaBytes : Nat
  tools_mem : 1 ≤ tools ∧ tools ≤ 256
  schema_mem : 1 ≤ schemaBytes ∧ schemaBytes ≤ 64 * 1024

inductive McpDiscoveryError where
  | invalidState
  | secretUnavailable
  | invalidRequest
  | endpointPolicy
  | deadlineExceeded
  | unavailable
  | responseTooLarge
  | unsupportedProtocol
  | unsupportedResponseMode
  | rejected
  | invalidResponse
  | toolLimitExceeded
  | invalidToolSchema
  deriving DecidableEq, Repr

structure McpDiscoveredTool where
  description : Option Text
  binding : McpToolBinding

structure McpDiscoveryResult where
  version : McpProtocolVersion
  tools : List McpDiscoveredTool

/-- What the discovery waits for. -/
inductive DiscoveryState where
  | ready
  | awaitingDiscovery (decoder : McpResponseDecoder)
  | awaitingInitialization (decoder : McpResponseDecoder)
  | awaitingAcknowledgement (version : McpProtocolVersion) (decoder : McpResponseDecoder)
  | awaitingTools (version : McpProtocolVersion) (decoder : McpResponseDecoder)
  | complete
  deriving DecidableEq

inductive McpDiscoveryTransition where
  | http (request : HttpRequest)
  | complete (result : Except McpDiscoveryError McpDiscoveryResult)

structure McpDiscoveryOperation where
  endpoint : NetworkEndpoint
  authentication : McpAuthentication
  client : McpClient
  limits : McpDiscoveryLimits
  deadline : Option Nat
  secrets : List ResolvedSecret
  nextRequestId : UInt64
  state : DiscoveryState

/-! ## Classification -/

def classifyBinding : McpToolBindingError → McpDiscoveryError
  | .invalidName => .invalidResponse
  | .schemaTooLarge | .invalidSchema => .invalidToolSchema

/-- `classify_client`. -/
def classifyDiscoveryClient : McpClientError → McpDiscoveryError
  | .unsupportedResponseMode => .unsupportedResponseMode
  | .unsupportedProtocolVersion | .methodNotFound => .unsupportedProtocol
  | .peerUnavailable => .unavailable
  | .unexpectedHttpStatus | .requestRejected | .remoteFailure => .rejected
  | .toolListTooLarge => .toolLimitExceeded
  | .invalidContentType | .invalidJson | .invalidEnvelope | .mismatchedResponseId => .invalidResponse

/-- `classify_transport`. -/
def classifyDiscoveryTransport : TransportError → McpDiscoveryError
  | .policy | .tlsFailed => .endpointPolicy
  | .deadlineExceeded => .deadlineExceeded
  | .connectionFailed => .unavailable
  | .responseTooLarge => .responseTooLarge
  | .invalidResponse => .invalidResponse
  | .requestTooLarge | .invalidLimits | .unsupportedEndpoint | .invalidMessage => .invalidRequest

/-- A listed tool with its compiled schema. -/
def compileTool (schemas : JsonSchema) (limits : McpDiscoveryLimits) (tool : McpTool) :
    Except McpDiscoveryError McpDiscoveredTool :=
  match McpToolBinding.fromParts schemas tool.name tool.inputSchema limits.schemaBytes with
  | .error error => .error (classifyBinding error)
  | .ok binding => .ok ⟨tool.description, binding⟩

def compileResult (schemas : JsonSchema) (version : McpProtocolVersion) (tools : List McpTool)
    (limits : McpDiscoveryLimits) : Except McpDiscoveryError McpDiscoveryResult := do
  let tools ← tools.mapM (compileTool schemas limits)
  pure ⟨version, tools⟩

/-! ## The machine -/

namespace McpDiscoveryOperation

def new (endpoint : NetworkEndpoint) (authentication : McpAuthentication) (client : McpClient)
    (limits : McpDiscoveryLimits) : Except McpConfigurationError McpDiscoveryOperation :=
  if endpoint.isHttp then .ok ⟨endpoint, authentication, client, limits, none, [], 1, .ready⟩
  else .error .unsupportedScheme

/-- The end: the secrets are dropped. -/
def finish (operation : McpDiscoveryOperation) (result : Except McpDiscoveryError McpDiscoveryResult) :
    McpDiscoveryOperation × McpDiscoveryTransition :=
  ({ operation with state := .complete, deadline := none, secrets := [] }, .complete result)

def nextId (operation : McpDiscoveryOperation) : UInt64 × McpDiscoveryOperation :=
  let next := if operation.nextRequestId.toNat + 1 < 2 ^ 64 then operation.nextRequestId + 1
    else operation.nextRequestId
  (operation.nextRequestId, { operation with nextRequestId := next })

def compose (operation : McpDiscoveryOperation) (request : McpClientRequest) :
    Except McpDiscoveryError (HttpRequest × McpResponseDecoder) :=
  match operation.authentication.headers operation.secrets.head? request.headers with
  | .error _ => .error .secretUnavailable
  | .ok headers =>
    match operation.deadline with
    | none => .error .invalidState
    | some deadline =>
      match HttpRequest.new "POST" operation.endpoint headers request.body deadline with
      | .error _ => .error .invalidRequest
      | .ok composed => .ok (composed, request.decoder)

/-- A message is composed and awaited, or the discovery ends. -/
def send (operation : McpDiscoveryOperation) (message : Except McpClientRequestError McpClientRequest)
    (awaiting : McpResponseDecoder → DiscoveryState) : McpDiscoveryOperation × McpDiscoveryTransition :=
  match message with
  | .error _ => operation.finish (.error .invalidRequest)
  | .ok message =>
    match operation.compose message with
    | .error error => operation.finish (.error error)
    | .ok (request, decoder) => ({ operation with state := awaiting decoder }, .http request)

def discover (operation : McpDiscoveryOperation) : McpDiscoveryOperation × McpDiscoveryTransition :=
  let (id, operation) := operation.nextId
  operation.send (operation.client.discover id) .awaitingDiscovery

/-- `McpDiscoveryOperation::initialize`. -/
def beginInitialization (operation : McpDiscoveryOperation) :
    McpDiscoveryOperation × McpDiscoveryTransition :=
  let (id, operation) := operation.nextId
  operation.send (operation.client.initializeRequest id) .awaitingInitialization

def listTools (operation : McpDiscoveryOperation) (version : McpProtocolVersion) :
    McpDiscoveryOperation × McpDiscoveryTransition :=
  let (id, operation) := operation.nextId
  operation.send (operation.client.listTools id version operation.limits.tools) (.awaitingTools version)

def acknowledgeInitialization (operation : McpDiscoveryOperation) (version : McpProtocolVersion) :
    McpDiscoveryOperation × McpDiscoveryTransition :=
  operation.send (McpClient.initialized version) (.awaitingAcknowledgement version)

def start (operation : McpDiscoveryOperation) (deadline : Nat) (secrets : List ResolvedSecret) :
    McpDiscoveryOperation × McpDiscoveryTransition :=
  if operation.state ≠ .ready then operation.finish (.error .invalidState)
  else
    let expected := if operation.authentication.secretReference.isSome then 1 else 0
    if secrets.length ≠ expected then operation.finish (.error .secretUnavailable)
    else { operation with deadline := some deadline, secrets := secrets }.discover

section

variable (float : List Char → Option (List Char)) (schemas : JsonSchema)

def resume (operation : McpDiscoveryOperation) (completion : McpCompletion) :
    McpDiscoveryOperation × McpDiscoveryTransition :=
  let state := operation.state
  let operation := { operation with state := .complete }
  match completion with
  | .error error => operation.finish (.error (classifyDiscoveryTransport error))
  | .ok response =>
    match state with
    | .awaitingDiscovery decoder =>
      match decoder.decode float response.status response.headers response.body with
      | .ok (.discovery version) => operation.listTools version
      | .error .unsupportedProtocolVersion | .error .methodNotFound => operation.beginInitialization
      | .ok _ => operation.finish (.error .invalidResponse)
      | .error error => operation.finish (.error (classifyDiscoveryClient error))
    | .awaitingInitialization decoder =>
      match decoder.decode float response.status response.headers response.body with
      | .ok (.initialized version) => operation.acknowledgeInitialization version
      | .ok _ => operation.finish (.error .invalidResponse)
      | .error error => operation.finish (.error (classifyDiscoveryClient error))
    | .awaitingAcknowledgement version decoder =>
      match decoder.decode float response.status response.headers response.body with
      | .ok .acknowledged => operation.listTools version
      | .ok _ => operation.finish (.error .invalidResponse)
      | .error error => operation.finish (.error (classifyDiscoveryClient error))
    | .awaitingTools version decoder =>
      match decoder.decode float response.status response.headers response.body with
      | .ok (.tools tools) => operation.finish (compileResult schemas version tools operation.limits)
      | .ok _ => operation.finish (.error .invalidResponse)
      | .error error => operation.finish (.error (classifyDiscoveryClient error))
    | .ready | .complete => operation.finish (.error .invalidState)

end

end McpDiscoveryOperation

/-! ## Sessions -/

inductive DiscoveryCall where
  | start (deadline : Nat) (secrets : List ResolvedSecret)
  | resume (completion : McpCompletion)

/-- The calls and what each has returned. -/
abbrev Transcript := List (DiscoveryCall × McpDiscoveryTransition)

section

variable (float : List Char → Option (List Char)) (schemas : JsonSchema)

def McpDiscoveryOperation.step (operation : McpDiscoveryOperation) :
    DiscoveryCall → McpDiscoveryOperation × McpDiscoveryTransition
  | .start deadline secrets => operation.start deadline secrets
  | .resume completion => operation.resume float schemas completion

/-- The calls of a host, in any order, and what came of them. -/
def McpDiscoveryOperation.session (operation : McpDiscoveryOperation) (calls : List DiscoveryCall) :
    McpDiscoveryOperation × Transcript :=
  calls.foldl (fun (reached : McpDiscoveryOperation × Transcript) call =>
    let (operation, transition) := reached.1.step float schemas call
    (operation, reached.2 ++ [(call, transition)])) (operation, [])

end

def Transcript.requests (transcript : Transcript) : List HttpRequest :=
  transcript.filterMap fun entry => match entry.2 with
    | .http request => some request
    | .complete _ => none

def requestMessage (float : List Char → Option (List Char)) (request : HttpRequest) : Option Json :=
  fromSlice float request.body

def requestId (float : List Char → Option (List Char)) (request : HttpRequest) : Option Nat :=
  ((requestMessage float request).bind fun message => message.get "id").bind asU64

def requestMethod (float : List Char → Option (List Char)) (request : HttpRequest) : Option Text :=
  ((requestMessage float request).bind fun message => message.get "method").bind Json.asStr

end Bondry.Egress

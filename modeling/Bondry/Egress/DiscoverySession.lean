/-
  SESSIONS OF MCP DISCOVERY.

  A call on a discovery operation ends it or sends one of four messages (`Change`, `step_change`).  So a session
  that has not ended is at one of six stages (`Stage`, `Live`): nothing was called, or the discovery was sent,
  and behind it the list of tools, or the initialization, its acknowledgement and the list of tools.  Whatever
  else is called, or answered, ends it, and behind the end every call is an error.

  `Tracks` is the invariant; what a session keeps to is read off it (`discovery_session_conforms`).
-/
import Bondry.Egress.McpDiscovery

namespace Bondry.Egress

open Encoding Json Mcp

/-! ## What a call can do -/

/-- A request carries a message: its body, its headers but for the credential, and the deadline. -/
structure Carries (deadline : Nat) (request : HttpRequest) (message : McpClientRequest) : Prop where
  body : request.body = message.body
  deadline_eq : request.deadline = deadline
  headers : ∀ name, name ≠ "authorization" → request.headers.getAll name = message.headers.getAll name

theorem getAll_insert_ne {headers : HeaderMap} {name other : String} (h : other ≠ name) (value : Bytes) :
    (headers.insert name value).getAll other = headers.getAll other := by
  simp only [HeaderMap.insert, HeaderMap.getAll, fieldValues, List.filter_append, List.filter_filter]
  have hfilter : ∀ header : String × Bytes,
      (decide (header.1 = other) && !decide (header.1 = name)) = decide (header.1 = other) := by
    intro header
    by_cases hheader : header.1 = other
    · simp [hheader, h]
    · simp [hheader]
  simp [hfilter, Ne.symm h]

theorem headers_getAll {authentication : McpAuthentication} {secret : Option ResolvedSecret}
    {headers composed : HeaderMap} (h : authentication.headers secret headers = .ok composed) {name : String}
    (hname : name ≠ "authorization") : composed.getAll name = headers.getAll name := by
  cases authentication with
  | none =>
    cases h
    rfl
  | bearer reference =>
    obtain ⟨found, -, h⟩ := bind_ok h
    obtain ⟨value, -, h⟩ := bind_ok h
    cases h
    exact getAll_insert_ne hname value

namespace McpDiscoveryOperation

variable {operation : McpDiscoveryOperation}

theorem compose_ok {message : McpClientRequest} {request : HttpRequest} {decoder : McpResponseDecoder}
    (h : operation.compose message = .ok (request, decoder)) :
    ∃ deadline, operation.deadline = some deadline ∧ Carries deadline request message ∧
      decoder = message.decoder := by
  revert h
  fun_cases compose operation message <;> intro h <;> cases h
  next headers hheaders deadline hdeadline hcomposed =>
    refine ⟨deadline, hdeadline, ?_, rfl⟩
    revert hcomposed
    fun_cases HttpRequest.new "POST" operation.endpoint headers message.body deadline <;> intro hcomposed <;>
      cases hcomposed
    exact ⟨rfl, rfl, fun name hname => headers_getAll hheaders hname⟩

theorem send_cases (message : Except McpClientRequestError McpClientRequest)
    (awaiting : McpResponseDecoder → DiscoveryState) :
    (∃ sent deadline request, message = .ok sent ∧ operation.deadline = some deadline ∧
        Carries deadline request sent ∧
        operation.send message awaiting = ({ operation with state := awaiting sent.decoder }, .http request)) ∨
      ∃ error, operation.send message awaiting = operation.finish (.error error) := by
  unfold send
  cases message with
  | error error => exact .inr ⟨_, rfl⟩
  | ok sent =>
    dsimp only
    rcases hcompose : operation.compose sent with error | ⟨request, decoder⟩
    · exact .inr ⟨_, rfl⟩
    · obtain ⟨deadline, hdeadline, hcarries, rfl⟩ := compose_ok hcompose
      exact .inl ⟨sent, deadline, request, rfl, hdeadline, hcarries, rfl⟩

end McpDiscoveryOperation

section

variable (float : List Char → Option (List Char)) (schemas : JsonSchema)

def decoded (decoder : McpResponseDecoder) (response : Response) : Except McpClientError McpClientResponse :=
  decoder.decode float response.status response.headers response.body

/-- The peer speaks another version, or does not know the method. -/
def Refuses (decoder : McpResponseDecoder) (response : Response) : Prop :=
  decoded float decoder response = .error .unsupportedProtocolVersion ∨
    decoded float decoder response = .error .methodNotFound

/-- Everything a call can do: end the discovery, or send one of the four messages. -/
inductive Change (operation : McpDiscoveryOperation) (call : DiscoveryCall) :
    McpDiscoveryOperation → McpDiscoveryTransition → Prop where
  | ended (ending : McpDiscoveryOperation) (result : Except McpDiscoveryError McpDiscoveryResult) :
      ending.client = operation.client → ending.limits = operation.limits → ending.state = .complete →
      ending.secrets = [] →
      (∀ found, result = .ok found → ∃ version decoder response tools,
        operation.state = .awaitingTools version decoder ∧ call = .resume (.ok response) ∧
        decoded float decoder response = .ok (.tools tools) ∧
        compileResult schemas version tools operation.limits = .ok found) →
      Change operation call ending (.complete result)
  | discovering (deadline : Nat) (secrets : List ResolvedSecret) (message : McpClientRequest)
      (request : HttpRequest) : operation.state = .ready → call = .start deadline secrets →
      operation.client.discover operation.nextRequestId = .ok message → Carries deadline request message →
      Change operation call
        { operation.nextId.2 with
          deadline := some deadline, secrets := secrets, state := .awaitingDiscovery message.decoder }
        (.http request)
  | initializing (decoder : McpResponseDecoder) (response : Response) (deadline : Nat)
      (message : McpClientRequest) (request : HttpRequest) :
      operation.state = .awaitingDiscovery decoder → call = .resume (.ok response) →
      Refuses float decoder response → operation.deadline = some deadline →
      operation.client.initializeRequest operation.nextRequestId = .ok message →
      Carries deadline request message →
      Change operation call { operation.nextId.2 with state := .awaitingInitialization message.decoder }
        (.http request)
  | acknowledging (decoder : McpResponseDecoder) (version : McpProtocolVersion) (response : Response)
      (deadline : Nat) (message : McpClientRequest) (request : HttpRequest) :
      operation.state = .awaitingInitialization decoder → call = .resume (.ok response) →
      decoded float decoder response = .ok (.initialized version) → operation.deadline = some deadline →
      McpClient.initialized version = .ok message → Carries deadline request message →
      Change operation call { operation with state := .awaitingAcknowledgement version message.decoder }
        (.http request)
  | listing (decoder : McpResponseDecoder) (version : McpProtocolVersion) (response : Response)
      (deadline : Nat) (message : McpClientRequest) (request : HttpRequest) :
      (operation.state = .awaitingDiscovery decoder ∧
          decoded float decoder response = .ok (.discovery version)) ∨
        (operation.state = .awaitingAcknowledgement version decoder ∧
          decoded float decoder response = .ok .acknowledged) →
      call = .resume (.ok response) → operation.deadline = some deadline →
      operation.client.listTools operation.nextRequestId version operation.limits.tools = .ok message →
      Carries deadline request message →
      Change operation call { operation.nextId.2 with state := .awaitingTools version message.decoder }
        (.http request)

variable {float schemas} {operation operation' : McpDiscoveryOperation} {call : DiscoveryCall}
  {transition : McpDiscoveryTransition}

variable (float schemas)

theorem change_finish (call : DiscoveryCall) {current : McpDiscoveryOperation} (error : McpDiscoveryError)
    (hclient : current.client = operation.client) (hlimits : current.limits = operation.limits) :
    Change float schemas operation call (current.finish (.error error)).1 (current.finish (.error error)).2 :=
  .ended _ _ hclient hlimits rfl rfl nofun

theorem change_send {call : DiscoveryCall} {current : McpDiscoveryOperation}
    {message : Except McpClientRequestError McpClientRequest} {awaiting : McpResponseDecoder → DiscoveryState}
    (hclient : current.client = operation.client) (hlimits : current.limits = operation.limits)
    (hsent : ∀ sent deadline request, message = .ok sent → current.deadline = some deadline →
      Carries deadline request sent →
      Change float schemas operation call { current with state := awaiting sent.decoder } (.http request)) :
    Change float schemas operation call (current.send message awaiting).1 (current.send message awaiting).2 := by
  rcases McpDiscoveryOperation.send_cases message awaiting with
    ⟨sent, deadline, request, hmessage, hdeadline, hcarries, hsend⟩ | ⟨error, hsend⟩
  · rw [hsend]
    exact hsent sent deadline request hmessage hdeadline hcarries
  · rw [hsend]
    exact change_finish float schemas call error hclient hlimits

theorem start_change (deadline : Nat) (secrets : List ResolvedSecret) :
    Change float schemas operation (.start deadline secrets) (operation.start deadline secrets).1
      (operation.start deadline secrets).2 := by
  unfold McpDiscoveryOperation.start
  by_cases hstate : operation.state = .ready
  · rw [if_neg (not_not.mpr hstate)]
    by_cases hsecrets : secrets.length = if operation.authentication.secretReference.isSome then 1 else 0
    · rw [if_neg (not_not.mpr hsecrets)]
      refine change_send float schemas rfl rfl fun sent deadline' request hsent hdeadline hcarries => ?_
      obtain rfl := Option.some.inj hdeadline
      exact .discovering deadline secrets sent request hstate rfl hsent hcarries
    · dsimp only
      rw [if_pos hsecrets]
      exact change_finish float schemas _ _ rfl rfl
  · rw [if_pos hstate]
    exact change_finish float schemas _ _ rfl rfl

theorem resume_change (completion : McpCompletion) :
    Change float schemas operation (.resume completion) (operation.resume float schemas completion).1
      (operation.resume float schemas completion).2 := by
  have hfailed : ∀ error, Change float schemas operation (.resume completion)
      (McpDiscoveryOperation.finish { operation with state := .complete } (.error error)).1
      (McpDiscoveryOperation.finish { operation with state := .complete } (.error error)).2 :=
    fun error => change_finish float schemas _ error rfl rfl
  unfold McpDiscoveryOperation.resume
  rcases completion with error | response
  · exact hfailed _
  dsimp only
  split
  · -- the answer to the discovery
    next decoder hstate =>
    have hinitialize (hrefuses : Refuses float decoder response) :
        Change float schemas operation (.resume (.ok response))
          (McpDiscoveryOperation.beginInitialization { operation with state := .complete }).1
          (McpDiscoveryOperation.beginInitialization { operation with state := .complete }).2 :=
      change_send float schemas rfl rfl fun sent deadline request hsent hdeadline hcarries =>
        .initializing decoder response deadline sent request hstate rfl hrefuses hdeadline hsent hcarries
    split
    · next version hdecode =>
      exact change_send float schemas rfl rfl fun sent deadline request hsent hdeadline hcarries =>
        .listing decoder version response deadline sent request (.inl ⟨hstate, hdecode⟩) rfl hdeadline hsent
          hcarries
    · next hdecode => exact hinitialize (.inl hdecode)
    · next hdecode => exact hinitialize (.inr hdecode)
    · exact hfailed _
    · exact hfailed _
  · -- the answer to the initialization
    next decoder hstate =>
    split
    · next version hdecode =>
      exact change_send float schemas rfl rfl fun sent deadline request hsent hdeadline hcarries =>
        .acknowledging decoder version response deadline sent request hstate rfl hdecode hdeadline hsent
          hcarries
    · exact hfailed _
    · exact hfailed _
  · -- the answer to the acknowledgement
    next version decoder hstate =>
    split
    · next hdecode =>
      exact change_send float schemas rfl rfl fun sent deadline request hsent hdeadline hcarries =>
        .listing decoder version response deadline sent request (.inr ⟨hstate, hdecode⟩) rfl hdeadline hsent
          hcarries
    · exact hfailed _
    · exact hfailed _
  · -- the list of tools
    next version decoder hstate =>
    split
    · next tools hdecode =>
      exact .ended _ _ rfl rfl rfl rfl fun found hfound =>
        ⟨version, decoder, response, tools, hstate, rfl, hdecode, hfound⟩
    · exact hfailed _
    · exact hfailed _
  · exact hfailed _
  · exact hfailed _

theorem step_change (operation : McpDiscoveryOperation) (call : DiscoveryCall) :
    Change float schemas operation call (operation.step float schemas call).1
      (operation.step float schemas call).2 := by
  cases call with
  | start deadline secrets => exact start_change float schemas deadline secrets
  | resume completion => exact resume_change float schemas completion

end

/-! ## What the messages say -/

section

variable (float : List Char → Option (List Char)) {client : McpClient} {deadline : Nat} {request : HttpRequest}
  {message : McpClientRequest} {id : UInt64}

theorem Carries.envelope {body : Json} {n : Nat} {method : String} (h : Carries deadline request message)
    (hbody : message.body = toVec body) (hwithin : IsWithin float n body) (hn : n ≤ 127)
    (hmethod : body.get "method" = some (str method)) : requestId float request = (body.get "id").bind asU64 ∧
      requestMethod float request = some method.toList := by
  have hmessage : requestMessage float request = some body := by
    rw [requestMessage, h.body, hbody]
    exact hwithin.fromSlice_toVec hn
  rw [requestId, requestMethod, hmessage, Option.bind_some, Option.bind_some, hmethod]
  exact ⟨rfl, rfl⟩

theorem asU64_id {value : Option Json} (h : value = some (ofNat id.toNat)) :
    value.bind asU64 = some id.toNat := by
  rw [h]
  exact asU64_ofNat id.toNat_lt

theorem Carries.discover (h : Carries deadline request (client.discoverMessage id)) :
    requestId float request = some id.toNat ∧ requestMethod float request = some discoverMethod.toList := by
  obtain ⟨hid, hmethod⟩ := McpClient.get_requestBody id discoverMethod _
  rw [← asU64_id hid]
  exact h.envelope float rfl (client.discoverBody_within id) (by decide) hmethod

theorem Carries.listTools {version : McpProtocolVersion} {maxTools : Nat}
    (h : Carries deadline request (client.listMessage id version maxTools)) :
    requestId float request = some id.toNat ∧ requestMethod float request = some listToolsMethod.toList ∧
      request.headers.getAll protocolVersionHeader = [ascii version.asStr] := by
  obtain ⟨hid, hmethod⟩ := McpClient.get_requestBody id listToolsMethod _
  obtain ⟨hsame, hlists⟩ := h.envelope float rfl (client.listBody_within id version) (by decide) hmethod
  refine ⟨hsame.trans (asU64_id hid), hlists, ?_⟩
  rw [h.headers protocolVersionHeader (by decide)]
  cases version <;> rfl

theorem Carries.initialization (h : Carries deadline request (client.initializeMessage id)) :
    requestId float request = some id.toNat ∧ requestMethod float request = some initializeMethod.toList := by
  obtain ⟨hid, hmethod⟩ := client.get_initializeBody id
  rw [← asU64_id hid]
  exact h.envelope float rfl (client.initializeBody_within id) (by decide) hmethod

theorem Carries.acknowledgement (h : Carries deadline request McpClient.initializedMessage) :
    requestId float request = none ∧ requestMethod float request = some initializedMethod.toList :=
  h.envelope float rfl McpClient.initializedBody_within (by decide) rfl

end

/-! ## What a session keeps to -/

/-- The message was sent, and this was the answer. -/
def Answered (transcript : Transcript) (message : McpClientRequest) (answer : Response) : Prop :=
  ∃ before call deadline asked transition behind,
    transcript = before ++ (call, .http asked) :: (.resume (.ok answer), transition) :: behind ∧
      Carries deadline asked message

section

variable (float : List Char → Option (List Char)) (client : McpClient) (limits : McpDiscoveryLimits)

/-- The version the peer has selected, in its answer to the discovery or to the initialization. -/
def Selected (transcript : Transcript) (version : McpProtocolVersion) : Prop :=
  (∃ message answer, client.discover 1 = .ok message ∧ Answered transcript message answer ∧
      decoded float message.decoder answer = .ok (.discovery version)) ∨
    ∃ message answer, client.initializeRequest 2 = .ok message ∧ Answered transcript message answer ∧
      decoded float message.decoder answer = .ok (.initialized version)

/-- The tools in an answer. -/
def PeerLists (answer : Response) (listed : List Json) : Prop :=
  ∃ id result, parse float answer.body = .ok (.response ⟨id, .result result⟩) ∧
    (result.get "tools").bind asArray = some listed

/-- The tool is as the peer has listed it. -/
structure Discovers (limits : McpDiscoveryLimits) (listed : Json) (tool : McpDiscoveredTool) : Prop where
  name : (listed.get "name").bind Json.asStr = some tool.binding.name
  description : listed.get "description" = tool.description.map Json.string
  schema : listed.get "inputSchema" = some tool.binding.schema
  schema_fits : (toVec tool.binding.schema).length ≤ limits.schemaBytes

/-- What an entry of a session keeps to, behind what came before it. -/
structure Conforms (before : Transcript) (entry : DiscoveryCall × McpDiscoveryTransition) : Prop where
  /-- The legacy revision is only tried on a peer that has refused the modern one. -/
  initializes : ∀ request, entry.2 = .http request →
    requestMethod float request = some initializeMethod.toList →
    ∃ message answer, client.discover 1 = .ok message ∧ Answered (before ++ [entry]) message answer ∧
      Refuses float message.decoder answer
  /-- Tools are listed with the version the peer has selected. -/
  lists : ∀ request, entry.2 = .http request →
    requestMethod float request = some listToolsMethod.toList →
    ∃ version, request.headers.getAll protocolVersionHeader = [ascii version.asStr] ∧
      Selected float client (before ++ [entry]) version
  /-- Behind the end there are only errors. -/
  ends : (∃ ended ∈ before, ∃ result, ended.2 = .complete result) →
    ∃ error, entry.2 = .complete (.error error)
  /-- A result has the tools of the peer, in its order, within the limits. -/
  returns : ∀ result, entry.2 = .complete (.ok result) →
    Selected float client (before ++ [entry]) result.version ∧
    result.tools.length ≤ limits.tools ∧
    (result.tools.map fun tool => tool.binding.name).Nodup ∧
    ∃ answer listed, entry.1 = .resume (.ok answer) ∧ PeerLists float answer listed ∧
      List.Forall₂ (Discovers limits) listed result.tools

variable {float client limits} {transcript : Transcript}

theorem Answered.append {message : McpClientRequest} {answer : Response} (h : Answered transcript message answer)
    (later : Transcript) : Answered (transcript ++ later) message answer := by
  obtain ⟨before, call, deadline, asked, transition, behind, rfl, hasked⟩ := h
  exact ⟨before, call, deadline, asked, transition, behind ++ later, by simp, hasked⟩

theorem Selected.append {version : McpProtocolVersion} (h : Selected float client transcript version)
    (later : Transcript) : Selected float client (transcript ++ later) version := by
  rcases h with ⟨message, answer, hmessage, hanswered, hversion⟩ | ⟨message, answer, hmessage, hanswered, hversion⟩
  · exact .inl ⟨message, answer, hmessage, hanswered.append later, hversion⟩
  · exact .inr ⟨message, answer, hmessage, hanswered.append later, hversion⟩

/-- The last entry of a session has sent a message. -/
def Asked (transcript : Transcript) (message : McpClientRequest) : Prop :=
  ∃ before call deadline asked, transcript = before ++ [(call, .http asked)] ∧ Carries deadline asked message

theorem Asked.answered {message : McpClientRequest} (h : Asked transcript message) (answer : Response)
    (transition : McpDiscoveryTransition) :
    Answered (transcript ++ [(.resume (.ok answer), transition)]) message answer := by
  obtain ⟨before, call, deadline, asked, rfl, hasked⟩ := h
  exact ⟨before, call, deadline, asked, transition, [], by simp, hasked⟩

theorem Conforms.sending {before : Transcript} {call : DiscoveryCall} {request : HttpRequest}
    {method : String} (hlive : ∀ earlier ∈ before, ∃ request, earlier.2 = .http request)
    (hmethod : requestMethod float request = some method.toList)
    (hinitializes : method = initializeMethod → ∃ message answer, client.discover 1 = .ok message ∧
      Answered (before ++ [(call, .http request)]) message answer ∧ Refuses float message.decoder answer)
    (hlists : method = listToolsMethod → ∃ version,
      request.headers.getAll protocolVersionHeader = [ascii version.asStr] ∧
      Selected float client (before ++ [(call, .http request)]) version) :
    Conforms float client limits before (call, .http request) where
  initializes sent hsent hsame := by
    cases hsent
    rw [hmethod] at hsame
    exact hinitializes (String.toList_injective (Option.some.inj hsame))
  lists sent hsent hsame := by
    cases hsent
    rw [hmethod] at hsame
    exact hlists (String.toList_injective (Option.some.inj hsame))
  ends := by
    rintro ⟨ended, hended, result, hresult⟩
    obtain ⟨sent, hsent⟩ := hlive ended hended
    rw [hsent] at hresult
    cases hresult
  returns := nofun

end

/-! ## The result -/

section

variable {float : List Char → Option (List Char)} {client : McpClient} {limits : McpDiscoveryLimits}
  {schemas : JsonSchema}

theorem fromParts_ok {name : Text} {schema : Json} {schemaBytes : Nat} {binding : McpToolBinding}
    (h : McpToolBinding.fromParts schemas name schema schemaBytes = .ok binding) :
    binding.name = name ∧ binding.schema = schema ∧ (toVec schema).length ≤ schemaBytes := by
  unfold McpToolBinding.fromParts at h
  split_ifs at h with hname hlong
  split at h
  · cases h
  · cases h
    exact ⟨rfl, rfl, not_lt.mp hlong⟩

theorem compileTool_ok {listed : Json} {tool : McpTool} {found : McpDiscoveredTool}
    (hdescribes : Describes listed tool) (h : compileTool schemas limits tool = .ok found) :
    Discovers limits listed found ∧ found.binding.name = tool.name := by
  unfold compileTool at h
  split at h
  · cases h
  next binding hbinding =>
  cases h
  obtain ⟨hname, hschema, hfits⟩ := fromParts_ok hbinding
  refine ⟨⟨?_, hdescribes.description, ?_, ?_⟩, hname⟩
  · rw [hdescribes.name, hname]
  · rw [hdescribes.schema, hschema]
  · rw [hschema]
    exact hfits

theorem compileTools_ok {listed : List Json} {tools : List McpTool} {found : List McpDiscoveredTool}
    (hdescribes : List.Forall₂ Describes listed tools)
    (h : List.Forall₂ (fun tool found => compileTool schemas limits tool = .ok found) tools found) :
    List.Forall₂ (Discovers limits) listed found ∧
      (found.map fun tool => tool.binding.name) = tools.map McpTool.name := by
  induction hdescribes generalizing found with
  | nil =>
    cases h
    exact ⟨.nil, rfl⟩
  | cons hfirst _ ih =>
    cases h with
    | cons hcompile hrest =>
      obtain ⟨hdiscovers, hname⟩ := compileTool_ok hfirst hcompile
      obtain ⟨hall, hnames⟩ := ih hrest
      exact ⟨.cons hdiscovers hall, by rw [List.map_cons, List.map_cons, hname, hnames]⟩

/-- **A result**: the tools of the peer's answer, in its order and within the limits. -/
theorem compileResult_ok {decoder : McpResponseDecoder} {response : Response} {version : McpProtocolVersion}
    {tools : List McpTool} {found : McpDiscoveryResult} (hshape : decoder.shape = .toolList limits.tools)
    (hdecode : decoded float decoder response = .ok (.tools tools))
    (h : compileResult schemas version tools limits = .ok found) :
    found.version = version ∧ found.tools.length ≤ limits.tools ∧
      (found.tools.map fun tool => tool.binding.name).Nodup ∧
      ∃ listed, PeerLists float response listed ∧ List.Forall₂ (Discovers limits) listed found.tools := by
  obtain ⟨id, result, hparse, htools⟩ := McpResponseDecoder.decode_tools hshape hdecode
  obtain ⟨listed, hlisted, hfew, hdescribes, hnames⟩ := parseToolList_ok htools
  obtain ⟨compiled, hcompiled, h⟩ := bind_ok h
  cases h
  obtain ⟨hdiscovers, hsame⟩ := compileTools_ok hdescribes (mapM_ok hcompiled)
  refine ⟨rfl, ?_, ?_, listed, ⟨id, result, hparse, hlisted⟩, hdiscovers⟩
  · rw [← hdiscovers.length_eq]
    exact hfew
  · rw [hsame]
    exact hnames

end

/-! ## Every session -/

/-- How many requests were sent at most. -/
def DiscoveryState.most : DiscoveryState → Nat
  | .ready => 0
  | .awaitingDiscovery _ => 1
  | .awaitingInitialization _ => 2
  | .awaitingAcknowledgement .. => 3
  | .awaitingTools .. | .complete => 4

section

variable (float : List Char → Option (List Char)) (client : McpClient) (limits : McpDiscoveryLimits)

/-- What a state says of the session that led to it, and of the next identifier. -/
def Stage (transcript : Transcript) (next : UInt64) : DiscoveryState → Prop
  | .ready => transcript = [] ∧ next = 1
  | .awaitingDiscovery decoder => next = 2 ∧ decoder = (client.discoverMessage 1).decoder ∧
      Asked transcript (client.discoverMessage 1)
  | .awaitingInitialization decoder => next = 3 ∧ decoder = (client.initializeMessage 2).decoder ∧
      Asked transcript (client.initializeMessage 2)
  | .awaitingAcknowledgement version _ => next = 3 ∧ Selected float client transcript version
  | .awaitingTools version decoder => Selected float client transcript version ∧
      decoder.shape = .toolList limits.tools
  | .complete => False

/-- A session that has not ended: every call has sent a request. -/
structure Live (operation : McpDiscoveryOperation) (transcript : Transcript) : Prop where
  stage : Stage float client limits transcript operation.nextRequestId operation.state
  sends : ∀ entry ∈ transcript, ∃ request, entry.2 = .http request
  few : transcript.requests.length ≤ operation.state.most
  below : ∀ id ∈ transcript.requests.filterMap (requestId float), id < operation.nextRequestId.toNat
  begun : ∀ deadline, operation.deadline = some deadline → ∃ secrets rest,
    transcript.map Prod.fst = .start deadline secrets :: rest

/-- A session so far: it goes on, or it has ended and holds no secret. -/
structure Tracks (operation : McpDiscoveryOperation) (transcript : Transcript) : Prop where
  client_eq : operation.client = client
  limits_eq : operation.limits = limits
  every : Every (Conforms float client limits) transcript
  few : transcript.requests.length ≤ 4
  ids : (transcript.requests.filterMap (requestId float)).Pairwise (· < ·)
  deadline : ∀ request ∈ transcript.requests, ∃ secrets rest,
    transcript.map Prod.fst = .start request.deadline secrets :: rest
  phase : Live float client limits operation transcript ∨
    (operation.state = .complete ∧ operation.secrets = [])

variable {float client limits} {schemas : JsonSchema} {operation operation' : McpDiscoveryOperation}
  {transcript : Transcript} {call : DiscoveryCall}

theorem Live.no_end (h : Live float client limits operation transcript) :
    ¬ ∃ entry ∈ transcript, ∃ result, entry.2 = .complete result := by
  rintro ⟨entry, hentry, result, hresult⟩
  obtain ⟨request, hrequest⟩ := h.sends entry hentry
  rw [hrequest] at hresult
  cases hresult

theorem requests_http (transcript : Transcript) (call : DiscoveryCall) (request : HttpRequest) :
    Transcript.requests (transcript ++ [(call, .http request)]) = transcript.requests ++ [request] :=
  List.filterMap_append

theorem requests_complete (transcript : Transcript) (call : DiscoveryCall)
    (result : Except McpDiscoveryError McpDiscoveryResult) :
    Transcript.requests (transcript ++ [(call, .complete result)]) = transcript.requests :=
  List.filterMap_append.trans (List.append_nil _)

theorem Tracks.ended {ending : McpDiscoveryOperation} {result : Except McpDiscoveryError McpDiscoveryResult}
    (h : Tracks float client limits operation transcript)
    (hclient : ending.client = operation.client) (hlimits : ending.limits = operation.limits)
    (hstate : ending.state = .complete) (hsecrets : ending.secrets = [])
    (hresult : ∀ found, result = .ok found → ∃ version decoder response tools,
      operation.state = .awaitingTools version decoder ∧ call = .resume (.ok response) ∧
      decoded float decoder response = .ok (.tools tools) ∧
      compileResult schemas version tools operation.limits = .ok found) :
    Tracks float client limits ending (transcript ++ [(call, .complete result)]) := by
  refine ⟨hclient.trans h.client_eq, hlimits.trans h.limits_eq, every_concat.mpr ⟨h.every, ?_⟩, ?_, ?_, ?_,
    .inr ⟨hstate, hsecrets⟩⟩
  · refine ⟨fun _ hsent => ?_, fun _ hsent => ?_, fun hended => ?_, fun found hfound => ?_⟩
    · cases hsent
    · cases hsent
    · cases result with
      | error error => exact ⟨error, rfl⟩
      | ok found =>
        obtain ⟨version, decoder, response, tools, htools, -⟩ := hresult found rfl
        rcases h.phase with hlive | ⟨hcomplete, -⟩
        · exact absurd hended hlive.no_end
        · rw [hcomplete] at htools
          cases htools
    · cases hfound
      obtain ⟨version, decoder, response, tools, htools, rfl, hdecode, hcompile⟩ := hresult found rfl
      rcases h.phase with hlive | ⟨hcomplete, -⟩
      · have hstage := hlive.stage
        rw [htools] at hstage
        rw [h.limits_eq] at hcompile
        obtain ⟨hselected, hshape⟩ := hstage
        obtain ⟨rfl, hfew, hnames, listed, hlisted, hdiscovers⟩ := compileResult_ok hshape hdecode hcompile
        exact ⟨hselected.append _, hfew, hnames, response, listed, rfl, hlisted, hdiscovers⟩
      · rw [hcomplete] at htools
        cases htools
  · rw [requests_complete]
    exact h.few
  · rw [requests_complete]
    exact h.ids
  · intro request hrequest
    rw [requests_complete] at hrequest
    obtain ⟨secrets, rest, hcalls⟩ := h.deadline request hrequest
    exact ⟨secrets, rest ++ [call], by rw [List.map_append, hcalls]; rfl⟩

theorem Tracks.live {state : DiscoveryState} (h : Tracks float client limits operation transcript)
    (hstate : operation.state = state) (hgoes : state ≠ .complete) :
    Live float client limits operation transcript ∧
      Stage float client limits transcript operation.nextRequestId state := by
  rcases h.phase with hlive | ⟨hcomplete, -⟩
  · have hstage := hlive.stage
    rw [hstate] at hstage
    exact ⟨hlive, hstage⟩
  · exact absurd (hstate.symm.trans hcomplete) hgoes

theorem Live.goes {deadline : Nat} {request : HttpRequest} {message : McpClientRequest}
    (h : Live float client limits operation transcript) (hdeadline : operation.deadline = some deadline)
    (hcarries : Carries deadline request message) :
    ∃ secrets rest, transcript.map Prod.fst ++ [call] = .start request.deadline secrets :: rest := by
  obtain ⟨secrets, rest, hcalls⟩ := h.begun deadline hdeadline
  exact ⟨secrets, rest ++ [call], by rw [hcalls, hcarries.deadline_eq]; rfl⟩

theorem nextId_eq {id : UInt64} (hid : operation.nextRequestId = id) (hsmall : id.toNat + 1 < 2 ^ 64) :
    operation.nextId.2.nextRequestId = id + 1 := by
  rw [McpDiscoveryOperation.nextId, hid]
  exact if_pos hsmall

/-- **A request** under the identifier that is due, or under none. -/
theorem Tracks.sent {request : HttpRequest} (h : Tracks float client limits operation transcript)
    (hlive : Live float client limits operation transcript)
    (hclient : operation'.client = operation.client) (hlimits : operation'.limits = operation.limits)
    (hmost : operation.state.most < operation'.state.most)
    (hnumber : (requestId float request = some operation.nextRequestId.toNat ∧
        operation'.nextRequestId.toNat = operation.nextRequestId.toNat + 1) ∨
      (requestId float request = none ∧ operation'.nextRequestId = operation.nextRequestId))
    (hdeadline : operation'.deadline = some request.deadline)
    (hbegun : ∃ secrets rest, (transcript.map Prod.fst) ++ [call] = .start request.deadline secrets :: rest)
    (hconforms : Conforms float client limits transcript (call, .http request))
    (hstage : Stage float client limits (transcript ++ [(call, .http request)]) operation'.nextRequestId
      operation'.state) : Tracks float client limits operation' (transcript ++ [(call, .http request)]) := by
  have hid : ∀ id, requestId float request = some id →
      operation.nextRequestId.toNat ≤ id ∧ id < operation'.nextRequestId.toNat := by
    intro id hid
    rcases hnumber with ⟨hsent, hnext⟩ | ⟨hsent, -⟩
    · obtain rfl := Option.some.inj (hsent.symm.trans hid)
      omega
    · rw [hsent] at hid
      cases hid
  have hnext : operation.nextRequestId.toNat ≤ operation'.nextRequestId.toNat := by
    rcases hnumber with ⟨-, hnext⟩ | ⟨-, hnext⟩
    · omega
    · rw [hnext]
  have hcalls : (transcript ++ [(call, McpDiscoveryTransition.http request)]).map Prod.fst =
      transcript.map Prod.fst ++ [call] := List.map_append
  have hlength : (transcript.requests ++ [request]).length ≤ operation'.state.most := by
    have := hlive.few
    rw [List.length_append, List.length_singleton]
    omega
  refine ⟨hclient.trans h.client_eq, hlimits.trans h.limits_eq, every_concat.mpr ⟨h.every, hconforms⟩, ?_, ?_, ?_,
    .inl ⟨hstage, ?_, ?_, ?_, ?_⟩⟩
  · rw [requests_http]
    refine hlength.trans ?_
    cases operation'.state <;> simp [DiscoveryState.most]
  · rw [requests_http, List.filterMap_append, List.pairwise_append]
    refine ⟨h.ids, List.pairwise_filterMap.mpr (List.pairwise_singleton _ _), fun earlier hearlier id hsent => ?_⟩
    obtain ⟨sent, hsent, hsame⟩ := List.mem_filterMap.mp hsent
    rw [List.mem_singleton.mp hsent] at hsame
    exact (hlive.below earlier hearlier).trans_le (hid id hsame).1
  · intro sent hsent
    rw [requests_http] at hsent
    rw [hcalls]
    rcases List.mem_append.mp hsent with hsent | hsent
    · obtain ⟨secrets, rest, hstart⟩ := h.deadline sent hsent
      exact ⟨secrets, rest ++ [call], by rw [hstart]; rfl⟩
    · rw [List.mem_singleton.mp hsent]
      exact hbegun
  · intro entry hentry
    rcases List.mem_append.mp hentry with hentry | hentry
    · exact hlive.sends entry hentry
    · rw [List.mem_singleton.mp hentry]
      exact ⟨request, rfl⟩
  · rw [requests_http]
    exact hlength
  · intro id hsent
    rw [requests_http, List.filterMap_append] at hsent
    rcases List.mem_append.mp hsent with hsent | hsent
    · exact (hlive.below id hsent).trans_le hnext
    · obtain ⟨sent, hsent, hsame⟩ := List.mem_filterMap.mp hsent
      rw [List.mem_singleton.mp hsent] at hsame
      exact (hid id hsame).2
  · intro deadline hbound
    obtain rfl := Option.some.inj (hdeadline.symm.trans hbound)
    rw [hcalls]
    exact hbegun

/-- **One call** keeps what a session keeps to. -/
theorem Tracks.step {transition : McpDiscoveryTransition} (h : Tracks float client limits operation transcript)
    (hchange : Change float schemas operation call operation' transition) :
    Tracks float client limits operation' (transcript ++ [(call, transition)]) := by
  cases hchange with
  | ended _ _ hclient hlimits hstate hsecrets hresult =>
    exact h.ended hclient hlimits hstate hsecrets hresult
  | discovering deadline secrets message request hstate hcall hmessage hcarries =>
    obtain ⟨hlive, rfl, hid⟩ := h.live hstate (by decide)
    have hnext : operation.nextId.2.nextRequestId = 2 := nextId_eq hid (by decide)
    rw [McpClient.discover_eq, hid, h.client_eq] at hmessage
    cases hmessage
    obtain ⟨hnumber, hmethod⟩ := hcarries.discover float
    refine h.sent hlive rfl rfl (by simp [hstate, DiscoveryState.most]) (.inl ⟨?_, ?_⟩) ?_ ?_ ?_ ?_
    · rw [hid]
      exact hnumber
    · simp only [hnext, hid]
      rfl
    · rw [hcarries.deadline_eq]
    · exact ⟨secrets, [], by rw [hcall, hcarries.deadline_eq]; rfl⟩
    · exact .sending hlive.sends hmethod (fun h => absurd h (by decide)) fun h => absurd h (by decide)
    · exact ⟨hnext, rfl, [], _, deadline, request, rfl, hcarries⟩
  | initializing decoder response deadline message request hstate hcall hrefuses hdeadline hmessage hcarries =>
    obtain ⟨hlive, hid, rfl, hasked⟩ := h.live hstate (by simp)
    have hnext : operation.nextId.2.nextRequestId = 3 := nextId_eq hid (by decide)
    rw [McpClient.initializeRequest_eq, hid, h.client_eq] at hmessage
    cases hmessage
    obtain ⟨hnumber, hmethod⟩ := hcarries.initialization float
    refine h.sent hlive rfl rfl (by simp [hstate, DiscoveryState.most]) (.inl ⟨?_, ?_⟩) ?_ ?_ ?_ ?_
    · rw [hid]
      exact hnumber
    · simp only [hnext, hid]
      rfl
    · rw [hcarries.deadline_eq]
      exact hdeadline
    · exact hlive.goes hdeadline hcarries
    · rw [hcall]
      refine .sending hlive.sends hmethod (fun _ => ?_) fun h => absurd h (by decide)
      exact ⟨_, response, client.discover_eq 1, hasked.answered response _, hrefuses⟩
    · exact ⟨hnext, rfl, transcript, _, deadline, request, rfl, hcarries⟩
  | acknowledging decoder version response deadline message request hstate hcall hdecode hdeadline hmessage
      hcarries =>
    obtain ⟨hlive, hid, rfl, hasked⟩ := h.live hstate (by simp)
    obtain ⟨-, rfl⟩ := McpClient.initialized_eq hmessage
    obtain ⟨hnumber, hmethod⟩ := hcarries.acknowledgement float
    refine h.sent hlive rfl rfl (by simp [hstate, DiscoveryState.most]) (.inr ⟨hnumber, rfl⟩) ?_ ?_ ?_ ?_
    · rw [hcarries.deadline_eq]
      exact hdeadline
    · exact hlive.goes hdeadline hcarries
    · exact .sending hlive.sends hmethod (fun h => absurd h (by decide)) fun h => absurd h (by decide)
    · rw [hcall]
      exact ⟨hid, .inr ⟨_, response, client.initializeRequest_eq 2, hasked.answered response _, hdecode⟩⟩
  | listing decoder version response deadline message request hselected hcall hdeadline hmessage hcarries =>
    obtain ⟨hlive, hmost, hsmall, hversion⟩ : Live float client limits operation transcript ∧
        operation.state.most < 4 ∧ operation.nextRequestId.toNat + 1 < 2 ^ 64 ∧
        Selected float client (transcript ++ [(call, .http request)]) version := by
      rw [hcall]
      rcases hselected with ⟨hstate, hdecode⟩ | ⟨hstate, hdecode⟩
      · obtain ⟨hlive, hid, rfl, hasked⟩ := h.live hstate (by simp)
        refine ⟨hlive, by simp [hstate, DiscoveryState.most], by rw [hid]; decide, .inl ?_⟩
        exact ⟨_, response, client.discover_eq 1, hasked.answered response _, hdecode⟩
      · obtain ⟨hlive, hid, hversion⟩ := h.live hstate (by simp)
        exact ⟨hlive, by simp [hstate, DiscoveryState.most], by rw [hid]; decide, hversion.append _⟩
    rw [McpClient.listTools_eq, h.client_eq, h.limits_eq] at hmessage
    cases hmessage
    obtain ⟨hnumber, hmethod, hheader⟩ := hcarries.listTools float
    refine h.sent hlive rfl rfl hmost (.inl ⟨hnumber, ?_⟩) ?_ ?_ ?_ ?_
    · have hnext : operation.nextId.2.nextRequestId = operation.nextRequestId + 1 := nextId_eq rfl hsmall
      simp only [hnext]
      rw [UInt64.toNat_add]
      exact Nat.mod_eq_of_lt hsmall
    · rw [hcarries.deadline_eq]
      exact hdeadline
    · exact hlive.goes hdeadline hcarries
    · exact .sending hlive.sends hmethod (fun h => absurd h (by decide)) fun _ => ⟨version, hheader, hversion⟩
    · exact ⟨hversion, rfl⟩

theorem session_concat (operation : McpDiscoveryOperation) (calls : List DiscoveryCall) (call : DiscoveryCall) :
    operation.session float schemas (calls ++ [call]) =
      (((operation.session float schemas calls).1.step float schemas call).1,
        (operation.session float schemas calls).2 ++
          [(call, ((operation.session float schemas calls).1.step float schemas call).2)]) := by
  simp only [McpDiscoveryOperation.session, List.foldl_append, List.foldl_cons, List.foldl_nil]

theorem session_tracks (h : Tracks float client limits operation []) (calls : List DiscoveryCall) :
    Tracks float client limits (operation.session float schemas calls).1
        (operation.session float schemas calls).2 ∧
      (operation.session float schemas calls).2.map Prod.fst = calls := by
  induction calls using List.reverseRecOn with
  | nil => exact ⟨h, rfl⟩
  | append_singleton calls call ih =>
    obtain ⟨htracks, hcalls⟩ := ih
    rw [session_concat]
    exact ⟨htracks.step (step_change float schemas _ call), by simp [hcalls]⟩

theorem new_tracks {endpoint : NetworkEndpoint} {authentication : McpAuthentication}
    (h : McpDiscoveryOperation.new endpoint authentication client limits = .ok operation) :
    Tracks float client limits operation [] := by
  unfold McpDiscoveryOperation.new at h
  split_ifs at h
  cases h
  refine ⟨rfl, rfl, every_nil, ?_, .nil, ?_, .inl ⟨⟨rfl, rfl⟩, ?_, ?_, ?_, ?_⟩⟩ <;> simp [Transcript.requests]

/-- **Discovery**: whatever is called in whatever order, and whatever the peer answers, a discovery sends at most
    four requests, under increasing identifiers and the deadline of `start`; every entry of the session keeps to
    the rules of the conversation; and behind a `Complete` no secret is held. -/
theorem discovery_session_conforms (endpoint : NetworkEndpoint) (authentication : McpAuthentication)
    (client : McpClient) (limits : McpDiscoveryLimits) {operation : McpDiscoveryOperation}
    (hnew : McpDiscoveryOperation.new endpoint authentication client limits = .ok operation)
    (float : List Char → Option (List Char)) (schemas : JsonSchema) (calls : List DiscoveryCall) :
    (operation.session float schemas calls).2.map Prod.fst = calls ∧
    (operation.session float schemas calls).2.requests.length ≤ 4 ∧
    ((operation.session float schemas calls).2.requests.filterMap (requestId float)).Pairwise (· < ·) ∧
    (∀ request ∈ (operation.session float schemas calls).2.requests, ∃ secrets rest,
      calls = .start request.deadline secrets :: rest) ∧
    Every (Conforms float client limits) (operation.session float schemas calls).2 ∧
    ((∃ entry ∈ (operation.session float schemas calls).2, ∃ result, entry.2 = .complete result) →
      (operation.session float schemas calls).1.secrets = []) := by
  have hready : Tracks float client limits operation [] := new_tracks hnew
  obtain ⟨htracks, hcalls⟩ := session_tracks hready calls
  have hdeadline := htracks.deadline
  rw [hcalls] at hdeadline
  refine ⟨hcalls, htracks.few, htracks.ids, hdeadline, htracks.every, fun hended => ?_⟩
  rcases htracks.phase with hlive | ⟨-, hsecrets⟩
  · exact absurd hended hlive.no_end
  · exact hsecrets

/-- Two requests, one of them to a peer without the modern revision; the second is not answered in time, and
    what comes behind is out of turn. -/
theorem refused_discovery_conforms :
    let limits : McpDiscoveryLimits := ⟨8, 1024, by decide, by decide⟩
    let refusal : Response := ⟨404, [("content-type", ascii "application/json")],
      ascii "\x7b\x22jsonrpc\x22:\x222.0\x22,\x22id\x22:1,\x22error\x22:\x7b\x22code\x22:-32601,\x22message\x22:\x22m\x22\x7d\x7d"⟩
    let calls : List DiscoveryCall :=
      [.start 7 [], .resume (.ok refusal), .resume (.error .deadlineExceeded), .start 9 []]
    ∃ operation, McpDiscoveryOperation.new plainEndpoint .none plainClient limits = .ok operation ∧
      (operation.session (fun _ => none) permissive calls).2.requests.length = 2 ∧
      Every (Conforms (fun _ => none) plainClient limits) (operation.session (fun _ => none) permissive calls).2 :=
  ⟨_, rfl, by decide +kernel,
    (discovery_session_conforms plainEndpoint .none plainClient _ rfl (fun _ => none) permissive _).2.2.2.2.1⟩

end

end Bondry.Egress

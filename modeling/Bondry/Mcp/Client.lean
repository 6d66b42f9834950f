/-
  THE MCP CLIENT (`bondry-mcp-proto`, `client.rs`).

  A request is its headers, its body and the decoder that its response has to pass.  The modern revision
  routes requests by headers (method and tool name) and carries metadata in the parameters; the legacy one
  has neither.

  A tool name goes into a header as base64 of its UTF-8, whatever it is made of, so every accepted name is
  a header value (`encodedNameHeader_eq`).
-/
import Bondry.Lib.Base64
import Bondry.Lib.Except
import Bondry.Mcp.Protocol

namespace Bondry.Mcp

open Egress Encoding Json

/-! ## Requests -/

inductive McpClientRequestError where
  | invalidInitializationVersion
  | invalidToolName
  | invalidArguments
  | encoding
  deriving DecidableEq, Repr

/-- The answer a request expects. -/
inductive ResponseShape where
  | discovery
  | initialization
  | toolList (maxTools : Nat)
  | toolCall
  | acknowledgement
  deriving DecidableEq, Repr

/-- Response validator bound to one request identifier and operation shape. -/
structure McpResponseDecoder where
  id : Option UInt64
  version : Option McpProtocolVersion
  shape : ResponseShape
  deriving DecidableEq

structure McpClientRequest where
  headers : HeaderMap
  body : Bytes
  decoder : McpResponseDecoder
  deriving DecidableEq

def encodedName (name : Text) : Text :=
  "=?base64?".toList ++ Base64.standard.encode (encodeUtf8 name) ++ "?=".toList

def encodedNameHeader (name : Text) : Except McpClientRequestError Bytes :=
  required .invalidToolName (headerFromStr (encodeUtf8 (encodedName name)))

/-- What the headers say about a message. -/
structure Routing where
  version : McpProtocolVersion
  method : String
  name : Option Text

def routingHeaders (routing : Routing) (headers : HeaderMap) : Except McpClientRequestError HeaderMap :=
  let headers := headers.insert protocolVersionHeader (ascii routing.version.asStr)
  if routing.version.isModern then
    let headers := headers.insert methodHeader (ascii routing.method)
    match routing.name with
    | none => .ok headers
    | some name =>
      match encodedNameHeader name with
      | .error error => .error error
      | .ok value => .ok (headers.insert nameHeader value)
  else .ok headers

def baseHeaders : HeaderMap :=
  (HeaderMap.insert [] "content-type" (ascii "application/json")).insert "accept"
    (ascii "application/json, text/event-stream")

def McpClientRequest.new (id : Option UInt64) (body : Json) (routing : Option Routing)
    (response : ResponseShape) : Except McpClientRequestError McpClientRequest :=
  let headers : Except McpClientRequestError HeaderMap := match routing with
    | none => .ok baseHeaders
    | some routing => routingHeaders routing baseHeaders
  match headers with
  | .error error => .error error
  | .ok headers => .ok ⟨headers, toVec body, ⟨id, routing.map Routing.version, response⟩⟩

structure McpClient where
  info : McpClientInfo

namespace McpClient

variable (client : McpClient)

def modernMetadata (version : McpProtocolVersion) : Json :=
  ofMembers [(protocolVersionMeta, str version.asStr), (clientInfoMeta, client.info.asJson),
    (clientCapabilitiesMeta, .object [])]

/-- The parameters of a request: the modern revision adds its metadata. -/
def withMetadata (params : Option Json) (version : Option McpProtocolVersion) :
    Except McpClientRequestError (Option Json) :=
  match version.filter McpProtocolVersion.isModern with
  | none => .ok params
  | some version =>
    let object := params.getD (.object [])
    if object.isObject then .ok (some (object.set "_meta" (client.modernMetadata version)))
    else .error .invalidArguments

def requestBody (id : UInt64) (method : String) (params : Option Json) : Json :=
  let body := ofMembers [("jsonrpc", str "2.0"), ("id", ofNat id.toNat), ("method", str method)]
  match params with
  | some params => body.set "params" params
  | none => body

def request (id : UInt64) (method : String) (params : Option Json)
    (version : Option McpProtocolVersion) (response : ResponseShape) :
    Except McpClientRequestError McpClientRequest :=
  match client.withMetadata params version with
  | .error error => .error error
  | .ok params =>
    let body := requestBody id method params
    let name : Except McpClientRequestError (Option Text) :=
      if method = callToolMethod then
        match (((body.get "params").bind fun params => params.get "name").bind Json.asStr) with
        | some name => .ok (some name)
        | none => .error .invalidToolName
      else .ok none
    match name with
    | .error error => .error error
    | .ok name =>
      McpClientRequest.new (some id) body (version.map fun version => ⟨version, method, name⟩) response

def discover (id : UInt64) : Except McpClientRequestError McpClientRequest :=
  client.request id discoverMethod (some (.object [])) (some .v2026_07_28) .discovery

def initializeBody (id : UInt64) : Json :=
  ofMembers [("jsonrpc", str "2.0"), ("id", ofNat id.toNat), ("method", str initializeMethod),
    ("params", ofMembers [("protocolVersion", str latestProtocolVersion),
      ("capabilities", .object []), ("clientInfo", client.info.asJson)])]

/-- `McpClient::initialize`. -/
def initializeRequest (id : UInt64) : Except McpClientRequestError McpClientRequest :=
  McpClientRequest.new (some id) (client.initializeBody id) none .initialization

def initializedBody : Json :=
  ofMembers [("jsonrpc", str "2.0"), ("method", str initializedMethod)]

def initialized (version : McpProtocolVersion) : Except McpClientRequestError McpClientRequest :=
  if version.isModern then .error .invalidInitializationVersion
  else McpClientRequest.new none initializedBody (some ⟨version, initializedMethod, none⟩)
    .acknowledgement

def listTools (id : UInt64) (version : McpProtocolVersion) (maxTools : Nat) :
    Except McpClientRequestError McpClientRequest :=
  client.request id listToolsMethod (if version.isModern then some (.object []) else none)
    (some version) (.toolList maxTools)

def callTool (id : UInt64) (version : McpProtocolVersion) (name : Text) (arguments : Json) :
    Except McpClientRequestError McpClientRequest :=
  if trim name = [] ∨ name.any isControl = true then .error .invalidToolName
  else if arguments.isObject = false then .error .invalidArguments
  else
    client.request id callToolMethod
      (some (ofMembers [("name", .string name), ("arguments", arguments)])) (some version) .toolCall

end McpClient

/-! ## Responses -/

structure McpTool where
  name : Text
  description : Option Text
  inputSchema : Json

inductive McpToolCallOutcome where
  | succeeded
  | failed
  deriving DecidableEq, Repr

structure McpToolCallResult where
  outcome : McpToolCallOutcome
  json : Bytes
  nestingDepth : Nat
  deriving DecidableEq

inductive McpClientResponse where
  | acknowledged
  | discovery (version : McpProtocolVersion)
  | initialized (version : McpProtocolVersion)
  | tools (tools : List McpTool)
  | toolCall (result : McpToolCallResult)

inductive McpClientError where
  | unsupportedResponseMode
  | invalidContentType
  | unexpectedHttpStatus
  | invalidJson
  | invalidEnvelope
  | mismatchedResponseId
  | unsupportedProtocolVersion
  | methodNotFound
  | requestRejected
  | peerUnavailable
  | remoteFailure
  | toolListTooLarge
  deriving DecidableEq, Repr

def validateContentType (headers : HeaderMap) : Except McpClientError Unit :=
  match headers.getAll "content-type" with
  | [value] =>
    match headerToStr value with
    | none => .error .invalidContentType
    | some value =>
      if eqIgnoreAsciiCase (mediaType value) "text/event-stream".toList then
        .error .unsupportedResponseMode
      else if eqIgnoreAsciiCase (mediaType value) "application/json".toList = false then
        .error .invalidContentType
      else .ok ()
  | _ => .error .invalidContentType

def classifyRemoteError (code : Int) : McpClientError :=
  if code = -32022 then .unsupportedProtocolVersion
  else if code = -32601 then .methodNotFound
  else if code = -32700 ∨ code = -32600 ∨ code = -32602 ∨ code = -32020 then .requestRejected
  else if code = -32603 then .peerUnavailable
  else .remoteFailure

def parseDiscovery (result : Json) : Except McpClientError McpProtocolVersion :=
  match (result.get "supportedVersions").bind asArray with
  | none => .error .invalidEnvelope
  | some versions =>
    let selected := supportedProtocolVersions.findSome? fun supported =>
      if versions.any fun version => version.asStr = some supported.toList then
        McpProtocolVersion.parse supported.toList
      else none
    match selected with
    | some version => .ok version
    | none => .error .unsupportedProtocolVersion

def parseInitialization (result : Json) : Except McpClientError McpProtocolVersion :=
  match ((result.get "protocolVersion").bind asStr).bind McpProtocolVersion.parse with
  | some version => .ok version
  | none => .error .unsupportedProtocolVersion

/-- One tool of `parse_tool_list`, behind the tools already parsed. -/
def parseTool (parsed : List McpTool) (tool : Json) : Except McpClientError McpTool :=
  if tool.isObject = false then .error .invalidEnvelope
  else match (tool.get "name").bind asStr with
    | none => .error .invalidEnvelope
    | some name =>
      if trim name = [] ∨ name.any isControl = true then .error .invalidEnvelope
      else if parsed.any fun other => other.name = name then .error .invalidEnvelope
      else
        let schema : Except McpClientError Json :=
          match tool.get "inputSchema" with
          | some schema => if schema.isObject then .ok schema else .error .invalidEnvelope
          | none => .error .invalidEnvelope
        match tool.get "description", schema with
        | some (.string description), .ok schema => .ok ⟨name, some description, schema⟩
        | some _, _ => .error .invalidEnvelope
        | none, .ok schema => .ok ⟨name, none, schema⟩
        | none, .error error => .error error

def parseTools (parsed : List McpTool) : List Json → Except McpClientError (List McpTool)
  | [] => .ok parsed
  | tool :: rest =>
    match parseTool parsed tool with
    | .error error => .error error
    | .ok tool => parseTools (parsed ++ [tool]) rest

def parseToolList (result : Json) (maxTools : Nat) : Except McpClientError (List McpTool) :=
  match (result.get "tools").bind asArray with
  | none => .error .invalidEnvelope
  | some tools => if maxTools < tools.length then .error .toolListTooLarge else parseTools [] tools

def parseToolCall (result : Json) : Except McpClientError McpToolCallResult :=
  if result.isObject = false then .error .invalidEnvelope
  else if ((result.get "content").bind asArray).isNone then .error .invalidEnvelope
  else match result.get "isError" with
    | some (.bool true) => .ok ⟨.failed, toVec result, depth result⟩
    | some (.bool false) | none => .ok ⟨.succeeded, toVec result, depth result⟩
    | some _ => .error .invalidEnvelope

namespace McpResponseDecoder

def decodeResult (decoder : McpResponseDecoder) (result : Json) : Except McpClientError McpClientResponse :=
  match decoder.shape with
  | .discovery => (parseDiscovery result).map .discovery
  | .initialization => (parseInitialization result).map .initialized
  | .toolList maxTools => (parseToolList result maxTools).map .tools
  | .toolCall => (parseToolCall result).map .toolCall
  | .acknowledgement => .error .invalidEnvelope

def isSuccess (status : Nat) : Bool := decide (200 ≤ status) && decide (status < 300)

/-- The part of `decode` behind the envelope. -/
def decodeResponse (decoder : McpResponseDecoder) (status : Nat) (response : RpcResponse) :
    Except McpClientError McpClientResponse :=
  if response.id.asU64 ≠ decoder.id.map UInt64.toNat then .error .mismatchedResponseId
  else match response.payload with
    | .error code => .error (classifyRemoteError code)
    | .result result =>
      if isSuccess status = false then .error .unexpectedHttpStatus
      else if decoder.version.any McpProtocolVersion.isModern = true ∧
          (result.get "resultType").bind asStr ≠ some "complete".toList then
        .error .unsupportedResponseMode
      else decoder.decodeResult result

/-- `McpResponseDecoder::decode`. -/
def decode (float : List Char → Option (List Char)) (decoder : McpResponseDecoder) (status : Nat)
    (headers : HeaderMap) (body : Bytes) : Except McpClientError McpClientResponse :=
  if decoder.shape = .acknowledgement then
    if status = 202 ∧ body = [] then .ok .acknowledged
    else if isSuccess status = false then .error .unexpectedHttpStatus
    else .error .invalidEnvelope
  else match validateContentType headers with
    | .error error => .error error
    | .ok () =>
      match parse float body with
      | .error error => .error (if error.code = 32700 then .invalidJson else .invalidEnvelope)
      | .ok (.response response) => decoder.decodeResponse status response
      | .ok _ => .error .invalidEnvelope

end McpResponseDecoder

/-! ## Every accepted name is a header value -/

/-- `0x20 ≤ c < 0x7F`, as a check that can be run over a list. -/
def isVisible (c : Char) : Bool := decide (0x20 ≤ c.toNat) && decide (c.toNat < 0x7F)

theorem isVisible_iff {c : Char} : isVisible c = true ↔ 0x20 ≤ c.toNat ∧ c.toNat < 0x7F := by
  simp [isVisible]

theorem standard_alphabet_visible : Base64.standard.alphabet.all isVisible = true := by
  show (Base64.alphanumeric.toList ++ ['+', '/']).all isVisible = true
  rfl

theorem visible_encodedName {name : Text} {c : Char} (h : c ∈ encodedName name) :
    0x20 ≤ c.toNat ∧ c.toNat < 0x7F := by
  have hmarks : ("=?base64?".toList ++ "?=".toList).all isVisible = true := rfl
  refine isVisible_iff.mp ?_
  rcases List.mem_append.mp h with h | h
  · rcases List.mem_append.mp h with h | h
    · exact List.all_eq_true.mp hmarks c (List.mem_append_left _ h)
    · rcases Base64.Engine.mem_encode h with h | ⟨-, rfl⟩
      · exact List.all_eq_true.mp standard_alphabet_visible c h
      · rfl
  · exact List.all_eq_true.mp hmarks c (List.mem_append_right _ h)

/-- **A tool name is a header value**, whatever characters it has. -/
theorem encodedNameHeader_eq (name : Text) :
    encodedNameHeader name = .ok (encodeUtf8 (encodedName name)) := by
  have hbytes : encodeUtf8 (encodedName name) = (encodedName name).map fun c => UInt8.ofNat c.toNat :=
    encodeUtf8_ascii fun c hc => (visible_encodedName hc).2.trans (by decide)
  unfold encodedNameHeader
  rw [headerFromStr_visible]
  · rfl
  · rw [hbytes]
    intro b hb
    obtain ⟨c, hc, rfl⟩ := List.mem_map.mp hb
    have hvisible := visible_encodedName hc
    have hnat : (UInt8.ofNat c.toNat).toNat = c.toNat := UInt8.toNat_ofNat_of_lt' (show c.toNat < 256 by omega)
    rw [UInt8.le_iff_toNat_le, UInt8.lt_iff_toNat_lt, hnat]
    exact hvisible

/-! ## The request of a call -/

/-- A name `call_tool` accepts. -/
def ToolName (name : Text) : Prop := ¬ (trim name = [] ∨ name.any isControl = true)

instance (name : Text) : Decidable (ToolName name) := inferInstanceAs (Decidable (¬ _))

def callHeaders (version : McpProtocolVersion) (name : Text) : HeaderMap :=
  [("content-type", ascii "application/json"), ("accept", ascii "application/json, text/event-stream"),
    (protocolVersionHeader, ascii version.asStr)] ++
    if version.isModern then
      [(methodHeader, ascii callToolMethod), (nameHeader, encodeUtf8 (encodedName name))]
    else []

namespace McpClient

def callParams (client : McpClient) (version : McpProtocolVersion) (name : Text) (arguments : Json) : Json :=
  let params := ofMembers [("name", .string name), ("arguments", arguments)]
  if version.isModern then params.set "_meta" (client.modernMetadata version) else params

def callBody (client : McpClient) (id : UInt64) (version : McpProtocolVersion) (name : Text)
    (arguments : Json) : Json :=
  requestBody id callToolMethod (some (client.callParams version name arguments))

theorem routingHeaders_call (version : McpProtocolVersion) (name : Text) :
    routingHeaders ⟨version, callToolMethod, some name⟩ baseHeaders = .ok (callHeaders version name) := by
  cases version <;>
    simp [routingHeaders, McpProtocolVersion.isModern, encodedNameHeader_eq, baseHeaders, callHeaders,
      HeaderMap.insert, protocolVersionHeader, methodHeader, nameHeader]

/-- **Every call is a request.** -/
theorem callTool_eq (client : McpClient) (id : UInt64) (version : McpProtocolVersion) {name : Text}
    {arguments : Json} (hname : ToolName name) (harguments : arguments.isObject = true) :
    client.callTool id version name arguments =
      .ok ⟨callHeaders version name, toVec (client.callBody id version name arguments),
        ⟨some id, some version, .toolCall⟩⟩ := by
  have hparams : client.withMetadata (some (ofMembers [("name", .string name), ("arguments", arguments)]))
      (some version) = .ok (some (client.callParams version name arguments)) := by
    cases version with
    | v2026_07_28 =>
      simp only [withMetadata, Option.filter_some, McpProtocolVersion.isModern, if_true,
        Option.getD_some, isObject_ofMembers, callParams]
    | v2025_11_25 => rfl
  have hbody : ((((client.callBody id version name arguments).get "params").bind fun params =>
      params.get "name").bind Json.asStr) = some name := by
    have hget : (client.callParams version name arguments).get "name" = some (.string name) := by
      cases version <;>
        simp [callParams, McpProtocolVersion.isModern, ofMembers, get_set, get_set_object]
    have hparams : (client.callBody id version name arguments).get "params" =
        some (client.callParams version name arguments) := by
      simp [callBody, requestBody, get_set, isObject_ofMembers]
    rw [hparams, Option.bind_some, hget]
    rfl
  unfold callTool
  rw [if_neg hname, harguments, if_neg (by simp), request, hparams]
  simp only [if_true]
  rw [show requestBody id callToolMethod (some (client.callParams version name arguments)) =
    client.callBody id version name arguments from rfl, hbody]
  simp only [Option.map_some, McpClientRequest.new, routingHeaders_call]

theorem size_callParams (client : McpClient) (version : McpProtocolVersion) (name : Text) (arguments : Json) :
    size (client.callParams version name arguments) + 2 =
      size (client.callParams version name (.object [])) + size arguments := by
  have hempty : size (.object []) = 2 := rfl
  cases version with
  | v2026_07_28 =>
    have hparams : ∀ value, client.callParams .v2026_07_28 name value =
        ofMembers [("name", .string name), ("arguments", value),
          ("_meta", client.modernMetadata .v2026_07_28)] := fun _ => rfl
    rw [hparams, hparams, size_ofMembers (by simp) (by simp), size_ofMembers (by simp) (by simp)]
    simp only [List.map_cons, List.map_nil, List.sum_cons, List.sum_nil, entrySize, hempty]
    omega
  | v2025_11_25 =>
    have hparams : ∀ value, client.callParams .v2025_11_25 name value =
        ofMembers [("name", .string name), ("arguments", value)] := fun _ => rfl
    rw [hparams, hparams, size_ofMembers (by simp) (by simp), size_ofMembers (by simp) (by simp)]
    simp only [List.map_cons, List.map_nil, List.sum_cons, List.sum_nil, entrySize, hempty]
    omega

theorem callBody_eq (client : McpClient) (id : UInt64) (version : McpProtocolVersion) (name : Text)
    (arguments : Json) : client.callBody id version name arguments =
      ofMembers [("jsonrpc", str "2.0"), ("id", ofNat id.toNat), ("method", str callToolMethod),
        ("params", client.callParams version name arguments)] := rfl

/-- **How long the body of a call is**: its arguments, and what the body of the probe takes beside the
    empty arguments. -/
theorem size_callBody (client : McpClient) (version : McpProtocolVersion) (name : Text) (arguments : Json) :
    size (client.callBody 1 version name arguments) + 2 =
      size (client.callBody 0 version name (.object [])) + size arguments := by
  have hparams := client.size_callParams version name arguments
  -- the two identifiers are one digit long
  have hid : size (ofNat (1 : UInt64).toNat) = size (ofNat (0 : UInt64).toNat) := rfl
  rw [callBody_eq, callBody_eq, size_ofMembers (by simp) (by simp), size_ofMembers (by simp) (by simp)]
  simp only [List.map_cons, List.map_nil, List.sum_cons, List.sum_nil, entrySize, hid]
  omega

end McpClient

/-! ## The tools of a response -/

/-- The tool is as it was listed. -/
structure Describes (listed : Json) (tool : McpTool) : Prop where
  name : (listed.get "name").bind asStr = some tool.name
  description : listed.get "description" = tool.description.map Json.string
  schema : listed.get "inputSchema" = some tool.inputSchema

theorem parseTool_ok {parsed : List McpTool} {listed : Json} {tool : McpTool}
    (h : parseTool parsed listed = .ok tool) :
    Describes listed tool ∧ tool.name ∉ parsed.map McpTool.name := by
  unfold parseTool at h
  split_ifs at h
  split at h
  · cases h
  next name hname =>
  split_ifs at h with hvalid hrepeated
  have hfresh : name ∉ parsed.map McpTool.name := by
    intro hmem
    obtain ⟨other, hother, rfl⟩ := List.mem_map.mp hmem
    exact hrepeated (List.any_eq_true.mpr ⟨other, hother, by simp⟩)
  -- without a schema that is an object no branch has a tool
  have hnone : ∀ error, (match listed.get "description", (Except.error error : Except McpClientError Json) with
      | some (.string description), .ok schema => .ok ⟨name, some description, schema⟩
      | some _, _ => .error .invalidEnvelope
      | none, .ok schema => .ok ⟨name, none, schema⟩
      | none, .error error => .error error) ≠ Except.ok tool := by
    intro error
    rcases listed.get "description" with _ | description
    · exact nofun
    · cases description <;> exact nofun
  rcases hschema : listed.get "inputSchema" with _ | schema
  · rw [hschema] at h
    exact absurd h (hnone _)
  rw [hschema] at h
  dsimp only at h
  by_cases hobject : schema.isObject = true
  · rw [if_pos hobject] at h
    rcases hdescription : listed.get "description" with _ | description
    · rw [hdescription] at h
      cases h
      exact ⟨⟨hname, hdescription, hschema⟩, hfresh⟩
    · rw [hdescription] at h
      cases description <;> cases h
      exact ⟨⟨hname, hdescription, hschema⟩, hfresh⟩
  · rw [if_neg hobject] at h
    exact absurd h (hnone _)

theorem parseTools_ok {listed : List Json} : ∀ {parsed tools : List McpTool},
    (parsed.map McpTool.name).Nodup → parseTools parsed listed = .ok tools →
    ∃ added, tools = parsed ++ added ∧ List.Forall₂ Describes listed added ∧
      (tools.map McpTool.name).Nodup := by
  induction listed with
  | nil =>
    intro parsed tools hdistinct h
    cases h
    exact ⟨[], by simp, .nil, hdistinct⟩
  | cons first rest ih =>
    intro parsed tools hdistinct h
    unfold parseTools at h
    split at h
    · cases h
    next tool htool =>
    obtain ⟨hdescribes, hfresh⟩ := parseTool_ok htool
    have hnext : ((parsed ++ [tool]).map McpTool.name).Nodup := by
      rw [List.map_append, List.nodup_append]
      refine ⟨hdistinct, by simp, ?_⟩
      rintro taken htaken name hname rfl
      obtain rfl := List.mem_singleton.mp hname
      exact hfresh htaken
    obtain ⟨added, rfl, hadded, hnames⟩ := ih hnext h
    exact ⟨tool :: added, by simp, .cons hdescribes hadded, hnames⟩

/-- **A list of tools** is what the peer listed, in its order, under distinct names. -/
theorem parseToolList_ok {result : Json} {maxTools : Nat} {tools : List McpTool}
    (h : parseToolList result maxTools = .ok tools) :
    ∃ listed, (result.get "tools").bind asArray = some listed ∧ listed.length ≤ maxTools ∧
      List.Forall₂ Describes listed tools ∧ (tools.map McpTool.name).Nodup := by
  unfold parseToolList at h
  split at h
  · cases h
  next listed hlisted =>
  split_ifs at h with hmany
  obtain ⟨added, rfl, hadded, hnames⟩ := parseTools_ok (by simp) h
  exact ⟨listed, hlisted, not_lt.mp hmany, hadded, hnames⟩

theorem McpResponseDecoder.decode_tools {float : List Char → Option (List Char)}
    {decoder : McpResponseDecoder} {status maxTools : Nat} {headers : HeaderMap} {body : Bytes}
    {tools : List McpTool} (hshape : decoder.shape = .toolList maxTools)
    (h : decoder.decode float status headers body = .ok (.tools tools)) :
    ∃ id result, parse float body = .ok (.response ⟨id, .result result⟩) ∧
      parseToolList result maxTools = .ok tools := by
  unfold decode at h
  rw [hshape, if_neg nofun] at h
  split at h
  · cases h
  split at h
  · cases h
  · next response hparse =>
    obtain ⟨id, payload⟩ := response
    rcases payload with result | code
    · unfold decodeResponse at h
      dsimp only at h
      split_ifs at h
      unfold decodeResult at h
      rw [hshape] at h
      obtain ⟨parsed, hparsed, htools⟩ := map_eq_ok.mp h
      cases htools
      exact ⟨id, result, hparse, hparsed⟩
    · unfold decodeResponse at h
      split_ifs at h
  · cases h

end Bondry.Mcp

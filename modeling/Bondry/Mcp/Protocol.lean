/-
  THE MESSAGES OF MCP (`bondry-mcp-proto`: `version.rs`, `client_info.rs`, `server_info.rs`,
  `protocol.rs`).

  Two protocol revisions, the metadata both sides identify themselves with, and the JSON-RPC envelope:
  what a body is parsed as, and the responses an adapter makes.

  `serde_json` is `Lib/Json`; what becomes of a number that is no 64-bit integer is outside, and is the
  parameter `float` of whatever reads a body.
-/
import Bondry.Egress.Webhook
import Bondry.Lib.JsonValue

namespace Bondry.Mcp

open Egress Encoding Json

/-! ## Revisions -/

inductive McpProtocolVersion where
  | v2026_07_28
  | v2025_11_25
  deriving DecidableEq, Repr

def latestProtocolVersion : String := "2026-07-28"

def supportedProtocolVersions : List String := [latestProtocolVersion, "2025-11-25"]

namespace McpProtocolVersion

def parse (value : Text) : Option McpProtocolVersion :=
  if value = latestProtocolVersion.toList then some .v2026_07_28
  else if value = "2025-11-25".toList then some .v2025_11_25
  else none

def asStr : McpProtocolVersion → String
  | .v2026_07_28 => latestProtocolVersion
  | .v2025_11_25 => "2025-11-25"

def isModern : McpProtocolVersion → Bool
  | .v2026_07_28 => true
  | .v2025_11_25 => false

end McpProtocolVersion

/-! ## Implementation metadata -/

def isControl (c : Char) : Bool := decide (c.toNat < 0x20) || (decide (0x7F ≤ c.toNat) && decide (c.toNat ≤ 0x9F))

inductive McpInfoError where
  | empty
  | tooLong
  | controlCharacter
  deriving DecidableEq, Repr

def maxNameLength : Nat := 128

def maxVersionLength : Nat := 64

/-- `validate`. -/
def validateInfo (value : Text) (maximum : Nat) : Except McpInfoError Text :=
  if trim value = [] then .error .empty
  else if maximum < utf8Len value then .error .tooLong
  else if value.any isControl then .error .controlCharacter
  else .ok value

/-- Metadata that `validate` has passed. -/
structure InfoText (maximum : Nat) where
  text : Text
  valid : validateInfo text maximum = .ok text

structure McpClientInfo where
  name : InfoText maxNameLength
  version : InfoText maxVersionLength

def McpClientInfo.asJson (info : McpClientInfo) : Json :=
  ofMembers [("name", .string info.name.text), ("version", .string info.version.text)]

/-! ## Names -/

def callToolMethod : String := "tools/call"
def discoverMethod : String := "server/discover"
def initializeMethod : String := "initialize"
def initializedMethod : String := "notifications/initialized"
def listToolsMethod : String := "tools/list"

def clientCapabilitiesMeta : String := "io.modelcontextprotocol/clientCapabilities"
def clientInfoMeta : String := "io.modelcontextprotocol/clientInfo"
def protocolVersionMeta : String := "io.modelcontextprotocol/protocolVersion"
def methodHeader : String := "mcp-method"
def nameHeader : String := "mcp-name"
def protocolVersionHeader : String := "mcp-protocol-version"

/-! ## Messages -/

structure RpcRequest where
  id : Json
  method : Text
  params : Option Json

structure RpcNotification where
  params : Option Json

inductive RpcResponsePayload where
  | result (value : Json)
  | error (code : Int)

structure RpcResponse where
  id : Json
  payload : RpcResponsePayload

inductive Message where
  | request (request : RpcRequest)
  | notification (notification : RpcNotification)
  | response (response : RpcResponse)

/-- A body that is no message; error codes are negative, so `code` is the magnitude. -/
structure ProtocolError where
  code : Nat
  message : String
  deriving DecidableEq

def invalidRequest : ProtocolError := ⟨32600, "Invalid Request"⟩

def validId : Json → Bool
  | .string _ => true
  | id => id.asI64.isSome || id.asU64.isSome

def parseResponse (object : Json) : Except ProtocolError RpcResponse :=
  match object.get "id" with
  | none => .error invalidRequest
  | some id =>
    if validId id = false then .error invalidRequest
    else match object.get "result", object.get "error" with
      | some result, none => .ok ⟨id, .result result⟩
      | none, some error =>
        if error.isObject = false then .error invalidRequest
        else match (error.get "code").bind asI64, (error.get "message").bind asStr with
          | some code, some _ => .ok ⟨id, .error code⟩
          | _, _ => .error invalidRequest
      | _, _ => .error invalidRequest

/-- `parse`, from the value in the body on. -/
def parseValue (value : Json) : Except ProtocolError Message :=
  if value.isObject = false then .error invalidRequest
  else if (value.get "jsonrpc").bind asStr ≠ some "2.0".toList then .error invalidRequest
  else match value.get "method" with
    | some method =>
      match method.asStr with
      | none => .error invalidRequest
      | some method =>
        match value.get "id", value.get "params" with
        | some id, params =>
          if validId id then .ok (.request ⟨id, method, params⟩) else .error invalidRequest
        | none, none => .ok (.notification ⟨none⟩)
        | none, some params =>
          if params.isObject then .ok (.notification ⟨some params⟩) else .error invalidRequest
    | none => (parseResponse value).map .response

def parse (float : List Char → Option (List Char)) (body : Bytes) : Except ProtocolError Message :=
  match Json.fromSlice float body with
  | none => .error ⟨32700, "Parse error"⟩
  | some value => parseValue value

/-! ## Responses -/

/-- `Response<Bytes>`. -/
structure Response where
  status : Nat
  headers : HeaderMap
  body : Bytes

/-! ## Header values -/

/-- `HeaderValue::to_str`: visible ASCII and tabs. -/
def headerToStr (value : Bytes) : Option Text :=
  if value.all fun b => (decide (0x20 ≤ b) && decide (b < 0x7F)) || b == 0x09 then
    some (value.map fun b => Char.ofNat b.toNat)
  else none

def mediaType (value : Text) : Text := trim (value.takeWhile (· ≠ ';'))

end Bondry.Mcp

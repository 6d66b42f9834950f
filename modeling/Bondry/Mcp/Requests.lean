/-
  THE REQUESTS OF THE MCP CLIENT, one by one (`bondry-mcp-proto`, `client.rs`).

  What each builder of `McpClient` puts into headers and body, as a value that can be computed with: the two
  sides of the protocol meet in these (`discover_eq`, `initializeRequest_eq`, `initialized_eq`, `listTools_eq`; a
  call is `callTool_eq`).  The bodies are values that nest a few levels, so they are read back as they are
  (`fromSlice_body`).
-/
import Bondry.Mcp.Client

namespace Bondry.Mcp

open Egress Encoding Json

/-! ## Headers -/

def routedHeaders (version : McpProtocolVersion) (method : String) : HeaderMap :=
  [("content-type", ascii "application/json"), ("accept", ascii "application/json, text/event-stream"),
    (protocolVersionHeader, ascii version.asStr)] ++
    if version.isModern then [(methodHeader, ascii method)] else []

theorem routingHeaders_method (version : McpProtocolVersion) (method : String) :
    routingHeaders ⟨version, method, none⟩ baseHeaders = .ok (routedHeaders version method) := by
  cases version <;>
    simp [routingHeaders, McpProtocolVersion.isModern, baseHeaders, routedHeaders, HeaderMap.insert,
      protocolVersionHeader, methodHeader]

/-! ## Bodies -/

namespace McpClient

variable (client : McpClient)

def metadataParams (version : McpProtocolVersion) : Json :=
  (Json.object []).set "_meta" (client.modernMetadata version)

def listParams (version : McpProtocolVersion) : Option Json :=
  if version.isModern then some (client.metadataParams version) else none

theorem request_eq {method : String} (hmethod : method ≠ callToolMethod) (id : UInt64)
    {params carried : Option Json} {version : McpProtocolVersion} (shape : ResponseShape)
    (hparams : client.withMetadata params (some version) = .ok carried) :
    client.request id method params (some version) shape =
      .ok ⟨routedHeaders version method, toVec (requestBody id method carried),
        ⟨some id, some version, shape⟩⟩ := by
  rw [request, hparams]
  simp only [hmethod, if_false, Option.map_some, McpClientRequest.new, routingHeaders_method]

def discoverMessage (id : UInt64) : McpClientRequest where
  headers := routedHeaders .v2026_07_28 discoverMethod
  body := toVec (requestBody id discoverMethod (some (client.metadataParams .v2026_07_28)))
  decoder := ⟨some id, some .v2026_07_28, .discovery⟩

theorem discover_eq (id : UInt64) : client.discover id = .ok (client.discoverMessage id) :=
  client.request_eq (by decide) id .discovery rfl

def listMessage (id : UInt64) (version : McpProtocolVersion) (maxTools : Nat) : McpClientRequest where
  headers := routedHeaders version listToolsMethod
  body := toVec (requestBody id listToolsMethod (client.listParams version))
  decoder := ⟨some id, some version, .toolList maxTools⟩

theorem listTools_eq (id : UInt64) (version : McpProtocolVersion) (maxTools : Nat) :
    client.listTools id version maxTools = .ok (client.listMessage id version maxTools) := by
  refine client.request_eq (by decide) id (.toolList maxTools) ?_
  cases version <;> rfl

def initializeMessage (id : UInt64) : McpClientRequest where
  headers := baseHeaders
  body := toVec (client.initializeBody id)
  decoder := ⟨some id, none, .initialization⟩

theorem initializeRequest_eq (id : UInt64) :
    client.initializeRequest id = .ok (client.initializeMessage id) := rfl

def initializedMessage : McpClientRequest where
  headers := routedHeaders .v2025_11_25 initializedMethod
  body := toVec initializedBody
  decoder := ⟨none, some .v2025_11_25, .acknowledgement⟩

theorem initialized_eq {version : McpProtocolVersion} {message : McpClientRequest}
    (h : McpClient.initialized version = .ok message) :
    version = .v2025_11_25 ∧ message = initializedMessage := by
  cases version with
  | v2026_07_28 => cases h
  | v2025_11_25 =>
    have hnew : McpClient.initialized .v2025_11_25 = .ok initializedMessage := by
      simp only [McpClient.initialized, McpProtocolVersion.isModern, McpClientRequest.new,
        routingHeaders_method]
      rfl
    rw [hnew] at h
    cases h
    exact ⟨rfl, rfl⟩

/-! ## Bodies are read back -/

section

variable {float : List Char → Option (List Char)} (id : UInt64)

theorem clientInfo_within : IsWithin float 1 client.info.asJson :=
  .ofMembers ⟨.string _, .string _, trivial⟩

theorem modernMetadata_within (version : McpProtocolVersion) :
    IsWithin float 2 (client.modernMetadata version) :=
  .ofMembers ⟨.string _, client.clientInfo_within, .empty, trivial⟩

theorem metadataParams_within (version : McpProtocolVersion) :
    IsWithin float 3 (client.metadataParams version) :=
  .set .empty (client.modernMetadata_within version) "_meta"

theorem requestBody_within {n : Nat} (method : String) {params : Option Json}
    (hparams : ∀ value ∈ params, IsWithin float n value) :
    IsWithin float (n + 1) (requestBody id method params) := by
  have hbody : IsWithin float (n + 1)
      (ofMembers [("jsonrpc", str "2.0"), ("id", ofNat id.toNat), ("method", str method)]) :=
    .ofMembers ⟨.string _, .ofNat id.toNat_lt, .string _, trivial⟩
  cases params with
  | none => exact hbody
  | some value => exact hbody.set (hparams value rfl) "params"

theorem discoverBody_within :
    IsWithin float 4 (requestBody id discoverMethod (some (client.metadataParams .v2026_07_28))) := by
  refine requestBody_within id discoverMethod fun value hvalue => ?_
  obtain rfl := Option.some.inj hvalue
  exact client.metadataParams_within .v2026_07_28

theorem listBody_within (version : McpProtocolVersion) :
    IsWithin float 4 (requestBody id listToolsMethod (client.listParams version)) := by
  refine requestBody_within id listToolsMethod fun value hvalue => ?_
  cases version with
  | v2026_07_28 =>
    obtain rfl := Option.some.inj hvalue
    exact client.metadataParams_within .v2026_07_28
  | v2025_11_25 => cases hvalue

theorem initializeBody_within : IsWithin float 3 (client.initializeBody id) := by
  have hparams : IsWithin float 2 (ofMembers [("protocolVersion", str latestProtocolVersion),
      ("capabilities", .object []), ("clientInfo", client.info.asJson)]) :=
    .ofMembers ⟨.string _, .empty, client.clientInfo_within, trivial⟩
  exact .ofMembers ⟨.string _, .ofNat id.toNat_lt, .string _, hparams, trivial⟩

theorem initializedBody_within : IsWithin float 1 initializedBody :=
  .ofMembers ⟨.string _, .string _, trivial⟩

end

/-! ## What a body says -/

section

variable (id : UInt64)

theorem get_requestBody (method : String) (params : Option Json) :
    (requestBody id method params).get "id" = some (ofNat id.toNat) ∧
      (requestBody id method params).get "method" = some (str method) := by
  cases params <;> simp [requestBody, ofMembers, get_set]

theorem get_initializeBody : (client.initializeBody id).get "id" = some (ofNat id.toNat) ∧
      (client.initializeBody id).get "method" = some (str initializeMethod) := by
  simp [initializeBody, ofMembers, get_set]

end

end McpClient

end Bondry.Mcp

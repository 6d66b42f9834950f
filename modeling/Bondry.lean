import Bondry.Apple.Framing
import Bondry.Apple.ResponseParser
import Bondry.Apple.Segments
import Bondry.Auth.Lifecycle
import Bondry.Auth.Manager
import Bondry.Auth.Store
import Bondry.Auth.Token
import Bondry.Contract.Dedup
import Bondry.Contract.Delivery
import Bondry.Contract.Dispatch
import Bondry.Contract.Grants
import Bondry.Contract.Identifier
import Bondry.Contract.Limits
import Bondry.Contract.Secrets
import Bondry.Egress.Buckets
import Bondry.Egress.DiscoverySession
import Bondry.Egress.Endpoint
import Bondry.Egress.EndpointPolicy
import Bondry.Egress.IdealLog
import Bondry.Egress.Kind
import Bondry.Egress.Lifecycle
import Bondry.Egress.Mcp
import Bondry.Egress.McpDiscovery
import Bondry.Egress.Payload
import Bondry.Egress.PayloadExact
import Bondry.Egress.Registry
import Bondry.Egress.TraceLaw
import Bondry.Egress.UrlTemplate
import Bondry.Egress.Webhook
import Bondry.Ffi.DispatchTask
import Bondry.Http.RateLimit
import Bondry.Http.RawBody
import Bondry.Http.RawBodyLifecycle
import Bondry.Http.RawBodyRead
import Bondry.Http.RawBodyRun
import Bondry.Http.RetainedBytes
import Bondry.Lib.BTreeMap
import Bondry.Lib.Base64
import Bondry.Lib.Bucket
import Bondry.Lib.Encoding
import Bondry.Lib.Except
import Bondry.Lib.Incremental
import Bondry.Lib.Json
import Bondry.Lib.JsonGrammar
import Bondry.Lib.JsonLexer
import Bondry.Lib.JsonValue
import Bondry.Lib.Ledger
import Bondry.Lib.Lru
import Bondry.Lib.Program
import Bondry.Lib.Run
import Bondry.Lib.Search
import Bondry.Lib.Sql
import Bondry.Lib.Token
import Bondry.Lib.Utf8
import Bondry.Lib.Window
import Bondry.Mcp.Client
import Bondry.Mcp.Protocol
import Bondry.Mcp.Requests
import Bondry.Mcp.ToolSchema
import Bondry.Runtime.Accounting
import Bondry.Runtime.Arms
import Bondry.Runtime.Backed
import Bondry.Runtime.Handlers
import Bondry.Runtime.Interchange
import Bondry.Runtime.MemoryLog
import Bondry.Runtime.MemoryLogOrder
import Bondry.Runtime.Micro
import Bondry.Runtime.Simulation
import Bondry.Runtime.State
import Bondry.Store.CredentialFiles
import Bondry.Store.CredentialLoad
import Bondry.Store.CredentialReplace
import Bondry.Store.CredentialSessions
import Bondry.Store.Database
import Bondry.Store.Dedup
import Bondry.Store.Delivery
import Bondry.Store.DeliveryLog
import Bondry.Store.Migration
import Bondry.Store.RecordMachine
import Bondry.Store.Upgrade
import Bondry.Store.Usage
import Bondry.Store.VisitUnknown
import Bondry.Transport.ClientCache
import Bondry.Webhook.AtMostOnce
import Bondry.Webhook.Charge
import Bondry.Webhook.Credentials
import Bondry.Webhook.HandlerRun
import Bondry.Webhook.Ingress
import Bondry.Webhook.Interop
import Bondry.Webhook.Limiter
import Bondry.Webhook.Ownership
import Bondry.Webhook.Route
import Bondry.Webhook.Signatures
import Bondry.Webhook.StripeGrammar
import Bondry.Webhook.System
import Bondry.Webhook.Verify

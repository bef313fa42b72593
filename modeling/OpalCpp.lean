import OpalCpp.Machine.Run
import OpalCpp.Machine.Deque
import OpalCpp.Model.Core.Error
import OpalCpp.Model.Server.SessionEntry
import OpalCpp.Model.Server.SessionDelivery
import OpalCpp.Model.Server.SessionRegistry
import OpalCpp.Proofs.Server.Placement
import OpalCpp.Proofs.Server.DeliverySteps
import OpalCpp.Proofs.Server.DeliveryInvariant
import OpalCpp.Proofs.Server.DeliveryHistory
import OpalCpp.Proofs.Server.HandleSwap
import OpalCpp.Proofs.Server.InFlightFront
import OpalCpp.Proofs.Server.CoalesceOrder
import OpalCpp.Proofs.Server.AttachedQueue
import OpalCpp.Proofs.Server.Retention
import OpalCpp.Proofs.Server.Reconnect
import OpalCpp.Proofs.Server.RegistrySteps
import OpalCpp.Proofs.Server.Grace
import OpalCpp.Model.Http.WsSession
import OpalCpp.Model.Http.WsConnection
import OpalCpp.Proofs.Http.WsSteps
import OpalCpp.Proofs.Http.WsTokens
import OpalCpp.Proofs.Http.WsWire
import OpalCpp.Proofs.Http.WsCompletions
import OpalCpp.Proofs.Http.WsReceive
import OpalCpp.Model.Http.WebSocketPair
import OpalCpp.Model.Http.PairThreads
import OpalCpp.Proofs.Http.PairSteps
import OpalCpp.Proofs.Http.PairSlots
import OpalCpp.Proofs.Http.PairChannel
import OpalCpp.Proofs.Http.PairReentrancy
import OpalCpp.Model.EventStream.SharedSession
import OpalCpp.Proofs.EventStream.Revocation
import OpalCpp.Proofs.Core.Bytes
import OpalCpp.Proofs.Core.Timestamp
import OpalCpp.Proofs.Core.TimestampText
import OpalCpp.Proofs.Cbor.Reading
import OpalCpp.Proofs.Cbor.RoundTrip
import OpalCpp.Proofs.Cbor.Canonical
import OpalCpp.Proofs.Cbor.Delimiting
import OpalCpp.Proofs.Cbor.Safety
import OpalCpp.Proofs.EventStream.FrameHeaders
import OpalCpp.Proofs.EventStream.Frame
import OpalCpp.Machine.BigEndian
import OpalCpp.Machine.Incremental
import OpalCpp.Model.Core.Bytes
import OpalCpp.Model.EventStream.Frame
import OpalCpp.Machine.Audited
import OpalCpp.Machine.FloatFormat
import OpalCpp.Machine.Shortest
import OpalCpp.Model.Codegen.Typed
import OpalCpp.Model.Core.Print
import OpalCpp.Model.Codegen.Printing
import OpalCpp.Proofs.Codegen.Redaction
import OpalCpp.Proofs.Codegen.Exposure
import OpalCpp.Machine.Binary64
import OpalCpp.Machine.Decimal
import OpalCpp.Machine.Gregorian
import OpalCpp.Model.Core.TimestampText
import OpalCpp.Model.Core.Timestamp
import OpalCpp.Model.Core.Document
import OpalCpp.Model.Cbor.Cbor
import OpalCpp.Model.Cbor.Decoder
import OpalCpp.Model.Http.AcceptLoop
import OpalCpp.Proofs.Http.AcceptLoop
import OpalCpp.Model.Core.Regex
import OpalCpp.Model.Core.RegexParser
import OpalCpp.Machine.Fragment
import OpalCpp.Proofs.Core.RegexParser
import OpalCpp.Proofs.Core.RegexCompiler
import OpalCpp.Proofs.Core.RegexSearch
import OpalCpp.Machine.Delimited
import OpalCpp.Model.Http.Uri
import OpalCpp.Proofs.Http.Uri
import OpalCpp.Machine.OrderedMap
import OpalCpp.Machine.Selection
import OpalCpp.Model.Http.Headers
import OpalCpp.Model.Server.Router
import OpalCpp.Proofs.Server.Patterns
import OpalCpp.Proofs.Server.RouteTables
import OpalCpp.Proofs.Server.RouteOrder
import OpalCpp.Proofs.Server.RouterAgreement
import OpalCpp.Proofs.Server.GreedyLabels
import OpalCpp.Model.Codegen.RecursionIndex
import OpalCpp.Model.Codegen.Validators
import OpalCpp.Proofs.Codegen.ConstraintPaths
import OpalCpp.Proofs.Codegen.ConstraintSearch
import OpalCpp.Proofs.Codegen.ConstraintInputs
import OpalCpp.Machine.Utf8
import OpalCpp.Machine.JsonText
import OpalCpp.Model.Core.Base64
import OpalCpp.Model.Json.Json
import OpalCpp.Model.EventStream.JsonFrame
import OpalCpp.Model.EventStream.JsonRpcFrame
import OpalCpp.Proofs.Json.Library
import OpalCpp.Proofs.Json.Standard
import OpalCpp.Proofs.Json.RoundTrip
import OpalCpp.Proofs.EventStream.JsonRpcGrammar
import OpalCpp.Proofs.Core.Documents
import OpalCpp.Proofs.EventStream.JsonWires
import OpalCpp.Model.EventStream.JsonRpcStreamSocket
import OpalCpp.Proofs.EventStream.JsonRpcTerminals
import OpalCpp.Proofs.EventStream.JsonRpcReceivers
import OpalCpp.Machine.Digraph
import OpalCpp.Proofs.Codegen.RecursionSearch
import OpalCpp.Proofs.Codegen.RecursionComponents
import OpalCpp.Proofs.Codegen.ByValue
import OpalCpp.Machine.Traced
import OpalCpp.Model.Http.Transport
import OpalCpp.Model.Client.Retry
import OpalCpp.Proofs.Client.Retries
import OpalCpp.Model.Http.BeastClient
import OpalCpp.Proofs.Client.Streaming
import OpalCpp.Model.Http.Forwarded
import OpalCpp.Proofs.Http.Forwarded
import OpalCpp.Machine.LineBlock
import OpalCpp.Model.Http.Http1
import OpalCpp.Model.Http.SocketTransport
import OpalCpp.Proofs.Http.SocketRequests
import OpalCpp.Machine.Ladder
import OpalCpp.Machine.Exposition
import OpalCpp.Model.Server.Metrics
import OpalCpp.Proofs.Server.RequestTallies
import OpalCpp.Proofs.Server.MetricText
import OpalCpp.Proofs.Server.MetricRuns
import OpalCpp.Proofs.Server.Scrape
import OpalCpp.Proofs.Http.Http1Chunks
import OpalCpp.Proofs.Http.Http1Framing
import OpalCpp.Machine.Loop
import OpalCpp.Machine.Widening
import OpalCpp.Model.Core.DocumentSerde
import OpalCpp.Model.Codegen.Serde
import OpalCpp.Proofs.Codegen.SerdeReading
import OpalCpp.Proofs.Codegen.SerdeScalars
import OpalCpp.Proofs.Codegen.SerdeRoundTrip
import OpalCpp.Model.Server.GeneratedRoutes
import OpalCpp.Proofs.Server.Reachability
import OpalCpp.Proofs.Codegen.ConstraintRoots
import OpalCpp.Model.Codegen.JsonRpc2
import OpalCpp.Proofs.Codegen.RefusalAgreement
import OpalCpp.Machine.BitString
import OpalCpp.Proofs.Http.TrustedProxies
import OpalCpp.Proofs.Core.RegexBraces
import OpalCpp.Machine.Stamps
import OpalCpp.Proofs.Core.RegexWork
import OpalCpp.Machine.JsonGrammar
import OpalCpp.Proofs.Json.DepthGuard
import OpalCpp.Proofs.Core.Base64
import OpalCpp.Proofs.Core.TimestampWindow
import OpalCpp.Proofs.Core.EpochSecondsText
import OpalCpp.Proofs.Http.ObsoleteDates
import OpalCpp.Proofs.Client.Backoff
import OpalCpp.Machine.Rounding
import OpalCpp.Model.Codegen.TextValues
import OpalCpp.Model.Codegen.Errors
import OpalCpp.Proofs.Codegen.WireForms
import OpalCpp.Proofs.Codegen.ErrorIdentity
import OpalCpp.Proofs.Codegen.ErrorExceptions
import OpalCpp.Model.Codegen.ValueChecks
import OpalCpp.Proofs.Core.Text
import OpalCpp.Proofs.Server.LabelSets
import OpalCpp.Model.Codegen.UnionClasses
import OpalCpp.Proofs.Codegen.UnionNames
import OpalCpp.Model.Server.OriginGate
import OpalCpp.Proofs.Http.Endpoint
import OpalCpp.Proofs.Server.OriginGate
import OpalCpp.Model.Http.TraceContext
import OpalCpp.Model.Server.AccessLog
import OpalCpp.Proofs.Server.AccessLog
import OpalCpp.Machine.CppLiteral
import OpalCpp.Machine.CppLexer
import OpalCpp.Model.Codegen.MemberDefaults
import OpalCpp.Proofs.Codegen.MemberDefaults
import OpalCpp.Proofs.Server.WriterCustody
import OpalCpp.Proofs.Server.WriterAccount
import OpalCpp.Model.Compression.Gzip
import OpalCpp.Proofs.Compression.HeldBack
import OpalCpp.Proofs.Compression.Gzip
import OpalCpp.Proofs.Codegen.Validators
import OpalCpp.Proofs.Core.RegexPrograms
import OpalCpp.Machine.Draws
import OpalCpp.Model.Codegen.RandomValues
import OpalCpp.Proofs.Codegen.RandomDraws
import OpalCpp.Proofs.Codegen.RandomValues
import OpalCpp.Proofs.Codegen.WireSerde
import OpalCpp.Model.Codegen.RpcCalls
import OpalCpp.Proofs.Codegen.RpcCalls
import OpalCpp.Model.Codegen.Streams
import OpalCpp.Proofs.Codegen.Streams
import OpalCpp.Model.EventStream.AsyncEventStream
import OpalCpp.Proofs.EventStream.AsyncSessions
import OpalCpp.Model.Http.ServerDispatch
import OpalCpp.Proofs.Http.TraceIdentity
import OpalCpp.Proofs.Http.SocketExchange
import OpalCpp.Model.Http.BeastServer
import OpalCpp.Proofs.Http.ServerConversations
import OpalCpp.Proofs.Http.ServerStop

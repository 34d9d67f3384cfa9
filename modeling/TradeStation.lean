import TradeStation.Foundations.Coroutine
import TradeStation.Python.Text
import TradeStation.Python.Utf8
import TradeStation.Python.Json
import TradeStation.Python.JsonDecoder
import TradeStation.Errors
import TradeStation.Python.JsonGrammar
import TradeStation.Stream.Parser
import TradeStation.Stream.Scanner
import TradeStation.Stream.Chunking
import TradeStation.Python.Datetime
import TradeStation.Python.Library
import TradeStation.RateLimit
import TradeStation.Transport
import TradeStation.Config
import TradeStation.Rest.Client
import TradeStation.Rest.Writes
import TradeStation.Rest.Drops
import TradeStation.Rest.Reads
import TradeStation.Stream.Session
import TradeStation.Stream.Delivery
import TradeStation.Foundations.Transition
import TradeStation.Stream.Budget
import TradeStation.Rest.Streams
import TradeStation.Models.Orders
import TradeStation.Models.Snapshots
import TradeStation.Reconciliation
import TradeStation.Python.Urls
import TradeStation.Python.Queries
import TradeStation.Trade
import TradeStation.OrderStatus
import TradeStation.Validation
import TradeStation.Client
import TradeStation.Rest.Requests
import TradeStation.Acknowledgements
import TradeStation.Submissions
import TradeStation.Auth.Exclusion
import TradeStation.Auth.Deadline
import TradeStation.RiskChecks
import TradeStation.Preflight
import TradeStation.KillSwitch
import TradeStation.Payloads
import TradeStation.Python.FixedPoint
import TradeStation.Models.Decoding
import TradeStation.RoundTrip
import TradeStation.Foundations.Pagination
import TradeStation.Pages
import TradeStation.Foundations.Gather
import TradeStation.Reads
import TradeStation.Boundary
import TradeStation.Auth.Manager
import TradeStation.Foundations.Pool
import TradeStation.Auth.Rotation
import TradeStation.Auth.Lifetime
import TradeStation.Auth.Stages
import TradeStation.Auth.SharedRefresh
import TradeStation.Replacements
import TradeStation.Exposure
import TradeStation.Foundations.Pattern
import TradeStation.Redaction.Text
import TradeStation.Redaction.Values
import TradeStation.Redaction.Exhausted
import TradeStation.Rest.Backoff
import TradeStation.Rest.Delays
import TradeStation.Stream.Feeding
import TradeStation.Stream.Brackets
import TradeStation.Stream.Leftover
import TradeStation.Stream.ReaderThread
import TradeStation.Stream.Lossless
import TradeStation.Stream.ReaderEnds
import TradeStation.Foundations.Paths
import TradeStation.Python.UrlPaths
import TradeStation.Endpoints
import TradeStation.Slots
import TradeStation.Foundations.Worklist
import TradeStation.Foundations.BoundedQueue
import TradeStation.Python.Dicts
import TradeStation.Python.JsonDumps
import TradeStation.PayloadHash
import TradeStation.Tools.PinSpec
import TradeStation.Tools.Schemas
import TradeStation.Tools.SelfContained
import TradeStation.Python.Forms
import TradeStation.Auth.Loopback
import TradeStation.Auth.CodeFlow
import TradeStation.Foundations.Linearization
import TradeStation.Auth.FileTokenStore
import TradeStation.Auth.Durable
import TradeStation.Auth.AtomicStore
import TradeStation.Auth.SharedFile
import TradeStation.Executions
import TradeStation.Wire
import TradeStation.Recovery
import TradeStation.Foundations.Watch
import TradeStation.Sessions
import TradeStation.Rest.Feeds
import TradeStation.Rest.Threads
import TradeStation.Rest.Httpx
import TradeStation.Models.Charts
import TradeStation.ChartQueries
import TradeStation.MarketData
import TradeStation.Contract
import TradeStation.Authority
import TradeStation.Builders

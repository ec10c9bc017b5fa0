import EnvoyGo.HTTPHeader
import EnvoyGo.FilterChain
import EnvoyGo.LocalReplyInvariant
import EnvoyGo.H2Carrier
import EnvoyGo.HCMDispatch
import EnvoyGo.LocalReplyFinality
import EnvoyGo.Threads
import EnvoyGo.SharedChain
import EnvoyGo.ReplyProtocol
import EnvoyGo.ReplyOnce
import EnvoyGo.PublishedReply
import EnvoyGo.HCMConnection
import EnvoyGo.TruncatedBody
import EnvoyGo.ResponseFraming
import EnvoyGo.ResumeChannel
import EnvoyGo.UpstreamH1Pool
import EnvoyGo.GoText
import EnvoyGo.JwtAuthn
import EnvoyGo.JwtRuleSelection
import EnvoyGo.JwtEvaluator
import EnvoyGo.GoNet
import EnvoyGo.JwtHeaders
import EnvoyGo.RBAC
import EnvoyGo.RBACDecision
import EnvoyGo.GoBase64
import EnvoyGo.GoHMAC
import EnvoyGo.OAuth2
import EnvoyGo.OAuth2Session
import EnvoyGo.ExtProc
import EnvoyGo.FilterScope
import EnvoyGo.ExtProcStages
import EnvoyGo.ExtProcFailClosed
import EnvoyGo.ExtProcStream
import EnvoyGo.ExtProcNilStream
import EnvoyGo.ExtProcCorrelation
import EnvoyGo.H2ServerStream
import EnvoyGo.RequestFraming
import EnvoyGo.BodyReplacement
import EnvoyGo.Compressor
import EnvoyGo.CompressorTruth
import EnvoyGo.Tally
import EnvoyGo.KeyedQueue
import EnvoyGo.H2Pool
import EnvoyGo.H2PoolView
import EnvoyGo.H2PoolShape
import EnvoyGo.H2PoolSlots
import EnvoyGo.H2PoolPermits
import EnvoyGo.H2PoolDrain
import EnvoyGo.H2PoolOwners
import EnvoyGo.H2PoolWaiters
import EnvoyGo.Int32Window
import EnvoyGo.H2ServerConn
import EnvoyGo.H2ServerMoves
import EnvoyGo.AdmissionBook
import EnvoyGo.H2ServerStreams
import EnvoyGo.H2RapidReset
import EnvoyGo.H2CompleteRequest
import EnvoyGo.H2RefusedStream
import EnvoyGo.H2ServerWire
import EnvoyGo.H2ResetFinality
import EnvoyGo.H2ReceiveCredit
import EnvoyGo.CreditAccount
import EnvoyGo.H2SendAccounts
import EnvoyGo.H2SendFrames
import EnvoyGo.H2SendCredit
import EnvoyGo.H2WindowRange
import EnvoyGo.H2ClientConn
import EnvoyGo.H2ClientMoves
import EnvoyGo.H2PeerSettings
import EnvoyGo.Fragments
import EnvoyGo.H2HpackSync
import EnvoyGo.RunningBest
import EnvoyGo.ChainMatch
import EnvoyGo.OAuth2Gate
import EnvoyGo.H2FrameReader
import EnvoyGo.JwtCredentials
import EnvoyGo.JwtForwarded
import EnvoyGo.WasmRootVM
import EnvoyGo.WasmMoves
import EnvoyGo.WasmStreams
import EnvoyGo.WasmDelete
import EnvoyGo.WasmReload
import EnvoyGo.WasmIsolation
import EnvoyGo.DrainManager
import EnvoyGo.AdaptiveConcurrency
import EnvoyGo.WasmPause
import EnvoyGo.WasmPauseRuns
import EnvoyGo.WasmBody
import EnvoyGo.WasmBodyForward
import EnvoyGo.Lines
import EnvoyGo.StatsRegistry
import EnvoyGo.StatsdTCP
import EnvoyGo.StatsdCounters
import EnvoyGo.AccessLog
import EnvoyGo.Readers
import EnvoyGo.RedisProxy
import EnvoyGo.RedisReplies
import EnvoyGo.RedisPipeline
import EnvoyGo.Tracing
import EnvoyGo.TraceHop
import EnvoyGo.TraceSurvival
import EnvoyGo.ConnPool
import EnvoyGo.H2PoolPending
import EnvoyGo.H2PoolCoalesce
import EnvoyGo.ClusterHealth
import EnvoyGo.RoundRobin
import EnvoyGo.HealthThresholds
import EnvoyGo.Outlier
import EnvoyGo.EjectionCap
import EnvoyGo.Balancers
import EnvoyGo.EjectionGauge
import EnvoyGo.EjectionTime
import EnvoyGo.OutlierWindow
import EnvoyGo.Float64
import EnvoyGo.Subset
import EnvoyGo.NetworkChain
import EnvoyGo.NetworkClose
import EnvoyGo.SnifferFeed
import EnvoyGo.H2StreamFates
import EnvoyGo.H2LateFrames
import EnvoyGo.CircuitBreaker
import EnvoyGo.RetryExecutor
import EnvoyGo.HedgeExecutor
import EnvoyGo.H2HeaderBlock
import EnvoyGo.H2ContentLength
import EnvoyGo.H2RequestViews
import EnvoyGo.H2DecodeDelta
import EnvoyGo.ProbeFill
import EnvoyGo.Maglev
import EnvoyGo.StringMatchers
import EnvoyGo.JwtToken
import EnvoyGo.JwtRequirements
import EnvoyGo.Upsert
import EnvoyGo.PromNames
import EnvoyGo.DynamicStats
import EnvoyGo.PromExposition
import EnvoyGo.H2ClientAccounts
import EnvoyGo.H2ClientCredit
import EnvoyGo.H2SharedConn
import EnvoyGo.ClusterHash
import EnvoyGo.TableWalk
import EnvoyGo.ConsistentHash
import EnvoyGo.RingHash
import EnvoyGo.WeightedClusters
import EnvoyGo.Slices
import EnvoyGo.ClientHello
import EnvoyGo.ThreeValued
import EnvoyGo.MatchPredicate
import EnvoyGo.LocalRateLimit
import EnvoyGo.AdmissionWindow
import EnvoyGo.RedisCodec
import EnvoyGo.Cursors
import EnvoyGo.Bson
import EnvoyGo.StreamFrames
import EnvoyGo.Groupings
import EnvoyGo.DatagramBatch
import EnvoyGo.RetryBackoff
import EnvoyGo.FirstBest
import EnvoyGo.AcceptEncoding
import EnvoyGo.HeaderReconcile
import EnvoyGo.WasmPairs
import EnvoyGo.CipherBlocks
import EnvoyGo.OAuth2Tokens
import EnvoyGo.RateLimitDescriptors
import EnvoyGo.RateLimitDeclared
import EnvoyGo.LengthPrefix
import EnvoyGo.ChainFeed
import EnvoyGo.FrameSniffer
import EnvoyGo.KafkaBroker
import EnvoyGo.ZooKeeperProxy
import EnvoyGo.SnifferSegments
import EnvoyGo.Census
import EnvoyGo.WasmRegistry
import EnvoyGo.WasmRegistryBook
import EnvoyGo.WasmRegistrySteps
import EnvoyGo.FairRuns
import EnvoyGo.WasmRegistryRuns
import EnvoyGo.Mutexes
import EnvoyGo.WasmTick
import EnvoyGo.WasmTickInv
import EnvoyGo.WasmTickSteps
import EnvoyGo.WasmTickRuns
import EnvoyGo.Delimited
import EnvoyGo.NetText
import EnvoyGo.ChainSpecKey

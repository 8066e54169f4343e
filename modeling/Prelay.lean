import Prelay.Json
import Prelay.JsonText
import Prelay.JsonRoundTrip
import Prelay.JsonReread
import Prelay.Lines
import Prelay.Str
import Prelay.StreamEvents
import Prelay.ChatEvent
import Prelay.ResponsesEncode
import Prelay.Sse
import Prelay.ChatToResponses
import Prelay.ChatStats
import Prelay.StreamPipeline
import Prelay.RolloutEvents
import Prelay.ContentCapture
import Prelay.Internal
import Prelay.Recording
import Prelay.RecordingInvariant
import Prelay.RecordingRun
import Prelay.BridgeEvents
import Prelay.RecordedStream
import Prelay.BridgeStream
import Prelay.StreamPersistence
import Prelay.RecordingStatus
import Prelay.TruncatedStream
import Prelay.EventStream
import Prelay.StreamRewrite
import Prelay.Keepalive
import Prelay.Redaction
import Prelay.RolloutSupport
import Prelay.RolloutRead
import Prelay.ThreadState
import Prelay.PersistedIndex
import Prelay.RolloutWriter
import Prelay.ThreadLog
import Prelay.RereadEvents
import Prelay.ThreadReplay
import Prelay.WriterLog
import Prelay.TurnLog
import Prelay.ThreadDisk
import Prelay.ThreadResolve
import Prelay.ThreadRun
import Prelay.ThreadInvariant
import Prelay.Sha256
import Prelay.SliceIntegrity
import Prelay.CachedState
import Prelay.DraftIdentity
import Prelay.CacheDedup
import Prelay.Utf8
import Prelay.CrashRecovery
import Prelay.ContextRefs
import Prelay.ContextFaithful
import Prelay.NativeStats
import Prelay.Chunking
import Prelay.BridgeDecode
import Prelay.NativeRead
import Prelay.NativeEvents
import Prelay.NativeAgreement
import Prelay.AppError
import Prelay.ChatAnswer
import Prelay.SplitAnswer
import Prelay.JsonNormal
import Prelay.EventLines
import Prelay.IdRewrite
import Prelay.RewrittenStream
import Prelay.ResponsesItems
import Prelay.Continuable
import Prelay.ContinuableStream
import Prelay.ChatRequest
import Prelay.ResponsesDecode
import Prelay.BridgeRequest
import Prelay.ToolProtocol
import Prelay.BridgeFidelity
import Prelay.BridgeContent
import Prelay.ForeignKey
import Prelay.Schema
import Prelay.IdentityCleanup
import Prelay.RecordingStage
import Prelay.InterruptedRecovery
import Prelay.ProviderStore
import Prelay.ProviderRestart
import Prelay.EndpointStore
import Prelay.CatalogConsistency
import Prelay.Runs
import Prelay.ProviderConcurrency
import Prelay.JsonSize
import Prelay.Conversation
import Prelay.ChatRecording
import Prelay.RecordedAlike
import Prelay.Transactions
import Prelay.EndpointConcurrency
import Prelay.EndpointIsolation
import Prelay.UsageDecoders
import Prelay.ClosedChat
import Prelay.ToolCallsShown
import Prelay.ReportedUsage
import Prelay.OutputIndices
import Prelay.SentBytes
import Prelay.CarriageReturn
import Prelay.AnswerEnd
import Prelay.EndOfStream
import Prelay.ImageStream
import Prelay.StreamHead
import Prelay.ImageBudget
import Prelay.FailoverRun
import Prelay.UpdateCache
import Prelay.Cooldown
import Prelay.StableOrder
import Prelay.ProviderOrder
import Prelay.ImageGrowth
import Prelay.JsonMembers
import Prelay.NativeRequest
import Prelay.PathIsolation
import Prelay.ConversationGrammar
import Prelay.WindowDedup
import Prelay.WindowTracking
import Prelay.JsonTorn
import Prelay.JsonLimits
import Prelay.IndexFile
import Prelay.IndexRoundTrip
import Prelay.CandidateScan
import Prelay.AppendedLines
import Prelay.TurnFiles
import Prelay.FileEdits
import Prelay.StoreCoherence
import Prelay.LookupAgreement
import Prelay.WeakLocks
import Prelay.ThreadClients
import Prelay.ThreadSegments
import Prelay.ThreadFile
import Prelay.MaximalRuns
import Prelay.CredentialRuns
import Prelay.Lru
import Prelay.ThreadIndex
import Prelay.TableSweep
import Prelay.Reconciliation
import Prelay.StartupReconciliation
import Prelay.CatalogMigrations
import Prelay.SanitizedJson
import Prelay.PagedSweep
import Prelay.ResponseSessions
import Prelay.LegacySessions
import Prelay.Memories
import Prelay.MemoryConflicts
import Prelay.DigitOrder
import Prelay.Rfc3339
import Prelay.Calendar
import Prelay.Tiling
import Prelay.Timeline
import Prelay.StatsQueries
import Prelay.TimelineTotals
import Prelay.MergedTimeline
import Prelay.KeyedLoad
import Prelay.CatalogEntries
import Prelay.ProviderValidation
import Prelay.CatalogLoading
import Prelay.Predecessors
import Prelay.ResponseStates
import Prelay.SavedResponses
import Prelay.ContinuationChain
import Prelay.ProviderSharing
import Prelay.SharingInvariant

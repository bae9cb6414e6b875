import LavsCore.Lib.Program
import LavsCore.Lib.Table
import LavsCore.Lib.Interleaving
import LavsCore.Lib.Outcomes
import LavsCore.Lib.History
import LavsCore.Lib.Interruption
import LavsCore.Lib.Dict
import LavsCore.Lib.EdgeList
import LavsCore.Python.Text
import LavsCore.Python.Encode
import LavsCore.Python.Sha256
import LavsCore.Errors
import LavsCore.Domain.DependencyGraph
import LavsCore.Domain.ChangeClassifier
import LavsCore.Domain.ProductVersion
import LavsCore.Domain.BumpPropagation
import LavsCore.Store.Schema
import LavsCore.Store.Statements
import LavsCore.Models.Requests
import LavsCore.Models.Responses
import LavsCore.Queries.Query
import LavsCore.Queries.Versions
import LavsCore.Queries.Catalog
import LavsCore.Queries.Dependencies
import LavsCore.Store.Selects
import LavsCore.Queries.CutRelease
import LavsCore.Queries.CutReleaseRun
import LavsCore.Queries.ReleasesRead
import LavsCore.Runs
import LavsCore.Invariants.Growth
import LavsCore.Invariants.VersionHistory
import LavsCore.Invariants.Atomicity
import LavsCore.Invariants.DependencyEdges
import LavsCore.Invariants.ReleaseLedger
import LavsCore.Invariants.CutReadAgreement
import LavsCore.Invariants.VersionChain
import LavsCore.Concurrency.Servers
import LavsCore.Concurrency.VersionRace
import LavsCore.Concurrency.IdempotentCut
import LavsCore.Invariants.EdgeInvariance
import LavsCore.Auth.Store
import LavsCore.Auth.Statements
import LavsCore.Auth.Settings
import LavsCore.Auth.Query
import LavsCore.Auth.Signup
import LavsCore.Auth.Session
import LavsCore.Auth.Resolver
import LavsCore.Auth.Run
import LavsCore.Auth.SessionHistory
import LavsCore.Auth.Disabling
import LavsCore.Concurrency.AuthServers
import LavsCore.Concurrency.VerifyRace
import LavsCore.Concurrency.SignupRace
import LavsCore.Migration.Database
import LavsCore.Migration.FlatToRelational
import LavsCore.Migration.MigrationRun
import LavsCore.Migration.Faithful
import LavsCore.Migration.CrashSafety
import LavsCore.Lib.Ranking
import LavsCore.Lib.Revalidation
import LavsCore.Queries.TimelineRead
import LavsCore.Live.EventCache
import LavsCore.Live.CacheSimulation
import LavsCore.Constellation.Projection
import LavsCore.Live.Endpoints
import LavsCore.Live.ProductEvents
import LavsCore.Live.Resync
import LavsCore.Domain.EffectiveLevels
import LavsCore.Queries.Impact
import LavsCore.Auth.ProviderOrder
import LavsCore.Connections.DbSession
import LavsCore.Invariants.BlastRadius
import LavsCore.Invariants.RollbackOrder
import LavsCore.Lib.WindowLog
import LavsCore.Live.EventTrace
import LavsCore.Models.VersionText
import LavsCore.Queries.VersionSubmission
import LavsCore.Security.SlidingWindowLimiter
import LavsCore.Lib.Cascade
import LavsCore.Domain.ChangeMetric
import LavsCore.Security.LimiterMemory
import LavsCore.Constellation.TimeAxis
import LavsCore.Invariants.CreationOrder
import LavsCore.Constellation.Reopen
import LavsCore.Lib.BoundedQueue
import LavsCore.Live.EventBus
import LavsCore.Lib.EventStream
import LavsCore.Python.CompactDumps
import LavsCore.Live.SseFrames
import LavsCore.Live.CacheDuplicates
import LavsCore.Live.Reconnect
import LavsCore.Auth.SignupTrace
import LavsCore.Lib.RelyGuarantee
import LavsCore.Concurrency.Interference
import LavsCore.Concurrency.Refusals
import LavsCore.Concurrency.Effects
import LavsCore.Concurrency.DependencyRace
import LavsCore.Concurrency.CutSnapshot
import LavsCore.Lib.JsonText
import LavsCore.Python.JsonTexts
import LavsCore.Live.StreamServer
import LavsCore.Lib.JsonValue
import LavsCore.Ledger.BumpRationale
import LavsCore.Http.Errors
import LavsCore.Security.RateLimitMiddleware
import LavsCore.Auth.AccountHistory
import LavsCore.Concurrency.EventDelivery
import LavsCore.Constellation.Readout

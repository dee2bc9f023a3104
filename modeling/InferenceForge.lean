import InferenceForge.Config
import InferenceForge.Library.Run
import InferenceForge.Library.Program
import InferenceForge.Library.Pool
import InferenceForge.Library.Redis
import InferenceForge.Library.MinQueue
import InferenceForge.Python.Json
import InferenceForge.Python.Text
import InferenceForge.Pipeline.CircuitBreaker
import InferenceForge.Pipeline.BreakerSteps
import InferenceForge.Pipeline.BreakerAdmission
import InferenceForge.Pipeline.BreakerRecovery
import InferenceForge.Pipeline.Exceptions
import InferenceForge.Pipeline.Estimator
import InferenceForge.Pipeline.Batcher
import InferenceForge.Pipeline.ModelOutput
import InferenceForge.Pipeline.JobStore
import InferenceForge.Pipeline.Caller
import InferenceForge.Pipeline.TicketRuns
import InferenceForge.Pipeline.DedupRace
import InferenceForge.Api.Routes
import InferenceForge.Api.JobRuns
import InferenceForge.Pipeline.JobStoreSteps
import InferenceForge.Api.JobStatus
import InferenceForge.Api.Stream
import InferenceForge.Pipeline.JobStoreRuns
import InferenceForge.Api.RequestRuns
import InferenceForge.Api.JobExpiry
import InferenceForge.Api.JobOutcome
import InferenceForge.Api.JobConservation
import InferenceForge.Library.SlidingWindow
import InferenceForge.Pipeline.BatcherRuns
import InferenceForge.Pipeline.BreakerInvariant
import InferenceForge.Pipeline.BreakerAccounting
import InferenceForge.Pipeline.BreakerSequential
import InferenceForge.Pipeline.BreakerProbe
import InferenceForge.Pipeline.AnswerParsing
import InferenceForge.Api.JobProgress
import InferenceForge.Api.JobCleanup
import InferenceForge.Api.Readers
import InferenceForge.Pipeline.ObjectParsing
import InferenceForge.Pipeline.BlockSearch
import InferenceForge.Pipeline.RetryRuns
import InferenceForge.Pipeline.SuccessRecords
import InferenceForge.Library.Monitor
import InferenceForge.Pipeline.UpstreamAccounting
import InferenceForge.Pipeline.Throttle
import InferenceForge.Api.JobCost
import InferenceForge.Api.CacheStatistics
import InferenceForge.Api.Taxonomy
import InferenceForge.Pipeline.EtaEstimator
import InferenceForge.Pipeline.FullDrain
import InferenceForge.Pipeline.RetryHandlers
import InferenceForge.Pipeline.RetryOutcomes
import InferenceForge.Library.Retry
import InferenceForge.Pipeline.RetryPolicy
import InferenceForge.Api.Judgement
import InferenceForge.Api.QueueDepth
import InferenceForge.Api.Rejection
import InferenceForge.Pipeline.CacheReplay
import InferenceForge.Pipeline.ExtractorLoop
import InferenceForge.Pipeline.Semaphore
import InferenceForge.Library.Spacing
import InferenceForge.Pipeline.BreakerOutage
import InferenceForge.Api.JobIsolation
import InferenceForge.Library.Halting
import InferenceForge.Pipeline.BreakerCalls
import InferenceForge.Pipeline.GuardedCalls
import InferenceForge.Pipeline.SharedUpstream
import InferenceForge.Pipeline.UpstreamRuns
import InferenceForge.Api.WireFormat
import InferenceForge.Library.Lease
import InferenceForge.Pipeline.CacheExpiry
import InferenceForge.Api.JobBatches
import InferenceForge.Api.ProcessState
import InferenceForge.Api.Health
import InferenceForge.Api.Validation
import InferenceForge.Library.ForkJoin
import InferenceForge.Pipeline.TicketBudget
import InferenceForge.Api.Desk
import InferenceForge.Api.RequestTurns
import InferenceForge.Api.Service

import Fluxora.Serialization.Stroops
import Fluxora.Serialization.Serializer
import Fluxora.Indexer.ReplayResume
import Fluxora.Streams.TerminalStreams
import Fluxora.Streams.EventOrder
import Fluxora.Streams.OnePayload
import Fluxora.Streams.DistinctStreams
import Fluxora.Auth.KeyRotation
import Fluxora.Auth.SessionRoute
import Fluxora.Auth.ExchangedOnce
import Fluxora.Auth.AuthAttempts
import Fluxora.Retention.Effect
import Fluxora.Pii.BatchHash
import Fluxora.Pii.StrandedTasks
import Fluxora.Redis.Revocation
import Fluxora.Indexer.GrpcGateway
import Fluxora.Dlq.FailedReplay
import Fluxora.Audit.Mirror
import Fluxora.Rpc.TripRule
import Fluxora.Rpc.HalfOpenRule
import Fluxora.Redis.BanLifetime
import Fluxora.Graphql.Introspection
import Fluxora.Streams.Cursors
import Fluxora.Validation.Schemas
import Fluxora.Webhooks.BreakerAgreement
import Fluxora.Webhooks.SingleProbe
import Fluxora.Webhooks.FailureCount
import Fluxora.Webhooks.ProbeReports
import Fluxora.Webhooks.OutboxLease
import Fluxora.Indexer.LeaseHolder
import Fluxora.Indexer.BackfillScheduler
import Fluxora.Indexer.IngestConvergence
import Fluxora.Indexer.ReorgBookkeeping
import Fluxora.Redis.HybridDedup
import Fluxora.Idempotency.SingleExecution
import Fluxora.Streams.Traversal
import Fluxora.Streams.ConnectionLimiter
import Fluxora.Streams.ReplayBuffer
import Fluxora.Ws.Confidentiality
import Fluxora.Ws.UpgradeHandler
import Fluxora.Indexer.SelfDemotion
import Fluxora.Jobs.Envelope
import Fluxora.Jobs.PartitionMaintenance
import Fluxora.Db.ReplicaPool
import Fluxora.Tracing.BatchExporter
import Fluxora.State.AdminState
import Fluxora.State.AdminStateLock
import Fluxora.Webhooks.OutboxBatch
import Fluxora.Webhooks.StorePersistence
import Fluxora.Webhooks.Signature
import Fluxora.Webhooks.OutboundRequests
import Fluxora.RateLimit.KeyNamespace
import Fluxora.Indexer.OrderedBackfill
import Fluxora.Indexer.ReplayIntegrity
import Fluxora.Webhooks.AddressVerdict
import Fluxora.RateLimit.CanonicalAddress
import Fluxora.Webhooks.RateLimiter
import Fluxora.Webhooks.RetrySchedule
import Fluxora.Ws.BatchFraming
import Fluxora.Validation.TypoDetection
import Fluxora.Pii.RedactedKeys
import Fluxora.Ws.BroadcastOrder
import Fluxora.Backup.Selection
import Fluxora.RateLimit.ForwardedFor
import Fluxora.Streams.ShownStatus
import Fluxora.Validation.DepthScanner

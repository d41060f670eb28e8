import SorobanPay.Lifecycle.RateLimit
import SorobanPay.Lifecycle.PauseSafety
import SorobanPay.Payments.Nonces
import SorobanPay.Payments.ReplayGuard
import SorobanPay.Payments.PathAgreement
import SorobanPay.Tokens.AllowanceCap
import SorobanPay.Tokens.Authorization
import SorobanPay.Tokens.Isolation
import SorobanPay.Listings.MerchantIndex
import SorobanPay.Listings.Roster
import SorobanPay.Lifecycle.AmountLimit
import SorobanPay.Lifecycle.RecordBounds
import SorobanPay.Tokens.Footprint
import SorobanPay.Backend.TableRefinement
import SorobanPay.Backend.Reconciliation
import SorobanPay.Backend.Polling
import SorobanPay.Backend.StatusFold
import SorobanPay.Backend.EventPolling
import SorobanPay.Backend.IdempotencyHistories
import SorobanPay.Backend.ExecutePaymentHelper
import SorobanPay.Backend.WebhookAttempts
import SorobanPay.Backend.WebhookDeliveries
import SorobanPay.Backend.JobLifecycle
import SorobanPay.Backend.ReplayProtection
import SorobanPay.Frontend.BatchCharges
import SorobanPay.Frontend.PaymentHistory
import SorobanPay.Backend.OutboxGuarantees
import SorobanPay.Backend.EventAges
import SorobanPay.Backend.KycUpdates
import SorobanPay.Backend.RecordedPayments
import SorobanPay.Backend.OverlappingDeliveries
import SorobanPay.Backend.RetryScheduling
import SorobanPay.Backend.RetryStatuses
import SorobanPay.Backend.RetryOutcomes
import SorobanPay.Backend.DisturbedRetries
import SorobanPay.Backend.EventTable
import SorobanPay.Backend.AuditedReconciliation
import SorobanPay.Frontend.SubscriptionForm
import SorobanPay.Lifecycle.AutoResume
import SorobanPay.Lifecycle.OverdueTracking
import SorobanPay.Listings.CancelRestores
import SorobanPay.Payments.BatchIndependence
import SorobanPay.Backend.ReplayCounts
import SorobanPay.Backend.DecoderAgreement
import SorobanPay.Backend.EventIdentity
import SorobanPay.Backend.Escalations
import SorobanPay.Backend.RpcPool
import SorobanPay.Backend.RpcFailover
import SorobanPay.Backend.RoundRobin
import SorobanPay.Backend.CircuitBreaker
import SorobanPay.Backend.RedisLocks
import SorobanPay.Backend.CacheLayers
import SorobanPay.Backend.AuthChallenges
import SorobanPay.Backend.ChallengeVerification
import SorobanPay.Backend.TokenRotation
import SorobanPay.Backend.RateLimiter
import SorobanPay.Backend.Checkpoints
import SorobanPay.Backend.DueAndAtRisk
import SorobanPay.Backend.EventOrder
import SorobanPay.Backend.KycVerdicts
import SorobanPay.Backend.EventDeduplication
import SorobanPay.Backend.ScheduledNotifications
import SorobanPay.Backend.SmsLimits
import SorobanPay.Backend.HumanAmounts
import SorobanPay.Backend.TelemetryRedaction
import SorobanPay.Backend.AnalyticsEvents
import SorobanPay.Backend.EventFilters
import SorobanPay.Backend.MerchantTokens
import SorobanPay.Backend.AnalyticsPages
import SorobanPay.Backend.ReportExport
import SorobanPay.Backend.CsvRoundTrip
import SorobanPay.Backend.PayoutSummaries
import SorobanPay.Backend.RecurringRevenue
import SorobanPay.Backend.YieldBatches
import SorobanPay.Backend.YieldBackfill
import SorobanPay.Frontend.ApiVersions
import SorobanPay.Frontend.TokenDecimals
import SorobanPay.Frontend.ActiveSubscriptions
import SorobanPay.Frontend.HistoryPages
import SorobanPay.Frontend.ActivityFeed
import SorobanPay.Frontend.Preferences
import SorobanPay.Frontend.TokenFormat
import SorobanPay.Frontend.MerchantPages
import SorobanPay.Backend.FallbackEvictions
import SorobanPay.Backend.ReplayBounds
import SorobanPay.Backend.MetricSeries
import SorobanPay.Lifecycle.Exit
import SorobanPay.Lifecycle.Followed
import SorobanPay.Payments.Throughput
import SorobanPay.Operator.Administration
import SorobanPay.Backend.ProcessedEvents
import SorobanPay.Backend.ImportJobs
import SorobanPay.Backend.SharedRetries
import SorobanPay.Backend.WebhookIntake
import SorobanPay.Frontend.AddressBook
import SorobanPay.Frontend.TokenInfo
import SorobanPay.Frontend.RpcFallback
import SorobanPay.Backend.PaymentExport
import SorobanPay.Backend.PaymentFeed
import SorobanPay.Backend.CancellationAudit

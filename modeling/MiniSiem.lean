import MiniSiem.Json
import MiniSiem.Types
import MiniSiem.Evaluator
import MiniSiem.Rules
import MiniSiem.Engine
import MiniSiem.PackFormat
import MiniSiem.Cache
import MiniSiem.Correlation
import MiniSiem.CacheConflicts
import MiniSiem.CorrelationSerial
import MiniSiem.CorrelationWindow
import MiniSiem.Lib.Unwinding
import MiniSiem.RedisCounters
import MiniSiem.BruteForce
import MiniSiem.AlertsTable
import MiniSiem.AlertBatcher
import MiniSiem.AlertFlush
import MiniSiem.AlertLoss
import MiniSiem.AlertFallback
import MiniSiem.AlertRedelivery
import MiniSiem.Database
import MiniSiem.Lib.HashChain
import MiniSiem.AuditTrail
import MiniSiem.LegalHold
import MiniSiem.Lib.RateLimit
import MiniSiem.SlidingWindow
import MiniSiem.FixedWindow
import MiniSiem.CostUsage
import MiniSiem.AuthStore
import MiniSiem.RefreshTokens
import MiniSiem.WsTickets
import MiniSiem.TenantTables
import MiniSiem.StorePrograms
import MiniSiem.CaseSweep
import MiniSiem.Lib.RowUpdates
import MiniSiem.LostUpdates
import MiniSiem.Handlers
import MiniSiem.ReadHandlers
import MiniSiem.TenantIsolation
import MiniSiem.AgentLogs
import MiniSiem.FileTailer
import MiniSiem.AgentShipper
import MiniSiem.AgentDelivery
import MiniSiem.KafkaMessages
import MiniSiem.LocalRateLimit
import MiniSiem.ConsumerAccounts
import MiniSiem.CostControl
import MiniSiem.IngestHandlers
import MiniSiem.IngestTraces
import MiniSiem.Lib.Ledger
import MiniSiem.LogIndexer
import MiniSiem.IngestDelivery
import MiniSiem.DetectionStage
import MiniSiem.AlertStage
import MiniSiem.GracefulShutdown
import MiniSiem.AuditCoverage
import MiniSiem.AlertCases
import MiniSiem.BatcherLevels
import MiniSiem.TenantKeys
import MiniSiem.CostConservation
import MiniSiem.AlertCounters
import MiniSiem.CaseCreation
import MiniSiem.CaseLifecycle
import MiniSiem.CostPolicyCache
import MiniSiem.DashboardStats
import MiniSiem.ImmediateAlerts
import MiniSiem.Lib.Lanes
import MiniSiem.LogOrder
import MiniSiem.StatsSync
import MiniSiem.AlertNotifications
import MiniSiem.CacheClock
import MiniSiem.CacheFaults
import MiniSiem.CorrelationCap
import MiniSiem.CorrelationEviction
import MiniSiem.CorrelationRuns
import MiniSiem.CorrelationSoundness
import MiniSiem.FloodIsolation
import MiniSiem.ReplayDrill
import MiniSiem.RetentionCycle
import MiniSiem.RuleEdits
import MiniSiem.AlertArrival
import MiniSiem.AlertColumns
import MiniSiem.CasePatches
import MiniSiem.CorrelationArithmetic
import MiniSiem.CorrelationGroups
import MiniSiem.LimiterEviction
import MiniSiem.RuleSelection
import MiniSiem.TokenBucket
import MiniSiem.AuditEvidence
import MiniSiem.CostDecisions
import MiniSiem.CounterAccounts
import MiniSiem.CounterCoherence
import MiniSiem.CounterExpiry
import MiniSiem.IocMatcher
import MiniSiem.JwksCache
import MiniSiem.Lib.FadingIndex
import MiniSiem.RuleComparisons
import MiniSiem.TokenIndex
import MiniSiem.Fingerprints
import MiniSiem.Lib.Carrying
import MiniSiem.Lib.FirstCome
import MiniSiem.LocalStats
import MiniSiem.SshdLines
import MiniSiem.TenantLabels
import MiniSiem.Accounts
import MiniSiem.Lib.Racing
import MiniSiem.PackInstall
import MiniSiem.ShutdownDrain
import MiniSiem.AccessMatrix
import MiniSiem.AlertEvidence
import MiniSiem.AlertFeed
import MiniSiem.L1Maintenance
import MiniSiem.Lib.Regex
import MiniSiem.MalwareAlerts
import MiniSiem.SignedRequests
import MiniSiem.Lib.OrderStatistics
import MiniSiem.Lib.Rounding
import MiniSiem.ReliabilityStatus
import MiniSiem.ReliabilitySamples

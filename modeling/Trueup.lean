import Trueup.Lots.TieOut
import Trueup.Lots.Executions
import Trueup.Lots.SaleBalance
import Trueup.Lots.WashSaleMatching
import Trueup.Lots.BasisRecovery
import Trueup.Lots.Deferral
import Trueup.Orders.OrderStatus
import Trueup.Orders.Agreement
import Trueup.Workers.Outbox
import Trueup.Workers.AbandonedRows
import Trueup.Cash.OwnRequests
import Trueup.Cash.Overdraft
import Trueup.Cash.BouncedDeposit
import Trueup.Cash.Reservations
import Trueup.Cash.SaleHolds
import Trueup.Restatement.Reproduction
import Trueup.Restatement.CorrectedCloses
import Trueup.Restatement.Interleavings
import Trueup.Statements.AsPublished
import Trueup.Fees.CashOnly
import Trueup.Fees.CollectedReported
import Trueup.Fees.Retried
import Trueup.Fees.MissingPrices
import Trueup.Webhooks.ApplicableEffects
import Trueup.Api.Replays
import Trueup.Chat.CuratedViews
import Trueup.Reconciliation.Simulator
import Trueup.Valuation.PortfolioPerformance
import Trueup.Valuation.FlowNeutrality
import Trueup.Restatement.Restatable
import Trueup.Orders.DesignatedLots
import Trueup.Reconciliation.Completeness
import Trueup.Identity.Relinking
import Trueup.Identity.VerdictOrder
import Trueup.Chat.Confinement
import Trueup.Admin.AgentRequests
import Trueup.Admin.ExecutionFailures
import Trueup.Chat.ReleasedSessions
import Trueup.Lots.LotSelection
import Trueup.Orders.Convergence
import Trueup.Core.Allocation
import Trueup.Core.Parsing
import Trueup.Orders.AverageFillPrice
import Trueup.Rebalance.CashBuffer
import Trueup.Rebalance.Partition
import Trueup.Rebalance.PortfolioHoldingsService
import Trueup.Restatement.PublishedHoldings
import Trueup.Restatement.RunStatus
import Trueup.Lots.DividendEntitlement
import Trueup.Reconciliation.TransactionAmounts
import Trueup.Fees.StripeBillingAdapter
import Trueup.Fees.DunningAttempts
import Trueup.Fees.RetryKeys
import Trueup.Fees.DunningRetryJob
import Trueup.Identity.DepositCaps
import Trueup.Identity.AttemptLimit
import Trueup.Api.Listings
import Trueup.Core.Cursors
import Trueup.Core.TradingDays
import Trueup.Jobs.ScheduledJob
import Trueup.Crypto.KeyVaultCipher
import Trueup.Identity.Auth
import Trueup.Identity.TenantIsolation
import Trueup.Admin.ReviewQueue
import Trueup.Cash.ConcurrentRequests
import Trueup.Ledger.DirectStatements
import Trueup.GuardedRecords
import Trueup.Rebalance.TargetWeights
import Trueup.Identity.AccountOpening

import Trueup.Models.Ledger

/-! # The rows of valuation, restatement and fees

Securities and their closes, the runs of the daily valuation, stored sub-period returns, published
snapshots, restatement events, and the accruals, charges, retries and disclosures of fees. -/

namespace Trueup.Models

open Trueup.Core

structure Security where
  id : Uuid
  symbol : String
  deriving DecidableEq

structure DailyClose where
  securityId : Uuid
  marketDate : Date
  closePrice : Price
  status : DailyCloseStatus
  recordedAt : Instant
  deriving DecidableEq

structure MarketCalendarDay where
  day : Date
  isTradingDay : Bool
  sessionCloseAt : Option Instant
  deriving DecidableEq

structure ValuationRun where
  marketDate : Date
  securitiesExpected : ℕ
  securitiesConfirmed : ℕ
  status : ValuationRunStatus
  recordedAt : Datetime
  deriving DecidableEq

structure SubPeriodReturn where
  customerId : Uuid
  subPeriodStart : Date
  subPeriodEnd : Date
  returnPct : ℚ
  valueBegin : Money
  valueEnd : Money
  flowAmount : Money
  isProvisional : Bool
  recordedAt : Instant
  deriving DecidableEq

/-- One security of `holdings_json`. -/
structure Holding where
  securityId : Uuid
  symbol : Option String
  quantity : Units
  closePrice : Option Price
  deriving DecidableEq

structure PublishedSnapshot where
  customerId : Uuid
  periodStart : Date
  periodEnd : Date
  publishWatermark : Instant
  twr : ℚ
  balance : Money
  holdings : List Holding
  publishedAt : Instant
  deriving DecidableEq

structure RestatementEvent where
  id : Uuid
  customerId : Uuid
  affectedPeriodStart : Date
  affectedPeriodEnd : Date
  triggerType : RestatementTriggerType
  triggerSourceEvent : SourceEvent
  deriving DecidableEq

structure HighWaterMark where
  customerId : Uuid
  peakValue : Money
  updatedAt : Datetime
  deriving DecidableEq

structure FeeAccrual where
  customerId : Uuid
  accrualDate : Date
  gainAmount : Money
  feeAmount : Money
  journalEntryId : Uuid
  deriving DecidableEq

structure FeeCharge where
  id : Uuid
  customerId : Uuid
  billingPeriodStart : Date
  billingPeriodEnd : Date
  totalAccrued : Money
  asPublishedWatermark : Instant
  status : FeeChargeStatus
  stripeChargeId : Option String
  journalEntryId : Option Uuid
  deriving DecidableEq

structure DunningState where
  feeChargeId : Uuid
  customerId : Uuid
  attemptNumber : ℕ
  nextRetryAt : Datetime
  maxAttempts : ℕ
  status : DunningStatus
  deriving DecidableEq

structure PaymentMethod where
  customerId : Uuid
  stripeCustomerId : String
  stripePaymentMethodId : String
  deriving DecidableEq

structure FeeRestatementDisclosure where
  customerId : Uuid
  feeChargeId : Uuid
  restatementEventId : Uuid
  deriving DecidableEq

end Trueup.Models

import Mathlib.Data.Nat.Notation

/-! # The enumerations of the models

One inductive type for each `StrEnum` of the models that a modelled service reads. -/

namespace Trueup.Models

/-- Primary keys: `uuid4` values, of which only equality and the order of the database matter. -/
abbrev Uuid := ℕ

/-- Calendar days, as ordinals. -/
abbrev Date := Int

/-- The broker's execution ids. -/
abbrev ExecutionId := String

inductive KycStatus
  | pending | approved | rejected
  deriving DecidableEq, Repr

inductive AccountApprovalStatus
  | pending | approved | rejected
  deriving DecidableEq, Repr

inductive BankLinkStatus
  | active | requiresReauth | superseded
  deriving DecidableEq, Repr

inductive AccountRole
  | cash | customerEquity | positionUnits | positionCost | feesExpense | dividendIncome
  | customerReceivable | dividendReceivable | realizedGainLoss | feesAccruedPayable
  | feeRevenueAccrued | feeRevenueCollected
  deriving DecidableEq, Repr

inductive AccountDimension
  | money | units
  deriving DecidableEq, Repr

/-- `_ROLE_DIMENSION`. -/
def AccountRole.dimension : AccountRole → AccountDimension
  | .positionUnits => .units
  | _ => .money

inductive JournalEntryType
  | tradeBuy | tradeSell | deposit | withdrawal | dividend | split | feeAdjustment | correction
  | washSaleAdjustment
  deriving DecidableEq, Repr

inductive SettlementObligationStatus
  | pending | confirmed | failed
  deriving DecidableEq, Repr

inductive OrderSide
  | buy | sell
  deriving DecidableEq, Repr

inductive OrderStatus
  | draft | awaitingApproval | approved | submitted | accepted | partiallyFilled | filled
  | rejected | canceled | expired
  deriving DecidableEq, Repr

inductive OrderEventType
  | submitted | accepted | fill | rejected | canceled | expired
  deriving DecidableEq, Repr

inductive ApprovalHoldStatus
  | active | released
  deriving DecidableEq, Repr

inductive ApprovalHoldReleaseReason
  | approvedAndSubmitted | rejected | canceled | expired
  deriving DecidableEq, Repr

inductive LotDesignation
  | unspecified | specific
  deriving DecidableEq, Repr

inductive DailyCloseStatus
  | confirmed | stale | missing
  deriving DecidableEq, Repr

inductive ValuationRunStatus
  | pending | complete | partialRun
  deriving DecidableEq, Repr

inductive RestatementTriggerType
  | correctedClose | lateDividend | split | washSaleAdjustment | manualCorrection
  deriving DecidableEq, Repr

inductive FeeChargeStatus
  | pending | succeeded | failed | dunning
  deriving DecidableEq, Repr

inductive DunningStatus
  | retrying | exhausted
  deriving DecidableEq, Repr

inductive InboundEventSource
  | alpaca | plaid | stripe | marketdata | custodianFile
  deriving DecidableEq, Repr

inductive JobOutboxStatus
  | pending | processing | completed | deadLetter
  deriving DecidableEq, Repr

end Trueup.Models

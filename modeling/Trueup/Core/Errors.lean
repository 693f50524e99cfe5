import Trueup.Core.Quantized
import Trueup.Models.Enums

/-! # The exceptions of the services

One constructor for each exception a modelled function raises, with the values the exception
carries. All of them leave the unit of work by its rollback. -/

namespace Trueup.Core

open Trueup.Models

/-- Why a customer may not fund or trade: `reason` of `FundingNotEligibleError` and
`CustomerNotEligibleError`. -/
inductive Ineligibility
  | customerNotFound
  | kycStatus (status : KycStatus)
  | accountApprovalStatus (status : AccountApprovalStatus)
  deriving DecidableEq, Repr

/-- `cap` of `DepositCapExceededError`. -/
inductive DepositCap
  | perTransaction | perDay
  deriving DecidableEq, Repr

/-- What an agent action is about and is not there. -/
inductive MissingTarget
  | reconciliationBreak | customer
  deriving DecidableEq, Repr

/-- The database constraints a flush can violate. -/
inductive Constraint
  | primaryKey
  /-- `uq_order_event_order_id_seq` -/
  | orderEventSeq
  /-- `uq_order_event_execution_id` -/
  | orderEventExecutionId
  /-- `uq_tax_lot_opening_fill_execution_id` -/
  | taxLotExecutionId
  /-- `quantity_remaining_non_negative` -/
  | quantityRemainingNonNegative
  /-- `uq_wash_sale_original_consumption` -/
  | washSaleConsumption
  /-- `uq_approval_hold_order_id` -/
  | approvalHoldOrderId
  /-- `uq_sub_period_return_customer_period_recorded` -/
  | subPeriodReturnRecorded
  /-- `uq_daily_close_security_market_recorded` -/
  | dailyCloseRecorded
  /-- `uq_fee_accrual_customer_date` -/
  | feeAccrualDate
  /-- `uq_fee_charge_customer_period` -/
  | feeChargePeriod
  /-- `fee_charge_stripe_charge_id_key` -/
  | feeChargeStripeChargeId
  /-- `uq_inbound_event_source_event` -/
  | inboundEventSourceEvent
  /-- `uq_idempotency_key_customer_key` -/
  | idempotencyKeyCustomerKey
  /-- `uq_bank_link_customer_active` -/
  | bankLinkCustomerActive
  /-- `bank_link_plaid_item_id_key` -/
  | bankLinkPlaidItemId
  deriving DecidableEq, Repr

inductive Error
  | valueError
  | typeError
  | invalidOperation
  | zeroDivision
  /-- A date before `date.min` or after `date.max`. -/
  | overflowError
  | integrityError (constraint : Constraint)
  /-- A text longer than its column. -/
  | dataError
  /-- `posting_denormalize_and_validate`: a leg of the wrong dimension. -/
  | dimensionMismatch
  | multipleResultsFound
  | accountMissing (role : AccountRole)
  | invalidPostingLeg
  | unbalancedEntry (total : Money)
  | fundingNotEligible (reason : Ineligibility)
  | noActiveBankLink
  | bankReauthRequired
  | bankLinkNotFound
  | depositCapExceeded (cap : DepositCap)
  | settlementObligationNotFound
  | insufficientWithdrawableCash
  | customerNotEligible (reason : Ineligibility)
  | insufficientInvestableCash (notional investable : Money)
  | orderNotFound
  | invalidOrderTransition (fromStatus : OrderStatus)
  | insufficientLots (missing : Units)
  | unknownTaxLot
  | lotDesignationNotAllowedForBuy
  | emptyLotDesignation
  | duplicateLotDesignation
  | tooManyDesignatedLots
  | insufficientDesignatedLots
  | securityNotFound
  | calendarExhausted
  | marketCalendarCacheMiss
  | notATradingDay
  | snapshotDerivation
  | snapshotCrossCheckFailed
  | orderNotFoundForClientOrderId
  | invalidFillPayload
  | brokerError
  /-- `UnregisteredSourceError` of the dispatcher. -/
  | unregisteredSource
  /-- `NotFoundError` of the export, `code="statement_not_published"`. -/
  | statementNotPublished
  | keyError
  /-- An `assert` that narrows an optional field. -/
  | assertionError
  /-- `FeeChargeNotFoundError`. -/
  | feeChargeNotFound
  | noPaymentMethod
  /-- What the payment port raises, other than a decline. -/
  | paymentError
  /-- `IdempotencyConflictError`, which the API answers with a conflict. -/
  | idempotencyConflict
  /-- `AlreadyResolvedError` of a reconciliation break. -/
  | alreadyResolved
  | noAssignedModel
  /-- `_ExecutionFailedError` of an approved agent action. -/
  | executionFailed (missing : MissingTarget)
  /-- `NotFoundError` of an agent action request. -/
  | agentActionRequestNotFound
  /-- `ConflictError`, `code="agent_action_request_not_pending"`. -/
  | agentActionRequestNotPending
  /-- An update of a row that is gone. -/
  | staleData
  /-- The process or the connection dies inside a transaction. -/
  | interrupted
  deriving DecidableEq

end Trueup.Core

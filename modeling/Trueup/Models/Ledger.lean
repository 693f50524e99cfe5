import Trueup.Core.Clock
import Trueup.Lib.Table

/-! # The rows of the ledger

`models/ledger`: accounts, journal entries and their postings, settlement obligations, tax lots,
their consumptions and the wash-sale adjustments. An account is its key (customer, role, security);
the `inbound_event` behind an entry or an obligation is kept in it. A posting sets exactly one of
money and units by construction, and a lot cannot remain negative. -/

namespace Trueup.Models

open Trueup.Core

/-- An account: `customer_id` is null on house accounts. -/
structure Account where
  customerId : Option Uuid
  role : AccountRole
  securityId : Option Uuid
  deriving DecidableEq, Repr

/-- The account of a customer that no security is attached to. -/
def Account.ofCustomer (customerId : Uuid) (role : AccountRole) : Account :=
  ⟨some customerId, role, none⟩

/-- The `inbound_event` a row was written for: its kind and its payload. -/
inductive SourceEvent
  | depositInitiated (customerId : Uuid) (amount : Money)
  | depositSettlementExpected (customerId : Uuid) (amount : Money)
  | depositAchReturn (customerId : Uuid) (amount : Money)
  | withdrawalInitiated (customerId : Uuid) (amount : Money)
  | tradeBuyFill (customerId securityId : Uuid) (executionId : ExecutionId) (quantity : Units)
      (price : Price)
  | tradeBuySettlementExpected (executionId : ExecutionId) (amount : Money)
  | tradeSellFill (customerId securityId : Uuid) (executionId : ExecutionId) (quantity : Units)
      (price : Price)
  | tradeSellSettlementExpected (executionId : ExecutionId) (amount : Money)
  | washSaleAdjustment (lotConsumptionId replacementTaxLotId : Uuid) (disallowedAmount : Money)
  | split (customerId securityId : Uuid) (ratio : ℚ)
  | dividendExDate (customerId securityId : Uuid) (quantityHeld : Units) (perShareAmount : Price)
  | dividendPayDate (customerId : Uuid) (amount : Money)
  | dividendPayDateSettlementExpected (customerId : Uuid) (amount : Money)
  | simulatedCorrectedClose (securityId : Uuid) (marketDate : Date) (newClose : Price)
  | feeAccrual (customerId : Uuid) (accrualDate : Date) (gainAmount feeAmount : Money)
  | feeChargeSucceeded (feeChargeId : Uuid) (stripeChargeId : String) (amount : Money)
  deriving DecidableEq

structure JournalEntry where
  id : Uuid
  entryType : JournalEntryType
  effectiveDate : Date
  sourceEvent : SourceEvent
  supersededBy : Option Uuid
  supersedesReason : Option String
  deriving DecidableEq

/-- What a posting moves: `exactly_one_dimension`. -/
inductive Amount
  | money (amount : Money)
  | units (quantity : Units)
  deriving DecidableEq

def Amount.dimension : Amount → AccountDimension
  | .money _ => .money
  | .units _ => .units

/-- The money quanta of an amount. -/
def Amount.moneyQuanta : Amount → ℤ
  | .money a => a.quanta
  | .units _ => 0

/-- The unit quanta of an amount. -/
def Amount.unitQuanta : Amount → ℤ
  | .money _ => 0
  | .units q => q.quanta

structure Posting where
  journalEntryId : Uuid
  account : Account
  amount : Amount
  deriving DecidableEq

structure SettlementObligation where
  id : Uuid
  journalEntryId : Uuid
  account : Account
  amountMoney : Money
  expectedSettlementDate : Date
  status : SettlementObligationStatus
  confirmedAt : Option Datetime
  failedAt : Option Datetime
  failureReason : Option String
  sourceEvent : SourceEvent
  deriving DecidableEq

/-- A tax lot; the `CHECK` on `quantity_remaining` is a field. -/
structure TaxLot where
  id : Uuid
  customerId : Uuid
  securityId : Uuid
  openingFillExecutionId : ExecutionId
  quantityOpened : Units
  quantityRemaining : Units
  remaining_nonneg : 0 ≤ quantityRemaining.quanta
  originalCostBasis : Money
  adjustedBasis : Money
  acquiredAt : Date
  designation : LotDesignation
  designationWindowClosesAt : Instant
  deriving DecidableEq

/-- An update of a lot's quantities, refused below zero. -/
def TaxLot.withQuantities (lot : TaxLot) (opened remaining : Units) : Except Error TaxLot :=
  if h : 0 ≤ remaining.quanta then
    .ok { lot with quantityOpened := opened, quantityRemaining := remaining, remaining_nonneg := h }
  else .error (.integrityError .quantityRemainingNonNegative)

theorem TaxLot.withQuantities_ok {lot lot' : TaxLot} {opened remaining : Units}
    (h : lot.withQuantities opened remaining = .ok lot') :
    ∃ h : 0 ≤ remaining.quanta, lot' = { lot with
      quantityOpened := opened, quantityRemaining := remaining, remaining_nonneg := h } := by
  unfold withQuantities at h
  split_ifs at h with h0
  cases h
  exact ⟨h0, rfl⟩

structure LotConsumption where
  id : Uuid
  closingFillExecutionId : ExecutionId
  taxLotId : Uuid
  quantityConsumed : Units
  realizedGainLoss : Money
  isProvisional : Bool
  saleDate : Date
  deriving DecidableEq

structure WashSaleAdjustment where
  originalLotConsumptionId : Uuid
  replacementTaxLotId : Uuid
  disallowedAmount : Money
  journalEntryId : Uuid
  deriving DecidableEq

end Trueup.Models

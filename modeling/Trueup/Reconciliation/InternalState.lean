import Trueup.Lib.Dict
import Trueup.Valuation.ValuationService

/-! # The internal state

The readers of `services/reconciliation/internal_state.py`, shared by the reconciliation and by the
file simulator: the positions as of a day, the customers, and the day's entries that the custodian
can see.

The text `InboundEvent.source_event_id` of an entry is a function of the entry's id. -/

namespace Trueup.Reconciliation

open Trueup.Core Trueup.Models Trueup.Lib Trueup.Ledger Trueup.Valuation

/-- `CUSTODIAN_OBSERVABLE_ENTRY_TYPES`. -/
def custodianObservableEntryTypes : List JournalEntryType :=
  [.tradeBuy, .tradeSell, .deposit, .withdrawal, .dividend, .feeAdjustment]

structure InternalTransactionSnapshot where
  journalEntryId : Uuid
  entryType : JournalEntryType
  customerId : Option Uuid
  securityId : Option Uuid
  amountMoney : Money
  quantity : Option Units
  effectiveDate : Date
  deriving DecidableEq

/-- A customer and a security. -/
abbrev PositionKey := Uuid × Uuid

/-- The rows of the query of `read_internal_positions`: the units of each pair of columns. -/
def positionRows (db : Database) (marketDate : Date) :
    Except Error (List ((Option Uuid × Option Uuid) × Units)) :=
  let postings := db.postings.filter fun p =>
    decide (p.account.role = .positionUnits) && isEffectiveBy db marketDate p
  (postings.map fun p => (p.account.customerId, p.account.securityId)).dedup.mapM fun columns => do
    let units ← QuantizedDecimal.ofSum ((postings.filter fun p =>
      (p.account.customerId, p.account.securityId) = columns).map (·.amount.unitQuanta)).sum
    return (columns, units)

/-- `read_internal_positions`. -/
def readInternalPositions (db : Database) (marketDate : Date) :
    Except Error (Dict PositionKey Units) := do
  let rows ← positionRows db marketDate
  return .ofList (rows.filterMap fun (columns, units) =>
    match columns with
    | (some customerId, some securityId) =>
      if units ≠ 0 then some ((customerId, securityId), units) else none
    | _ => none)

/-- `read_customer_ids`. -/
def readCustomerIds (db : Database) : List Uuid := db.customers.rows.map (·.id)

/-- What the loop over the postings of an entry adds up: the money, the units and their security. -/
structure PostingTotals where
  amountTotal : Money := 0
  unitsTotal : Option Units := none
  securityId : Option Uuid := none

/-- One turn of that loop. -/
def PostingTotals.add (totals : PostingTotals) (posting : Posting) : Except Error PostingTotals :=
  match posting.amount with
  | .money amount => do
    return { totals with amountTotal := ← totals.amountTotal.add amount }
  | .units quantity => do
    return { totals with
      unitsTotal := some (← (totals.unitsTotal.getD 0).add quantity)
      securityId := posting.account.securityId }

/-- One turn of the loop of `read_internal_transactions`. -/
def snapshotOf (db : Database) (entry : JournalEntry) : Except Error InternalTransactionSnapshot := do
  let postings := db.postings.filter (·.journalEntryId = entry.id)
  let totals ← postings.foldlM PostingTotals.add {}
  return {
    journalEntryId := entry.id
    entryType := entry.entryType
    customerId := (postings.filterMap (·.account.customerId)).head?
    securityId := totals.securityId
    amountMoney := totals.amountTotal
    quantity := totals.unitsTotal
    effectiveDate := entry.effectiveDate }

/-- `read_internal_transactions`, by the `source_event_id` of the entries. -/
def readInternalTransactions (sourceEventId : Uuid → String) (db : Database) (marketDate : Date) :
    Except Error (Dict String InternalTransactionSnapshot) := do
  let entries := db.journalEntries.rows.filter fun entry =>
    entry.effectiveDate = marketDate ∧ entry.entryType ∈ custodianObservableEntryTypes
  let snapshots ← entries.mapM fun entry => do
    return (sourceEventId entry.id, ← snapshotOf db entry)
  return .ofList snapshots

end Trueup.Reconciliation

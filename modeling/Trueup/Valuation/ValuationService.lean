import Mathlib.Data.List.Sort
import Trueup.Ledger.CashPolicy

/-! # Whole-book valuation

`services/valuation/valuation_service.py`: the cash and the positions of a customer as of a day, by
the effective dates of the entries, and the value of the book at that day's confirmed closes. -/

namespace Trueup.Valuation

open Trueup.Core Trueup.Models Trueup.Lib Trueup.Lib.Transaction Trueup.Ledger

/-- `order_by(recorded_at.desc()).first()`. -/
def latestBy {α : Type} (recordedAt : α → Instant) (rows : List α) : Option α :=
  (rows.insertionSort fun a b => recordedAt b ≤ recordedAt a).head?

/-- The posting's entry is effective on or before the day. -/
def isEffectiveBy (db : Database) (day : Date) (posting : Posting) : Bool :=
  ∃ entry ∈ db.journalEntries.find posting.journalEntryId, entry.effectiveDate ≤ day

/-- `_cash_balance`. -/
def cashBalance (db : Database) (customerId : Uuid) (asOfDate : Date) : Except Error Money :=
  QuantizedDecimal.ofSum ((db.postings.filter fun p =>
    isCashOf customerId p && isEffectiveBy db asOfDate p).map (·.amount.moneyQuanta)).sum

/-- A posting on one of the customer's `position_units` accounts. -/
def isUnitsOf (customerId : Uuid) (posting : Posting) : Bool :=
  posting.account.customerId = some customerId ∧ posting.account.role = .positionUnits

/-- `_position_units`: the postings up to the day, added up by security. -/
def positionUnits (db : Database) (customerId : Uuid) (asOfDate : Date) :
    Except Error (List (Uuid × Units)) :=
  let postings := db.postings.filter fun p =>
    isUnitsOf customerId p && isEffectiveBy db asOfDate p
  (postings.filterMap (·.account.securityId)).dedup.mapM fun securityId => do
    let units ← QuantizedDecimal.ofSum
      ((postings.filter (·.account.securityId = some securityId)).map (·.amount.unitQuanta)).sum
    return (securityId, units)

/-- `position_units`: without the positions that are sold out. -/
def heldUnits (db : Database) (customerId : Uuid) (asOfDate : Date) :
    Except Error (List (Uuid × Units)) := do
  let positions ← positionUnits db customerId asOfDate
  return positions.filter (·.2 ≠ 0)

/-- `DailyCloseRepository.latest_confirmed`. -/
def latestConfirmed (db : Database) (securityId : Uuid) (marketDate : Date) : Option DailyClose :=
  latestBy DailyClose.recordedAt (db.dailyCloses.filter fun close =>
    close.securityId = securityId ∧ close.marketDate = marketDate ∧ close.status = .confirmed)

/-- `BookValuation`; a book with a position that has no confirmed close is partial. -/
structure BookValuation where
  totalValue : Money
  isPartial : Bool
  deriving DecidableEq

/-- The loop of `value_book` over the positions. -/
def addPositions (db : Database) (asOfDate : Date) :
    List (Uuid × Units) → BookValuation → Except Error BookValuation
  | [], book => .ok book
  | (securityId, units) :: positions, book => do
    if units = 0 then addPositions db asOfDate positions book
    else
      match latestConfirmed db securityId asOfDate with
      | none => addPositions db asOfDate positions { book with isPartial := true }
      | some close =>
        let value ← Price.times close.closePrice units
        let totalValue ← book.totalValue.add value
        addPositions db asOfDate positions { book with totalValue }

/-- `value_book`. -/
def valueBook (db : Database) (customerId : Uuid) (asOfDate : Date) :
    Except Error BookValuation := do
  let totalValue ← cashBalance db customerId asOfDate
  let positions ← positionUnits db customerId asOfDate
  addPositions db asOfDate positions { totalValue, isPartial := false }

end Trueup.Valuation

import Trueup.Lots.CorporateActionService

/-! # Recording closes

The two ways a confirmed close enters the database: the daily job of `jobs/daily_valuation.py`,
which asks the market-data port for every security with a position, and `inject_corrected_price` of
`integrations/fake/custodian_file_adapter.py`, which restates the customers who hold the security.
The answers of the ports are inputs of the job. -/

namespace Trueup.Restatement

open Trueup.Core Trueup.Models Trueup.Lib Trueup.Lib.Transaction Trueup.Ledger Trueup.Valuation
open Trueup.Lots

/-- A close recorded now. -/
def closeAt (env : Env) (securityId : Uuid) (marketDate : Date) (closePrice : Price) :
    DailyClose where
  securityId := securityId
  marketDate := marketDate
  closePrice := closePrice
  status := .confirmed
  recordedAt := (env.now .recordedAt).instant

/-- `inject_corrected_price`. -/
def injectCorrectedPrice (env : Env) (securityId : Uuid) (marketDate : Date) (newClose : Price) :
    Tx Unit := do
  addDailyClose (closeAt env securityId marketDate newClose)
  let customers ← read fun db => .ok (listCustomersHolding db securityId)
  each (fun customerId => restate env false customerId marketDate .correctedClose
    (.simulatedCorrectedClose securityId marketDate newClose)) customers

/-- The answers of the calendar port and of the market-data port for one day. -/
structure MarketAnswers where
  tradingDay : Except Error (Bool × Option Instant)
  getClose : String → Except Error (Option Price)

/-- `_securities_with_positions`: the securities of which the customers together hold something. -/
def securitiesWithPositions (db : Database) (marketDate : Date) : Except Error (List Uuid) := do
  let postings := db.postings.filter fun p =>
    decide (p.account.role = .positionUnits) && isEffectiveBy db marketDate p
  let totals ← (postings.filterMap (·.account.securityId)).dedup.mapM fun securityId => do
    let units ← (QuantizedDecimal.ofSum ((postings.filter
      (·.account.securityId = some securityId)).map (·.amount.unitQuanta)).sum : Except Error Units)
    return (securityId, units)
  return (totals.filter (·.2 ≠ 0)).map (·.1)

/-- The loop of the job; the number of closes it recorded. -/
def recordCloses (env : Env) (answers : MarketAnswers) (marketDate : Date) :
    List Uuid → ℕ → Tx ℕ
  | [], confirmed => return confirmed
  | securityId :: securityIds, confirmed => do
    let security ← read fun db => .ok (db.securities.find securityId)
    match security with
    | none => recordCloses env answers marketDate securityIds confirmed
    | some security =>
      match ← lift (answers.getClose security.symbol) with
      | none => recordCloses env answers marketDate securityIds confirmed
      | some closePrice =>
        addDailyClose (closeAt env securityId marketDate closePrice)
        recordCloses env answers marketDate securityIds (confirmed + 1)

/-- `DailyValuationJob.perform`. -/
def dailyValuation (env : Env) (marketDate : Date) (answers : MarketAnswers) : Tx Unit := do
  let (isTradingDay, sessionCloseAt) ← lift answers.tradingDay
  upsertCalendarDay ⟨marketDate, isTradingDay, sessionCloseAt⟩
  whenever (isTradingDay = true) do
    let securityIds ← read fun db => securitiesWithPositions db marketDate
    let confirmed ← recordCloses env answers marketDate securityIds 0
    upsertValuationRun {
      marketDate, securitiesExpected := securityIds.length, securitiesConfirmed := confirmed
      status := if confirmed = securityIds.length then .complete else .partialRun
      recordedAt := env.now .recordedAt }

end Trueup.Restatement

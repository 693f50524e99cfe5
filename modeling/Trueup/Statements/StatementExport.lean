import Trueup.Valuation.ValuationService

/-! # The export of a statement

`export_statement` of `controllers/api/statements.py`: the realized consumptions of a published
period, one line each. The period is that of the snapshot the caller names by its watermark, or of
the latest one; the lines are read from the consumptions and the lots as they are now. -/

namespace Trueup.Statements

open Trueup.Core Trueup.Models Trueup.Lib Trueup.Lib.Transaction Trueup.Valuation

/-- `at_watermark_for_period`. -/
def atWatermarkForPeriod (db : Database) (customerId : Uuid) (periodStart : Date)
    (publishWatermark : Instant) : Option PublishedSnapshot :=
  db.publishedSnapshots.find? fun snapshot => snapshot.customerId = customerId ∧
    snapshot.periodStart = periodStart ∧ snapshot.publishWatermark = publishWatermark

/-- `latest_for_period`. -/
def latestForPeriod (db : Database) (customerId : Uuid) (periodStart : Date) :
    Option PublishedSnapshot :=
  latestBy PublishedSnapshot.publishWatermark (db.publishedSnapshots.filter fun snapshot =>
    snapshot.customerId = customerId ∧ snapshot.periodStart = periodStart)

/-- The consumption is of a lot of the customer, and its sale is in the period. -/
def isRealizedIn (db : Database) (customerId : Uuid) (periodStart periodEnd : Date)
    (consumption : LotConsumption) : Bool :=
  (∃ lot ∈ db.taxLots.find consumption.taxLotId, lot.customerId = customerId) ∧
    periodStart ≤ consumption.saleDate ∧ consumption.saleDate ≤ periodEnd

/-- `list_realized_in_period`. -/
def listRealizedInPeriod (db : Database) (customerId : Uuid) (periodStart periodEnd : Date) :
    List LotConsumption :=
  (db.lotConsumptions.rows.filter (isRealizedIn db customerId periodStart periodEnd)).insertionSort
    (·.saleDate ≤ ·.saleDate)

/-- A line of the export, under `_EXPORT_CSV_HEADER`. -/
structure ExportRow where
  symbol : String
  quantityConsumed : Units
  originalCostBasis : Money
  adjustedBasis : Money
  realizedGainLoss : Money
  isProvisional : Bool
  deriving DecidableEq

/-- `security.symbol if security is not None else ""`. -/
def symbolOf (db : Database) (securityId : Uuid) : String :=
  ((db.securities.find securityId).map (·.symbol)).getD ""

/-- The line of one consumption. -/
def exportRow (db : Database) (consumption : LotConsumption) : Except Error ExportRow := do
  let lot ← ofOption (db.taxLots.find consumption.taxLotId) .keyError
  return {
    symbol := symbolOf db lot.securityId
    quantityConsumed := consumption.quantityConsumed
    originalCostBasis := lot.originalCostBasis
    adjustedBasis := lot.adjustedBasis
    realizedGainLoss := consumption.realizedGainLoss
    isProvisional := consumption.isProvisional }

/-- The snapshot an export is asked for. -/
def exportedSnapshot (db : Database) (customerId : Uuid) (periodStart : Date)
    (publishWatermark : Option Instant) : Option PublishedSnapshot :=
  match publishWatermark with
  | some watermark => atWatermarkForPeriod db customerId periodStart watermark
  | none => latestForPeriod db customerId periodStart

/-- `export_statement`. -/
def exportStatement (db : Database) (customerId : Uuid) (periodStart : Date)
    (publishWatermark : Option Instant) : Except Error (List ExportRow) := do
  let snapshot ← ofOption (exportedSnapshot db customerId periodStart publishWatermark)
    .statementNotPublished
  (listRealizedInPeriod db customerId snapshot.periodStart snapshot.periodEnd).mapM (exportRow db)

end Trueup.Statements

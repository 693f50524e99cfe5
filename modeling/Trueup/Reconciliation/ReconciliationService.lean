import Trueup.Core.Clock
import Trueup.Reconciliation.InternalState

/-! # Morning reconciliation

`services/reconciliation/reconciliation_service.py`: the rows of the three custodian files are kept
as they came, then each file is matched with the internal state; on a day without trading nothing is
done. The JSON columns of a file row and of a break are kept as the values that are rendered into
them. -/

namespace Trueup.Reconciliation

open Trueup.Core Trueup.Models Trueup.Lib Trueup.Lib.Transaction Trueup.Ledger

/-! ### The custodian's files -/

inductive CustodianTransactionType
  | trade | dividend | deposit | withdrawal | fee
  deriving DecidableEq

structure CustodianPositionRow where
  customerId : Uuid
  securityId : Uuid
  quantity : Units
  asOfDate : Date
  deriving DecidableEq

structure CustodianCashRow where
  customerId : Uuid
  settledCash : Money
  asOfDate : Date
  deriving DecidableEq

structure CustodianTransactionRow where
  custodianTransactionId : String
  customerId : Option Uuid
  securityId : Option Uuid
  transactionType : CustodianTransactionType
  amountMoney : Money
  quantity : Option Units
  effectiveDate : Date
  deriving DecidableEq

structure CustodianFileSet where
  positions : List CustodianPositionRow
  cash : List CustodianCashRow
  transactions : List CustodianTransactionRow
  isSimulated : Bool
  deriving DecidableEq

/-! ### The tables -/

/-- `file_type` and `raw_row`. -/
inductive RawRow
  | positions (row : CustodianPositionRow)
  | cash (row : CustodianCashRow)
  | transactions (row : CustodianTransactionRow)
  deriving DecidableEq

structure CustodianFileRow where
  rawRow : RawRow
  importBatchId : Uuid
  isSimulated : Bool
  importedAt : Instant
  deriving DecidableEq

inductive ReconciliationBreakType
  | positionMismatch | cashMismatch | unmatchedCustodianTransaction | unmatchedInternalTransaction
  deriving DecidableEq

inductive ReconciliationBreakStatus
  | open | resolved
  deriving DecidableEq

/-- What is rendered into `expected` and `actual`. -/
inductive BreakSide
  | position (securityId : Uuid) (quantity : Units)
  | settledCash (amount : Money)
  | transaction (row : CustodianTransactionRow)
  | snapshot (snapshot : InternalTransactionSnapshot)
  deriving DecidableEq

structure ReconciliationBreak where
  breakType : ReconciliationBreakType
  customerId : Option Uuid
  expected : Option BreakSide
  actual : Option BreakSide
  openedAt : Instant
  importBatchId : Uuid
  status : ReconciliationBreakStatus := .open
  deriving DecidableEq

/-- `custodian_file_row` and `reconciliation_break`. -/
structure ReconciliationTables where
  custodianFileRows : List CustodianFileRow
  reconciliationBreaks : List ReconciliationBreak
  deriving DecidableEq

/-! ### The three loops -/

/-- An import: its id, and the time it is opened at. -/
structure ImportBatch where
  id : Uuid
  openedAt : Instant

/-- `_persist_raw_rows`. -/
def persistRawRows (fileSet : CustodianFileSet) (batch : ImportBatch) : List CustodianFileRow :=
  (fileSet.positions.map RawRow.positions ++ fileSet.cash.map RawRow.cash ++
    fileSet.transactions.map RawRow.transactions).map fun rawRow =>
      ⟨rawRow, batch.id, fileSet.isSimulated, batch.openedAt⟩

/-- `left.keys() | right.keys()`. -/
def unionKeys {κ : Type} [DecidableEq κ] (left right : List κ) : List κ :=
  left ++ right.filter (· ∉ left)

/-- The position break of a key. -/
def positionMismatch (batch : ImportBatch) (key : PositionKey) (internalQty fileQty : Units) :
    ReconciliationBreak where
  breakType := .positionMismatch
  customerId := some key.1
  expected := some (.position key.2 internalQty)
  actual := some (.position key.2 fileQty)
  openedAt := batch.openedAt
  importBatchId := batch.id

/-- The loop of `_match_positions`. -/
def matchPositions (internal : Dict PositionKey Units) (fileSet : CustodianFileSet)
    (batch : ImportBatch) : List ReconciliationBreak :=
  let fromFile : Dict PositionKey Units :=
    .ofList (fileSet.positions.map fun row => ((row.customerId, row.securityId), row.quantity))
  (unionKeys internal.keys fromFile.keys).filterMap fun key =>
    let internalQty := internal.getD key 0
    let fileQty := fromFile.getD key 0
    if internalQty = fileQty then none else some (positionMismatch batch key internalQty fileQty)

/-- `_match_cash`. -/
def matchCash (db : Database) (fileSet : CustodianFileSet) (batch : ImportBatch) :
    Except Error (List ReconciliationBreak) := do
  let fromFile : Dict Uuid Money :=
    .ofList (fileSet.cash.map fun row => (row.customerId, row.settledCash))
  let found ← (unionKeys (readCustomerIds db) fromFile.keys).mapM fun customerId => do
    let internalCash ← settledCash db customerId
    let fileCash := fromFile.getD customerId 0
    if internalCash = fileCash then return none
    return some {
      breakType := .cashMismatch
      customerId := some customerId
      expected := some (.settledCash internalCash)
      actual := some (.settledCash fileCash)
      openedAt := batch.openedAt
      importBatchId := batch.id : ReconciliationBreak }
  return found.reduceOption

/-- The break of a custodian transaction without an internal one. -/
def unmatchedCustodianTransaction (batch : ImportBatch) (row : CustodianTransactionRow) :
    ReconciliationBreak where
  breakType := .unmatchedCustodianTransaction
  customerId := row.customerId
  expected := none
  actual := some (.transaction row)
  openedAt := batch.openedAt
  importBatchId := batch.id

/-- The break of an internal transaction without one of the custodian. -/
def unmatchedInternalTransaction (batch : ImportBatch) (snapshot : InternalTransactionSnapshot) :
    ReconciliationBreak where
  breakType := .unmatchedInternalTransaction
  customerId := snapshot.customerId
  expected := some (.snapshot snapshot)
  actual := none
  openedAt := batch.openedAt
  importBatchId := batch.id

/-- The loops of `_match_transactions`. -/
def matchTransactions (internal : Dict String InternalTransactionSnapshot)
    (fileSet : CustodianFileSet) (batch : ImportBatch) : List ReconciliationBreak :=
  let fromFile : Dict String CustodianTransactionRow :=
    .ofList (fileSet.transactions.map fun row => (row.custodianTransactionId, row))
  (fromFile.rows.filter fun row => row.1 ∉ internal.keys).map
      (fun row => unmatchedCustodianTransaction batch row.2) ++
    (internal.rows.filter fun row => row.1 ∉ fromFile.keys).map
      (fun row => unmatchedInternalTransaction batch row.2)

/-- `run_morning_reconciliation`. -/
def runMorningReconciliation (clock : MarketClock) (sourceEventId : Uuid → String) (batch : ImportBatch)
    (marketDate : Date) (fileSet : CustodianFileSet) (db : Database) (tables : ReconciliationTables) :
    Except Error (List ReconciliationBreak × ReconciliationTables) := do
  if ← clock.calendar.isTradingDay marketDate then
    let positions ← readInternalPositions db marketDate
    let cashBreaks ← matchCash db fileSet batch
    let transactions ← readInternalTransactions sourceEventId db marketDate
    let breaks := matchPositions positions fileSet batch ++ cashBreaks ++
      matchTransactions transactions fileSet batch
    return (breaks,
      { custodianFileRows := tables.custodianFileRows ++ persistRawRows fileSet batch
        reconciliationBreaks := tables.reconciliationBreaks ++ breaks })
  else return ([], tables)

end Trueup.Reconciliation

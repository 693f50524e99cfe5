import Trueup.Fees.FeeAccrualService
import Trueup.Lots.TieOut
import Trueup.Restatement.CloseRecording
import Trueup.Restatement.SnapshotService
import Trueup.System

/-! # The system with its reports

The units of work of the application, direct calls of the lot services, and the operations that
compute, publish and correct figures, as one labelled step each. -/

namespace Trueup.Reporting

open Trueup.Core Trueup.Models Trueup.Lib Trueup.Lib.Transaction Trueup.Valuation Trueup.Lots
open Trueup.Restatement Trueup.Fees

/-- An operation on the ledger or on the figures. -/
inductive Op
  | application (op : System.Op)
  | lots (op : LotOp)
  | computeTwr (customerId : Uuid) (periodStart periodEnd : Date)
  | publish (customerId : Uuid) (periodStart periodEnd : Date)
  | restate (disclose : Bool) (customerId : Uuid) (affectedDate : Date)
      (triggerType : RestatementTriggerType) (source : SourceEvent)
  | injectCorrectedPrice (securityId : Uuid) (marketDate : Date) (newClose : Price)
  | dailyValuation (marketDate : Date) (answers : MarketAnswers)
  | declareDividendExDate (securityId : Uuid) (perShareAmount : Price) (exDate : Date)
  | payDividend (customerId : Uuid) (amount : Money) (payDate : Date)
  | accrueForCustomer (feeRatePct : ℚ) (customerId : Uuid) (accrualDate : Date)

/-- An operation with what it reads from outside the database. -/
structure Step where
  env : Env
  op : Op

/-- The start of the step's transaction. -/
def Step.start (step : Step) : Instant := step.env.transactionStart

/-- The unit of work of an operation. -/
def body (step : Step) : Tx Unit :=
  match step.op with
  | .application op => System.body ⟨step.env, op⟩
  | .lots op => lotBody ⟨step.env, op⟩
  | .computeTwr customerId periodStart periodEnd => do
    let _ ← computeTwr step.env customerId periodStart periodEnd
  | .publish customerId periodStart periodEnd => do
    let _ ← publish step.env customerId periodStart periodEnd
  | .restate disclose customerId affectedDate triggerType source =>
    restate step.env disclose customerId affectedDate triggerType source
  | .injectCorrectedPrice securityId marketDate newClose =>
    injectCorrectedPrice step.env securityId marketDate newClose
  | .dailyValuation marketDate answers => dailyValuation step.env marketDate answers
  | .declareDividendExDate securityId perShareAmount exDate =>
    declareDividendExDate step.env securityId perShareAmount exDate
  | .payDividend customerId amount payDate => payDividend step.env customerId amount payDate
  | .accrueForCustomer feeRatePct customerId accrualDate => do
    let _ ← accrueForCustomer step.env feeRatePct customerId accrualDate

/-- The database of a serial run. -/
abbrev run (steps : List Step) (db : Database) : Database := runs body steps db

end Trueup.Reporting

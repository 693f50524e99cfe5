import Trueup.Rebalance.RebalanceOrderService
import Trueup.Valuation.ValuationService

/-! # The evaluation of a customer's drift

`services/rebalance/drift_evaluation_service.py`: the holdings of a customer against the target
weights of his model, on a relative band; and `real_order_placer`, which places the orders of a
rebalance and hands the approved ones to the outbox. -/

namespace Trueup.Rebalance

open Trueup.Core Trueup.Models Trueup.Lib Trueup.Lib.Transaction Trueup.Ledger Trueup.Orders
open Trueup.Valuation

structure CustomerModelAssignment where
  customerId : Uuid
  modelPortfolioId : Uuid
  deriving DecidableEq

/-- A target weight, a `NUMERIC(5,4)`. -/
structure TargetWeight where
  modelPortfolioId : Uuid
  securityId : Uuid
  weightPct : QuantizedDecimal 4 5
  deriving DecidableEq

/-- `uq_target_weight_model_security`. -/
def TargetWeight.key (target : TargetWeight) : Uuid × Uuid :=
  (target.modelPortfolioId, target.securityId)

/-- The tables of `RebalanceUnitOfWork`; of `job_outbox`, the tasks `submit_order_to_broker`. -/
structure RebalanceTables where
  db : Database
  customerModelAssignments : Table CustomerModelAssignment.customerId
  targetWeights : Table TargetWeight.key
  submissions : Outbox OrderSubmission

abbrev RebalanceTx (α : Type) := Transaction.Tx Error RebalanceTables α

/-! ### The evaluation -/

/-- `is_out_of_band`. -/
def isOutOfBand (currentWeightPct targetWeightPct driftBandPct : ℚ) : Bool :=
  if targetWeightPct = 0 then currentWeightPct ≠ 0
  else driftBandPct < |context (context (currentWeightPct - targetWeightPct) / targetWeightPct)|

/-- `_build_entry`. -/
def buildEntry (driftBandPct : ℚ) (totalValue : Money) (securityId : Option Uuid) (currentValue : Money)
    (targetWeightPct : ℚ) (price : Option Price) : Except Error DriftEntry := do
  let targetValue ← totalValue.scale targetWeightPct
  let currentWeightPct ← currentValue.ratio totalValue
  return {
    securityId
    currentMarketValue := currentValue
    targetMarketValue := targetValue
    currentWeightPct
    targetWeightPct
    price
    isFlagged := isOutOfBand currentWeightPct targetWeightPct driftBandPct
    direction := if targetValue < currentValue then .sell else .buy }

/-- The loops over the securities, each with what is held of it and its weight; without a confirmed
close of one of them there are no entries. -/
def securityEntries (driftBandPct : ℚ) (db : Database) (totalValue : Money) (asOfDate : Date) :
    List (Uuid × Units × ℚ) → Except Error (Option (List DriftEntry))
  | [] => return some []
  | (securityId, units, weightPct) :: securities =>
    match latestConfirmed db securityId asOfDate with
    | none => return none
    | some close => do
      let currentValue ← Price.times close.closePrice units
      let entry ← buildEntry driftBandPct totalValue (some securityId) currentValue weightPct
        (some close.closePrice)
      let entries ← securityEntries driftBandPct db totalValue asOfDate securities
      return entries.map (entry :: ·)

/-- `current_units.get(security_id, Units("0"))`. -/
def unitsOf (currentUnits : List (Uuid × Units)) (securityId : Uuid) : Units :=
  ((currentUnits.find? (·.1 = securityId)).map (·.2)).getD 0

/-- `accounted_target_pct`. -/
def accountedTargetPct (targets : List TargetWeight) : ℚ :=
  targets.foldl (fun accounted target => context (accounted + target.weightPct.value)) 0

/-- The entries of a complete book: the targets, then what is held besides, then the cash. Without a
confirmed close of one of the securities there are none. -/
def driftEntries (driftBandPct : ℚ) (db : Database) (targets : List TargetWeight) (customerId : Uuid)
    (asOfDate : Date) (totalValue : Money) : Except Error (Option (List DriftEntry)) := do
  let currentUnits ← heldUnits db customerId asOfDate
  let cashBalance ← cashBalance db customerId asOfDate
  let targeted := targets.map fun target =>
    (target.securityId, unitsOf currentUnits target.securityId, target.weightPct.value)
  let dropped := (currentUnits.filter fun held =>
    held.1 ∉ targets.map TargetWeight.securityId).map fun held => (held.1, held.2, (0 : ℚ))
  let entries ← securityEntries driftBandPct db totalValue asOfDate (targeted ++ dropped)
  match entries with
  | none => return none
  | some entries => do
    let cash ← buildEntry driftBandPct totalValue none cashBalance
      (context (1 - accountedTargetPct targets)) none
    return some (entries ++ [cash])

/-- `list_for_model`. -/
def listForModel (tables : RebalanceTables) (modelPortfolioId : Uuid) : List TargetWeight :=
  tables.targetWeights.rows.filter (·.modelPortfolioId = modelPortfolioId)

/-- `evaluate`: a partial book, and one without value, has no entries. -/
def evaluate (driftBandPct : ℚ) (tables : RebalanceTables) (customerId : Uuid) (asOfDate : Date) :
    Except Error DriftEvaluation := do
  let assignment ← ofOption (tables.customerModelAssignments.find customerId) .noAssignedModel
  let modelPortfolioId := assignment.modelPortfolioId
  let book ← valueBook tables.db customerId asOfDate
  let totalValue := book.totalValue
  if book.isPartial ∨ totalValue = 0 then
    return {
      customerId, modelPortfolioId, asOfDate, totalValue, isPartial := book.isPartial, entries := [] }
  else
    let found ← driftEntries driftBandPct tables.db (listForModel tables modelPortfolioId) customerId
      asOfDate totalValue
    match found with
    | none =>
      return { customerId, modelPortfolioId, asOfDate, totalValue, isPartial := true, entries := [] }
    | some entries =>
      return { customerId, modelPortfolioId, asOfDate, totalValue, isPartial := false, entries }

/-! ### The placement -/

/-- A body over the database. -/
def onDatabase {α : Type} : Tx α → RebalanceTx α :=
  focus RebalanceTables.db fun db tables => { tables with db }

/-- `enqueue_submission`. -/
def enqueueSubmission (env : Env) (order : Order) : RebalanceTx Unit := do
  let security ← read fun tables =>
    ofOption (tables.db.securities.find order.securityId) .securityNotFound
  write fun tables => do
    let t ← ofOption (tables.submissions.insert
      (.enqueued (env.uuid4 .jobOutbox) ⟨order.id, security.symbol⟩ env.transactionStart))
      (.integrityError .primaryKey)
    return { tables with submissions := t }

/-- `place` of `_RealOrderPlacer`. -/
def place (env : Env) (request : OrderCreationRequest) : RebalanceTx Order := do
  let order ← onDatabase (createOrder env request)
  whenever (order.status = .approved) (enqueueSubmission env order)
  return order

end Trueup.Rebalance

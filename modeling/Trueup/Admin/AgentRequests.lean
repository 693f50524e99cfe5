import Trueup.Rebalance.DriftEvaluationService
import Trueup.Reconciliation.ReconciliationService

/-! # The approval of an agent's request

`approve` of `controllers/admin/agent_requests.py`, over `models/ops/agent_action_request.py`,
`models/ops/admin_audit_log.py` and `models/reconciliation/reconciliation_break.py`: the audit
record, the transition to approved, and the executor of the action in a savepoint.

`approve_run`: what an approval comes to, by what the executor did. -/

namespace Trueup.Admin

open Trueup.Core Trueup.Models Trueup.Lib Trueup.Lib.Transaction Trueup.Ledger Trueup.Orders
open Trueup.Rebalance Trueup.Reconciliation

/-! ### The tables -/

/-- A row of `reconciliation_break`, by its id. -/
structure BreakRow where
  id : Uuid
  details : ReconciliationBreak
  resolvedAt : Option Instant
  resolvedBy : Option Uuid
  resolutionNote : Option String
  deriving DecidableEq

/-- `action` and its `arguments`. -/
inductive AgentAction
  | resolveBreak (breakId : Uuid) (resolutionNote : String)
  | kycOverride (customerId : Uuid)
  | rebalance (customerId : Uuid)
  deriving DecidableEq

inductive AgentActionStatus
  | pending | approved | rejected | executed | executionFailed
  deriving DecidableEq, Repr

/-- A row of `agent_action_request`; the error of an execution stands for its text. -/
structure AgentActionRequest where
  id : Uuid
  action : AgentAction
  requestingAgent : String
  justification : String
  status : AgentActionStatus
  reviewedBy : Option Uuid
  reviewedAt : Option Instant
  reviewNote : Option String
  executionError : Option Error
  executedAt : Option Instant
  createdAt : Instant
  deriving DecidableEq

structure AdminAuditLog where
  actorId : Uuid
  action : String
  targetCustomerId : Option Uuid
  payloadHash : String
  recordedAt : Instant
  deriving DecidableEq

/-- What an executor reads and writes. -/
structure ActionTables where
  rebalance : RebalanceTables
  reconciliationBreaks : Table BreakRow.id

/-- The tables of `AgentSurfaceUnitOfWork`. -/
structure AgentSurface where
  tables : ActionTables
  agentActionRequests : Table AgentActionRequest.id
  adminAuditLog : List AdminAuditLog

abbrev ActionTx (α : Type) := Transaction.Tx Error ActionTables α

abbrev AgentTx (α : Type) := Transaction.Tx Error AgentSurface α

/-- The settings, and what the placement of each order reads from outside; the first reading is that
of the executor itself. -/
structure Settings where
  driftBandPct : ℚ
  cashBufferPct : ℚ
  readings : ℕ → Env

/-- A request to approve: who sends it and when, its body (the note, and the customer that it names)
and the hash of that. -/
structure Review where
  reviewedBy : Uuid
  reviewedAt : Instant
  reviewNote : Option String
  targetCustomerId : Option Uuid
  payloadHash : String
  transactionStart : Instant

/-! ### The executors -/

/-- `resolve` of a break. -/
def BreakRow.resolve (row : BreakRow) (review : Review) (resolutionNote : String) : ActionTx Unit := do
  require (row.details.status = .open) .alreadyResolved
  update fun tables => { tables with
    reconciliationBreaks := tables.reconciliationBreaks.set { row with
      details := { row.details with status := .resolved }
      resolvedAt := some review.reviewedAt
      resolvedBy := some review.reviewedBy
      resolutionNote := some resolutionNote } }

/-- `_execute_resolve_break`. -/
def executeResolveBreak (review : Review) (breakId : Uuid) (resolutionNote : String) :
    ActionTx Unit := do
  let row ← read fun tables =>
    ofOption (tables.reconciliationBreaks.find breakId) (.executionFailed .reconciliationBreak)
  row.resolve review resolutionNote

/-- `_execute_kyc_override`. -/
def executeKycOverride (customerId : Uuid) : ActionTx Unit := do
  let customer ← read fun tables =>
    ofOption (tables.rebalance.db.customers.find customerId) (.executionFailed .customer)
  update fun tables => { tables with rebalance.db.customers :=
    tables.rebalance.db.customers.set { customer with kycStatus := .pending } }

/-- `generate_orders` with the real placer, of the customer's drift today. -/
def placeRebalance (settings : Settings) (customerId : Uuid) : RebalanceTx Unit := do
  let asOfDate ← read fun tables =>
    (tables.db.marketClock (settings.readings 0)).marketDate ((settings.readings 0).now .effectiveDate)
  let evaluation ← read fun tables => evaluate settings.driftBandPct tables customerId asOfDate
  let _ ← RebalanceOrderService.generateOrders (fun i => place (settings.readings i))
    (fun tables => investable tables.db) settings.cashBufferPct evaluation
  return ()

/-- `_execute_rebalance`. -/
def executeRebalance (settings : Settings) (customerId : Uuid) : ActionTx Unit := do
  let _ ← read fun tables =>
    ofOption (tables.rebalance.db.customers.find customerId) (.executionFailed .customer)
  focus ActionTables.rebalance (fun rebalance tables => { tables with rebalance })
    (placeRebalance settings customerId)

/-- `_EXECUTORS`. -/
def execute (settings : Settings) (review : Review) : AgentAction → ActionTx Unit
  | .resolveBreak breakId resolutionNote => executeResolveBreak review breakId resolutionNote
  | .kycOverride customerId => executeKycOverride customerId
  | .rebalance customerId => executeRebalance settings customerId

/-! ### The approval -/

/-- `_EXPECTED_EXECUTION_ERRORS`. -/
def isExpectedExecutionError : Error → Bool
  | .alreadyResolved | .noAssignedModel | .customerNotEligible _ | .marketCalendarCacheMiss => true
  | _ => false

/-- `_target_customer_id`. -/
def AgentAction.customerId : AgentAction → Option Uuid
  | .resolveBreak .. => none
  | .kycOverride customerId | .rebalance customerId => some customerId

/-- The record of `@audited`: the customer is that of the action, or else the one that the body
names. -/
def auditRecord (review : Review) (row : AgentActionRequest) : AdminAuditLog where
  actorId := review.reviewedBy
  action := "agent_action_request.approve"
  targetCustomerId := row.action.customerId.or review.targetCustomerId
  payloadHash := review.payloadHash
  recordedAt := review.transactionStart

def setRequest (row : AgentActionRequest) : AgentTx Unit :=
  update fun surface => { surface with agentActionRequests := surface.agentActionRequests.set row }

/-- `approve` of the repository. -/
def AgentActionRequest.approved (row : AgentActionRequest) (review : Review) : AgentActionRequest :=
  { row with
    status := .approved
    reviewedBy := some review.reviewedBy
    reviewedAt := some review.reviewedAt
    reviewNote := review.reviewNote }

/-- `mark_execution_failed`. -/
def AgentActionRequest.markedFailed (row : AgentActionRequest) (executionError : Error) :
    AgentActionRequest :=
  { row with status := .executionFailed, executionError := some executionError }

/-- `mark_executed`. -/
def AgentActionRequest.markedExecuted (row : AgentActionRequest) (executedAt : Instant) :
    AgentActionRequest :=
  { row with status := .executed, executedAt := some executedAt }

/-- `_approve_request`, with its record. -/
def approveRequest (settings : Settings) (review : Review) (row : AgentActionRequest) :
    AgentTx AgentActionRequest := do
  update fun surface => { surface with
    adminAuditLog := surface.adminAuditLog ++ [auditRecord review row] }
  require (row.status = .pending) .agentActionRequestNotPending
  setRequest (row.approved review)
  let outcome ← attempt isExpectedExecutionError
    (focus AgentSurface.tables (fun tables surface => { surface with tables })
      (execute settings review row.action))
  let reviewed := match outcome with
    | .error e => (row.approved review).markedFailed e
    | .ok () => (row.approved review).markedExecuted review.reviewedAt
  setRequest reviewed
  return reviewed

/-- `approve`; it commits when it returns. -/
def approve (settings : Settings) (requestId : Uuid) (review : Review) : AgentTx AgentActionRequest := do
  let row ← read fun surface =>
    ofOption (surface.agentActionRequests.find requestId) .agentActionRequestNotFound
  approveRequest settings review row

/-! ### What an approval comes to -/

/-- The tables with the request as it is now, and its record. -/
def AgentSurface.recorded (surface : AgentSurface) (tables : ActionTables) (row : AgentActionRequest)
    (record : AdminAuditLog) : AgentSurface where
  tables := tables
  agentActionRequests := surface.agentActionRequests.set row
  adminAuditLog := surface.adminAuditLog ++ [record]

/-- **What an approval of a pending request comes to.** -/
theorem approve_run {settings : Settings} {review : Review} {surface : AgentSurface}
    {row : AgentActionRequest} (hfind : surface.agentActionRequests.find row.id = some row)
    (hpending : row.status = .pending) :
    (approve settings row.id review).run surface =
      match (execute settings review row.action).run surface.tables with
      | .ok (_, tables) =>
        .ok ((row.approved review).markedExecuted review.reviewedAt, surface.recorded tables
          ((row.approved review).markedExecuted review.reviewedAt) (auditRecord review row))
      | .error e =>
        if isExpectedExecutionError e then
          .ok ((row.approved review).markedFailed e, surface.recorded surface.tables
            ((row.approved review).markedFailed e) (auditRecord review row))
        else .error e := by
  -- the tables when the executor starts
  let started : AgentSurface := surface.recorded surface.tables (row.approved review)
    (auditRecord review row)
  have hstarted : (approve settings row.id review).run surface =
      (do
        let outcome ← attempt isExpectedExecutionError
          (focus AgentSurface.tables (fun tables surface => { surface with tables })
            (execute settings review row.action))
        let reviewed := match outcome with
          | .error e => (row.approved review).markedFailed e
          | .ok () => (row.approved review).markedExecuted review.reviewedAt
        setRequest reviewed
        return reviewed : AgentTx AgentActionRequest).run started := by
    have hread : (Transaction.read fun surface : AgentSurface =>
        ofOption (surface.agentActionRequests.find row.id) Error.agentActionRequestNotFound).run surface =
          .ok (row, surface) := read_ok.mpr ⟨ofOption_ok.mpr hfind, rfl⟩
    refine (run_bind_of_ok hread).trans ?_
    refine (run_bind_of_ok ((update_ok (a := ())).mpr rfl)).trans ?_
    refine (run_bind_of_ok ((require_ok (a := ())).mpr ⟨hpending, rfl⟩)).trans ?_
    exact run_bind_of_ok ((update_ok (a := ())).mpr rfl)
  have hset : ∀ reviewed : AgentActionRequest, reviewed.id = row.id →
      started.agentActionRequests.set reviewed = surface.agentActionRequests.set reviewed :=
    fun reviewed hid => Table.set_set (show (row.approved review).id = reviewed.id from hid.symm)
  rw [hstarted]
  cases hrun : (execute settings review row.action).run surface.tables with
  | ok result =>
    obtain ⟨u, tables⟩ := result
    have hfocus : (focus AgentSurface.tables (fun tables surface => { surface with tables })
        (execute settings review row.action)).run started = .ok (u, { started with tables }) :=
      focus_ok.mpr ⟨tables, hrun, rfl⟩
    rw [run_bind_of_ok (attempt_of_ok hfocus)]
    exact congrArg (fun requests => Except.ok (_, AgentSurface.mk tables requests _)) (hset _ rfl)
  | error e =>
    have hfocus : (focus AgentSurface.tables (fun tables surface => { surface with tables })
        (execute settings review row.action)).run started = .error e := focus_error.mpr hrun
    by_cases hexpected : isExpectedExecutionError e = true
    · rw [run_bind_of_ok (by rw [attempt_of_error hfocus, if_pos hexpected])]
      dsimp only
      rw [if_pos hexpected]
      exact congrArg (fun requests => Except.ok (_, AgentSurface.mk surface.tables requests _))
        (hset _ rfl)
    · rw [run_bind_of_error (by rw [attempt_of_error hfocus, if_neg hexpected])]
      simp [hexpected]

end Trueup.Admin

import Trueup.Admin.AgentRequests
import Trueup.Lib.DecidedOnce
import Trueup.Lib.Locks
import Trueup.Lib.Processes

/-! # The review queue

Agents propose actions, staff approve and reject them, and staff resolve reconciliation breaks
themselves, in any number of processes and in any order of their statements: `mcp/write_tools.py`,
`controllers/admin/agent_requests.py` and `controllers/api/breaks.py` under READ COMMITTED. A review
locks its request when it reads it; a resolution reads its break without a lock, and its update waits
for the other one's and then meets the trigger.

* `Step`: what a statement does.
* `Sound`, `Knows`: what the tables say and what a process knows; no statement breaks them
  (`reviewQueue_stable`).
* `each_break_resolved_once`: a break is resolved by one committed transaction, which is a member of the
  staff's own or that of one executed request, and stays as that left it.
* `each_request_decided_once`: a request is decided by one committed review, with its execution, and
  stays as that left it; each committed decision has one audit record.
* `approve_alone`: an approval that no one disturbs is `approve`. -/

namespace Trueup.Admin

open Trueup.Core Trueup.Models Trueup.Lib Trueup.Lib.Transaction Trueup.Reconciliation

/-! ### The rows -/

/-- The row as the tools of the agents create it. -/
def AgentActionRequest.proposed (id : Uuid) (action : AgentAction)
    (requestingAgent justification : String) (createdAt : Instant) : AgentActionRequest where
  id := id
  action := action
  requestingAgent := requestingAgent
  justification := justification
  status := .pending
  reviewedBy := none
  reviewedAt := none
  reviewNote := none
  executionError := none
  executedAt := none
  createdAt := createdAt

/-- `reject` of the repository. -/
def AgentActionRequest.rejected (row : AgentActionRequest) (review : Review) : AgentActionRequest :=
  { row with
    status := .rejected
    reviewedBy := some review.reviewedBy
    reviewedAt := some review.reviewedAt
    reviewNote := review.reviewNote }

/-- `agent_action_request_single_transition`, as to the status. -/
def AgentActionStatus.mayBecome : AgentActionStatus → AgentActionStatus → Bool
  | .pending, .approved | .pending, .rejected => true
  | .approved, .executed | .approved, .executionFailed => true
  | _, _ => false

/-- What identifies a request, besides its id. -/
def AgentActionRequest.SameRequest (old new : AgentActionRequest) : Prop :=
  new.action = old.action ∧ new.requestingAgent = old.requestingAgent ∧
    new.justification = old.justification ∧ new.createdAt = old.createdAt

instance (old new : AgentActionRequest) : Decidable (old.SameRequest new) :=
  inferInstanceAs (Decidable (_ ∧ _))

/-- `agent_action_request_single_transition`. -/
def AgentActionRequest.singleTransition (old new : AgentActionRequest) : Bool :=
  old.status.mayBecome new.status && old.SameRequest new

/-- `_open_break`, by its id. -/
def BreakRow.opened (id : Uuid) (details : ReconciliationBreak) : BreakRow :=
  ⟨id, { details with status := .open }, none, none, none⟩

/-- The row as `resolve` leaves it. -/
def BreakRow.resolved (row : BreakRow) (review : Review) (resolutionNote : String) : BreakRow where
  id := row.id
  details := { row.details with status := .resolved }
  resolvedAt := some review.reviewedAt
  resolvedBy := some review.reviewedBy
  resolutionNote := some resolutionNote

/-- `reconciliation_break_single_transition`. -/
def BreakRow.singleTransition (old new : BreakRow) : Bool :=
  old.details.status = .open && new.details = { old.details with status := new.details.status }

/-- The record of a rejection. -/
def rejectRecord (review : Review) (row : AgentActionRequest) : AdminAuditLog :=
  { auditRecord review row with action := "agent_action_request.reject" }

/-- The record of a resolution: the customer is that of the break, or else the one that the body
names. -/
def resolveRecord (review : Review) (row : BreakRow) : AdminAuditLog where
  actorId := review.reviewedBy
  action := "reconciliation.break.resolve"
  targetCustomerId := row.details.customerId.or review.targetCustomerId
  payloadHash := review.payloadHash
  recordedAt := review.transactionStart

/-! ### The processes -/

/-- What a transaction writes. -/
structure Writes where
  request : Option AgentActionRequest
  breakRow : Option BreakRow
  record : AdminAuditLog
  deriving DecidableEq

inductive RowLock
  | request (id : Uuid)
  | breakRow (id : Uuid)
  deriving DecidableEq

/-- The committed rows, the row locks, and what the committed transactions wrote. -/
structure Shared (ι : Type) where
  requests : Table AgentActionRequest.id
  breaks : Table BreakRow.id
  adminAuditLog : List AdminAuditLog
  locks : Locks RowLock ι
  committed : List Writes

/-- Where a process is. -/
inductive Phase
  | idle
  /-- `resolve` of a break it has read -/
  | resolving (row : BreakRow) (review : Review) (resolutionNote : String)
  /-- `approve` of a request it has locked -/
  | executing (row : AgentActionRequest) (review : Review)
  /-- `_execute_resolve_break` with a break it has read -/
  | executingResolve (row : AgentActionRequest) (review : Review) (breakRow : BreakRow)
      (resolutionNote : String)
  /-- before the commit -/
  | finishing (writes : Writes)

inductive Action
  /-- a tool of the agents -/
  | propose (id : Uuid) (action : AgentAction) (requestingAgent justification : String)
      (createdAt : Instant)
  /-- a break of the morning's reconciliation -/
  | openBreak (id : Uuid) (details : ReconciliationBreak)
  /-- `POST /admin/breaks/<id>/resolve`, until it has read the break -/
  | resolve (breakId : Uuid) (review : Review) (resolutionNote : String)
  /-- `get_for_update` of `approve` -/
  | approve (requestId : Uuid) (review : Review)
  /-- `get_for_update` of `reject` -/
  | reject (requestId : Uuid) (review : Review)
  /-- the executor; what those of the other actions come to -/
  | execute (outcome : Except Error Unit)
  /-- the update of the break -/
  | update
  | commit
  /-- the process or its connection dies -/
  | rollback

section Program
variable {ι : Type} [DecidableEq ι]

/-- A tool finds what the action is about, and the row has a justification. -/
def Shared.Proposes (shared : Shared ι) (action : AgentAction) (justification : String) : Prop :=
  justification ≠ "" ∧ match action with
  | .resolveBreak breakId _ => shared.breaks.Has breakId
  | .kycOverride _ | .rebalance _ => True

instance (shared : Shared ι) (action : AgentAction) (justification : String) :
    Decidable (shared.Proposes action justification) := by
  cases action <;> unfold Shared.Proposes <;> infer_instance

/-- The transaction ends without its writes. -/
def Shared.rollback (shared : Shared ι) (i : ι) : Shared ι × Phase :=
  ({ shared with locks := shared.locks.release i }, .idle)

/-- `get_for_update`, which waits for the row: a request that is not there or not pending ends the
transaction. -/
def Shared.lockRequest (shared : Shared ι) (i : ι) (requestId : Uuid)
    (next : AgentActionRequest → Shared ι → Shared ι × Phase) : Shared ι × Phase :=
  if shared.locks.FreeFor i (.request requestId) then
    match shared.requests.find requestId with
    | none => (shared, .idle)
    | some row =>
      if row.status = .pending then
        next row { shared with locks := shared.locks.take i [.request requestId] }
      else (shared, .idle)
  else (shared, .idle)

/-- The update of the request, with the rest of what the transaction writes. -/
def Shared.updateRequest (shared : Shared ι) (i : ι) (old new : AgentActionRequest)
    (breakRow : Option BreakRow) (record : AdminAuditLog) : Shared ι × Phase :=
  if old.singleTransition new then (shared, .finishing ⟨some new, breakRow, record⟩)
  else shared.rollback i

/-- The update of the break, which waits for the row and then meets the trigger on it as it is now. -/
def Shared.updateBreak (shared : Shared ι) (i : ι) (phase : Phase) (breakId : Uuid) (review : Review)
    (resolutionNote : String) (next : BreakRow → Shared ι → Shared ι × Phase) : Shared ι × Phase :=
  if shared.locks.FreeFor i (.breakRow breakId) then
    match shared.breaks.find breakId with
    | none => (shared, phase)
    | some row =>
      if row.singleTransition (row.resolved review resolutionNote) then
        next (row.resolved review resolutionNote)
          { shared with locks := shared.locks.take i [.breakRow breakId] }
      else shared.rollback i
  else (shared, phase)

/-- `_approve_request`, after the executor. -/
def Shared.reviewed (shared : Shared ι) (i : ι) (row : AgentActionRequest) (review : Review) :
    Except Error Unit → Shared ι × Phase
  | .ok () => shared.updateRequest i (row.approved review)
      ((row.approved review).markedExecuted review.reviewedAt) none (auditRecord review row)
  | .error e =>
    if isExpectedExecutionError e then
      shared.updateRequest i (row.approved review) ((row.approved review).markedFailed e) none
        (auditRecord review row)
    else shared.rollback i

/-- The statements. -/
def program : Processes.Program ι Action (Shared ι) Phase
  | _, .propose id action requestingAgent justification createdAt, shared, .idle =>
    if shared.Proposes action justification then
      ({ shared with requests := (shared.requests.insert
        (.proposed id action requestingAgent justification createdAt)).getD shared.requests }, .idle)
    else (shared, .idle)
  | _, .openBreak id details, shared, .idle =>
    ({ shared with breaks := (shared.breaks.insert (.opened id details)).getD shared.breaks }, .idle)
  | _, .resolve breakId review resolutionNote, shared, .idle =>
    match shared.breaks.find breakId with
    | some row =>
      if row.details.status = .open ∧ resolutionNote ≠ "" then
        (shared, .resolving row review resolutionNote)
      else (shared, .idle)
    | none => (shared, .idle)
  | i, .approve requestId review, shared, .idle =>
    shared.lockRequest i requestId fun row locked =>
      if row.singleTransition (row.approved review) then (locked, .executing row review)
      else locked.rollback i
  | i, .reject requestId review, shared, .idle =>
    if review.reviewNote.any (· ≠ "") then
      shared.lockRequest i requestId fun row locked =>
        locked.updateRequest i row (row.rejected review) none (rejectRecord review row)
    else (shared, .idle)
  | i, .execute outcome, shared, .executing row review =>
    match row.action with
    | .resolveBreak breakId resolutionNote =>
      match shared.breaks.find breakId with
      | none => shared.reviewed i row review (.error (.executionFailed .reconciliationBreak))
      | some breakRow =>
        if breakRow.details.status = .open then
          (shared, .executingResolve row review breakRow resolutionNote)
        else shared.reviewed i row review (.error .alreadyResolved)
    | .kycOverride _ | .rebalance _ => shared.reviewed i row review outcome
  | i, .update, shared, .resolving row review resolutionNote =>
    shared.updateBreak i (.resolving row review resolutionNote) row.id review resolutionNote
      fun resolved locked => (locked, .finishing ⟨none, some resolved, resolveRecord review row⟩)
  | i, .update, shared, .executingResolve row review breakRow resolutionNote =>
    shared.updateBreak i (.executingResolve row review breakRow resolutionNote) breakRow.id review
      resolutionNote fun resolved locked => locked.updateRequest i (row.approved review)
        ((row.approved review).markedExecuted review.reviewedAt) (some resolved) (auditRecord review row)
  | i, .commit, shared, .finishing writes =>
    ({ shared with
      requests := writes.request.elim shared.requests shared.requests.set
      breaks := writes.breakRow.elim shared.breaks shared.breaks.set
      adminAuditLog := shared.adminAuditLog ++ [writes.record]
      locks := shared.locks.release i
      committed := shared.committed ++ [writes] }, .idle)
  | i, .rollback, shared, _ => shared.rollback i
  | _, _, shared, phase => (shared, phase)

end Program

/-- Empty tables, and idle processes. -/
def start {ι : Type} : Processes.Config ι (Shared ι) Phase :=
  ⟨⟨∅, ∅, [], fun _ => none, []⟩, fun _ => .idle⟩

/-! ### What a statement did -/

section Triggers
variable (row : AgentActionRequest) (review : Review)

theorem singleTransition_of {old new : AgentActionRequest}
    (hstatus : old.status.mayBecome new.status = true) (hsame : old.SameRequest new) :
    old.singleTransition new = true := Bool.and_eq_true_iff.mpr ⟨hstatus, decide_eq_true hsame⟩

theorem singleTransition_approved (h : row.status = .pending) :
    row.singleTransition (row.approved review) = true :=
  singleTransition_of (by rw [h]; rfl) ⟨rfl, rfl, rfl, rfl⟩

theorem singleTransition_rejected (h : row.status = .pending) :
    row.singleTransition (row.rejected review) = true :=
  singleTransition_of (by rw [h]; rfl) ⟨rfl, rfl, rfl, rfl⟩

theorem singleTransition_executed (executedAt : Instant) :
    (row.approved review).singleTransition ((row.approved review).markedExecuted executedAt) = true :=
  singleTransition_of rfl ⟨rfl, rfl, rfl, rfl⟩

theorem singleTransition_failed (executionError : Error) :
    (row.approved review).singleTransition ((row.approved review).markedFailed executionError) =
      true := singleTransition_of rfl ⟨rfl, rfl, rfl, rfl⟩

theorem singleTransition_resolved (row : BreakRow) (resolutionNote : String) :
    row.singleTransition (row.resolved review resolutionNote) = true ↔ row.details.status = .open := by
  simp [BreakRow.singleTransition, BreakRow.resolved]

end Triggers

/-- What the transaction of a review or of a resolution writes, of rows of which `R` and `B` hold. -/
inductive Made (R : AgentActionRequest → Prop) (B : BreakRow → Prop) : Writes → Prop
  | resolves (row seen : BreakRow) (review : Review) (resolutionNote : String) (breakRow : B row) :
      Made R B ⟨none, some (row.resolved review resolutionNote), resolveRecord review seen⟩
  | rejects (row : AgentActionRequest) (review : Review) (request : R row) :
      Made R B ⟨some (row.rejected review), none, rejectRecord review row⟩
  | fails (row : AgentActionRequest) (review : Review) (e : Error) (request : R row) :
      Made R B ⟨some ((row.approved review).markedFailed e), none, auditRecord review row⟩
  | executes (row : AgentActionRequest) (review : Review) (request : R row)
      (other : ∀ breakId resolutionNote, row.action ≠ .resolveBreak breakId resolutionNote) :
      Made R B ⟨some ((row.approved review).markedExecuted review.reviewedAt), none,
        auditRecord review row⟩
  | executesResolve (row : AgentActionRequest) (review : Review) (breakRow : BreakRow)
      (resolutionNote : String) (request : R row) (locked : B breakRow)
      (action : row.action = .resolveBreak breakRow.id resolutionNote) :
      Made R B ⟨some ((row.approved review).markedExecuted review.reviewedAt),
        some (breakRow.resolved review resolutionNote), auditRecord review row⟩

section Invariant
variable {ι : Type} {i j : ι} {a : Action} {shared shared' : Shared ι} {phase phase' other : Phase}

/-- What a statement of the process `i` did to the tables and to the process. -/
inductive Step [DecidableEq ι] (i : ι) (shared : Shared ι) : Phase → Shared ι → Phase → Prop
  | stays (phase : Phase) : Step i shared phase shared phase
  | rollsBack (phase : Phase) :
      Step i shared phase { shared with locks := shared.locks.release i } .idle
  | proposes (row : AgentActionRequest) (requests : Table AgentActionRequest.id)
      (pending : row.status = .pending) (inserted : shared.requests.insert row = some requests)
      (target : ∀ breakId resolutionNote, row.action = .resolveBreak breakId resolutionNote →
        shared.breaks.Has breakId) :
      Step i shared .idle { shared with requests } .idle
  | opens (row : BreakRow) (breaks : Table BreakRow.id) (fresh : row.details.status = .open)
      (inserted : shared.breaks.insert row = some breaks) :
      Step i shared .idle { shared with breaks } .idle
  | looks (row : BreakRow) (review : Review) (resolutionNote : String) :
      Step i shared .idle shared (.resolving row review resolutionNote)
  | approves (row : AgentActionRequest) (review : Review) (mem : row ∈ shared.requests)
      (pending : row.status = .pending) (free : shared.locks.FreeFor i (.request row.id)) :
      Step i shared .idle { shared with locks := shared.locks.take i [.request row.id] }
        (.executing row review)
  | rejects (row : AgentActionRequest) (review : Review) (mem : row ∈ shared.requests)
      (pending : row.status = .pending) (free : shared.locks.FreeFor i (.request row.id)) :
      Step i shared .idle { shared with locks := shared.locks.take i [.request row.id] }
        (.finishing ⟨some (row.rejected review), none, rejectRecord review row⟩)
  | fails (row : AgentActionRequest) (review : Review) (e : Error) :
      Step i shared (.executing row review) shared
        (.finishing ⟨some ((row.approved review).markedFailed e), none, auditRecord review row⟩)
  | executes (row : AgentActionRequest) (review : Review)
      (other : ∀ breakId resolutionNote, row.action ≠ .resolveBreak breakId resolutionNote) :
      Step i shared (.executing row review) shared (.finishing
        ⟨some ((row.approved review).markedExecuted review.reviewedAt), none, auditRecord review row⟩)
  | reads (row : AgentActionRequest) (review : Review) (breakRow : BreakRow) (resolutionNote : String)
      (action : row.action = .resolveBreak breakRow.id resolutionNote) :
      Step i shared (.executing row review) shared
        (.executingResolve row review breakRow resolutionNote)
  | resolves (seen row : BreakRow) (review : Review) (resolutionNote : String)
      (mem : row ∈ shared.breaks) (fresh : row.details.status = .open)
      (free : shared.locks.FreeFor i (.breakRow row.id)) :
      Step i shared (.resolving seen review resolutionNote)
        { shared with locks := shared.locks.take i [.breakRow row.id] }
        (.finishing ⟨none, some (row.resolved review resolutionNote), resolveRecord review seen⟩)
  | executesResolve (request : AgentActionRequest) (seen row : BreakRow) (review : Review)
      (resolutionNote : String) (same : row.id = seen.id) (mem : row ∈ shared.breaks)
      (fresh : row.details.status = .open) (free : shared.locks.FreeFor i (.breakRow row.id)) :
      Step i shared (.executingResolve request review seen resolutionNote)
        { shared with locks := shared.locks.take i [.breakRow row.id] }
        (.finishing ⟨some ((request.approved review).markedExecuted review.reviewedAt),
          some (row.resolved review resolutionNote), auditRecord review request⟩)
  | commits (writes : Writes) :
      Step i shared (.finishing writes)
        { requests := writes.request.elim shared.requests shared.requests.set
          breaks := writes.breakRow.elim shared.breaks shared.breaks.set
          adminAuditLog := shared.adminAuditLog ++ [writes.record]
          locks := shared.locks.release i
          committed := shared.committed ++ [writes] } .idle

section Step
variable [DecidableEq ι]

theorem step_lockRequest {requestId : Uuid}
    {next : AgentActionRequest → Shared ι → Shared ι × Phase}
    (hnext : ∀ row ∈ shared.requests, row.status = .pending →
      shared.locks.FreeFor i (.request row.id) →
      let result := next row { shared with locks := shared.locks.take i [.request row.id] }
      Step i shared .idle result.1 result.2) :
    Step i shared .idle (shared.lockRequest i requestId next).1
      (shared.lockRequest i requestId next).2 := by
  unfold Shared.lockRequest
  split_ifs with hfree
  · cases hfind : shared.requests.find requestId with
    | none => exact .stays _
    | some row =>
      obtain ⟨hmem, rfl⟩ := Table.find_eq_some.mp hfind
      dsimp only
      split_ifs with hpending
      · exact hnext row hmem hpending hfree
      · exact .stays _
  · exact .stays _

theorem step_updateBreak {breakId : Uuid} {review : Review} {resolutionNote : String}
    {next : BreakRow → Shared ι → Shared ι × Phase}
    (hnext : ∀ row ∈ shared.breaks, row.id = breakId → row.details.status = .open →
      shared.locks.FreeFor i (.breakRow row.id) →
      let result := next (row.resolved review resolutionNote)
        { shared with locks := shared.locks.take i [.breakRow row.id] }
      Step i shared phase result.1 result.2) :
    Step i shared phase (shared.updateBreak i phase breakId review resolutionNote next).1
      (shared.updateBreak i phase breakId review resolutionNote next).2 := by
  unfold Shared.updateBreak
  split_ifs with hfree
  · cases hfind : shared.breaks.find breakId with
    | none => exact .stays _
    | some row =>
      obtain ⟨hmem, rfl⟩ := Table.find_eq_some.mp hfind
      dsimp only
      split_ifs with htrigger
      · exact hnext row hmem rfl ((singleTransition_resolved _ _ _).mp htrigger) hfree
      · exact .rollsBack _
  · exact .stays _

theorem step_reviewed {row : AgentActionRequest} {review : Review} {outcome : Except Error Unit}
    (hother : outcome = .ok () →
      ∀ breakId resolutionNote, row.action ≠ .resolveBreak breakId resolutionNote) :
    Step i shared (.executing row review) (shared.reviewed i row review outcome).1
      (shared.reviewed i row review outcome).2 := by
  unfold Shared.reviewed Shared.updateRequest
  cases outcome with
  | ok u =>
    dsimp only
    rw [if_pos (singleTransition_executed row review review.reviewedAt)]
    exact .executes row review (hother rfl)
  | error e =>
    dsimp only
    rw [if_pos (singleTransition_failed row review e)]
    split_ifs
    · exact .fails row review e
    · exact .rollsBack _

/-- **What a statement did.** -/
theorem program_step (i : ι) (a : Action) (shared : Shared ι) (phase : Phase) :
    Step i shared phase (program i a shared phase).1 (program i a shared phase).2 := by
  unfold program
  split
  · rename_i id action requestingAgent justification createdAt
    split_ifs with hproposes
    · cases hinsert : shared.requests.insert
          (.proposed id action requestingAgent justification createdAt) with
      | none => exact .stays _
      | some requests =>
        refine .proposes _ requests rfl hinsert fun breakId resolutionNote haction => ?_
        have htarget := hproposes.2
        rw [show action = _ from haction] at htarget
        exact htarget
    · exact .stays _
  · rename_i id details
    cases hinsert : shared.breaks.insert (.opened id details) with
    | none => exact .stays _
    | some breaks => exact .opens _ breaks rfl hinsert
  · split
    · split_ifs
      · exact .looks _ _ _
      · exact .stays _
    · exact .stays _
  · rename_i requestId review
    refine step_lockRequest fun row hmem hpending hfree => ?_
    dsimp only
    rw [if_pos (singleTransition_approved row review hpending)]
    exact .approves row review hmem hpending hfree
  · rename_i requestId review
    split_ifs
    · refine step_lockRequest fun row hmem hpending hfree => ?_
      unfold Shared.updateRequest
      dsimp only
      rw [if_pos (singleTransition_rejected row review hpending)]
      exact .rejects row review hmem hpending hfree
    · exact .stays _
  · rename_i outcome row review
    split
    · rename_i breakId resolutionNote haction
      cases hfind : shared.breaks.find breakId with
      | none => exact step_reviewed fun h => (by cases h)
      | some breakRow =>
        obtain ⟨-, rfl⟩ := Table.find_eq_some.mp hfind
        dsimp only
        split_ifs
        · exact .reads row review breakRow resolutionNote haction
        · exact step_reviewed fun h => (by cases h)
    · rename_i haction
      exact step_reviewed fun _ breakId resolutionNote h => by rw [haction] at h; cases h
    · rename_i haction
      exact step_reviewed fun _ breakId resolutionNote h => by rw [haction] at h; cases h
  · rename_i seen review resolutionNote
    exact step_updateBreak fun row hmem _ hfresh hfree =>
      .resolves seen row review resolutionNote hmem hfresh hfree
  · rename_i request review seen resolutionNote
    refine step_updateBreak fun row hmem hsame hfresh hfree => ?_
    unfold Shared.updateRequest
    dsimp only
    rw [if_pos (singleTransition_executed request review review.reviewedAt)]
    exact .executesResolve request seen row review resolutionNote hsame hmem hfresh hfree
  · exact .commits _
  · exact .rollsBack _
  · exact .stays _

end Step

/-! ### What the tables say -/

/-- The transactions that wrote a request. -/
def Shared.decisions (shared : Shared ι) : List AgentActionRequest :=
  shared.committed.filterMap Writes.request

/-- The transactions that wrote a break. -/
def Shared.resolutions (shared : Shared ι) : List BreakRow :=
  shared.committed.filterMap Writes.breakRow

/-- What the tables say. -/
structure Sound (shared : Shared ι) : Prop where
  requests : Logged (fun row : AgentActionRequest => row.status ≠ .pending) shared.requests
    shared.decisions
  breaks : Logged (fun row : BreakRow => row.details.status ≠ .open) shared.breaks shared.resolutions
  made : ∀ writes ∈ shared.committed,
    Made (fun row => row.status = .pending) (fun row => row.details.status = .open) writes
  audited : shared.adminAuditLog = shared.committed.map Writes.record
  target : ∀ row ∈ shared.requests, ∀ breakId resolutionNote,
    row.action = .resolveBreak breakId resolutionNote → shared.breaks.Has breakId

/-- The process has locked the pending request. -/
def HoldsRequest (i : ι) (shared : Shared ι) (row : AgentActionRequest) : Prop :=
  row ∈ shared.requests ∧ row.status = .pending ∧ shared.locks (.request row.id) = some i

/-- The process has locked the open break. -/
def HoldsBreak (i : ι) (shared : Shared ι) (row : BreakRow) : Prop :=
  row ∈ shared.breaks ∧ row.details.status = .open ∧ shared.locks (.breakRow row.id) = some i

/-- What a process knows. -/
def Knows (i : ι) (shared : Shared ι) : Phase → Prop
  | .idle | .resolving .. => True
  | .executing row _ => HoldsRequest i shared row
  | .executingResolve row _ breakRow resolutionNote =>
    HoldsRequest i shared row ∧ row.action = .resolveBreak breakRow.id resolutionNote
  | .finishing writes => Made (HoldsRequest i shared) (HoldsBreak i shared) writes

/-- A request as it was and as it is now: the same, or decided since. -/
def AgentActionRequest.Becomes (old new : AgentActionRequest) : Prop :=
  new = old ∨ old.status = .pending ∧ new.status ≠ .pending ∧ new.id = old.id ∧ old.SameRequest new

/-- A break as it was and as it is now: the same, or resolved since. -/
def BreakRow.Becomes (old new : BreakRow) : Prop :=
  new = old ∨ old.details.status = .open ∧ new.id = old.id ∧
    new.details = { old.details with status := .resolved }

/-- What a statement of the process `i` leaves alone: the rows that it has not locked, what identifies
the others, and the locks of the other processes. -/
structure Frame (i : ι) (shared shared' : Shared ι) : Prop where
  requests : ∀ row ∈ shared.requests, row ∈ shared'.requests ∨
    shared.locks (.request row.id) = some i ∧ ∃ row' ∈ shared'.requests, row.Becomes row'
  breaks : ∀ row ∈ shared.breaks, row ∈ shared'.breaks ∨
    shared.locks (.breakRow row.id) = some i ∧ ∃ row' ∈ shared'.breaks, row.Becomes row'
  locks : ∀ j, i ≠ j → shared.locks.Keeps shared'.locks j

theorem Made.imp {R R' : AgentActionRequest → Prop} {B B' : BreakRow → Prop} {writes : Writes}
    (hR : ∀ row, R row → R' row) (hB : ∀ row, B row → B' row) (h : Made R B writes) :
    Made R' B' writes := by
  cases h with
  | resolves row seen review resolutionNote hrow =>
    exact .resolves row seen review resolutionNote (hB _ hrow)
  | rejects row review hrow => exact .rejects row review (hR _ hrow)
  | fails row review e hrow => exact .fails row review e (hR _ hrow)
  | executes row review hrow other => exact .executes row review (hR _ hrow) other
  | executesResolve row review breakRow resolutionNote hrow hbreak action =>
    exact .executesResolve row review breakRow resolutionNote (hR _ hrow) (hB _ hbreak) action

theorem Made.request {R : AgentActionRequest → Prop} {B : BreakRow → Prop} {writes : Writes}
    (h : Made R B writes) {new : AgentActionRequest} (hnew : writes.request = some new) :
    ∃ old, R old ∧ new.id = old.id ∧ old.SameRequest new ∧
      (new.status = .rejected ∨ new.status = .executed ∨ new.status = .executionFailed) := by
  cases h with
  | resolves => cases hnew
  | rejects row review hrow => cases hnew; exact ⟨row, hrow, rfl, ⟨rfl, rfl, rfl, rfl⟩, Or.inl rfl⟩
  | fails row review e hrow =>
    cases hnew
    exact ⟨row, hrow, rfl, ⟨rfl, rfl, rfl, rfl⟩, Or.inr (Or.inr rfl)⟩
  | executes row review hrow other =>
    cases hnew
    exact ⟨row, hrow, rfl, ⟨rfl, rfl, rfl, rfl⟩, Or.inr (Or.inl rfl)⟩
  | executesResolve row review breakRow resolutionNote hrow hbreak action =>
    cases hnew
    exact ⟨row, hrow, rfl, ⟨rfl, rfl, rfl, rfl⟩, Or.inr (Or.inl rfl)⟩

theorem Made.breakRow {R : AgentActionRequest → Prop} {B : BreakRow → Prop} {writes : Writes}
    (h : Made R B writes) {new : BreakRow} (hnew : writes.breakRow = some new) :
    ∃ old, B old ∧ new.id = old.id ∧ new.details = { old.details with status := .resolved } := by
  cases h with
  | resolves row seen review resolutionNote hrow => cases hnew; exact ⟨row, hrow, rfl, rfl⟩
  | rejects => cases hnew
  | fails => cases hnew
  | executes => cases hnew
  | executesResolve row review breakRow resolutionNote hrow hbreak action =>
    cases hnew
    exact ⟨breakRow, hbreak, rfl, rfl⟩

theorem AgentActionStatus.ne_pending {status : AgentActionStatus}
    (h : status = .rejected ∨ status = .executed ∨ status = .executionFailed) : status ≠ .pending := by
  rcases h with rfl | rfl | rfl <;> decide

theorem Frame.has (h : Frame i shared shared') {breakId : Uuid} (hhas : shared.breaks.Has breakId) :
    shared'.breaks.Has breakId := by
  obtain ⟨row, hrow, rfl⟩ := Table.has_iff.mp hhas
  rcases h.breaks row hrow with hmem | ⟨-, row', hmem, heq | ⟨-, hid, -⟩⟩
  · exact Table.has_of_mem hmem
  · exact heq ▸ Table.has_of_mem hmem
  · exact hid ▸ Table.has_of_mem hmem

section Preserved
variable [DecidableEq ι]

/-- **A statement leaves the rows alone that the process has not locked.** -/
theorem Step.frame (h : Step i shared phase shared' phase') (hknows : Knows i shared phase) :
    Frame i shared shared' := by
  have hsame : Frame i shared shared :=
    ⟨fun _ h => Or.inl h, fun _ h => Or.inl h, fun j _ => .refl _ j⟩
  cases h with
  | stays | looks | fails | executes | reads => exact hsame
  | rollsBack => exact { hsame with locks := fun j hij => Locks.keeps_release hij }
  | proposes row requests pending inserted target =>
    exact { hsame with requests := fun row' h => Or.inl ((Table.mem_insert inserted).mpr (Or.inl h)) }
  | opens row breaks fresh inserted =>
    exact { hsame with breaks := fun row' h => Or.inl ((Table.mem_insert inserted).mpr (Or.inl h)) }
  | approves row review mem pending free =>
    exact { hsame with locks := fun j hij => Locks.keeps_take_other (by simpa using free) hij }
  | rejects row review mem pending free =>
    exact { hsame with locks := fun j hij => Locks.keeps_take_other (by simpa using free) hij }
  | resolves seen row review resolutionNote mem fresh free =>
    exact { hsame with locks := fun j hij => Locks.keeps_take_other (by simpa using free) hij }
  | executesResolve request seen row review resolutionNote same mem fresh free =>
    exact { hsame with locks := fun j hij => Locks.keeps_take_other (by simpa using free) hij }
  | commits writes =>
    refine ⟨fun row hrow => (mem_write (w := writes.request) hrow).imp_right ?_, fun row hrow =>
      (mem_write (w := writes.breakRow) hrow).imp_right ?_, fun j hij => Locks.keeps_release hij⟩
    · rintro ⟨new, hnew, hid, hmem⟩
      obtain ⟨old, ⟨hold, hpending, hlock⟩, hid', hsameRequest, hstatus⟩ := Made.request hknows hnew
      obtain rfl := Table.eq_of_key_eq hold hrow (hid'.symm.trans hid)
      exact ⟨hlock, new, hmem, Or.inr ⟨hpending, AgentActionStatus.ne_pending hstatus, hid,
        hsameRequest⟩⟩
    · rintro ⟨new, hnew, hid, hmem⟩
      obtain ⟨old, ⟨hold, hopen, hlock⟩, hid', hdetails⟩ := Made.breakRow hknows hnew
      obtain rfl := Table.eq_of_key_eq hold hrow (hid'.symm.trans hid)
      exact ⟨hlock, new, hmem, Or.inr ⟨hopen, hid, hdetails⟩⟩

/-- **What the tables say** after a statement. -/
theorem Step.sound (h : Step i shared phase shared' phase') (hknows : Knows i shared phase)
    (hsound : Sound shared) : Sound shared' := by
  have hframe := h.frame hknows
  cases h with
  | stays | looks | fails | executes | reads => exact hsound
  | rollsBack | approves | rejects | resolves | executesResolve =>
    exact ⟨hsound.requests, hsound.breaks, hsound.made, hsound.audited, hsound.target⟩
  | proposes row requests pending inserted target =>
    refine { hsound with
      requests := hsound.requests.insert (by simpa using pending) inserted
      target := fun row' hrow' breakId resolutionNote haction => ?_ }
    rcases (Table.mem_insert inserted).mp hrow' with hold | rfl
    · exact hsound.target row' hold breakId resolutionNote haction
    · exact target breakId resolutionNote haction
  | opens row breaks fresh inserted =>
    exact { hsound with
      breaks := hsound.breaks.insert (by simpa using fresh) inserted
      target := fun row' hrow' breakId resolutionNote haction =>
        hframe.has (hsound.target row' hrow' breakId resolutionNote haction) }
  | commits writes =>
    have hmade : Made (HoldsRequest i shared) (HoldsBreak i shared) writes := hknows
    refine ⟨?_, ?_, fun writes' hmem => ?_, ?_, fun row hrow breakId resolutionNote haction => ?_⟩
    · unfold Shared.decisions
      rw [List.filterMap_append]
      refine hsound.requests.write fun new hnew => ?_
      obtain ⟨old, ⟨hold, hpending, -⟩, hid, -, hstatus⟩ := hmade.request hnew
      exact ⟨old, hold, by simpa using hpending, hid, AgentActionStatus.ne_pending hstatus⟩
    · unfold Shared.resolutions
      rw [List.filterMap_append]
      refine hsound.breaks.write fun new hnew => ?_
      obtain ⟨old, ⟨hold, hopen, -⟩, hid, hdetails⟩ := hmade.breakRow hnew
      exact ⟨old, hold, by simpa using hopen, hid, by simp [hdetails]⟩
    · rcases List.mem_append.mp hmem with hold | hnew
      · exact hsound.made writes' hold
      · rw [List.mem_singleton.mp hnew]
        exact hmade.imp (fun _ h => h.2.1) fun _ h => h.2.1
    · rw [List.map_append, List.map_singleton, ← hsound.audited]
    · refine hframe.has ?_
      by_cases hmem : row ∈ shared.requests
      · exact hsound.target row hmem breakId resolutionNote haction
      · -- the row that is written: its action is that of the row it replaces
        cases hrequest : writes.request with
        | none => rw [hrequest] at hrow; exact absurd hrow hmem
        | some new =>
          rw [hrequest] at hrow
          rcases Table.mem_set.mp hrow with ⟨hold, -⟩ | ⟨rfl, -⟩
          · exact absurd hold hmem
          · obtain ⟨old, ⟨hold, -⟩, -, ⟨hsame, -⟩, -⟩ := hmade.request hrequest
            exact hsound.target old hold breakId resolutionNote (hsame.symm.trans haction)

/-- **What a process knows** after a statement of its own. -/
theorem Step.knows (h : Step i shared phase shared' phase') (hknows : Knows i shared phase) :
    Knows i shared' phase' := by
  cases h with
  | stays => exact hknows
  | rollsBack | proposes | opens | looks | commits => trivial
  | approves row review mem pending free => exact ⟨mem, pending, Locks.take_mem (by simp)⟩
  | rejects row review mem pending free =>
    exact .rejects row review ⟨mem, pending, Locks.take_mem (by simp)⟩
  | fails row review e => exact .fails row review e hknows
  | executes row review other => exact .executes row review hknows other
  | reads row review breakRow resolutionNote action => exact ⟨hknows, action⟩
  | resolves seen row review resolutionNote mem fresh free =>
    exact .resolves row seen review resolutionNote ⟨mem, fresh, Locks.take_mem (by simp)⟩
  | executesResolve request seen row review resolutionNote same mem fresh free =>
    obtain ⟨⟨hrequest, hpending, hlock⟩, haction⟩ := hknows
    have hkeeps : Locks.Keeps shared.locks (shared.locks.take i [.breakRow row.id]) i :=
      Locks.keeps_take_own
    exact .executesResolve request review row resolutionNote
      ⟨hrequest, hpending, hkeeps _ hlock⟩
      ⟨mem, fresh, Locks.take_mem (by simp)⟩ (same ▸ haction)

omit [DecidableEq ι] in
/-- **A process does not interfere with another.** -/
theorem Knows.undisturbed (hij : i ≠ j) (hframe : Frame i shared shared')
    (h : Knows j shared other) : Knows j shared' other := by
  have hrequest : ∀ row, HoldsRequest j shared row → HoldsRequest j shared' row := by
    rintro row ⟨hmem, hpending, hlock⟩
    refine ⟨(hframe.requests row hmem).resolve_right fun ⟨hown, _⟩ => hij ?_, hpending,
      hframe.locks j hij _ hlock⟩
    exact Option.some.inj (hown.symm.trans hlock)
  have hbreak : ∀ row, HoldsBreak j shared row → HoldsBreak j shared' row := by
    rintro row ⟨hmem, hopen, hlock⟩
    refine ⟨(hframe.breaks row hmem).resolve_right fun ⟨hown, _⟩ => hij ?_, hopen,
      hframe.locks j hij _ hlock⟩
    exact Option.some.inj (hown.symm.trans hlock)
  cases other with
  | idle | resolving => trivial
  | executing row review => exact hrequest row h
  | executingResolve row review breakRow resolutionNote => exact ⟨hrequest row h.1, h.2⟩
  | finishing writes => exact h.imp hrequest hbreak

end Preserved

end Invariant

/-! ### Runs -/

section Runs
variable {ι : Type} [DecidableEq ι]

/-- **No statement breaks the invariant.** -/
theorem reviewQueue_stable :
    Processes.Stable (program (ι := ι)) (fun _ _ _ _ => True) Sound Knows where
  shared i a shared phase _ hsound hknows := (program_step i a shared phase).sound hknows hsound
  own i a shared phase _ _ hknows := (program_step i a shared phase).knows hknows
  other i _ a shared phase _ hij _ _ hknows hother :=
    hother.undisturbed hij ((program_step i a shared phase).frame hknows)

omit [DecidableEq ι] in
theorem holds_start : Processes.Holds Sound Knows (start (ι := ι)) :=
  ⟨⟨.empty, .empty, fun _ h => absurd h List.not_mem_nil, rfl, fun _ h => absurd h List.not_mem_nil⟩,
    fun _ => trivial⟩

theorem holds_run (steps : List (ι × Action)) :
    Processes.Holds Sound Knows (Processes.run program steps start) :=
  reviewQueue_stable.run (Processes.along_true _ _ _) holds_start

theorem AgentActionRequest.Becomes.trans {old mid new : AgentActionRequest} (h : old.Becomes mid)
    (h' : mid.Becomes new) : old.Becomes new := by
  rcases h with rfl | hdecided
  · exact h'
  · rcases h' with rfl | ⟨hpending, -⟩
    · exact Or.inr hdecided
    · exact absurd hpending hdecided.2.1

theorem BreakRow.Becomes.trans {old mid new : BreakRow} (h : old.Becomes mid) (h' : mid.Becomes new) :
    old.Becomes new := by
  rcases h with rfl | hresolved
  · exact h'
  · rcases h' with rfl | ⟨hopen, -⟩
    · exact Or.inr hresolved
    · simp [hresolved.2.2] at hopen

/-- The rows stay, but for their one decision. -/
theorem rows_become (rest : List (ι × Action)) {c : Processes.Config ι (Shared ι) Phase}
    (hc : Processes.Holds Sound Knows c) :
    (∀ row ∈ c.shared.requests, ∃ row' ∈ (Processes.run program rest c).shared.requests,
      row.Becomes row') ∧
    ∀ row ∈ c.shared.breaks, ∃ row' ∈ (Processes.run program rest c).shared.breaks,
      row.Becomes row' := by
  refine (Processes.run_keeps
    (I := fun c' => Processes.Holds Sound Knows c' ∧
      (∀ row ∈ c.shared.requests, ∃ row' ∈ c'.shared.requests, row.Becomes row') ∧
      ∀ row ∈ c.shared.breaks, ∃ row' ∈ c'.shared.breaks, row.Becomes row')
    (fun step c' _ h => ⟨reviewQueue_stable.act trivial h.1, ?_, ?_⟩)
    (Processes.along_true program rest c)
    ⟨hc, fun row hrow => ⟨row, hrow, Or.inl rfl⟩, fun row hrow => ⟨row, hrow, Or.inl rfl⟩⟩).2
  all_goals
    have hframe := (program_step step.1 step.2 c'.shared (c'.locals step.1)).frame (h.1.2 step.1)
    intro row hrow
  · obtain ⟨mid, hmid, hbecomes⟩ := h.2.1 row hrow
    rcases hframe.requests mid hmid with hstays | ⟨-, new, hnew, hthen⟩
    · exact ⟨mid, hstays, hbecomes⟩
    · exact ⟨new, hnew, hbecomes.trans hthen⟩
  · obtain ⟨mid, hmid, hbecomes⟩ := h.2.2 row hrow
    rcases hframe.breaks mid hmid with hstays | ⟨-, new, hnew, hthen⟩
    · exact ⟨mid, hstays, hbecomes⟩
    · exact ⟨new, hnew, hbecomes.trans hthen⟩

omit [DecidableEq ι] in
/-- What a committed transaction wrote is there. -/
theorem Sound.written {shared : Shared ι} (h : Sound shared) {writes : Writes}
    (hwrites : writes ∈ shared.committed) :
    (∀ request, writes.request = some request → request ∈ shared.requests) ∧
    ∀ row, writes.breakRow = some row → row ∈ shared.breaks :=
  ⟨fun _ hrequest => (h.requests.decided _ (List.mem_filterMap.mpr ⟨writes, hwrites, hrequest⟩)).2,
    fun _ hrow => (h.breaks.decided _ (List.mem_filterMap.mpr ⟨writes, hwrites, hrow⟩)).2⟩

/-- **Each break is resolved once.** However the statements of any number of processes interleave, an
open break has been written by no committed transaction and a resolved one by one, whose row it has:
that of a member of the staff, or that of an executed request to resolve it, with the note of the
request. Later it stays as it is, but for being resolved if it is open. -/
theorem each_break_resolved_once (steps rest : List (ι × Action)) :
    let c := Processes.run program steps start
    (∀ row ∈ c.shared.breaks, (c.shared.resolutions.filter fun row' => row'.id = row.id) =
      if row.details.status = .open then [] else [row]) ∧
    (∀ writes ∈ c.shared.committed, ∀ row, writes.breakRow = some row →
      row.resolvedBy = some writes.record.actorId ∧
      (writes.request = none ∧ writes.record.action = "reconciliation.break.resolve" ∨
        ∃ request ∈ c.shared.requests, writes.request = some request ∧ request.status = .executed ∧
          ∃ resolutionNote, request.action = .resolveBreak row.id resolutionNote ∧
            row.resolutionNote = some resolutionNote)) ∧
    ∀ row ∈ c.shared.breaks, ∃ row' ∈ (Processes.run program rest c).shared.breaks,
      row.Becomes row' := by
  intro c
  have hholds := holds_run steps
  refine ⟨fun row hrow => ?_, fun writes hwrites row hrow => ?_, (rows_become rest hholds).2⟩
  · rw [hholds.1.breaks.filter_key hrow, ite_not]
  · have hmade := hholds.1.made writes hwrites
    have hwritten := (hholds.1.written hwrites).1
    cases hmade with
    | resolves => cases hrow; exact ⟨rfl, Or.inl ⟨rfl, rfl⟩⟩
    | rejects => cases hrow
    | fails => cases hrow
    | executes => cases hrow
    | executesResolve request review breakRow resolutionNote hrequest hbreak action =>
      cases hrow
      exact ⟨rfl, Or.inr ⟨_, hwritten _ rfl, rfl, rfl, resolutionNote, action, rfl⟩⟩

/-- **Each request is decided once.** However the statements of any number of processes interleave, a
pending request has been written by no committed transaction and any other by one, whose row it has; a
request is never seen approved and not executed. A request to resolve a break is executed exactly when
its transaction resolved the break, which is always there; each committed transaction has one record,
and nothing else has; later a request stays as it is, but for being decided if it is pending. -/
theorem each_request_decided_once (steps rest : List (ι × Action)) :
    let c := Processes.run program steps start
    (∀ request ∈ c.shared.requests, request.status ≠ .approved ∧
      (c.shared.decisions.filter fun request' => request'.id = request.id) =
        if request.status = .pending then [] else [request]) ∧
    (∀ writes ∈ c.shared.committed, ∀ request, writes.request = some request →
      request.reviewedBy = some writes.record.actorId ∧
      (writes.breakRow ≠ none ↔
        request.status = .executed ∧ ∃ breakId note, request.action = .resolveBreak breakId note)) ∧
    (∀ request ∈ c.shared.requests, ∀ breakId resolutionNote,
      request.action = .resolveBreak breakId resolutionNote → c.shared.breaks.Has breakId) ∧
    c.shared.adminAuditLog = c.shared.committed.map Writes.record ∧
    ∀ request ∈ c.shared.requests, ∃ request' ∈ (Processes.run program rest c).shared.requests,
      request.Becomes request' := by
  intro c
  have hholds := holds_run steps
  refine ⟨fun request hrequest => ⟨fun happroved => ?_, ?_⟩, fun writes hwrites request hrequest => ?_,
    hholds.1.target, hholds.1.audited, (rows_become rest hholds).1⟩
  · -- a request that is not pending is one that was written
    have hlogged := hholds.1.requests.mem request hrequest (by rw [happroved]; decide)
    obtain ⟨writes, hwrites, hrow⟩ := List.mem_filterMap.mp hlogged
    obtain ⟨-, -, -, -, hstatus⟩ := (hholds.1.made writes hwrites).request hrow
    rw [happroved] at hstatus
    rcases hstatus with h | h | h <;> cases h
  · rw [hholds.1.requests.filter_key hrequest, ite_not]
  · have hmade := hholds.1.made writes hwrites
    cases hmade with
    | resolves => cases hrequest
    | rejects row review => cases hrequest; exact ⟨rfl, by simp [AgentActionRequest.rejected]⟩
    | fails row review e => cases hrequest; exact ⟨rfl, by simp [AgentActionRequest.markedFailed]⟩
    | executes row review hrow other =>
      cases hrequest
      refine ⟨rfl, fun h => absurd rfl h, ?_⟩
      rintro ⟨-, breakId, note, haction⟩
      exact absurd haction (other breakId note)
    | executesResolve row review breakRow resolutionNote hrow hbreak action =>
      cases hrequest
      exact ⟨rfl, fun _ => ⟨rfl, breakRow.id, resolutionNote, action⟩, fun _ h => (by cases h)⟩

end Runs

/-! ### An approval alone -/

section Alone
variable {ι : Type} [DecidableEq ι] {i : ι} {shared : Shared ι} {row : AgentActionRequest}
  {review : Review} {settings : Settings} {outcome : Except Error Unit} {surface : AgentSurface}

/-- The tables are those of the unit of work. -/
structure Shared.IsOf (shared : Shared ι) (surface : AgentSurface) : Prop where
  requests : shared.requests = surface.agentActionRequests
  breaks : shared.breaks = surface.tables.reconciliationBreaks
  adminAuditLog : shared.adminAuditLog = surface.adminAuditLog

theorem execute_resolveBreak_missing {settings : Settings} {review : Review} {breakId : Uuid}
    {resolutionNote : String} {tables : ActionTables}
    (h : tables.reconciliationBreaks.find breakId = none) :
    (execute settings review (.resolveBreak breakId resolutionNote)).run tables =
      .error (.executionFailed .reconciliationBreak) :=
  run_bind_of_error (read_error.mpr (by rw [h]; rfl))

theorem execute_resolveBreak_found {settings : Settings} {review : Review} {row : BreakRow}
    {resolutionNote : String} {tables : ActionTables}
    (h : tables.reconciliationBreaks.find row.id = some row) :
    (execute settings review (.resolveBreak row.id resolutionNote)).run tables =
      if row.details.status = .open then
        .ok ((), { tables with
          reconciliationBreaks := tables.reconciliationBreaks.set (row.resolved review resolutionNote) })
      else .error .alreadyResolved := by
  have hread : (Transaction.read fun tables : ActionTables => ofOption
      (tables.reconciliationBreaks.find row.id) (Error.executionFailed .reconciliationBreak)).run tables =
        .ok (row, tables) := read_ok.mpr ⟨ofOption_ok.mpr h, rfl⟩
  refine (run_bind_of_ok hread).trans ?_
  unfold BreakRow.resolve
  split_ifs with hopen
  · exact run_bind_of_ok ((require_ok (a := ())).mpr ⟨hopen, rfl⟩)
  · refine run_bind_of_error ?_
    unfold require check
    rw [if_neg hopen]
    rfl

theorem breaks_execute {settings : Settings} {review : Review} {action : AgentAction}
    {tables tables' : ActionTables}
    (hother : ∀ breakId resolutionNote, action ≠ .resolveBreak breakId resolutionNote)
    (h : (execute settings review action).run tables = .ok ((), tables')) :
    tables'.reconciliationBreaks = tables.reconciliationBreaks := by
  cases action with
  | resolveBreak breakId resolutionNote => exact absurd rfl (hother breakId resolutionNote)
  | kycOverride customerId =>
    obtain ⟨customer, t, hread, hupdate⟩ := bind_ok.mp h
    obtain ⟨-, rfl⟩ := read_ok.mp hread
    rw [update_ok.mp hupdate]
  | rebalance customerId =>
    obtain ⟨customer, t, hread, hfocus⟩ := bind_ok.mp h
    obtain ⟨-, rfl⟩ := read_ok.mp hread
    obtain ⟨rebalance, -, rfl⟩ := focus_ok.mp hfocus
    rfl

/-- What `approve` leaves: all of it, or nothing. -/
def AgentSurface.afterApprove (surface : AgentSurface) (settings : Settings) (requestId : Uuid)
    (review : Review) : AgentSurface :=
  ((approve settings requestId review).run surface).toOption.elim surface Prod.snd

/-- The rest of an approval whose executor comes to the result. -/
theorem isOf_reviewed (result : Except Error Unit) (hof : shared.IsOf surface)
    (hrow : row ∈ shared.requests) (hpending : row.status = .pending)
    (h : program i (.execute outcome) shared (.executing row review) =
      shared.reviewed i row review result)
    (hok : result = .ok () → ∃ tables, (execute settings review row.action).run surface.tables =
      .ok ((), tables) ∧ tables.reconciliationBreaks = surface.tables.reconciliationBreaks)
    (herror : ∀ e, result = .error e →
      (execute settings review row.action).run surface.tables = .error e) :
    (Processes.alone program i [.execute outcome, .update, .commit] shared
      (.executing row review)).1.IsOf (surface.afterApprove settings row.id review) := by
  have hfind : surface.agentActionRequests.find row.id = some row :=
    Table.find_eq_some.mpr ⟨hof.requests ▸ hrow, rfl⟩
  unfold AgentSurface.afterApprove Processes.alone
  simp only [List.foldl_cons, List.foldl_nil, h, approve_run hfind hpending]
  unfold Shared.reviewed Shared.updateRequest
  cases result with
  | ok u =>
    obtain ⟨tables, hrun, hbreaks⟩ := hok rfl
    rw [hrun]
    dsimp only
    rw [if_pos (singleTransition_executed row review review.reviewedAt)]
    exact ⟨congrArg (Table.set · _) hof.requests, hof.breaks.trans hbreaks.symm,
      congrArg (· ++ _) hof.adminAuditLog⟩
  | error e =>
    rw [herror e rfl]
    dsimp only
    rw [if_pos (singleTransition_failed row review e)]
    split_ifs
    · exact ⟨congrArg (Table.set · _) hof.requests, hof.breaks, congrArg (· ++ _) hof.adminAuditLog⟩
    · exact ⟨hof.requests, hof.breaks, hof.adminAuditLog⟩

/-- The rest of an approval that resolves a break. -/
theorem isOf_resolved {breakRow : BreakRow} {resolutionNote : String} (hof : shared.IsOf surface)
    (hrow : row ∈ shared.requests) (hpending : row.status = .pending)
    (hfree : shared.locks (.breakRow breakRow.id) = none)
    (haction : row.action = .resolveBreak breakRow.id resolutionNote)
    (hfindBreak : shared.breaks.find breakRow.id = some breakRow)
    (hopen : breakRow.details.status = .open) :
    (Processes.alone program i [.execute outcome, .update, .commit] shared
      (.executing row review)).1.IsOf (surface.afterApprove settings row.id review) := by
  have hfind : surface.agentActionRequests.find row.id = some row :=
    Table.find_eq_some.mpr ⟨hof.requests ▸ hrow, rfl⟩
  have hrun : (execute settings review (.resolveBreak breakRow.id resolutionNote)).run surface.tables =
      _ := execute_resolveBreak_found (hof.breaks ▸ hfindBreak)
  rw [if_pos hopen, ← haction] at hrun
  have hexecute : program i (.execute outcome) shared (.executing row review) =
      (shared, .executingResolve row review breakRow resolutionNote) := by
    simp only [program, haction, hfindBreak, hopen, if_true]
  have hupdate : program i .update shared (.executingResolve row review breakRow resolutionNote) =
      ({ shared with locks := shared.locks.take i [.breakRow breakRow.id] },
        .finishing ⟨some ((row.approved review).markedExecuted review.reviewedAt),
          some (breakRow.resolved review resolutionNote), auditRecord review row⟩) := by
    simp only [program, Shared.updateBreak, Shared.updateRequest, Locks.FreeFor, hfree, true_or, if_true,
      hfindBreak, (singleTransition_resolved review breakRow resolutionNote).mpr hopen,
      singleTransition_executed]
  unfold AgentSurface.afterApprove Processes.alone
  simp only [List.foldl_cons, List.foldl_nil, hexecute, hupdate, approve_run hfind hpending, hrun]
  exact ⟨congrArg (Table.set · _) hof.requests, congrArg (Table.set · _) hof.breaks,
    congrArg (· ++ _) hof.adminAuditLog⟩

theorem approve_not_pending (hfind : surface.agentActionRequests.find row.id = some row)
    (hpending : row.status ≠ .pending) :
    (approve settings row.id review).run surface = .error .agentActionRequestNotPending := by
  have hread : (Transaction.read fun surface : AgentSurface =>
      ofOption (surface.agentActionRequests.find row.id) Error.agentActionRequestNotFound).run surface =
        .ok (row, surface) := read_ok.mpr ⟨ofOption_ok.mpr hfind, rfl⟩
  refine (run_bind_of_ok hread).trans ?_
  refine (run_bind_of_ok ((update_ok (a := ())).mpr rfl)).trans ?_
  refine run_bind_of_error ?_
  unfold require check
  rw [if_neg hpending]
  rfl

theorem afterApprove_of_error {requestId : Uuid} {e : Error}
    (h : (approve settings requestId review).run surface = .error e) :
    surface.afterApprove settings requestId review = surface := by
  unfold AgentSurface.afterApprove
  rw [h]
  rfl

/-- **An approval that no one disturbs is `approve`.** -/
theorem approve_alone {c : Processes.Config ι (Shared ι) Phase} (hidle : c.locals i = .idle)
    (hfree : ∀ k, c.shared.locks k = none) (hof : c.shared.IsOf surface) (requestId : Uuid)
    (houtcome : ∀ row ∈ surface.agentActionRequests, row.id = requestId →
      outcome = ((execute settings review row.action).run surface.tables).map fun _ => ()) :
    (Processes.run program [(i, .approve requestId review), (i, .execute outcome), (i, .update),
      (i, .commit)] c).shared.IsOf (surface.afterApprove settings requestId review) := by
  have halone := Processes.run_alone program i
    [.approve requestId review, .execute outcome, .update, .commit] c
  rw [hidle] at halone
  refine (congrArg Processes.Config.shared halone) ▸ ?_
  cases hfind : c.shared.requests.find requestId with
  | none =>
    have hmissing : program i (.approve requestId review) c.shared .idle = (c.shared, .idle) := by
      simp [program, Shared.lockRequest, Locks.FreeFor, hfree, hfind]
    rw [Processes.alone_cons hmissing,
      afterApprove_of_error (run_bind_of_error (read_error.mpr (by rw [← hof.requests, hfind]; rfl)))]
    exact hof
  | some row =>
    obtain ⟨hmem, rfl⟩ := Table.find_eq_some.mp hfind
    by_cases hpending : row.status = .pending
    · have hlocked : ({ c.shared with locks := c.shared.locks.take i [.request row.id] } :
          Shared ι).IsOf surface := ⟨hof.requests, hof.breaks, hof.adminAuditLog⟩
      have htaken : program i (.approve row.id review) c.shared .idle =
          ({ c.shared with locks := c.shared.locks.take i [.request row.id] }, .executing row review) := by
        simp [program, Shared.lockRequest, Locks.FreeFor, hfree, hfind, hpending,
          singleTransition_approved]
      rw [Processes.alone_cons htaken]
      have hresult := houtcome row (hof.requests ▸ hmem) rfl
      have hother : (∀ breakId resolutionNote, row.action ≠ .resolveBreak breakId resolutionNote) →
          ∀ u, outcome = .ok u → ∃ tables, (execute settings review row.action).run surface.tables =
            .ok ((), tables) ∧ tables.reconciliationBreaks = surface.tables.reconciliationBreaks := by
        rintro hother u rfl
        obtain ⟨⟨⟨⟩, tables⟩, hrun, -⟩ := except_map_ok.mp hresult.symm
        exact ⟨tables, hrun, breaks_execute hother hrun⟩
      have hfails : ∀ e, outcome = .error e →
          (execute settings review row.action).run surface.tables = .error e := by
        rintro e rfl
        exact except_map_error.mp hresult.symm
      cases haction : row.action with
      | resolveBreak breakId resolutionNote =>
        cases hfindBreak : c.shared.breaks.find breakId with
        | none =>
          refine isOf_reviewed (.error (.executionFailed .reconciliationBreak)) hlocked hmem
            hpending (by simp [program, haction, hfindBreak]) (fun h => (by cases h)) fun e he => ?_
          cases he
          rw [haction]
          exact execute_resolveBreak_missing (hof.breaks ▸ hfindBreak)
        | some breakRow =>
          obtain ⟨-, rfl⟩ := Table.find_eq_some.mp hfindBreak
          by_cases hopen : breakRow.details.status = .open
          · refine isOf_resolved hlocked hmem hpending ?_ haction hfindBreak hopen
            simp [Locks.take, hfree]
          · refine isOf_reviewed (.error .alreadyResolved) hlocked hmem hpending
              (by simp [program, haction, hfindBreak, hopen]) (fun h => (by cases h)) fun e he => ?_
            cases he
            rw [haction, execute_resolveBreak_found (hof.breaks ▸ hfindBreak), if_neg hopen]
      | kycOverride customerId =>
        exact isOf_reviewed outcome hlocked hmem hpending (by simp [program, haction])
          (hother (by simp [haction]) ()) hfails
      | rebalance customerId =>
        exact isOf_reviewed outcome hlocked hmem hpending (by simp [program, haction])
          (hother (by simp [haction]) ()) hfails
    · have hdecided : program i (.approve row.id review) c.shared .idle = (c.shared, .idle) := by
        simp [program, Shared.lockRequest, Locks.FreeFor, hfree, hfind, hpending]
      rw [Processes.alone_cons hdecided,
        afterApprove_of_error (approve_not_pending (hof.requests ▸ hfind) hpending)]
      exact hof

end Alone

end Trueup.Admin

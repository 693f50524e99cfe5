import Trueup.Fees.Conservation
import Trueup.Lib.Processes

/-! # Charges at read committed

`services/fees/fee_charge_outbox_handler.py`, run by outbox workers and by `jobs/dunning_retry.py`,
and `_apply_verdict` of `controllers/webhooks/stripe_billing.py`, statement by statement: an
execution reads the charge in one unit of work, calls the provider in none, and applies the outcome
in a second one, whose writes are committed at once, on top of what is committed then. Nothing locks
the charge between its reading and the commit.

A process is one execution, with the outbox row it works on, if any. The world keeps what the
provider has said beside the database.

`proceed_applyChargeSuccess`, `proceed_applyChargeFailure`: with nobody in between, the statements
of the second unit of work are `apply_charge_success` and `apply_charge_failure`. -/

namespace Trueup.Fees.Charging

open Trueup.Core Trueup.Models Trueup.Lib Trueup.Lib.Transaction

/-! ### Executions -/

/-- What `PaymentPort.charge` hands back. -/
structure ChargeHandle where
  stripeChargeId : String
  status : String
  deriving DecidableEq

/-- The answer of `PaymentPort.charge`: a handle, a `PaymentDeclinedError`, or any other error. -/
inductive Answer
  | handle (handle : ChargeHandle)
  | declined
  | error

/-- What is applied to a charge. -/
inductive Outcome
  | success (stripeChargeId : String)
  | failure

/-- Where an execution is. -/
inductive Phase
  | idle
  | loading (feeChargeId : Uuid)
  | loaded (charge : FeeCharge)
  | calling (feeChargeId : Uuid)
  | applying (feeChargeId : Uuid) (outcome : Outcome)
  | verdict (stripeChargeId status : String)
  | seen (charge : FeeCharge) (outcome : Outcome)
  | deciding (charge : FeeCharge) (dunning : Option DunningState) (outcome : Outcome)
  | returned
  | raised

/-- The row a worker has claimed. -/
structure ClaimedJob where
  row : JobOutbox Uuid
  workerId : String

/-- An execution, and the outbox row it is for. -/
structure Process where
  job : Option ClaimedJob
  phase : Phase

/-- The database, the handles the provider has returned for its idempotency keys, and the verdicts
it has sent. -/
structure World where
  db : Database
  handles : List (Uuid × ChargeHandle)
  verdicts : List (String × String)

/-- The charge is charged. -/
def isChargeable (charge : FeeCharge) : Bool :=
  charge.status = .pending ∨ charge.status = .failed

theorem isClosed_of_isChargeable {charge : FeeCharge} (h : isChargeable charge) :
    isClosed charge = false := by
  simp only [isChargeable, decide_eq_true_eq] at h
  rcases h with hstatus | hstatus <;> simp [isClosed, hstatus]

theorem not_succeeded_of_isChargeable {charge : FeeCharge} (h : isChargeable charge) :
    charge.status ≠ .succeeded := fun hstatus => by simp [isChargeable, hstatus] at h

/-- There is nothing left to apply. -/
def isSettled (charge : FeeCharge) : Outcome → Bool
  | .success _ => charge.status = .succeeded
  | .failure => isClosed charge

/-- After the charge has been read. -/
def consider (charge : FeeCharge) (outcome : Outcome) : Phase :=
  if isSettled charge outcome then .returned else .seen charge outcome

/-- `get_by_stripe_charge_id`. -/
def getByStripeChargeId (db : Database) (stripeChargeId : String) :
    Except Error (Option FeeCharge) :=
  scalarOneOrNone (db.feeCharges.rows.filter (·.stripeChargeId = some stripeChargeId))

/-- `_SUCCESS_STATUSES` and `_FAILURE_STATUSES`. -/
def verdictOutcome (stripeChargeId status : String) : Option Outcome :=
  if status = "succeeded" then some (.success stripeChargeId)
  else if status = "payment_failed" ∨ status = "canceled" then some .failure
  else none

/-- The writes of an outcome, after what was read. -/
def applyOutcome (env : Env) (maxAttempts : ℕ) (charge : FeeCharge) (dunning : Option DunningState) :
    Outcome → Tx Unit
  | .success stripeChargeId => do
    collect env charge stripeChargeId
    closeDunning dunning
  | .failure => recordFailure env maxAttempts charge dunning

/-- The next statement of an execution, and what is committed after it. -/
def proceed (env : Env) (maxAttempts : ℕ) (db : Database) : Phase → Database × Phase
  | .loading feeChargeId =>
    match db.feeCharges.find feeChargeId with
    | none => (db, .raised)
    | some charge => (db, if isChargeable charge then .loaded charge else .returned)
  | .loaded charge =>
    match db.paymentMethods.find charge.customerId with
    | none => (db, .raised)
    | some _ => (db, .calling charge.id)
  | .applying feeChargeId outcome =>
    match db.feeCharges.find feeChargeId with
    | none => (db, .raised)
    | some charge => (db, consider charge outcome)
  | .verdict stripeChargeId status =>
    match getByStripeChargeId db stripeChargeId, verdictOutcome stripeChargeId status with
    | .error _, _ => (db, .raised)
    | .ok (some charge), some outcome => (db, consider charge outcome)
    | .ok _, _ => (db, .returned)
  | .seen charge outcome => (db, .deciding charge (db.dunningStates.find charge.id) outcome)
  | .deciding charge dunning outcome =>
    match (applyOutcome env maxAttempts charge dunning outcome).run db with
    | .ok (_, db) => (db, .returned)
    | .error _ => (db, .raised)
  | phase => (db, phase)

/-! ### Actions -/

/-- Anything that leaves the charges, their dunning, their jobs and their collections alone:
accruals, payment methods, closes. -/
structure OffCharges where
  change : Database → Database
  charges : ∀ db, (change db).feeCharges = db.feeCharges
  dunnings : ∀ db, (change db).dunningStates = db.dunningStates
  jobs : ∀ db, (change db).chargeFeeJobs = db.chargeFeeJobs
  collections : ∀ db id, collections (change db) id = collections db id

/-- What can happen in a process. -/
inductive Action
  | createPendingCharge (env : Env) (customerId : Uuid) (marketDate : CalendarDate)
  | offCharges (other : OffCharges)
  /-- a worker claims the row -/
  | claim (outboxId : Uuid) (workerId : String) (now : Instant)
  /-- the dunning job calls `charge_fee` -/
  | chargeFee (feeChargeId : Uuid)
  /-- a webhook calls `_apply_verdict` -/
  | applyVerdict (stripeChargeId status : String)
  /-- the provider answers -/
  | answer (answer : Answer)
  /-- the next statement; the acknowledgement of a commit may be lost -/
  | proceed (env : Env) (maxAttempts : ℕ) (acknowledged : Bool)
  /-- the worker records how the execution ended -/
  | record (nextAttemptAt : Instant) (maxAttempts : ℕ)
  | crash

/-- The row, if the worker may record an outcome in it. -/
def lockedByWorker (db : Database) (job : ClaimedJob) : Option (JobOutbox Uuid) :=
  db.chargeFeeJobs.lockedByWorker job.row.id job.workerId

/-- The database with the row of a job replaced. -/
def setJob (db : Database) (row : JobOutbox Uuid) : Database :=
  { db with chargeFeeJobs := db.chargeFeeJobs.set row }

/-- The phase after a commit whose acknowledgement may be lost. -/
def Phase.acknowledge (phase : Phase) (acknowledged : Bool) : Phase :=
  match phase, acknowledged with
  | .returned, false => .raised
  | phase, _ => phase

/-- What an action does; one that the process is not ready for does nothing. -/
def program : Processes.Program ℕ Action World Process
  | _, .createPendingCharge env customerId marketDate, w, p =>
    ({ w with db := atomically (feeBody env (.createPendingCharge customerId marketDate)) w.db }, p)
  | _, .offCharges other, w, p => ({ w with db := other.change w.db }, p)
  | _, .claim outboxId workerId now, w, p =>
    match p.phase, (w.db.chargeFeeJobs.find outboxId).filter (·.isClaimable now) with
    | .idle, some row =>
      ({ w with db := setJob w.db (row.claimed workerId) },
        ⟨some ⟨row.claimed workerId, workerId⟩, .loading row.payload⟩)
    | _, _ => (w, p)
  | _, .chargeFee feeChargeId, w, p =>
    match p.phase with
    | .idle => (w, ⟨none, .loading feeChargeId⟩)
    | _ => (w, p)
  | _, .applyVerdict stripeChargeId status, w, p =>
    match p.phase with
    | .idle => ({ w with verdicts := w.verdicts ++ [(stripeChargeId, status)] },
        ⟨none, .verdict stripeChargeId status⟩)
    | _ => (w, p)
  | _, .answer answer, w, p =>
    match p.phase, answer with
    | .calling feeChargeId, .handle handle =>
      ({ w with handles := w.handles ++ [(feeChargeId, handle)] },
        { p with phase := .applying feeChargeId (.success handle.stripeChargeId) })
    | .calling feeChargeId, .declined => (w, { p with phase := .applying feeChargeId .failure })
    | .calling _, .error => (w, { p with phase := .raised })
    | _, _ => (w, p)
  | _, .proceed env maxAttempts acknowledged, w, p =>
    let next := proceed env maxAttempts w.db p.phase
    ({ w with db := next.1 }, { p with phase := next.2.acknowledge acknowledged })
  | _, .record nextAttemptAt maxAttempts, w, p =>
    match p.job, p.phase with
    | some job, .returned =>
      match lockedByWorker w.db job with
      | some row => ({ w with db := setJob w.db row.completed }, ⟨none, .idle⟩)
      | none => (w, ⟨none, .idle⟩)
    | some job, .raised =>
      match lockedByWorker w.db job with
      | some row => ({ w with db := setJob w.db (row.retried nextAttemptAt maxAttempts) }, ⟨none, .idle⟩)
      | none => (w, ⟨none, .idle⟩)
    | _, _ => (w, p)
  | _, .crash, w, _ => (w, ⟨none, .idle⟩)

/-- Nothing has been said and nothing is running. -/
def start (db : Database) : Processes.Config ℕ World Process := ⟨⟨db, [], []⟩, fun _ => ⟨none, .idle⟩⟩

/-- There are no charges, no work on them and no collections yet. -/
structure NoCharges (db : Database) : Prop where
  charges : db.feeCharges.rows = []
  dunnings : db.dunningStates.rows = []
  jobs : db.chargeFeeJobs.rows = []
  entries : ∀ entry ∈ db.journalEntries.rows, collectedCharge entry = none

theorem NoCharges.not_mem {db : Database} (h : NoCharges db) (charge : FeeCharge) :
    charge ∉ db.feeCharges := by
  rw [Table.mem_iff, h.charges]
  simp

theorem NoCharges.collections {db : Database} (h : NoCharges db) (id : Uuid) :
    collections db id = 0 := by
  unfold Fees.collections
  rw [List.length_eq_zero_iff, List.filter_eq_nil_iff]
  intro entry hentry
  simp [isCollectionOf, h.entries entry hentry]

/-! ### Without interference -/

section Serial
variable {env : Env} {maxAttempts : ℕ} {db : Database} {feeChargeId : Uuid}

/-- Three statements in a row. -/
def proceedThrice (env : Env) (maxAttempts : ℕ) (db : Database) (phase : Phase) : Database × Phase :=
  let first := proceed env maxAttempts db phase
  let second := proceed env maxAttempts first.1 first.2
  proceed env maxAttempts second.1 second.2

/-- The writes that `apply_charge_success` and `apply_charge_failure` come to. -/
theorem proceedThrice_applying (outcome : Outcome) {charge : FeeCharge}
    (hfind : db.feeCharges.find feeChargeId = some charge) :
    (proceedThrice env maxAttempts db (.applying feeChargeId outcome)).1 =
      if isSettled charge outcome then db
      else atomically
        (applyOutcome env maxAttempts charge (db.dunningStates.find charge.id) outcome) db := by
  unfold proceedThrice
  simp only [proceed, hfind, consider]
  split_ifs with hsettled
  · rfl
  · simp only [atomically]
    cases (applyOutcome env maxAttempts charge (db.dunningStates.find charge.id) outcome).run db with
    | error e => rfl
    | ok r => rfl

theorem proceedThrice_none (outcome : Outcome) (hfind : db.feeCharges.find feeChargeId = none) :
    (proceedThrice env maxAttempts db (.applying feeChargeId outcome)).1 = db := by
  simp [proceedThrice, proceed, hfind]

theorem getFeeCharge_none (hfind : db.feeCharges.find feeChargeId = none) :
    getFeeCharge db feeChargeId = .error .feeChargeNotFound := by
  rw [getFeeCharge, hfind]
  rfl

theorem getFeeCharge_some {charge : FeeCharge} (hfind : db.feeCharges.find feeChargeId = some charge) :
    getFeeCharge db feeChargeId = .ok charge := by
  rw [getFeeCharge, hfind]
  rfl

/-- **The second unit of work of a success**, run alone, is `apply_charge_success`. -/
theorem proceed_applyChargeSuccess (stripeChargeId : String) :
    (proceedThrice env maxAttempts db (.applying feeChargeId (.success stripeChargeId))).1 =
      atomically (applyChargeSuccess env feeChargeId stripeChargeId) db := by
  cases hfind : db.feeCharges.find feeChargeId with
  | none =>
    have herror : (applyChargeSuccess env feeChargeId stripeChargeId).run db =
        .error .feeChargeNotFound :=
      bind_error.mpr (Or.inl (read_error.mpr (getFeeCharge_none hfind)))
    rw [atomically_of_error herror, proceedThrice_none _ hfind]
  | some charge =>
    rw [proceedThrice_applying _ hfind]
    refine Eq.trans ?_ (atomically_congr (run_read_bind (f := fun db => getFeeCharge db feeChargeId)
      (s := db) (getFeeCharge_some hfind))).symm
    by_cases hsucceeded : charge.status = .succeeded
    · rw [if_pos hsucceeded, if_pos (by simpa [isSettled] using hsucceeded)]
      rfl
    · rw [if_neg hsucceeded, if_neg (by simpa [isSettled] using hsucceeded)]
      refine atomically_congr (run_bind_congr fun _ db₁ hcollect => ?_)
      obtain ⟨_, _, _, _, _, _, -, -, -, -, -, -, hdb₁⟩ := collect_ok hcollect
      have hdunning : db₁.dunningStates = db.dunningStates := by rw [hdb₁]
      rw [← hdunning]
      exact (run_read_bind
        (f := fun db : Database => .ok (db.dunningStates.find charge.id)) rfl).symm

/-- **The second unit of work of a failure**, run alone, is `apply_charge_failure`. -/
theorem proceed_applyChargeFailure :
    (proceedThrice env maxAttempts db (.applying feeChargeId .failure)).1 =
      atomically (applyChargeFailure env maxAttempts feeChargeId) db := by
  cases hfind : db.feeCharges.find feeChargeId with
  | none =>
    have herror : (applyChargeFailure env maxAttempts feeChargeId).run db =
        .error .feeChargeNotFound :=
      bind_error.mpr (Or.inl (read_error.mpr (getFeeCharge_none hfind)))
    rw [atomically_of_error herror, proceedThrice_none _ hfind]
  | some charge =>
    rw [proceedThrice_applying _ hfind]
    refine Eq.trans ?_ (atomically_congr (run_read_bind (f := fun db => getFeeCharge db feeChargeId)
      (s := db) (getFeeCharge_some hfind))).symm
    by_cases hclosed : isClosed charge
    · rw [if_pos (show isSettled charge .failure = true from hclosed), if_pos hclosed]
      rfl
    · rw [if_neg (show ¬ isSettled charge .failure = true from hclosed), if_neg hclosed]
      refine atomically_congr ?_
      exact (run_read_bind (f := fun db : Database => .ok (db.dunningStates.find charge.id))
        (g := recordFailure env maxAttempts charge) rfl).symm

end Serial

/-! ### What a commit did -/

/-- The commit of an outcome turned `db` into `db'`: the charge was collected, it failed for the
first time, its last retry failed, or another retry failed. -/
inductive Applied (charge : FeeCharge) (db db' : Database) : Option DunningState → Outcome → Prop
  | collected {dunning : Option DunningState} {stripeChargeId : String} (entryId : Uuid)
      (row : FeeCharge) (hrow : db.feeCharges.find charge.id = some row)
      (hcharges : db'.feeCharges =
        db.feeCharges.set (succeededCharge charge stripeChargeId entryId row))
      (hdunnings : db'.dunningStates =
        dunning.elim db.dunningStates fun d => db.dunningStates.erase d.feeChargeId)
      (hcollections : ∀ id, collections db' id = collections db id + if charge.id = id then 1 else 0) :
      Applied charge db db' dunning (.success stripeChargeId)
  | failed (row : FeeCharge) (d : DunningState) (hrow : db.feeCharges.find charge.id = some row)
      (hcharges : db'.feeCharges =
        db.feeCharges.set { row with status := flushed charge.status .failed row.status })
      (hid : d.feeChargeId = charge.id) (hstatus : d.status = .retrying)
      (hdunnings : db.dunningStates.insert d = some db'.dunningStates)
      (hcollections : ∀ id, collections db' id = collections db id) :
      Applied charge db db' none .failure
  | exhausted {d : DunningState} (row : FeeCharge) (row' drow : DunningState)
      (hrow : db.feeCharges.find charge.id = some row)
      (hcharges : db'.feeCharges =
        db.feeCharges.set { row with status := flushed charge.status .dunning row.status })
      (hdrow : db.dunningStates.find d.feeChargeId = some drow)
      (hdunnings : db'.dunningStates = db.dunningStates.set row')
      (hid : row'.feeChargeId = drow.feeChargeId)
      (hlast : d.maxAttempts ≤ d.attemptNumber + 1)
      (hcollections : ∀ id, collections db' id = collections db id) :
      Applied charge db db' (some d) .failure
  | retried {d : DunningState} (row' drow : DunningState)
      (hcharges : db'.feeCharges = db.feeCharges)
      (hdrow : db.dunningStates.find d.feeChargeId = some drow)
      (hdunnings : db'.dunningStates = db.dunningStates.set row')
      (hid : row'.feeChargeId = drow.feeChargeId) (hstatus : row'.status = drow.status)
      (hmore : d.attemptNumber + 1 < d.maxAttempts)
      (hcollections : ∀ id, collections db' id = collections db id) :
      Applied charge db db' (some d) .failure

section Commit
variable {env : Env} {maxAttempts : ℕ} {db db' : Database} {charge : FeeCharge}
  {dunning : Option DunningState} {u : Unit}

/-- **What a commit did**, and that it left the jobs alone. -/
theorem applyOutcome_ok {outcome : Outcome}
    (h : (applyOutcome env maxAttempts charge dunning outcome).run db = .ok (u, db')) :
    Applied charge db db' dunning outcome ∧ db'.chargeFeeJobs = db.chargeFeeJobs := by
  cases outcome with
  | success stripeChargeId =>
    obtain ⟨_, db₁, hcollect, hclose⟩ := bind_ok.mp h
    obtain ⟨payable, collected, entry, row, accounts, entries, -, -, -, hentry, hentries, hrow,
      hdb₁⟩ := collect_ok hcollect
    obtain ⟨dunnings, hdb', hdunnings⟩ := closeDunning_ok hclose
    have hcollections := collections_insert hentries (show db'.journalEntries = _ by rw [hdb', hdb₁])
    refine ⟨.collected entry.id row hrow (by rw [hdb', hdb₁]) ?_ fun id => ?_, by rw [hdb', hdb₁]⟩
    · rw [hdb', hdunnings, hdb₁]
    · rw [hcollections id]
      by_cases hid : charge.id = id <;> simp [hentry, isCollectionOf, collectedCharge, hid]
  | failure =>
    cases recordFailure_failed h with
    | first row d dunnings hrow hid hstatus hinsert hdb' =>
      subst hdb'
      exact ⟨.failed row d hrow rfl hid hstatus hinsert fun _ => rfl, rfl⟩
    | last row row' drow hrow hdrow hdb' hid hlast =>
      subst hdb'
      exact ⟨.exhausted row row' drow hrow rfl hdrow rfl hid hlast fun _ => rfl, rfl⟩
    | counted row' drow hdrow hdb' hid hstatus hmore =>
      subst hdb'
      exact ⟨.retried row' drow rfl hdrow rfl hid hstatus hmore fun _ => rfl, rfl⟩

end Commit

/-! ### What an action did -/

/-- The charges, their dunning and their collections are as they were. -/
structure SameCharges (db db' : Database) : Prop where
  charges : db'.feeCharges = db.feeCharges
  dunnings : db'.dunningStates = db.dunningStates
  collections : ∀ id, collections db' id = collections db id

/-- What the action of the process `p` did to the database. -/
inductive Change (a : Action) (p : Process) (db db' : Database) : Prop
  | kept (h : SameCharges db db') (hjobs : db'.chargeFeeJobs = db.chargeFeeJobs)
  | job (h : SameCharges db db') (row row' : JobOutbox Uuid)
      (hrow : db.chargeFeeJobs.find row.id = some row)
      (hjobs : db'.chargeFeeJobs = db.chargeFeeJobs.set row') (hid : row'.id = row.id)
      (hpayload : row'.payload = row.payload)
      (hcompleted : row'.status = .completed →
        p.phase = .returned ∧ ∃ job ∈ p.job, job.row.id = row.id)
  | created (charge : FeeCharge) (job : JobOutbox Uuid) (hstatus : charge.status = .pending)
      (hstripe : charge.stripeChargeId = none)
      (hcharges : db.feeCharges.insert charge = some db'.feeCharges)
      (hpayload : job.payload = charge.id) (hpending : job.status = .pending)
      (hjobs : db.chargeFeeJobs.insert job = some db'.chargeFeeJobs)
      (hdunnings : db'.dunningStates = db.dunningStates)
      (hcollections : ∀ id, collections db' id = collections db id)
  | committed (charge : FeeCharge) (dunning : Option DunningState) (outcome : Outcome)
      (haction : ∃ env maxAttempts acknowledged, a = .proceed env maxAttempts acknowledged)
      (hphase : p.phase = .deciding charge dunning outcome)
      (happlied : Applied charge db db' dunning outcome)
      (hjobs : db'.chargeFeeJobs = db.chargeFeeJobs)

section Change
variable {env : Env} {db : Database} {w : World} {p : Process}

theorem SameCharges.refl (db : Database) : SameCharges db db := ⟨rfl, rfl, fun _ => rfl⟩

theorem Change.refl (a : Action) (p : Process) (db : Database) : Change a p db db := .kept (.refl db) rfl

theorem change_createPendingCharge (env : Env) (customerId : Uuid) (marketDate : CalendarDate)
    (a : Action) (p : Process) (db : Database) :
    Change a p db (atomically (feeBody env (.createPendingCharge customerId marketDate)) db) := by
  rcases atomically_cases (feeBody env (.createPendingCharge customerId marketDate)) db with
    ⟨_, db', hrun, heq⟩ | ⟨_, -, heq⟩
  · rw [heq]
    obtain ⟨r, hrun⟩ := System.discard_ok hrun
    obtain ⟨returns, snapshots, rfl | ⟨charge, charges, jobs, -, -, -, -, -, hstatus, hstripe, -, -,
      hcharges, hjobs, rfl⟩⟩ := createPendingCharge_ok hrun
    · exact .kept ⟨rfl, rfl, fun _ => rfl⟩ rfl
    · exact .created charge _ hstatus hstripe hcharges rfl rfl hjobs rfl fun _ => rfl
  · rw [heq]
    exact .refl _ p db

/-- Only a commit writes. -/
theorem change_proceed (env : Env) (maxAttempts : ℕ) (acknowledged : Bool) (p : Process)
    (db : Database) :
    Change (.proceed env maxAttempts acknowledged) p db (proceed env maxAttempts db p.phase).1 := by
  cases hphase : p.phase with
  | deciding charge dunning outcome =>
    cases hrun : (applyOutcome env maxAttempts charge dunning outcome).run db with
    | error e =>
      simp only [proceed, hrun]
      exact .refl _ p db
    | ok r =>
      obtain ⟨u, db'⟩ := r
      obtain ⟨happlied, hjobs⟩ := applyOutcome_ok hrun
      simp only [proceed, hrun]
      exact .committed charge dunning outcome ⟨_, _, _, rfl⟩ hphase happlied hjobs
  | loading feeChargeId =>
    simp only [proceed]
    split <;> exact .refl _ p db
  | loaded charge =>
    simp only [proceed]
    split <;> exact .refl _ p db
  | applying feeChargeId outcome =>
    simp only [proceed]
    split <;> exact .refl _ p db
  | verdict stripeChargeId status =>
    simp only [proceed]
    split <;> exact .refl _ p db
  | _ => exact .refl _ p db

theorem lockedByWorker_eq {job : ClaimedJob} {row : JobOutbox Uuid}
    (h : lockedByWorker db job = some row) :
    db.chargeFeeJobs.find row.id = some row ∧ row.id = job.row.id := by
  obtain ⟨⟨hrow, hid⟩, -⟩ := Outbox.lockedByWorker_eq_some.mp h
  exact ⟨Table.find_eq_some.mpr ⟨hrow, rfl⟩, hid⟩

/-- **What an action did.** -/
theorem program_change (i : ℕ) (a : Action) (w : World) (p : Process) :
    Change a p w.db (program i a w p).1.db := by
  cases a with
  | createPendingCharge env customerId marketDate =>
    exact change_createPendingCharge env customerId marketDate _ p w.db
  | offCharges other =>
    exact .kept ⟨other.charges _, other.dunnings _, other.collections _⟩ (other.jobs _)
  | claim outboxId workerId now =>
    unfold program
    dsimp only
    split
    · rename_i row _ hrow
      obtain ⟨hfind, -⟩ := Option.filter_eq_some_iff.mp hrow
      have hid := (Table.find_eq_some.mp hfind).2
      exact .job ⟨rfl, rfl, fun _ => rfl⟩ row _ (by rw [hid]; exact hfind) rfl rfl rfl
        (fun hstatus => by cases hstatus)
    · exact .refl _ p w.db
  | chargeFee feeChargeId =>
    unfold program
    dsimp only
    split <;> exact .refl _ p w.db
  | applyVerdict stripeChargeId status =>
    unfold program
    dsimp only
    split <;> exact .refl _ p w.db
  | answer answer =>
    unfold program
    dsimp only
    split <;> exact .refl _ p w.db
  | proceed env maxAttempts acknowledged => exact change_proceed env maxAttempts acknowledged p w.db
  | record nextAttemptAt maxAttempts =>
    unfold program
    dsimp only
    split
    · rename_i job hjob hphase
      split
      · rename_i row hrow
        obtain ⟨hfind, hid⟩ := lockedByWorker_eq hrow
        exact .job ⟨rfl, rfl, fun _ => rfl⟩ row _ hfind rfl rfl rfl
          (fun _ => ⟨hphase, job, hjob, hid.symm⟩)
      · exact .refl _ p w.db
    · rename_i job hjob hphase
      split
      · rename_i row hrow
        obtain ⟨hfind, hid⟩ := lockedByWorker_eq hrow
        refine .job ⟨rfl, rfl, fun _ => rfl⟩ row (row.retried nextAttemptAt maxAttempts) hfind rfl
          ?_ ?_ ?_
        · unfold JobOutbox.retried
          split_ifs <;> rfl
        · unfold JobOutbox.retried
          split_ifs <;> rfl
        · unfold JobOutbox.retried
          split_ifs <;> (intro hstatus; cases hstatus)
      · exact .refl _ p w.db
    · exact .refl _ p w.db
  | crash => exact .refl _ p w.db

end Change

/-- Why an execution has returned. -/
inductive Returns (db db' : Database) : Phase → Prop
  | notChargeable (charge : FeeCharge) (feeChargeId : Uuid)
      (hfind : db.feeCharges.find feeChargeId = some charge) (hnot : isChargeable charge = false) :
      Returns db db' (.loading feeChargeId)
  | settled (charge : FeeCharge) (feeChargeId : Uuid) (outcome : Outcome)
      (hfind : db.feeCharges.find feeChargeId = some charge) (hsettled : isSettled charge outcome) :
      Returns db db' (.applying feeChargeId outcome)
  | verdict (stripeChargeId status : String) : Returns db db' (.verdict stripeChargeId status)
  | applied (charge : FeeCharge) (dunning : Option DunningState) (outcome : Outcome)
      (happlied : Applied charge db db' dunning outcome) :
      Returns db db' (.deciding charge dunning outcome)

/-- How the process got where it is. -/
inductive Moves (a : Action) (w w' : World) (p : Process) : Process → Prop
  | stays : Moves a w w' p p
  | idle : Moves a w w' p ⟨none, .idle⟩
  | claims (row : JobOutbox Uuid) (workerId : String)
      (hrow : w.db.chargeFeeJobs.find row.id = some row) :
      Moves a w w' p ⟨some ⟨row.claimed workerId, workerId⟩, .loading row.payload⟩
  | starts (feeChargeId : Uuid) : Moves a w w' p ⟨none, .loading feeChargeId⟩
  | hears (stripeChargeId status : String) (h : (stripeChargeId, status) ∈ w'.verdicts) :
      Moves a w w' p ⟨none, .verdict stripeChargeId status⟩
  | loads (feeChargeId : Uuid) (charge : FeeCharge) (hphase : p.phase = .loading feeChargeId)
      (hfind : w.db.feeCharges.find feeChargeId = some charge) :
      Moves a w w' p { p with phase := .loaded charge }
  | calls (charge : FeeCharge) (hphase : p.phase = .loaded charge) :
      Moves a w w' p { p with phase := .calling charge.id }
  | succeeds (feeChargeId : Uuid) (handle : ChargeHandle) (haction : a = .answer (.handle handle))
      (hphase : p.phase = .calling feeChargeId) (hhandle : (feeChargeId, handle) ∈ w'.handles) :
      Moves a w w' p { p with phase := .applying feeChargeId (.success handle.stripeChargeId) }
  | fails (feeChargeId : Uuid) (hphase : p.phase = .calling feeChargeId) :
      Moves a w w' p { p with phase := .applying feeChargeId .failure }
  | reads (charge : FeeCharge) (outcome : Outcome) (hphase : p.phase = .applying charge.id outcome)
      (hfind : w.db.feeCharges.find charge.id = some charge) (hopen : isSettled charge outcome = false) :
      Moves a w w' p { p with phase := .seen charge outcome }
  | finds (charge : FeeCharge) (stripeChargeId status : String) (outcome : Outcome)
      (hphase : p.phase = .verdict stripeChargeId status) (hcharge : charge ∈ w.db.feeCharges)
      (hstripe : charge.stripeChargeId = some stripeChargeId)
      (hverdict : verdictOutcome stripeChargeId status = some outcome)
      (hopen : isSettled charge outcome = false) :
      Moves a w w' p { p with phase := .seen charge outcome }
  | decides (charge : FeeCharge) (outcome : Outcome) (hphase : p.phase = .seen charge outcome) :
      Moves a w w' p
        { p with phase := .deciding charge (w.db.dunningStates.find charge.id) outcome }
  | returns (hwhy : Returns w.db w'.db p.phase) : Moves a w w' p { p with phase := .returned }
  | raises : Moves a w w' p { p with phase := .raised }

section Moves
variable {w : World} {p : Process}

theorem getByStripeChargeId_ok {db : Database} {stripeChargeId : String} {charge : FeeCharge}
    (h : getByStripeChargeId db stripeChargeId = .ok (some charge)) :
    charge ∈ db.feeCharges ∧ charge.stripeChargeId = some stripeChargeId := by
  have hmem := mem_of_scalarOneOrNone h
  simpa [Table.mem_iff] using List.mem_filter.mp hmem

theorem moves_proceed (a : Action) (env : Env) (maxAttempts : ℕ) (w : World) (p : Process) :
    Moves a w { w with db := (proceed env maxAttempts w.db p.phase).1 } p
      { p with phase := (proceed env maxAttempts w.db p.phase).2 } := by
  obtain ⟨job, phase⟩ := p
  cases phase with
  | loading feeChargeId =>
    cases hfind : w.db.feeCharges.find feeChargeId with
    | none =>
      simp only [proceed, hfind]
      exact .raises
    | some charge =>
      simp only [proceed, hfind]
      cases hchargeable : isChargeable charge with
      | true => exact .loads feeChargeId charge rfl hfind
      | false => exact .returns (.notChargeable charge feeChargeId hfind hchargeable)
  | loaded charge =>
    cases hmethod : w.db.paymentMethods.find charge.customerId with
    | none =>
      simp only [proceed, hmethod]
      exact .raises
    | some method =>
      simp only [proceed, hmethod]
      exact .calls charge rfl
  | applying feeChargeId outcome =>
    cases hfind : w.db.feeCharges.find feeChargeId with
    | none =>
      simp only [proceed, hfind]
      exact .raises
    | some charge =>
      simp only [proceed, hfind, consider]
      obtain rfl := (Table.find_eq_some.mp hfind).2
      cases hsettled : isSettled charge outcome with
      | true => exact .returns (.settled charge charge.id outcome hfind hsettled)
      | false => exact .reads charge outcome rfl hfind hsettled
  | verdict stripeChargeId status =>
    simp only [proceed]
    split
    · exact .raises
    · rename_i charge outcome hget hverdict
      obtain ⟨hcharge, hstripe⟩ := getByStripeChargeId_ok hget
      unfold consider
      cases hsettled : isSettled charge outcome with
      | true => exact .returns (.verdict stripeChargeId status)
      | false => exact .finds charge stripeChargeId status outcome rfl hcharge hstripe hverdict hsettled
    · exact .returns (.verdict stripeChargeId status)
  | seen charge outcome => exact .decides charge outcome rfl
  | deciding charge dunning outcome =>
    cases hrun : (applyOutcome env maxAttempts charge dunning outcome).run w.db with
    | error e =>
      simp only [proceed, hrun]
      exact .raises
    | ok r =>
      obtain ⟨u, db'⟩ := r
      simp only [proceed, hrun]
      exact .returns (.applied charge dunning outcome (applyOutcome_ok hrun).1)
  | idle => exact .stays
  | calling feeChargeId => exact .stays
  | returned => exact .stays
  | raised => exact .stays

/-- **How an action moved its process.** -/
theorem program_moves (i : ℕ) (a : Action) (w : World) (p : Process) :
    Moves a w (program i a w p).1 p (program i a w p).2 := by
  cases a with
  | createPendingCharge env customerId marketDate => exact .stays
  | offCharges other => exact .stays
  | claim outboxId workerId now =>
    unfold program
    dsimp only
    split
    · rename_i row _ hrow
      obtain ⟨hfind, -⟩ := Option.filter_eq_some_iff.mp hrow
      have hid := (Table.find_eq_some.mp hfind).2
      exact .claims row workerId (by rw [hid]; exact hfind)
    · exact .stays
  | chargeFee feeChargeId =>
    unfold program
    dsimp only
    split
    · exact .starts feeChargeId
    · exact .stays
  | applyVerdict stripeChargeId status =>
    unfold program
    dsimp only
    split
    · exact .hears stripeChargeId status (by simp)
    · exact .stays
  | answer answer =>
    unfold program
    dsimp only
    split
    · rename_i feeChargeId handle hphase
      exact .succeeds feeChargeId handle rfl hphase (by simp)
    · rename_i feeChargeId hphase
      exact .fails feeChargeId hphase
    · exact .raises
    · exact .stays
  | proceed env maxAttempts acknowledged =>
    have hmoves := moves_proceed (.proceed env maxAttempts acknowledged) env maxAttempts w p
    cases acknowledged with
    | true =>
      have hphase : ∀ phase : Phase, phase.acknowledge true = phase := fun phase => by
        cases phase <;> rfl
      simpa only [program, hphase] using hmoves
    | false =>
      cases hnext : (proceed env maxAttempts w.db p.phase).2 with
      | returned =>
        simp only [program, hnext]
        exact .raises
      | _ =>
        rw [hnext] at hmoves
        simp only [program, hnext]
        exact hmoves
  | record nextAttemptAt maxAttempts =>
    unfold program
    dsimp only
    split
    · split <;> exact .idle
    · split <;> exact .idle
    · exact .stays
  | crash => exact .idle

end Moves

theorem program_said (i : ℕ) (a : Action) (w : World) (p : Process) :
    w.handles ⊆ (program i a w p).1.handles ∧ w.verdicts ⊆ (program i a w p).1.verdicts := by
  cases a with
  | applyVerdict stripeChargeId status =>
    unfold program
    dsimp only
    split
    · exact ⟨fun _ h => h, List.subset_append_left _ _⟩
    · exact ⟨fun _ h => h, fun _ h => h⟩
  | answer answer =>
    unfold program
    dsimp only
    split
    · exact ⟨List.subset_append_left _ _, fun _ h => h⟩
    · exact ⟨fun _ h => h, fun _ h => h⟩
    · exact ⟨fun _ h => h, fun _ h => h⟩
    · exact ⟨fun _ h => h, fun _ h => h⟩
  | claim outboxId workerId now =>
    unfold program
    dsimp only
    split <;> exact ⟨fun _ h => h, fun _ h => h⟩
  | chargeFee feeChargeId =>
    unfold program
    dsimp only
    split <;> exact ⟨fun _ h => h, fun _ h => h⟩
  | record nextAttemptAt maxAttempts =>
    unfold program
    dsimp only
    split
    · split <;> exact ⟨fun _ h => h, fun _ h => h⟩
    · split <;> exact ⟨fun _ h => h, fun _ h => h⟩
    · exact ⟨fun _ h => h, fun _ h => h⟩
  | _ => exact ⟨fun _ h => h, fun _ h => h⟩

end Trueup.Fees.Charging

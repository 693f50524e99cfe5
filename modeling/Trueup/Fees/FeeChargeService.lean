import Trueup.Fees.FeeAccrualService
import Trueup.Restatement.SnapshotService
import Trueup.Statements.StatementExport

/-! # Charging the accrued fees

`services/fees/fee_charge_service.py` and `services/fees/dunning_service.py`: the pending charge of
a billing period, with the job that will charge it, and what a verdict of the provider does to a
charge.

What a unit of work writes back at its flush are the columns it has changed (`flushed`); run on its
own, it finds the row it has read.

`createPendingCharge_ok`, `applyChargeSuccess_ok` and `applyChargeFailure_ok` say all that a call
did. -/

namespace Trueup.Fees

open Trueup.Core Trueup.Models Trueup.Lib Trueup.Lib.Transaction Trueup.Ledger Trueup.Valuation
open Trueup.Restatement Trueup.Statements

/-! ### The pending charge -/

/-- `get_for_period`. -/
def getForPeriod (db : Database) (customerId : Uuid) (periodStart periodEnd : Date) :
    Except Error (Option FeeCharge) :=
  scalarOneOrNone (db.feeCharges.rows.filter fun charge => charge.customerId = customerId ∧
    charge.billingPeriodStart = periodStart ∧ charge.billingPeriodEnd = periodEnd)

/-- `list_for_period`. -/
def listForPeriod (db : Database) (customerId : Uuid) (periodStart periodEnd : Date) :
    List FeeAccrual :=
  db.feeAccruals.rows.filter fun accrual => accrual.customerId = customerId ∧
    periodStart ≤ accrual.accrualDate ∧ accrual.accrualDate ≤ periodEnd

/-- The loop `total += accrual.fee_amount`. -/
def totalFees : List FeeAccrual → Money → Except Error Money
  | [], total => .ok total
  | accrual :: accruals, total => do
    let total ← total.add accrual.feeAmount
    totalFees accruals total

/-- `_ensure_published`. -/
def ensurePublished (env : Env) (customerId : Uuid) (periodStart periodEnd : Date) : Tx Instant := do
  let existing ← read fun db => .ok (latestForPeriod db customerId periodStart)
  match existing.filter (·.periodEnd = periodEnd) with
  | some snapshot => return snapshot.publishWatermark
  | none =>
    let snapshot ← publish env customerId periodStart periodEnd
    return snapshot.publishWatermark

/-- The row and the job of a new charge; a charge that is there in the meantime is returned
instead. -/
def addPendingCharge (env : Env) (charge : FeeCharge) : Tx (Option FeeCharge) := do
  let added ← savepoint isIntegrityError (addFeeCharge charge)
  match added with
  | none => read fun db =>
      getForPeriod db charge.customerId charge.billingPeriodStart charge.billingPeriodEnd
  | some _ =>
    enqueueChargeFee (.enqueued (env.uuid4 .jobOutbox) charge.id env.transactionStart)
    return some charge

/-- `create_pending_charge`. -/
def createPendingCharge (env : Env) (customerId : Uuid) (periodStart periodEnd : Date) :
    Tx (Option FeeCharge) := do
  let existing ← read fun db => getForPeriod db customerId periodStart periodEnd
  match existing with
  | some charge => return some charge
  | none =>
    let total ← read fun db => totalFees (listForPeriod db customerId periodStart periodEnd) 0
    if total = 0 then return none
    else do
      let watermark ← ensurePublished env customerId periodStart periodEnd
      addPendingCharge env {
        id := env.uuid4 .feeCharge, customerId
        billingPeriodStart := periodStart, billingPeriodEnd := periodEnd
        totalAccrued := total, asPublishedWatermark := watermark, status := .pending
        stripeChargeId := none, journalEntryId := none }

/-! ### The provider's verdict -/

/-- `get_by_id`, or `FeeChargeNotFoundError`. -/
def getFeeCharge (db : Database) (feeChargeId : Uuid) : Except Error FeeCharge :=
  ofOption (db.feeCharges.find feeChargeId) .feeChargeNotFound

/-- The columns of a successful charge. -/
def succeededCharge (seen : FeeCharge) (stripeChargeId : String) (entryId : Uuid)
    (row : FeeCharge) : FeeCharge :=
  { row with
    status := flushed seen.status .succeeded row.status
    stripeChargeId := flushed seen.stripeChargeId (some stripeChargeId) row.stripeChargeId
    journalEntryId := flushed seen.journalEntryId (some entryId) row.journalEntryId }

/-- The collection entry of a charge, and the charge's own columns. -/
def collect (env : Env) (charge : FeeCharge) (stripeChargeId : String) : Tx Unit := do
  let payableAccount ← getOrCreateCustomerAccount charge.customerId .feesAccruedPayable none
  let collectedAccount ← getOrCreateHouseAccount .feeRevenueCollected
  let entry ← post (env.uuid4 .journalEntry) .feeAdjustment
    (env.now .effectiveDate).instant.utcDate
    (.feeChargeSucceeded charge.id stripeChargeId charge.totalAccrued)
    [.money payableAccount charge.totalAccrued.neg, .money collectedAccount charge.totalAccrued]
  updateFeeCharge charge.id (succeededCharge charge stripeChargeId entry.id)

/-- `session.delete(dunning)`, if there is one. -/
def closeDunning : Option DunningState → Tx Unit
  | none => return ()
  | some dunning => deleteDunningState dunning.feeChargeId

/-- `apply_charge_success`. -/
def applyChargeSuccess (env : Env) (feeChargeId : Uuid) (stripeChargeId : String) : Tx Unit := do
  let charge ← read fun db => getFeeCharge db feeChargeId
  if charge.status = .succeeded then return ()
  else do
    collect env charge stripeChargeId
    let dunning ← read fun db => .ok (db.dunningStates.find charge.id)
    closeDunning dunning

/-- `compute_backoff`, in microseconds; `base_hours` is 24. -/
def computeBackoff (attemptNumber : ℕ) : Instant := 24 * 2 ^ (attemptNumber - 1) * 3600000000

/-- `self._now() + compute_backoff(...)`. -/
def nextRetryAt (env : Env) (attemptNumber : ℕ) : Datetime :=
  let now := env.now .nextRetryAt
  { now with instant := now.instant + computeBackoff attemptNumber }

/-- `DunningService.start`. -/
def startDunning (env : Env) (maxAttempts : ℕ) (charge : FeeCharge) : Tx Unit :=
  addDunningState {
    feeChargeId := charge.id, customerId := charge.customerId, attemptNumber := 1
    nextRetryAt := nextRetryAt env 1, maxAttempts, status := .retrying }

/-- `record_retry_failure`. -/
def recordRetryFailure (env : Env) (dunning : DunningState) (charge : FeeCharge) : Tx Unit :=
  let attemptNumber := dunning.attemptNumber + 1
  if dunning.maxAttempts ≤ attemptNumber then do
    updateFeeCharge charge.id fun row =>
      { row with status := flushed charge.status .dunning row.status }
    updateDunningState dunning.feeChargeId fun row =>
      { row with attemptNumber, status := flushed dunning.status .exhausted row.status }
  else
    updateDunningState dunning.feeChargeId fun row =>
      { row with
        attemptNumber
        nextRetryAt := flushed dunning.nextRetryAt (nextRetryAt env attemptNumber) row.nextRetryAt }

/-- The charge has been resolved, or is no longer retried. -/
def isClosed (charge : FeeCharge) : Bool :=
  charge.status = .succeeded ∨ charge.status = .dunning

/-- What a failure does to an open charge. -/
def recordFailure (env : Env) (maxAttempts : ℕ) (charge : FeeCharge) : Option DunningState → Tx Unit
  | none => do
    updateFeeCharge charge.id fun row =>
      { row with status := flushed charge.status .failed row.status }
    startDunning env maxAttempts charge
  | some dunning => recordRetryFailure env dunning charge

/-- `apply_charge_failure`. -/
def applyChargeFailure (env : Env) (maxAttempts : ℕ) (feeChargeId : Uuid) : Tx Unit := do
  let charge ← read fun db => getFeeCharge db feeChargeId
  if isClosed charge then return ()
  else do
    let existing ← read fun db => .ok (db.dunningStates.find charge.id)
    recordFailure env maxAttempts charge existing

/-! ### What a call did -/

section Ok
variable {env : Env} {customerId : Uuid} {periodStart periodEnd : Date} {db db' : Database} {u : Unit}

theorem totalFees_quanta : ∀ {accruals : List FeeAccrual} {start total : Money},
    totalFees accruals start = .ok total →
      total.quanta = start.quanta + (accruals.map (·.feeAmount.quanta)).sum
  | [], start, total, h => by cases h; simp
  | accrual :: accruals, start, total, h => by
    rw [totalFees, except_bind_ok] at h
    obtain ⟨next, hnext, h⟩ := h
    have hrest := totalFees_quanta h
    have hadd := Money.add_ok.mp hnext
    rw [List.map_cons, List.sum_cons]
    omega

theorem ensurePublished_ok {watermark : Instant}
    (h : (ensurePublished env customerId periodStart periodEnd).run db = .ok (watermark, db')) :
    ∃ returns snapshots, db' = { db with
      subPeriodReturns := returns, publishedSnapshots := snapshots } := by
  unfold ensurePublished at h
  simp only [bind_ok, read_ok] at h
  obtain ⟨existing, _, ⟨-, rfl⟩, h⟩ := h
  split at h
  · obtain ⟨-, rfl⟩ := pure_ok.mp h
    exact ⟨db.subPeriodReturns, db.publishedSnapshots, rfl⟩
  · simp only [bind_ok, pure_ok] at h
    obtain ⟨snapshot, db₁, hpublish, -, rfl⟩ := h
    obtain ⟨twr, rows, holdings, mid, htwr, -, -, rfl⟩ := publish_ok hpublish
    have hmid : mid = { db with subPeriodReturns := mid.subPeriodReturns } := by
      have hview := (frames_computeTwr (f := fun db => { db with subPeriodReturns := ∅ })
        (fun _ _ => rfl) env customerId periodStart periodEnd).eq htwr
      exact congrArg (fun d : Database => { d with subPeriodReturns := mid.subPeriodReturns }) hview
    exact ⟨mid.subPeriodReturns, _, by rw [hmid]⟩

/-- **What `create_pending_charge` did**: nothing beyond a publication, or a new charge of the
period, which had none, over the accruals that are there now, and its job. -/
theorem createPendingCharge_ok {r : Option FeeCharge}
    (h : (createPendingCharge env customerId periodStart periodEnd).run db = .ok (r, db')) :
    ∃ returns snapshots,
      (db' = { db with subPeriodReturns := returns, publishedSnapshots := snapshots }) ∨
      ∃ charge charges jobs,
        charge.id = env.uuid4 .feeCharge ∧ charge.customerId = customerId ∧
        charge.billingPeriodStart = periodStart ∧ charge.billingPeriodEnd = periodEnd ∧
        charge.totalAccrued.quanta =
          ((listForPeriod db customerId periodStart periodEnd).map (·.feeAmount.quanta)).sum ∧
        charge.status = .pending ∧ charge.stripeChargeId = none ∧ charge.journalEntryId = none ∧
        db.freeForCharge charge = .ok () ∧
        db.feeCharges.insert charge = some charges ∧
        db.chargeFeeJobs.insert (.enqueued (env.uuid4 .jobOutbox) charge.id env.transactionStart) =
          some jobs ∧
        db' = { db with
          subPeriodReturns := returns, publishedSnapshots := snapshots
          feeCharges := charges, chargeFeeJobs := jobs } := by
  unfold createPendingCharge at h
  simp only [bind_ok, read_ok] at h
  obtain ⟨existing, _, ⟨-, rfl⟩, h⟩ := h
  cases existing with
  | some charge =>
    obtain ⟨-, rfl⟩ := pure_ok.mp h
    exact ⟨db.subPeriodReturns, db.publishedSnapshots, Or.inl rfl⟩
  | none =>
    simp only [bind_ok, read_ok] at h
    obtain ⟨total, _, ⟨htotal, rfl⟩, h⟩ := h
    split_ifs at h
    · obtain ⟨-, rfl⟩ := pure_ok.mp h
      exact ⟨db.subPeriodReturns, db.publishedSnapshots, Or.inl rfl⟩
    · simp only [bind_ok, addPendingCharge] at h
      obtain ⟨watermark, db₁, hpublished, added, db₂, hadded, h⟩ := h
      obtain ⟨returns, snapshots, rfl⟩ := ensurePublished_ok hpublished
      refine ⟨returns, snapshots, ?_⟩
      rcases savepoint_ok.mp hadded with ⟨u, rfl, hadd⟩ | ⟨rfl, rfl, -⟩
      · simp only [bind_ok, enqueueChargeFee_ok, pure_ok] at h
        obtain ⟨_, _, ⟨jobs, hjobs, rfl⟩, -, rfl⟩ := h
        obtain ⟨hfree, charges, hcharges, rfl⟩ := addFeeCharge_ok.mp hadd
        have hquanta := totalFees_quanta htotal
        rw [QuantizedDecimal.quanta_zero, zero_add] at hquanta
        exact Or.inr ⟨_, charges, jobs, rfl, rfl, rfl, rfl, hquanta, rfl, rfl, rfl, hfree, hcharges,
          hjobs, rfl⟩
      · simp only [read_ok] at h
        exact Or.inl h.2.symm

/-- The collection of an open charge, on top of the current row of the charge. -/
theorem collect_ok {charge : FeeCharge} {stripeChargeId : String}
    (h : (collect env charge stripeChargeId).run db = .ok (u, db')) :
    ∃ payable collected entry row accounts entries,
      IsAccountOf payable charge.customerId .feesAccruedPayable none ∧
      collected.customerId = none ∧ collected.role = .feeRevenueCollected ∧
      entry = ⟨env.uuid4 .journalEntry, .feeAdjustment, (env.now .effectiveDate).instant.utcDate,
        .feeChargeSucceeded charge.id stripeChargeId charge.totalAccrued, none, none⟩ ∧
      db.journalEntries.insert entry = some entries ∧
      db.feeCharges.find charge.id = some row ∧
      db' = { db with
        accounts := accounts
        journalEntries := entries
        postings := db.postings ++ [⟨entry.id, payable, .money charge.totalAccrued.neg⟩,
          ⟨entry.id, collected, .money charge.totalAccrued⟩]
        feeCharges := db.feeCharges.set (succeededCharge charge stripeChargeId entry.id row) } := by
  unfold collect at h
  simp only [bind_ok] at h
  obtain ⟨payable, _, hpayable, collected, _, hcollected, entry, _, hpost, h⟩ := h
  obtain ⟨haccount, accounts, rfl⟩ := getOrCreateCustomerAccount_ok hpayable
  obtain ⟨hnone, hrole, accounts', rfl⟩ := getOrCreateHouseAccount_ok hcollected
  obtain ⟨-, rfl, entries, hentries, rfl⟩ := post_ok hpost
  obtain ⟨row, hrow, -, -, rfl⟩ := updateFeeCharge_ok.mp h
  exact ⟨payable, collected, _, row, accounts', entries, haccount, hnone, hrole, rfl, hentries, hrow,
    rfl⟩

theorem closeDunning_ok {dunning : Option DunningState}
    (h : (closeDunning dunning).run db = .ok (u, db')) : ∃ dunnings,
      db' = { db with dunningStates := dunnings } ∧
        dunnings = dunning.elim db.dunningStates fun d => db.dunningStates.erase d.feeChargeId := by
  cases dunning with
  | none =>
    obtain ⟨-, rfl⟩ := pure_ok.mp h
    exact ⟨_, rfl, rfl⟩
  | some d => exact ⟨_, deleteDunningState_ok.mp h, rfl⟩

/-- **What `apply_charge_success` did**: nothing to a charge that had succeeded, and the collection
of any other, whose dunning state is gone. -/
theorem applyChargeSuccess_ok {feeChargeId : Uuid} {stripeChargeId : String}
    (h : (applyChargeSuccess env feeChargeId stripeChargeId).run db = .ok (u, db')) :
    ∃ charge, db.feeCharges.find feeChargeId = some charge ∧
      ((charge.status = .succeeded ∧ db' = db) ∨
        (charge.status ≠ .succeeded ∧ ∃ db₁ dunnings,
          (collect env charge stripeChargeId).run db = .ok ((), db₁) ∧
          db' = { db₁ with dunningStates := dunnings })) := by
  unfold applyChargeSuccess getFeeCharge at h
  simp only [bind_ok, read_ok, ofOption_ok] at h
  obtain ⟨charge, _, ⟨hcharge, rfl⟩, h⟩ := h
  refine ⟨charge, hcharge, ?_⟩
  split_ifs at h with hsucceeded
  · obtain ⟨-, rfl⟩ := pure_ok.mp h
    exact Or.inl ⟨hsucceeded, rfl⟩
  · simp only [bind_ok, read_ok] at h
    obtain ⟨_, db₁, hcollect, dunning, _, ⟨-, rfl⟩, h⟩ := h
    obtain ⟨dunnings, rfl, -⟩ := closeDunning_ok h
    exact Or.inr ⟨hsucceeded, db₁, dunnings, hcollect, rfl⟩

/-- What the failure of an open charge did: the first one, that of the last retry, that of
another. -/
inductive Failed (charge : FeeCharge) (db db' : Database) : Option DunningState → Prop
  | first (row : FeeCharge) (d : DunningState) (dunnings : Table DunningState.feeChargeId)
      (hrow : db.feeCharges.find charge.id = some row)
      (hid : d.feeChargeId = charge.id) (hstatus : d.status = .retrying)
      (hinsert : db.dunningStates.insert d = some dunnings)
      (hdb' : db' = { db with
        feeCharges := db.feeCharges.set { row with status := flushed charge.status .failed row.status }
        dunningStates := dunnings }) : Failed charge db db' none
  | last {d : DunningState} (row : FeeCharge) (row' drow : DunningState)
      (hrow : db.feeCharges.find charge.id = some row)
      (hdrow : db.dunningStates.find d.feeChargeId = some drow)
      (hdb' : db' = { db with
        feeCharges := db.feeCharges.set { row with status := flushed charge.status .dunning row.status }
        dunningStates := db.dunningStates.set row' })
      (hid : row'.feeChargeId = drow.feeChargeId) (hlast : d.maxAttempts ≤ d.attemptNumber + 1) :
      Failed charge db db' (some d)
  | counted {d : DunningState} (row' drow : DunningState)
      (hdrow : db.dunningStates.find d.feeChargeId = some drow)
      (hdb' : db' = { db with dunningStates := db.dunningStates.set row' })
      (hid : row'.feeChargeId = drow.feeChargeId) (hstatus : row'.status = drow.status)
      (hmore : d.attemptNumber + 1 < d.maxAttempts) : Failed charge db db' (some d)

theorem recordFailure_failed {maxAttempts : ℕ} {charge : FeeCharge} {dunning : Option DunningState}
    (h : (recordFailure env maxAttempts charge dunning).run db = .ok (u, db')) :
    Failed charge db db' dunning := by
  cases dunning with
  | none =>
    unfold recordFailure startDunning at h
    simp only [bind_ok, updateFeeCharge_ok, addDunningState_ok] at h
    obtain ⟨_, _, ⟨row, hrow, -, -, rfl⟩, dunnings, hinsert, rfl⟩ := h
    exact .first row _ dunnings hrow rfl rfl hinsert rfl
  | some dunning =>
    unfold recordFailure recordRetryFailure at h
    dsimp only at h
    split_ifs at h with hlast
    · simp only [bind_ok, updateFeeCharge_ok, updateDunningState_ok] at h
      obtain ⟨_, _, ⟨row, hrow, -, -, rfl⟩, drow, hdrow, rfl⟩ := h
      exact .last row _ drow hrow hdrow rfl rfl hlast
    · obtain ⟨drow, hdrow, rfl⟩ := updateDunningState_ok.mp h
      exact .counted _ drow hdrow rfl rfl rfl (by omega)

/-- **What a failure did to an open charge**: its row is failed or in dunning, or as it was, and
nothing else but the dunning states has changed. -/
theorem recordFailure_ok {maxAttempts : ℕ} {charge : FeeCharge} {dunning : Option DunningState}
    (h : (recordFailure env maxAttempts charge dunning).run db = .ok (u, db')) :
    ∃ charges dunnings, db' = { db with feeCharges := charges, dunningStates := dunnings } ∧
      (charges = db.feeCharges ∨ ∃ row status, db.feeCharges.find charge.id = some row ∧
        (status = .failed ∨ status = .dunning) ∧
        charges = db.feeCharges.set { row with status := flushed charge.status status row.status }) := by
  cases recordFailure_failed h with
  | first row d dunnings hrow _ _ _ hdb' =>
    exact ⟨_, _, hdb', Or.inr ⟨row, .failed, hrow, Or.inl rfl, rfl⟩⟩
  | last row row' drow hrow _ hdb' =>
    exact ⟨_, _, hdb', Or.inr ⟨row, .dunning, hrow, Or.inr rfl, rfl⟩⟩
  | counted row' drow _ hdb' => exact ⟨_, _, hdb', Or.inl rfl⟩

/-- **What `apply_charge_failure` did**: nothing to a closed charge. -/
theorem applyChargeFailure_ok {maxAttempts : ℕ} {feeChargeId : Uuid}
    (h : (applyChargeFailure env maxAttempts feeChargeId).run db = .ok (u, db')) :
    ∃ charge, db.feeCharges.find feeChargeId = some charge ∧
      ((isClosed charge ∧ db' = db) ∨ (isClosed charge = false ∧
        (recordFailure env maxAttempts charge (db.dunningStates.find charge.id)).run db =
          .ok (u, db'))) := by
  unfold applyChargeFailure getFeeCharge at h
  simp only [bind_ok, read_ok, ofOption_ok] at h
  obtain ⟨charge, _, ⟨hcharge, rfl⟩, h⟩ := h
  refine ⟨charge, hcharge, ?_⟩
  split_ifs at h with hclosed
  · obtain ⟨-, rfl⟩ := pure_ok.mp h
    exact Or.inl ⟨hclosed, rfl⟩
  · simp only [bind_ok, read_ok] at h
    obtain ⟨existing, _, ⟨hexisting, rfl⟩, h⟩ := h
    cases hexisting
    exact Or.inr ⟨by simpa using hclosed, h⟩

end Ok

end Trueup.Fees

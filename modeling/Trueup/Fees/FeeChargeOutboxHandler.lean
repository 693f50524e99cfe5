import Trueup.Fees.ChargeExecutions

/-! # One call of `charge_fee`

`services/fees/fee_charge_outbox_handler.py` from end to end, with nobody in between: the charge and
the payment method are read in one unit of work, the provider is called in none, and its answer is
applied in a second one.

* `chargeRequest_ok`: what is presented to the provider, and for which charges.
* `chargeFee_alone`: the call is the statements of an execution that runs alone. -/

namespace Trueup.Fees.Charging

open Trueup.Core Trueup.Models Trueup.Lib Trueup.Lib.Transaction

/-- What a call of `PaymentPort.charge` presents; the key is `str(fee_charge_id)`. -/
structure ChargeRequest where
  stripeCustomerId : String
  stripePaymentMethodId : String
  amount : Money
  idempotencyKey : Uuid
  deriving DecidableEq

/-- What `charge_fee` raises: what a service raised, or what the port did. -/
inductive ChargeFailure
  | service (e : Error)
  | port
  deriving DecidableEq

/-- The first unit of work: what is to be presented, or nothing for a charge that is not charged. -/
def chargeRequest (db : Database) (feeChargeId : Uuid) : Except Error (Option ChargeRequest) := do
  let charge ← getFeeCharge db feeChargeId
  if isChargeable charge then
    let method ← ofOption (db.paymentMethods.find charge.customerId) .noPaymentMethod
    return some {
      stripeCustomerId := method.stripeCustomerId
      stripePaymentMethodId := method.stripePaymentMethodId
      amount := charge.totalAccrued
      idempotencyKey := feeChargeId }
  else return none

/-- A unit of work of its own. -/
def commitOutcome (body : Tx Unit) (db : Database) : Except ChargeFailure Unit × Database :=
  (UnitOfWork.perform body db).map (·.mapError .service) id

/-- What the answer of the provider leads to. -/
def applyAnswer (env : Env) (maxAttempts : ℕ) (feeChargeId : Uuid) (db : Database) :
    Answer → Except ChargeFailure Unit × Database
  | .handle handle => commitOutcome (applyChargeSuccess env feeChargeId handle.stripeChargeId) db
  | .declined => commitOutcome (applyChargeFailure env maxAttempts feeChargeId) db
  | .error => (.error .port, db)

/-- `charge_fee`. -/
def chargeFee (env : Env) (maxAttempts : ℕ) (provider : ChargeRequest → Answer) (feeChargeId : Uuid)
    (db : Database) : Except ChargeFailure Unit × Database :=
  match chargeRequest db feeChargeId with
  | .error e => (.error (.service e), db)
  | .ok none => (.ok (), db)
  | .ok (some request) => applyAnswer env maxAttempts feeChargeId db (provider request)

section ChargeFee
variable {env : Env} {maxAttempts : ℕ} {db : Database} {feeChargeId : Uuid}

/-- **What is presented**: the total of a charge that is pending or failed, with its own id as the
key. -/
theorem chargeRequest_ok {request : ChargeRequest} :
    chargeRequest db feeChargeId = .ok (some request) ↔ ∃ charge method,
      db.feeCharges.find feeChargeId = some charge ∧ isChargeable charge = true ∧
      db.paymentMethods.find charge.customerId = some method ∧
      request = ⟨method.stripeCustomerId, method.stripePaymentMethodId, charge.totalAccrued,
        feeChargeId⟩ := by
  simp only [chargeRequest, getFeeCharge, except_bind_ok, ofOption_ok]
  constructor
  · rintro ⟨charge, hfind, h⟩
    split_ifs at h with hchargeable
    · obtain ⟨method, hmethod, hpure⟩ := except_bind_ok.mp h
      cases hpure
      exact ⟨charge, method, hfind, hchargeable, ofOption_ok.mp hmethod, rfl⟩
    · cases h
  · rintro ⟨charge, method, hfind, hchargeable, hmethod, rfl⟩
    refine ⟨charge, hfind, ?_⟩
    rw [if_pos hchargeable]
    exact except_bind_ok.mpr ⟨method, ofOption_ok.mpr hmethod, rfl⟩

theorem commitOutcome_snd (body : Tx Unit) : (commitOutcome body db).2 = atomically body db :=
  UnitOfWork.perform_snd body db

theorem commitOutcome_of_ok {body : Tx Unit} {db' : Database} {u : Unit}
    (h : body.run db = .ok (u, db')) : commitOutcome body db = (.ok (), db') := by
  have h' : body.run (UnitOfWork.enter db).session = .ok (u, db') := h
  rw [commitOutcome, UnitOfWork.perform, h']
  rfl

theorem commitOutcome_of_error {body : Tx Unit} {e : Error} (h : body.run db = .error e) :
    commitOutcome body db = (.error (.service e), db) := by
  have h' : body.run (UnitOfWork.enter db).session = .error e := h
  rw [commitOutcome, UnitOfWork.perform, h']
  rfl

/-- The statements of an execution that runs alone and gets an answer. -/
def alone (env : Env) (maxAttempts : ℕ) (answer : Answer) (feeChargeId : Uuid) (db : Database) :
    Database :=
  let loaded := proceed env maxAttempts db (.loading feeChargeId)
  let called := proceed env maxAttempts loaded.1 loaded.2
  match called.2, answer with
  | .calling id, .handle handle =>
    (proceedThrice env maxAttempts called.1 (.applying id (.success handle.stripeChargeId))).1
  | .calling id, .declined => (proceedThrice env maxAttempts called.1 (.applying id .failure)).1
  | _, _ => called.1

/-- **A call is an execution that runs alone.** -/
theorem chargeFee_alone (provider : ChargeRequest → Answer) (answer : Answer)
    (h : ∀ request, chargeRequest db feeChargeId = .ok (some request) → provider request = answer) :
    (chargeFee env maxAttempts provider feeChargeId db).2 =
      alone env maxAttempts answer feeChargeId db := by
  cases hfind : db.feeCharges.find feeChargeId with
  | none =>
    have hrequest : chargeRequest db feeChargeId = .error .feeChargeNotFound := by
      rw [chargeRequest, getFeeCharge_none hfind]
      rfl
    simp [chargeFee, hrequest, alone, proceed, hfind]
  | some charge =>
    have hget := getFeeCharge_some hfind
    cases hchargeable : isChargeable charge with
    | false =>
      have hrequest : chargeRequest db feeChargeId = .ok none := by
        rw [chargeRequest, hget]
        exact if_neg (by simp [hchargeable])
      simp [chargeFee, hrequest, alone, proceed, hfind, hchargeable]
    | true =>
      cases hmethod : db.paymentMethods.find charge.customerId with
      | none =>
        have hrequest : chargeRequest db feeChargeId = .error .noPaymentMethod := by
          rw [chargeRequest, hget]
          show (if isChargeable charge = true then _ else _) = _
          rw [if_pos hchargeable, hmethod]
          rfl
        simp [chargeFee, hrequest, alone, proceed, hfind, hchargeable, hmethod]
      | some method =>
        have hrequest := chargeRequest_ok.mpr ⟨charge, method, hfind, hchargeable, hmethod, rfl⟩
        have hid : charge.id = feeChargeId := (Table.find_eq_some.mp hfind).2
        have hcalled : proceed env maxAttempts db (.loaded charge) = (db, .calling feeChargeId) := by
          simp [proceed, hmethod, hid]
        simp only [chargeFee, hrequest, h _ hrequest, alone, proceed, hfind, hchargeable, if_true]
        rw [hmethod, hid]
        cases answer with
        | handle handle =>
          rw [applyAnswer, commitOutcome_snd]
          exact (proceed_applyChargeSuccess _).symm
        | declined =>
          rw [applyAnswer, commitOutcome_snd]
          exact proceed_applyChargeFailure.symm
        | error => rfl

end ChargeFee

/-! ### The rows of a charge -/

/-- The row of a charge, and that of its dunning. -/
def chargeRows (db : Database) (feeChargeId : Uuid) : Option FeeCharge × Option DunningState :=
  (db.feeCharges.find feeChargeId, db.dunningStates.find feeChargeId)

/-- The rows a failure leaves of an open charge. -/
def failedRows (env : Env) (maxAttempts : ℕ) (charge : FeeCharge) :
    Option DunningState → FeeCharge × DunningState
  | none => ({ charge with status := .failed },
      { feeChargeId := charge.id, customerId := charge.customerId, attemptNumber := 1
        nextRetryAt := nextRetryAt env 1, maxAttempts, status := .retrying })
  | some dunning =>
    let attemptNumber := dunning.attemptNumber + 1
    if dunning.maxAttempts ≤ attemptNumber then
      ({ charge with status := .dunning }, { dunning with attemptNumber, status := .exhausted })
    else (charge, { dunning with attemptNumber, nextRetryAt := nextRetryAt env attemptNumber })

/-- The row a success leaves of an open charge. -/
def succeededRow (env : Env) (charge : FeeCharge) (stripeChargeId : String) : FeeCharge :=
  { charge with
    status := .succeeded
    stripeChargeId := some stripeChargeId
    journalEntryId := some (env.uuid4 .journalEntry) }

section Rows
variable {env : Env} {maxAttempts : ℕ} {db db' : Database} {feeChargeId : Uuid} {charge : FeeCharge}
  {u : Unit}

/-- What a failure of an open charge leaves of the rows, and that it touches no others. -/
theorem applyChargeFailure_rows (hfind : db.feeCharges.find feeChargeId = some charge)
    (hopen : isClosed charge = false)
    (h : (applyChargeFailure env maxAttempts feeChargeId).run db = .ok (u, db')) :
    (∃ charges dunnings, db' = { db with feeCharges := charges, dunningStates := dunnings }) ∧
      chargeRows db' feeChargeId =
        (some (failedRows env maxAttempts charge (db.dunningStates.find feeChargeId)).1,
          some (failedRows env maxAttempts charge (db.dunningStates.find feeChargeId)).2) ∧
      ∀ id, id ≠ feeChargeId → chargeRows db' id = chargeRows db id := by
  obtain ⟨charge', hfind', ⟨hclosed, -⟩ | ⟨-, hrecord⟩⟩ := applyChargeFailure_ok h
  · rw [hfind] at hfind'
    cases hfind'
    rw [hopen] at hclosed
    cases hclosed
  · rw [hfind] at hfind'
    cases hfind'
    have hid : charge.id = feeChargeId := (Table.find_eq_some.mp hfind).2
    have hhas : db.feeCharges.Has feeChargeId :=
      Table.has_iff.mpr ⟨charge, (Table.find_eq_some.mp hfind).1, hid⟩
    rw [hid] at hrecord
    cases hdunning : db.dunningStates.find feeChargeId with
    | none =>
      rw [hdunning] at hrecord
      simp only [recordFailure, startDunning, bind_ok, updateFeeCharge_ok, addDunningState_ok] at hrecord
      obtain ⟨_, _, ⟨row, hrow, -, -, rfl⟩, dunnings, hinsert, rfl⟩ := hrecord
      rw [hid, hfind] at hrow
      cases hrow
      refine ⟨⟨_, _, rfl⟩, ?_, fun id hne => ?_⟩
      · simp [chargeRows, failedRows, Table.find_set, Table.find_insert hinsert, hid, hhas]
      · simp [chargeRows, Table.find_set, Table.find_insert hinsert, hid, hhas, Ne.symm hne]
    | some dunning =>
      rw [hdunning] at hrecord
      have hdid : dunning.feeChargeId = feeChargeId := (Table.find_eq_some.mp hdunning).2
      have hdhas : db.dunningStates.Has feeChargeId :=
        Table.has_iff.mpr ⟨dunning, (Table.find_eq_some.mp hdunning).1, hdid⟩
      simp only [recordFailure, recordRetryFailure] at hrecord
      split_ifs at hrecord with hlast
      · simp only [bind_ok, updateFeeCharge_ok, updateDunningState_ok] at hrecord
        obtain ⟨_, _, ⟨row, hrow, -, -, rfl⟩, drow, hdrow, rfl⟩ := hrecord
        rw [hid, hfind] at hrow
        cases hrow
        have hdrow' : db.dunningStates.find dunning.feeChargeId = some drow := hdrow
        rw [hdid, hdunning] at hdrow'
        cases hdrow'
        refine ⟨⟨_, _, rfl⟩, ?_, fun id hne => ?_⟩
        · simp [chargeRows, failedRows, hlast, Table.find_set, hid, hhas, hdid, hdhas]
        · simp [chargeRows, Table.find_set, hid, hhas, hdid, hdhas, Ne.symm hne]
      · obtain ⟨drow, hdrow, rfl⟩ := updateDunningState_ok.mp hrecord
        rw [hdid, hdunning] at hdrow
        cases hdrow
        refine ⟨⟨_, _, rfl⟩, ?_, fun id hne => ?_⟩
        · simp [chargeRows, failedRows, hlast, Table.find_set, hfind, hdid, hdhas]
        · simp [chargeRows, Table.find_set, hdid, hdhas, Ne.symm hne]

theorem applyChargeSuccess_rows {stripeChargeId : String}
    (hfind : db.feeCharges.find feeChargeId = some charge) (hopen : charge.status ≠ .succeeded)
    (h : (applyChargeSuccess env feeChargeId stripeChargeId).run db = .ok (u, db')) :
    chargeRows db' feeChargeId = (some (succeededRow env charge stripeChargeId), none) ∧
      ∀ id, id ≠ feeChargeId → chargeRows db' id = chargeRows db id := by
  have hid : charge.id = feeChargeId := (Table.find_eq_some.mp hfind).2
  have hhas : db.feeCharges.Has feeChargeId :=
    Table.has_iff.mpr ⟨charge, (Table.find_eq_some.mp hfind).1, hid⟩
  unfold applyChargeSuccess getFeeCharge at h
  simp only [bind_ok, read_ok, ofOption_ok] at h
  obtain ⟨_, _, ⟨hfind', rfl⟩, h⟩ := h
  rw [hfind] at hfind'
  cases hfind'
  rw [if_neg hopen] at h
  simp only [bind_ok, read_ok] at h
  obtain ⟨_, db₁, hcollect, dunning, _, ⟨hdunning, rfl⟩, hclose⟩ := h
  obtain ⟨payable, collected, entry, row, accounts, entries, -, -, -, hentry, -, hrow, hdb₁⟩ :=
    collect_ok hcollect
  rw [hid, hfind] at hrow
  cases hrow
  have hsucceeded : succeededCharge charge stripeChargeId entry.id charge =
      succeededRow env charge stripeChargeId := by
    simp [succeededCharge, succeededRow, hentry]
  obtain ⟨dunnings, rfl, hdunnings⟩ := closeDunning_ok hclose
  have hcharges : ∀ id, db₁.feeCharges.find id =
      if id = feeChargeId then some (succeededRow env charge stripeChargeId)
      else db.feeCharges.find id := fun id => by
    have hkey : (succeededRow env charge stripeChargeId).id = feeChargeId := hid
    have hset := Table.find_set (r := succeededRow env charge stripeChargeId) (hkey ▸ hhas) id
    rw [hkey] at hset
    rw [hdb₁, hsucceeded]
    simpa [eq_comm] using hset
  have hkept : db₁.dunningStates = db.dunningStates := by rw [hdb₁]
  have hgone : ∀ id, dunnings.find id =
      if id = feeChargeId then none else db.dunningStates.find id := fun id => by
    rw [hkept, hid] at hdunning
    cases hdunning
    rw [hdunnings, hkept]
    cases hrow : db.dunningStates.find feeChargeId with
    | none =>
      split_ifs with h
      · rw [h]; exact hrow
      · rfl
    | some dunning =>
      have hdid : dunning.feeChargeId = feeChargeId := (Table.find_eq_some.mp hrow).2
      rw [Option.elim_some, hdid, Table.find_erase]
  refine ⟨?_, fun id hne => ?_⟩
  · simp [chargeRows, hcharges, hgone]
  · simp [chargeRows, hcharges, hgone, hne]

end Rows

end Trueup.Fees.Charging

import Trueup.Fees.FeeChargeOutboxHandler

/-! # The calls for one charge

A call of `charge_fee` is two units of work with the provider's answer in between. The executions
for a charge come from the outbox and from the dunning job: they may overlap between the two, and
one may die before the second.

* `chargeFee_steps`: a call that is not interrupted is the two steps in a row.
* `next_happened`: all that a step can have done to the rows of the charge. -/

namespace Trueup.Fees.Charging

open Trueup.Core Trueup.Models Trueup.Lib Trueup.Lib.Transaction

/-- What the provider is presented with, and what is recorded of its answers. -/
inductive Event
  | presented (idempotencyKey : Uuid) (answer : Answer)
  | recorded (outcome : Outcome)

/-- The database, the answers whose outcome is still to be applied, and what has happened, oldest
first. -/
structure Calls where
  db : Database
  waiting : List Answer
  trace : List Event

/-- What can happen. -/
inductive CallStep (feeChargeId : Uuid)
  /-- the charge is read and the provider answers -/
  | present (answer : Answer)
  /-- an answer is applied -/
  | apply (env : Env) (i : ℕ)
  /-- an execution dies before that -/
  | crash (i : ℕ)
  /-- anything that leaves the rows of the charge alone -/
  | other (change : Database → Database)
      (rows : ∀ db, chargeRows (change db) feeChargeId = chargeRows db feeChargeId)

/-- What is applied for an answer. -/
def Answer.outcome : Answer → Option Outcome
  | .handle charged => some (.success charged.stripeChargeId)
  | .declined => some .failure
  | .error => none

/-- There is something left to record. -/
def isUnsettled (db : Database) (feeChargeId : Uuid) (outcome : Outcome) : Bool :=
  (db.feeCharges.find feeChargeId).any fun charge => !isSettled charge outcome

/-- What is recorded when an answer is applied. -/
def recordings (env : Env) (maxAttempts : ℕ) (feeChargeId : Uuid) (db : Database) (answer : Answer) :
    List Event :=
  match answer.outcome, (applyAnswer env maxAttempts feeChargeId db answer).1 with
  | some outcome, .ok _ => if isUnsettled db feeChargeId outcome then [.recorded outcome] else []
  | _, _ => []

/-- What a step does; one that there is no answer for does nothing. -/
def CallStep.next {feeChargeId : Uuid} (maxAttempts : ℕ) : CallStep feeChargeId → Calls → Calls
  | .present answer, w =>
    match chargeRequest w.db feeChargeId with
    | .ok (some request) => { w with
        waiting := answer :: w.waiting
        trace := w.trace ++ [.presented request.idempotencyKey answer] }
    | _ => w
  | .apply env i, w =>
    match w.waiting[i]? with
    | none => w
    | some answer => {
        db := (applyAnswer env maxAttempts feeChargeId w.db answer).2
        waiting := w.waiting.eraseIdx i
        trace := w.trace ++ recordings env maxAttempts feeChargeId w.db answer }
  | .crash i, w => { w with waiting := w.waiting.eraseIdx i }
  | .other change _, w => { w with db := change w.db }

/-- A step never raises. -/
def CallStep.perform {feeChargeId : Uuid} (maxAttempts : ℕ) (step : CallStep feeChargeId) :
    Transaction.Tx Error Calls Unit :=
  update (step.next maxAttempts)

theorem CallStep.atomically_perform {feeChargeId : Uuid} {maxAttempts : ℕ}
    (step : CallStep feeChargeId) (w : Calls) :
    atomically (step.perform maxAttempts) w = step.next maxAttempts w :=
  atomically_of_ok (a := ()) (update_ok.mpr rfl)

/-- The steps of a call that is not interrupted. -/
def callSteps (env : Env) (feeChargeId : Uuid) (answer : Answer) (db : Database) :
    List (CallStep feeChargeId) :=
  match chargeRequest db feeChargeId with
  | .ok (some _) => [.present answer, .apply env 0]
  | _ => []

section Steps
variable {env : Env} {maxAttempts : ℕ} {feeChargeId : Uuid}

/-- **A call that is not interrupted** leaves the database that its steps leave. -/
theorem chargeFee_steps (w : Calls) (provider : ChargeRequest → Answer) (answer : Answer)
    (h : ∀ request, chargeRequest w.db feeChargeId = .ok (some request) →
      provider request = answer) :
    (chargeFee env maxAttempts provider feeChargeId w.db).2 =
      (runs (CallStep.perform maxAttempts) (callSteps env feeChargeId answer w.db) w).db := by
  unfold chargeFee callSteps
  cases hrequest : chargeRequest w.db feeChargeId with
  | error e => rfl
  | ok request =>
    cases request with
    | none => rfl
    | some request =>
      simp only [runs_cons, CallStep.atomically_perform, CallStep.next, hrequest, h _ hrequest]
      rfl

/-- All that a step can have done: nothing to the charge; an answer has come for a chargeable
charge; a decline or a success of an open charge has been recorded. -/
inductive Happened (maxAttempts : ℕ) (feeChargeId : Uuid) (w w' : Calls) :
    CallStep feeChargeId → Prop
  | nothing {step : CallStep feeChargeId}
      (hrows : chargeRows w'.db feeChargeId = chargeRows w.db feeChargeId)
      (hwaiting : w'.waiting ⊆ w.waiting) (htrace : w'.trace = w.trace) :
      Happened maxAttempts feeChargeId w w' step
  | presented (answer : Answer) (charge : FeeCharge)
      (hfind : w.db.feeCharges.find feeChargeId = some charge)
      (hchargeable : isChargeable charge = true) (hdb : w'.db = w.db)
      (hwaiting : w'.waiting = answer :: w.waiting)
      (htrace : w'.trace = w.trace ++ [.presented feeChargeId answer]) :
      Happened maxAttempts feeChargeId w w' (.present answer)
  | declined (env : Env) (i : ℕ) (charge : FeeCharge) (hanswer : .declined ∈ w.waiting)
      (hfind : w.db.feeCharges.find feeChargeId = some charge) (hopen : isClosed charge = false)
      (hrows : chargeRows w'.db feeChargeId =
        (some (failedRows env maxAttempts charge (w.db.dunningStates.find feeChargeId)).1,
          some (failedRows env maxAttempts charge (w.db.dunningStates.find feeChargeId)).2))
      (hwaiting : w'.waiting ⊆ w.waiting) (htrace : w'.trace = w.trace ++ [.recorded .failure]) :
      Happened maxAttempts feeChargeId w w' (.apply env i)
  | succeeded (env : Env) (i : ℕ) (charge : FeeCharge) (handle : ChargeHandle)
      (hanswer : .handle handle ∈ w.waiting)
      (hrows : chargeRows w'.db feeChargeId =
        (some (succeededRow env charge handle.stripeChargeId), none))
      (hwaiting : w'.waiting ⊆ w.waiting)
      (htrace : w'.trace = w.trace ++ [.recorded (.success handle.stripeChargeId)]) :
      Happened maxAttempts feeChargeId w w' (.apply env i)

theorem applyAnswer_of_error {db : Database} {answer : Answer} {body : Tx Unit} {e : Error}
    (hbody : applyAnswer env maxAttempts feeChargeId db answer = commitOutcome body db)
    (h : body.run db = .error e) :
    (applyAnswer env maxAttempts feeChargeId db answer).2 = db ∧
      recordings env maxAttempts feeChargeId db answer = [] := by
  unfold recordings
  rw [hbody, commitOutcome_of_error h]
  refine ⟨rfl, ?_⟩
  cases answer.outcome <;> rfl

/-- **An answer that is applied.** -/
theorem apply_happened (w : Calls) (i : ℕ) :
    Happened maxAttempts feeChargeId w
      ((.apply env i : CallStep feeChargeId).next maxAttempts w) (.apply env i) := by
  cases hget : w.waiting[i]? with
  | none =>
    have hnext : (CallStep.apply env i : CallStep feeChargeId).next maxAttempts w = w := by
      simp [CallStep.next, hget]
    rw [hnext]
    exact .nothing rfl (fun _ h => h) rfl
  | some answer =>
    have hmem : answer ∈ w.waiting := List.mem_of_getElem? hget
    have hsub : w.waiting.eraseIdx i ⊆ w.waiting := (List.eraseIdx_sublist _ _).subset
    simp only [CallStep.next, hget]
    cases answer with
    | error => exact .nothing rfl hsub (by simp [recordings, Answer.outcome])
    | declined =>
      cases hrun : (applyChargeFailure env maxAttempts feeChargeId).run w.db with
      | error e =>
        have hbody : applyAnswer env maxAttempts feeChargeId w.db .declined =
            commitOutcome (applyChargeFailure env maxAttempts feeChargeId) w.db := rfl
        obtain ⟨hdb, hnone⟩ := applyAnswer_of_error hbody hrun
        exact .nothing (by simp only [hdb]) hsub (by simp only [hnone, List.append_nil])
      | ok r =>
        obtain ⟨u, db'⟩ := r
        have hanswer : applyAnswer env maxAttempts feeChargeId w.db .declined = (.ok (), db') :=
          commitOutcome_of_ok hrun
        obtain ⟨charge, hfind, ⟨hclosed, hdb'⟩ | ⟨hopen, -⟩⟩ := applyChargeFailure_ok hrun
        · refine .nothing (by simp only [hanswer, hdb']) hsub ?_
          simp [recordings, hanswer, Answer.outcome, isUnsettled, hfind, isSettled, hclosed]
        · obtain ⟨-, hrows, -⟩ := applyChargeFailure_rows hfind hopen hrun
          refine .declined env i charge hmem hfind hopen (by simp only [hanswer, hrows]) hsub ?_
          simp [recordings, hanswer, Answer.outcome, isUnsettled, hfind, isSettled, hopen]
    | handle handle =>
      cases hrun : (applyChargeSuccess env feeChargeId handle.stripeChargeId).run w.db with
      | error e =>
        have hbody : applyAnswer env maxAttempts feeChargeId w.db (.handle handle) =
            commitOutcome (applyChargeSuccess env feeChargeId handle.stripeChargeId) w.db := rfl
        obtain ⟨hdb, hnone⟩ := applyAnswer_of_error hbody hrun
        exact .nothing (by simp only [hdb]) hsub (by simp only [hnone, List.append_nil])
      | ok r =>
        obtain ⟨u, db'⟩ := r
        have hanswer : applyAnswer env maxAttempts feeChargeId w.db (.handle handle) =
            (.ok (), db') := commitOutcome_of_ok hrun
        obtain ⟨charge, hfind, ⟨hsucceeded, hdb'⟩ | ⟨hopen, -⟩⟩ := applyChargeSuccess_ok hrun
        · refine .nothing (by simp only [hanswer, hdb']) hsub ?_
          simp [recordings, hanswer, Answer.outcome, isUnsettled, hfind, isSettled, hsucceeded]
        · obtain ⟨hrows, -⟩ := applyChargeSuccess_rows hfind hopen hrun
          refine .succeeded env i charge handle hmem (by simp only [hanswer, hrows]) hsub ?_
          simp [recordings, hanswer, Answer.outcome, isUnsettled, hfind, isSettled, hopen]

/-- **What a step did.** -/
theorem next_happened (maxAttempts : ℕ) (step : CallStep feeChargeId) (w : Calls) :
    Happened maxAttempts feeChargeId w (step.next maxAttempts w) step := by
  cases step with
  | present answer =>
    rcases hrequest : chargeRequest w.db feeChargeId with e | request
    · have hnext : (CallStep.present answer : CallStep feeChargeId).next maxAttempts w = w := by
        simp [CallStep.next, hrequest]
      rw [hnext]
      exact .nothing rfl (fun _ h => h) rfl
    · cases request with
      | none =>
        have hnext : (CallStep.present answer : CallStep feeChargeId).next maxAttempts w = w := by
          simp [CallStep.next, hrequest]
        rw [hnext]
        exact .nothing rfl (fun _ h => h) rfl
      | some request =>
        obtain ⟨charge, method, hfind, hchargeable, -, rfl⟩ := chargeRequest_ok.mp hrequest
        simp only [CallStep.next, hrequest]
        exact .presented answer charge hfind hchargeable rfl rfl rfl
  | apply env i => exact apply_happened w i
  | crash i => exact .nothing rfl (List.eraseIdx_sublist _ _).subset rfl
  | other change rows => exact .nothing (rows w.db) (fun _ h => h) rfl

end Steps

/-! ### Where a run starts, and what comes last -/

/-- The charge is pending and not in dunning. -/
def Untried (db : Database) (feeChargeId : Uuid) : Prop :=
  (db.feeCharges.find feeChargeId).map (·.status) = some .pending ∧
    db.dunningStates.find feeChargeId = none

theorem presented_last {trace before after : List Event} {key key' : Uuid} {answer answer' : Answer}
    (h : trace ++ [.presented key answer] = before ++ .presented key' answer' :: after) :
    before = trace ∨ ∃ mid, trace = before ++ .presented key' answer' :: mid := by
  rcases List.eq_nil_or_concat after with rfl | ⟨mid, last, rfl⟩
  · exact Or.inl (List.append_inj_left' h rfl).symm
  · refine Or.inr ⟨mid, ?_⟩
    rw [List.concat_eq_append, ← List.cons_append, ← List.append_assoc] at h
    exact List.append_inj_left' h rfl

theorem presented_before {trace before after : List Event} {key : Uuid} {answer : Answer}
    {outcome : Outcome}
    (h : trace ++ [.recorded outcome] = before ++ .presented key answer :: after) :
    ∃ mid, trace = before ++ .presented key answer :: mid := by
  rcases List.eq_nil_or_concat after with rfl | ⟨mid, last, rfl⟩
  · have hlast := List.append_inj_right' h rfl
    cases hlast
  · refine ⟨mid, ?_⟩
    rw [List.concat_eq_append, ← List.cons_append, ← List.append_assoc] at h
    exact List.append_inj_left' h rfl

/-- Customer 1 owes the fee of a month, and has a payment method. -/
def feeOwed (totalAccrued : Money) : Database := { openedAccount 1 with
  feeCharges := ⟨[⟨16, 1, 0, 30, totalAccrued, 0, .pending, none, none⟩], by simp⟩
  paymentMethods := ⟨[⟨1, "cus", "pm"⟩], by simp⟩ }

theorem untried_feeOwed (totalAccrued : Money) : Untried (feeOwed totalAccrued) 16 := ⟨rfl, rfl⟩

end Trueup.Fees.Charging

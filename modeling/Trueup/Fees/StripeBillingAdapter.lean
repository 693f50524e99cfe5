import Trueup.Fees.ChargeCalls

/-! # What the provider collects

`integrations/stripe/billing_adapter.py`: Stripe is asked for a whole number of cents, while the
collection entry of the charge is for its total.

* `toCents_iff`: which amounts are asked for exactly.
* `next_books_iff`: one step books what is collected exactly when the total it charges
  is a whole number of cents.
* `ledger_books_collected_iff`: so it is of every run of accruals and successful charges. -/

namespace Trueup.Fees.Charging

open Trueup.Core Trueup.Models Trueup.Lib Trueup.Lib.Transaction Trueup.Lib.Rounding
open Trueup.Restatement

/-- `_to_cents`. -/
def toCents (amount : Money) : ℤ := roundHalfEven ((amount.quanta : ℚ) / 100)

/-- What `stripe.PaymentIntent.create` is called with. -/
structure PaymentIntentRequest where
  amount : ℤ
  customer : String
  paymentMethod : String
  idempotencyKey : Uuid

/-- What it does: it returns an intent, or raises a `stripe.CardError` or anything else. -/
inductive PaymentIntent
  | intent (id status : String)
  | cardError
  | raised

/-- `StripeBillingAdapter.charge`. -/
def charge (create : PaymentIntentRequest → PaymentIntent) (request : ChargeRequest) : Answer :=
  match create ⟨toCents request.amount, request.stripeCustomerId, request.stripePaymentMethodId,
    request.idempotencyKey⟩ with
  | .intent id status => .handle ⟨id, status⟩
  | .cardError => .declined
  | .raised => .error

/-- The balance of `fee_revenue_collected`. -/
def revenueQuanta (db : Database) : ℤ :=
  ((db.postings.filter (·.account.role = .feeRevenueCollected)).map (·.amount.moneyQuanta)).sum

/-- The database, and the cents the provider has collected for each charge. -/
structure Billing where
  db : Database
  collected : List (Uuid × ℤ)

/-- The cents collected in all. -/
def Billing.totalCollected (w : Billing) : ℤ := (w.collected.map (·.2)).sum

/-- A step: an accrual, the charge of a month, a call of `charge_fee`, or anything that leaves the
fees and the ledger alone. -/
inductive BillingStep
  | accrueForCustomer (env : Env) (feeRatePct : ℚ) (customerId : Uuid) (accrualDate : Date)
  | createPendingCharge (env : Env) (customerId : Uuid) (marketDate : CalendarDate)
  | chargeFee (env : Env) (maxAttempts : ℕ) (create : PaymentIntentRequest → PaymentIntent)
      (feeChargeId : Uuid)
  | offLedger (other : OffLedger)

/-- What the provider collects: exactly the cents it is asked for, if it returns an intent. -/
def collects (create : PaymentIntentRequest → PaymentIntent) (db : Database) (feeChargeId : Uuid) :
    List (Uuid × ℤ) :=
  match chargeRequest db feeChargeId with
  | .ok (some request) =>
    match charge create request with
    | .handle _ => [(feeChargeId, toCents request.amount)]
    | _ => []
  | _ => []

/-- The world after a step; a call that raises is not a step of these runs. -/
def BillingStep.next : BillingStep → Billing → Billing
  | .accrueForCustomer env feeRatePct customerId accrualDate, w =>
    { w with
      db := atomically (feeBody env (.accrueForCustomer feeRatePct customerId accrualDate)) w.db }
  | .createPendingCharge env customerId marketDate, w =>
    { w with db := atomically (feeBody env (.createPendingCharge customerId marketDate)) w.db }
  | .chargeFee env maxAttempts create feeChargeId, w =>
    match Charging.chargeFee env maxAttempts (charge create) feeChargeId w.db with
    | (.ok _, db) => ⟨db, w.collected ++ collects create w.db feeChargeId⟩
    | (.error _, _) => w
  | .offLedger other, w => { w with db := other.change w.db }

/-- A step never raises. -/
def BillingStep.perform (step : BillingStep) : Transaction.Tx Error Billing Unit := update step.next

theorem BillingStep.atomically_perform (step : BillingStep) (w : Billing) :
    atomically step.perform w = step.next w :=
  atomically_of_ok (a := ()) (update_ok.mpr rfl)

/-- The ledger has booked what was collected, in quanta of `Money`. -/
def Booked (w : Billing) : Prop := revenueQuanta w.db = 100 * w.totalCollected

instance (w : Billing) : Decidable (Booked w) := by unfold Booked; infer_instance

/-- A charge clears what is collected for it. -/
def ClearsCollected (w w' : Billing) : BillingStep → Prop
  | .chargeFee _ _ _ feeChargeId => ∀ charge, w.db.feeCharges.find feeChargeId = some charge →
      payableQuanta w.db charge.customerId - payableQuanta w'.db charge.customerId =
        100 * (w'.totalCollected - w.totalCollected)
  | _ => True

/-- A charge that is made is of a whole number of cents. -/
def ChargesWholeCents (w : Billing) : BillingStep → Prop
  | .chargeFee env maxAttempts create feeChargeId => ∀ request handle,
      chargeRequest w.db feeChargeId = .ok (some request) → charge create request = .handle handle →
      (Charging.chargeFee env maxAttempts (charge create) feeChargeId w.db).1 = .ok () →
      100 ∣ request.amount.quanta
  | _ => True

/-- **What is asked for** is the amount exactly when that is a whole number of cents. -/
theorem toCents_iff (amount : Money) : amount.quanta = 100 * toCents amount ↔ 100 ∣ amount.quanta := by
  constructor
  · intro h
    exact ⟨toCents amount, h⟩
  · rintro ⟨cents, hcents⟩
    have hquotient : (amount.quanta : ℚ) / 100 = (cents : ℤ) := by
      rw [hcents]
      push_cast
      ring
    rw [toCents, hquotient, roundHalfEven_intCast]
    exact hcents

section Steps
variable {env : Env} {maxAttempts : ℕ} {db db' : Database} {feeChargeId : Uuid} {u : Unit}

theorem revenueQuanta_append {entryId : Uuid} {account house : Account} {amount counter : Amount}
    (haccount : account.role ≠ .feeRevenueCollected)
    (hpostings : db'.postings = db.postings ++ [⟨entryId, account, amount⟩, ⟨entryId, house, counter⟩]) :
    revenueQuanta db' = revenueQuanta db +
      if house.role = .feeRevenueCollected then counter.moneyQuanta else 0 := by
  unfold revenueQuanta
  rw [hpostings, List.filter_append, List.map_append, List.sum_append]
  by_cases hhouse : house.role = .feeRevenueCollected <;> simp [haccount, hhouse]

theorem revenueQuanta_congr (h : db'.postings = db.postings) : revenueQuanta db' = revenueQuanta db := by
  rw [revenueQuanta, revenueQuanta, h]

/-- **An accrual** collects nothing. -/
theorem revenueQuanta_accrueForCustomer {feeRatePct : ℚ} {customerId : Uuid} {accrualDate : Date}
    {r : Option FeeAccrual}
    (h : (accrueForCustomer env feeRatePct customerId accrualDate).run db = .ok (r, db')) :
    revenueQuanta db' = revenueQuanta db := by
  obtain ⟨shadow, db₁, hshadow, hcases⟩ := accrueForCustomer_ok h
  have hsame : revenueQuanta db₁ = revenueQuanta db :=
    revenueQuanta_congr (by rw [shadowNav_writes hshadow])
  rcases hcases with ⟨-, rfl⟩ | ⟨shadowValue, accrual, -, -, haccrue⟩
  · exact hsame
  · obtain ⟨entryId, payable, revenue, feeAmount, hpayable, hrevenue, hpostings⟩ :=
      accrue_postings haccrue
    rw [revenueQuanta_append (by rw [hpayable]; decide) hpostings, hrevenue, hsame]
    simp

/-- **The charge of a month** collects nothing yet. -/
theorem revenueQuanta_createPendingCharge {customerId : Uuid} {periodStart periodEnd : Date}
    {r : Option FeeCharge}
    (h : (createPendingCharge env customerId periodStart periodEnd).run db = .ok (r, db')) :
    revenueQuanta db' = revenueQuanta db := by
  obtain ⟨returns, snapshots, rfl | ⟨charge, charges, jobs, -, -, -, -, -, -, -, -, -, -, -, rfl⟩⟩ :=
    createPendingCharge_ok h
  · rfl
  · rfl

/-- **A collection** is of the total of the charge. -/
theorem applyChargeSuccess_figures {stripeChargeId : String} {charge : FeeCharge}
    (hfind : db.feeCharges.find feeChargeId = some charge) (hopen : charge.status ≠ .succeeded)
    (h : (applyChargeSuccess env feeChargeId stripeChargeId).run db = .ok (u, db')) :
    revenueQuanta db' = revenueQuanta db + charge.totalAccrued.quanta ∧
      payableQuanta db' charge.customerId =
        payableQuanta db charge.customerId - charge.totalAccrued.quanta := by
  obtain ⟨charge', hfind', ⟨hsucceeded, -⟩ | ⟨-, db₁, dunnings, hcollect, hdb'⟩⟩ :=
    applyChargeSuccess_ok h
  · rw [hfind] at hfind'
    cases hfind'
    exact absurd hsucceeded hopen
  · rw [hfind] at hfind'
    cases hfind'
    obtain ⟨payable, collected, entry, row, accounts, entries, hpayable, hnone, hrole, -, -, -, hdb₁⟩ :=
      collect_ok hcollect
    have hpostings : db'.postings = db.postings ++
        [⟨entry.id, payable, .money charge.totalAccrued.neg⟩,
          ⟨entry.id, collected, .money charge.totalAccrued⟩] := by rw [hdb', hdb₁]
    have hrevenue := revenueQuanta_append (by rw [hpayable.role]; decide) hpostings
    have hcleared : payableQuanta db' charge.customerId = payableQuanta db charge.customerId +
        if charge.customerId = charge.customerId then charge.totalAccrued.neg.quanta else 0 :=
      payableQuanta_append hpayable hnone hpostings
    rw [if_pos hrole] at hrevenue
    rw [if_pos rfl] at hcleared
    exact ⟨hrevenue, hcleared⟩

theorem applyChargeFailure_postings
    (h : (applyChargeFailure env maxAttempts feeChargeId).run db = .ok (u, db')) :
    db'.postings = db.postings := by
  obtain ⟨charge, -, ⟨-, rfl⟩ | ⟨-, hrecord⟩⟩ := applyChargeFailure_ok h
  · rfl
  · obtain ⟨charges, dunnings, rfl, -⟩ := recordFailure_ok hrecord
    rfl

end Steps

/-- What a call of `charge_fee` did: nothing to the ledger, or it collected the charge. -/
inductive Charged (env : Env) (maxAttempts : ℕ) (create : PaymentIntentRequest → PaymentIntent)
    (feeChargeId : Uuid) (w w' : Billing) : Prop
  | nothing (hpostings : w'.db.postings = w.db.postings)
      (hcollected : w'.totalCollected = w.totalCollected)
      (hwhole : ChargesWholeCents w (.chargeFee env maxAttempts create feeChargeId))
  | made (charge : FeeCharge) (hfind : w.db.feeCharges.find feeChargeId = some charge)
      (hrevenue : revenueQuanta w'.db = revenueQuanta w.db + charge.totalAccrued.quanta)
      (hpayable : payableQuanta w'.db charge.customerId =
        payableQuanta w.db charge.customerId - charge.totalAccrued.quanta)
      (hcollected : w'.totalCollected = w.totalCollected + toCents charge.totalAccrued)
      (hwhole : ChargesWholeCents w (.chargeFee env maxAttempts create feeChargeId) ↔
        100 ∣ charge.totalAccrued.quanta)

/-- **What a call of `charge_fee` did.** -/
theorem chargeFee_charged (env : Env) (maxAttempts : ℕ)
    (create : PaymentIntentRequest → PaymentIntent) (feeChargeId : Uuid) (w : Billing) :
    Charged env maxAttempts create feeChargeId w
      ((BillingStep.chargeFee env maxAttempts create feeChargeId).next w) := by
  cases hrequest : chargeRequest w.db feeChargeId with
  | error e =>
    have hcall : chargeFee env maxAttempts (charge create) feeChargeId w.db =
        (.error (.service e), w.db) := by simp only [chargeFee, hrequest]
    simp only [BillingStep.next, hcall]
    exact .nothing rfl rfl fun request handle hok => by rw [hrequest] at hok; cases hok
  | ok request =>
    cases request with
    | none =>
      have hcall : chargeFee env maxAttempts (charge create) feeChargeId w.db = (.ok (), w.db) := by
        simp only [chargeFee, hrequest]
      simp only [BillingStep.next, hcall, collects, hrequest, List.append_nil]
      exact .nothing rfl rfl fun request handle hok => by rw [hrequest] at hok; cases hok
    | some request =>
      have hcall : chargeFee env maxAttempts (charge create) feeChargeId w.db =
          applyAnswer env maxAttempts feeChargeId w.db (charge create request) := by
        simp only [chargeFee, hrequest]
      -- a call that is not answered with a handle is not made
      have hnot : (∀ handle, charge create request ≠ .handle handle) →
          ChargesWholeCents w (.chargeFee env maxAttempts create feeChargeId) :=
        fun hnever request' handle hok hanswer => by
          rw [hrequest] at hok
          cases hok
          exact absurd hanswer (hnever handle)
      cases hanswer : charge create request with
      | error =>
        simp only [BillingStep.next, hcall, hanswer, applyAnswer]
        exact .nothing rfl rfl (hnot fun handle hhandle => by rw [hanswer] at hhandle; cases hhandle)
      | declined =>
        have hwhole := hnot fun handle hhandle => by rw [hanswer] at hhandle; cases hhandle
        cases hrun : (applyChargeFailure env maxAttempts feeChargeId).run w.db with
        | error e =>
          simp only [BillingStep.next, hcall, hanswer, applyAnswer, commitOutcome_of_error hrun]
          exact .nothing rfl rfl hwhole
        | ok r =>
          simp only [BillingStep.next, hcall, hanswer, applyAnswer, commitOutcome_of_ok hrun, collects,
            hrequest, List.append_nil]
          exact .nothing (applyChargeFailure_postings hrun) rfl hwhole
      | handle handle =>
        cases hrun : (applyChargeSuccess env feeChargeId handle.stripeChargeId).run w.db with
        | error e =>
          have hraised : chargeFee env maxAttempts (charge create) feeChargeId w.db =
              (.error (.service e), w.db) := by
            rw [hcall, hanswer, applyAnswer, commitOutcome_of_error hrun]
          simp only [BillingStep.next, hraised]
          exact .nothing rfl rfl fun _ _ _ _ hreturned => by rw [hraised] at hreturned; cases hreturned
        | ok r =>
          obtain ⟨u, db'⟩ := r
          have hreturned : chargeFee env maxAttempts (charge create) feeChargeId w.db =
              (.ok (), db') := by
            rw [hcall, hanswer, applyAnswer, commitOutcome_of_ok hrun]
          obtain ⟨charge, method, hfind, hchargeable, -, hpresented⟩ := chargeRequest_ok.mp hrequest
          have hopen : charge.status ≠ .succeeded := not_succeeded_of_isChargeable hchargeable
          have hamount : request.amount = charge.totalAccrued := by rw [hpresented]
          obtain ⟨hrevenue, hpayable⟩ := applyChargeSuccess_figures hfind hopen hrun
          simp only [BillingStep.next, hreturned, collects, hrequest, hanswer, hamount]
          refine .made charge hfind hrevenue hpayable (by simp [Billing.totalCollected]) ?_
          constructor
          · intro hwhole
            rw [← hamount]
            exact hwhole request handle hrequest hanswer (by rw [hreturned])
          · intro hwhole request' handle' hok _ _
            rw [hrequest] at hok
            cases hok
            rw [hamount]
            exact hwhole

/-- **One step** books what is collected exactly when it charges a whole number of cents. -/
theorem next_books_iff {w : Billing} (hbooked : Booked w) (step : BillingStep) :
    (Booked (step.next w) ∧ ClearsCollected w (step.next w) step) ↔ ChargesWholeCents w step := by
  have hkept : ∀ db', revenueQuanta db' = revenueQuanta w.db → Booked { w with db := db' } :=
    fun db' hsame => hsame.trans hbooked
  cases step with
  | accrueForCustomer env feeRatePct customerId accrualDate =>
    refine iff_of_true ⟨hkept _ ?_, trivial⟩ trivial
    rcases atomically_cases (feeBody env (.accrueForCustomer feeRatePct customerId accrualDate)) w.db
      with ⟨_, db', hrun, heq⟩ | ⟨_, -, heq⟩
    · obtain ⟨r, hrun⟩ := System.discard_ok hrun
      rw [heq]
      exact revenueQuanta_accrueForCustomer hrun
    · rw [heq]
  | createPendingCharge env customerId marketDate =>
    refine iff_of_true ⟨hkept _ ?_, trivial⟩ trivial
    rcases atomically_cases (feeBody env (.createPendingCharge customerId marketDate)) w.db
      with ⟨_, db', hrun, heq⟩ | ⟨_, -, heq⟩
    · obtain ⟨r, hrun⟩ := System.discard_ok hrun
      rw [heq]
      exact revenueQuanta_createPendingCharge hrun
    · rw [heq]
  | chargeFee env maxAttempts create feeChargeId =>
    have hcharged := chargeFee_charged env maxAttempts create feeChargeId w
    generalize (BillingStep.chargeFee env maxAttempts create feeChargeId).next w = w' at hcharged ⊢
    unfold Booked at hbooked ⊢
    cases hcharged with
    | nothing hpostings hcollected hwhole =>
      refine iff_of_true ⟨?_, fun charge _ => ?_⟩ hwhole
      · rw [revenueQuanta_congr hpostings, hcollected, hbooked]
      · rw [payableQuanta, payableQuanta, hpostings, hcollected]
        omega
    | made charge hfind hrevenue hpayable hcollected hwhole =>
      rw [hwhole, ← toCents_iff, hrevenue, hcollected, hbooked]
      constructor
      · rintro ⟨hbalance, -⟩
        omega
      · intro hexact
        refine ⟨by omega, fun charge' hfind' => ?_⟩
        rw [hfind] at hfind'
        cases hfind'
        rw [hpayable, hcollected]
        omega
  | offLedger other =>
    exact iff_of_true ⟨hkept _ (revenueQuanta_congr (other.postings w.db)), trivial⟩ trivial

/-- **The ledger books what the provider collected**, over every run of accruals and successful
charges, exactly when every charge that is made is of a whole number of cents. -/
theorem ledger_books_collected_iff {w : Billing} (hbooked : Booked w) (steps : List BillingStep) :
    RunMeets BillingStep.perform
        (fun w step => Booked (step.next w) ∧ ClearsCollected w (step.next w) step) steps w ↔
      RunMeets BillingStep.perform ChargesWholeCents steps w := by
  refine runMeets_iff (fun w step hw => next_books_iff hw step) (fun w step hw hwhole => ?_) hbooked
  rw [BillingStep.atomically_perform]
  exact ((next_books_iff hw step).mpr hwhole).1

/-- A provider that collects whatever it is asked for. -/
def collectsAll (_ : PaymentIntentRequest) : PaymentIntent := .intent "ch" "succeeded"

/-- A fee of five dollars is charged. -/
def fiveDollars : List BillingStep := [.chargeFee (envAt 0 17) 4 collectsAll 16]

theorem ledger_books_collected_five :
    ((runs BillingStep.perform fiveDollars ⟨feeOwed ⟨50000, by decide⟩, []⟩).totalCollected = 500 ∧
      revenueQuanta (runs BillingStep.perform fiveDollars ⟨feeOwed ⟨50000, by decide⟩, []⟩).db =
        50000) ∧
      RunMeets BillingStep.perform
        (fun w step => Booked (step.next w) ∧ ClearsCollected w (step.next w) step) fiveDollars
        ⟨feeOwed ⟨50000, by decide⟩, []⟩ := by
  refine ⟨by decide +kernel, (ledger_books_collected_iff (by decide) fiveDollars).mpr
    ⟨fun request handle hok _ _ => ?_, trivial⟩⟩
  have hrequest : chargeRequest (feeOwed ⟨50000, by decide⟩) 16 =
      .ok (some ⟨"cus", "pm", ⟨50000, by decide⟩, 16⟩) := rfl
  have hsame := hrequest.symm.trans hok
  cases hsame
  exact ⟨500, rfl⟩

/-- A payment method of the customer. -/
def attachMethod : OffLedger where
  change := withMethod
  postings _ := rfl
  entries _ := rfl
  accruals _ := rfl
  charges := feeCharges_withMethod

/-- A fee of less than a cent accrues in January and is charged. -/
def fractionOfCent : List BillingStep := [
  .offLedger fiveCloses,
  .accrueForCustomer (envAt 4 11) (1 / 5) 1 0,
  .accrueForCustomer (envAt 86400000004 12) (1 / 5) 1 1,
  .createPendingCharge (envAt (86400000000 * 31) 16) 1 firstOfFebruary,
  .offLedger attachMethod,
  .chargeFee (envAt (86400000000 * 31) 17) 4 collectsAll 16]

/-- **A fraction of a cent** is booked as collected, and cleared, when nothing is. -/
theorem fraction_booked_not_collected : ¬ ∀ (db : Database) (steps : List BillingStep), NoFees db →
    Booked ⟨db, []⟩ → RunMeets BillingStep.perform
      (fun w step => Booked (step.next w) ∧ ClearsCollected w (step.next w) step) steps ⟨db, []⟩ := by
  intro h
  have hstart : NoFees boughtShare :=
    ⟨by decide +kernel, by decide +kernel, by decide +kernel, by decide +kernel⟩
  obtain ⟨-, -, -, -, -, ⟨hbooked, -⟩, -⟩ :=
    h boughtShare fractionOfCent hstart (by decide +kernel)
  exact absurd hbooked (by decide +kernel)

end Trueup.Fees.Charging

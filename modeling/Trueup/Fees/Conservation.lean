import Trueup.Core.Calendar
import Trueup.Fees.FeeChargeService
import Trueup.Fees.HighWaterMarks

/-! # Conservation of the fee liability

Every serial run of accruals, monthly charges and the provider's verdicts, each of them any number
of times. `Conserved` ties three tables and the ledger together: what a customer owes on
`fees_accrued_payable` is what was accrued less what was collected, every accrual is in the total of
at most one charge, and a charge has a collection entry only when it has succeeded, and then one.

`fee_liability_conserved`: it holds after every run from a database without fees. -/

namespace Trueup.Fees

open Trueup.Core Trueup.Models Trueup.Lib Trueup.Lib.Transaction Trueup.Ledger Trueup.Valuation

/-! ### The figures -/

/-- A posting on a `fees_accrued_payable` account of the customer. -/
def isPayableOf (customerId : Uuid) (posting : Posting) : Bool :=
  posting.account.customerId = some customerId ∧ posting.account.role = .feesAccruedPayable

/-- The balance of the customer's `fees_accrued_payable`. -/
def payableQuanta (db : Database) (customerId : Uuid) : ℤ :=
  ((db.postings.filter (isPayableOf customerId)).map (·.amount.moneyQuanta)).sum

/-- The sum of `fee_amount` over the customer's accruals. -/
def accruedQuanta (db : Database) (customerId : Uuid) : ℤ :=
  ((accrualsOf db customerId).map (·.feeAmount.quanta)).sum

/-- The total of a succeeded charge of the customer. -/
def collectedShare (customerId : Uuid) (charge : FeeCharge) : ℤ :=
  if charge.customerId = customerId ∧ charge.status = .succeeded then charge.totalAccrued.quanta
  else 0

/-- The sum of `total_accrued` over the customer's succeeded charges. -/
def collectedQuanta (db : Database) (customerId : Uuid) : ℤ :=
  db.feeCharges.total (collectedShare customerId)

/-- The charge of a `fee_charge_succeeded` entry. -/
def collectedCharge (entry : JournalEntry) : Option Uuid :=
  match entry.sourceEvent with
  | .feeChargeSucceeded id _ _ => some id
  | _ => none

/-- A `fee_charge_succeeded` entry of the charge. -/
def isCollectionOf (feeChargeId : Uuid) (entry : JournalEntry) : Bool :=
  collectedCharge entry = some feeChargeId

/-- The number of collection entries of a charge. -/
def collections (db : Database) (feeChargeId : Uuid) : ℕ :=
  (db.journalEntries.rows.filter (isCollectionOf feeChargeId)).length

/-- The postings on CASH accounts. -/
def cashPostings (db : Database) : List Posting :=
  db.postings.filter (·.account.role = .cash)

/-- The day of the accrual is in the billing period of the charge. -/
def Billed (charge : FeeCharge) (key : Uuid × Date) : Prop :=
  key.1 = charge.customerId ∧ charge.billingPeriodStart ≤ key.2 ∧ key.2 ≤ charge.billingPeriodEnd

instance (charge : FeeCharge) (key : Uuid × Date) : Decidable (Billed charge key) := by
  unfold Billed; infer_instance

/-- Each accrual has been counted in the charge that `chargeOf` names, or in none. -/
structure CountedBy (db : Database) (chargeOf : Uuid × Date → Option Uuid) : Prop where
  billed : ∀ key id, chargeOf key = some id →
    db.feeAccruals.Has key ∧ ∃ charge ∈ db.feeCharges, charge.id = id ∧ Billed charge key
  total : ∀ charge ∈ db.feeCharges, charge.totalAccrued.quanta =
    ((db.feeAccruals.rows.filter fun accrual => chargeOf accrual.key = some charge.id).map
      (·.feeAmount.quanta)).sum

/-- The liability is conserved since `db₀`. -/
structure Conserved (db₀ db : Database) : Prop where
  balance : ∀ customerId,
    payableQuanta db customerId = accruedQuanta db customerId - collectedQuanta db customerId
  counted : ∃ chargeOf, CountedBy db chargeOf
  monthly : ∀ charge ∈ db.feeCharges, ∃ marketDate,
    (charge.billingPeriodStart, charge.billingPeriodEnd) = previousMonthBounds marketDate
  collected : ∀ feeChargeId, collections db feeChargeId ≤ 1 ∧ (collections db feeChargeId ≠ 0 →
    ∃ charge ∈ db.feeCharges, charge.id = feeChargeId ∧ charge.status = .succeeded)
  cash : cashPostings db = cashPostings db₀

/-! ### The runs -/

/-- An operation on the fees. -/
inductive FeeOp
  | accrueForCustomer (feeRatePct : ℚ) (customerId : Uuid) (accrualDate : Date)
  | createPendingCharge (customerId : Uuid) (marketDate : CalendarDate)
  | applyChargeSuccess (feeChargeId : Uuid) (stripeChargeId : String)
  | applyChargeFailure (maxAttempts : ℕ) (feeChargeId : Uuid)

/-- The unit of work of an operation. -/
def feeBody (env : Env) : FeeOp → Tx Unit
  | .accrueForCustomer feeRatePct customerId accrualDate => do
    let _ ← accrueForCustomer env feeRatePct customerId accrualDate
  | .createPendingCharge customerId marketDate => do
    let bounds := previousMonthBounds marketDate
    let _ ← createPendingCharge env customerId bounds.1 bounds.2
  | .applyChargeSuccess feeChargeId stripeChargeId =>
    applyChargeSuccess env feeChargeId stripeChargeId
  | .applyChargeFailure maxAttempts feeChargeId =>
    applyChargeFailure env maxAttempts feeChargeId

/-- Anything that leaves the fees and the ledger alone, such as the closes that come in. -/
structure OffLedger where
  change : Database → Database
  postings : ∀ db, (change db).postings = db.postings
  entries : ∀ db, (change db).journalEntries = db.journalEntries
  accruals : ∀ db, (change db).feeAccruals = db.feeAccruals
  charges : ∀ db, (change db).feeCharges = db.feeCharges

/-- An operation with what it reads from outside the database, or anything else. -/
inductive FeeStep
  | fee (env : Env) (op : FeeOp)
  | offLedger (other : OffLedger)

/-- The database after a step. -/
def feeStep (db : Database) : FeeStep → Database
  | .fee env op => atomically (feeBody env op) db
  | .offLedger other => other.change db

/-- The database after some steps. -/
def feeRun (steps : List FeeStep) (db : Database) : Database := steps.foldl feeStep db

/-- There are no fees yet. -/
structure NoFees (db : Database) : Prop where
  accruals : db.feeAccruals.rows = []
  charges : db.feeCharges.rows = []
  payable : ∀ p ∈ db.postings, p.account.role ≠ .feesAccruedPayable
  entries : ∀ entry ∈ db.journalEntries.rows, collectedCharge entry = none

theorem NoFees.conserved {db : Database} (h : NoFees db) : Conserved db db where
  balance customerId := by
    have hnone : db.postings.filter (isPayableOf customerId) = [] := by
      refine List.filter_eq_nil_iff.mpr fun p hp => ?_
      simp [isPayableOf, h.payable p hp]
    simp [payableQuanta, hnone, accruedQuanta, accrualsOf, collectedQuanta, h.accruals, h.charges,
      Table.total]
  counted := by
    refine ⟨fun _ => none, ⟨fun key id hkey => (by cases hkey), fun charge hcharge => ?_⟩⟩
    rw [Table.mem_iff, h.charges] at hcharge
    cases hcharge
  monthly charge hcharge := by
    rw [Table.mem_iff, h.charges] at hcharge
    cases hcharge
  collected feeChargeId := by
    have hnone : collections db feeChargeId = 0 := by
      unfold collections
      rw [List.length_eq_zero_iff, List.filter_eq_nil_iff]
      intro entry hentry
      simp [isCollectionOf, h.entries entry hentry]
    exact ⟨by omega, fun hpos => absurd hnone hpos⟩
  cash := rfl

/-! ### Two postings and an entry -/

section Figures
variable {db db' : Database} {customerId : Uuid}

theorem payableQuanta_append {entryId : Uuid} {payable house : Account} {amount : Money}
    {counter : Amount} {payerId : Uuid}
    (hpayable : IsAccountOf payable payerId .feesAccruedPayable none)
    (hhouse : house.customerId = none)
    (hpostings : db'.postings = db.postings ++
      [⟨entryId, payable, .money amount⟩, ⟨entryId, house, counter⟩]) :
    payableQuanta db' customerId =
      payableQuanta db customerId + if payerId = customerId then amount.quanta else 0 := by
  unfold payableQuanta
  rw [hpostings, List.filter_append, List.map_append, List.sum_append]
  congr 1
  have hhouse' : isPayableOf customerId ⟨entryId, house, counter⟩ = false := by
    simp [isPayableOf, hhouse]
  by_cases hid : payerId = customerId
  · have hown : isPayableOf customerId ⟨entryId, payable, .money amount⟩ = true := by
      simp [isPayableOf, hpayable.customer, hpayable.role, hid]
    simp [hown, hhouse', hid, Amount.moneyQuanta]
  · have hother : isPayableOf customerId ⟨entryId, payable, .money amount⟩ = false := by
      simp [isPayableOf, hpayable.customer, hid]
    simp [hother, hhouse', hid]

theorem cashPostings_append {entryId : Uuid} {payable house : Account} {amount counter : Amount}
    (hpayable : payable.role ≠ .cash) (hhouse : house.role ≠ .cash)
    (hpostings : db'.postings = db.postings ++
      [⟨entryId, payable, amount⟩, ⟨entryId, house, counter⟩]) :
    cashPostings db' = cashPostings db := by
  unfold cashPostings
  rw [hpostings, List.filter_append]
  simp [hpayable, hhouse]

theorem collections_insert {entry : JournalEntry} {entries : Table JournalEntry.id}
    (hentries : db.journalEntries.insert entry = some entries)
    (hdb' : db'.journalEntries = entries) (feeChargeId : Uuid) :
    collections db' feeChargeId =
      collections db feeChargeId + if isCollectionOf feeChargeId entry then 1 else 0 := by
  unfold collections
  rw [hdb', Table.rows_insert hentries, List.filter_append, List.length_append]
  split_ifs with h <;> simp [h]

theorem accrue_postings {env : Env} {feeRatePct : ℚ} {accrualDate : Date} {shadowValue : Money}
    {accrual : FeeAccrual}
    (h : (accrue env feeRatePct customerId accrualDate shadowValue).run db = .ok (accrual, db')) :
    ∃ entryId payable revenue feeAmount, payable.role = .feesAccruedPayable ∧
      revenue.role = .feeRevenueAccrued ∧ db'.postings = db.postings ++
        [⟨entryId, payable, .money feeAmount⟩, ⟨entryId, revenue, .money feeAmount.neg⟩] := by
  simp only [accrue, postAccrual, bind_ok, lift_ok, addFeeAccrual_ok, pure_ok] at h
  obtain ⟨mark, _, hmark, gain, _, hgain, feeAmount, _, ⟨-, rfl⟩, payable, _, hpayable, revenue, _,
    hrevenue, entry, _, hpost, _, _, ⟨accruals, -, rfl⟩, rfl, rfl⟩ := h
  obtain ⟨-, marks, rfl⟩ := getOrCreateMark_ok hmark
  obtain ⟨-, marks', rfl⟩ := ratchet_ok hgain
  obtain ⟨haccount, accounts, rfl⟩ := getOrCreateCustomerAccount_ok hpayable
  obtain ⟨-, hrole, accounts', rfl⟩ := getOrCreateHouseAccount_ok hrevenue
  obtain ⟨-, rfl, entries, -, rfl⟩ := post_ok hpost
  exact ⟨_, payable, revenue, feeAmount, haccount.role, hrole, rfl⟩

theorem accrue_cashPostings {env : Env} {feeRatePct : ℚ} {accrualDate : Date} {shadowValue : Money}
    {accrual : FeeAccrual}
    (h : (accrue env feeRatePct customerId accrualDate shadowValue).run db = .ok (accrual, db')) :
    cashPostings db' = cashPostings db := by
  obtain ⟨entryId, payable, revenue, feeAmount, hpayable, hrevenue, hpostings⟩ := accrue_postings h
  exact cashPostings_append (by rw [hpayable]; decide) (by rw [hrevenue]; decide) hpostings

end Figures

/-! ### What each operation keeps -/

section Step
variable {db₀ db db' : Database} {env : Env} {u : Unit}

/-- Counting depends on the accruals and on the ids, periods and totals of the charges. -/
theorem CountedBy.of_eq {chargeOf : Uuid × Date → Option Uuid} (h : CountedBy db chargeOf)
    (haccruals : db'.feeAccruals = db.feeAccruals)
    (hcharges : ∀ charge' ∈ db'.feeCharges, ∃ charge ∈ db.feeCharges, charge'.id = charge.id ∧
      charge'.totalAccrued = charge.totalAccrued)
    (hkept : ∀ charge ∈ db.feeCharges, ∃ charge' ∈ db'.feeCharges, charge'.id = charge.id ∧
      ∀ key, Billed charge key → Billed charge' key) : CountedBy db' chargeOf := by
  refine ⟨fun key id hkey => ?_, fun charge' hcharge' => ?_⟩
  · obtain ⟨hhas, charge, hcharge, hid, hbilled⟩ := h.billed key id hkey
    obtain ⟨charge', hcharge', hid', hbilled'⟩ := hkept charge hcharge
    exact ⟨haccruals ▸ hhas, charge', hcharge', hid'.trans hid, hbilled' key hbilled⟩
  · obtain ⟨charge, hcharge, hid, htotal⟩ := hcharges charge' hcharge'
    rw [haccruals, hid, htotal]
    exact h.total charge hcharge

/-- The columns a verdict sets are not the ones the counting is about. -/
theorem CountedBy.set {chargeOf : Uuid × Date → Option Uuid} (h : CountedBy db chargeOf)
    {row row' : FeeCharge} (hrow : row ∈ db.feeCharges) (hid : row'.id = row.id)
    (htotal : row'.totalAccrued = row.totalAccrued)
    (hbilled : ∀ key, Billed row key → Billed row' key)
    (haccruals : db'.feeAccruals = db.feeAccruals)
    (hcharges : db'.feeCharges = db.feeCharges.set row') : CountedBy db' chargeOf := by
  refine h.of_eq haccruals (fun charge' hcharge' => ?_) fun charge hcharge => ?_
  · rw [hcharges] at hcharge'
    rcases Table.mem_set.mp hcharge' with ⟨hmem, -⟩ | ⟨rfl, -⟩
    · exact ⟨charge', hmem, rfl, rfl⟩
    · exact ⟨row, hrow, hid, htotal⟩
  · rw [hcharges]
    by_cases hkey : charge.id = row'.id
    · obtain rfl := Table.eq_of_key_eq hcharge hrow (hkey.trans hid)
      exact ⟨row', Table.mem_set_self hrow hid.symm, hid, hbilled⟩
    · exact ⟨charge, Table.mem_set.mpr (Or.inl ⟨hcharge, hkey⟩), rfl, fun _ hb => hb⟩

theorem Conserved.accrueForCustomer (h : Conserved db₀ db) {feeRatePct : ℚ} {payerId : Uuid}
    {accrualDate : Date} {r : Option FeeAccrual}
    (hrun : (accrueForCustomer env feeRatePct payerId accrualDate).run db = .ok (r, db')) :
    Conserved db₀ db' := by
  obtain ⟨shadow, db₁, hshadow, hcases⟩ := accrueForCustomer_ok hrun
  have hdb₁ := shadowNav_writes hshadow
  have h₁ : Conserved db₀ db₁ := by
    rw [hdb₁]
    exact ⟨h.balance, h.counted.imp fun _ hc => ⟨hc.billed, hc.total⟩, h.monthly, h.collected, h.cash⟩
  rcases hcases with ⟨-, rfl⟩ | ⟨shadowValue, accrual, rfl, rfl, haccrue⟩
  · exact h₁
  have hcash := accrue_cashPostings haccrue
  obtain ⟨gain, feeAmount, payable, revenue, entry, marks, accounts, entries, accruals, -, -,
    hpayable, hrevenue, hentry, hrow, hentries, haccruals, hdb'⟩ := accrue_ok haccrue
  have hfree := (Table.insert_eq_some.mp haccruals).1
  have hrows : db'.feeAccruals.rows = db₁.feeAccruals.rows ++ [accrual] := by
    rw [hdb']
    exact Table.rows_insert haccruals
  have hcharges : db'.feeCharges = db₁.feeCharges := by rw [hdb']
  refine ⟨fun customerId => ?_, ?_, by rw [hcharges]; exact h₁.monthly, fun feeChargeId => ?_,
    hcash.trans h₁.cash⟩
  · have hbalance : payableQuanta db' customerId =
        payableQuanta db₁ customerId + if payerId = customerId then feeAmount.quanta else 0 :=
      payableQuanta_append hpayable hrevenue (by rw [hdb'])
    have haccrued : accruedQuanta db' customerId =
        accruedQuanta db₁ customerId + if payerId = customerId then feeAmount.quanta else 0 := by
      unfold accruedQuanta accrualsOf
      rw [hrows, List.filter_append, List.map_append, List.sum_append, hrow]
      by_cases hid : payerId = customerId <;> simp [hid]
    have hcollected : collectedQuanta db' customerId = collectedQuanta db₁ customerId := by
      unfold collectedQuanta
      rw [hcharges]
    have hold := h₁.balance customerId
    omega
  · -- the new accrual is not in any charge
    obtain ⟨chargeOf, hcounted⟩ := h₁.counted
    have hnone : ∀ id, chargeOf accrual.key ≠ some id :=
      fun id hkey => hfree (hcounted.billed _ id hkey).1
    refine ⟨chargeOf, fun key id hkey => ?_, fun charge hcharge => ?_⟩
    · obtain ⟨hhas, hbilled⟩ := hcounted.billed key id hkey
      rw [hcharges, hdb']
      exact ⟨(Table.has_insert haccruals key).mpr (Or.inl hhas), hbilled⟩
    · rw [hcharges] at hcharge
      rw [hrows, List.filter_append, hcounted.total charge hcharge]
      simp [hnone]
  · have hcollections := collections_insert hentries (show db'.journalEntries = _ by rw [hdb'])
      feeChargeId
    have hnot : isCollectionOf feeChargeId entry = false := by rw [hentry]; rfl
    rw [hnot, if_neg Bool.false_ne_true, add_zero] at hcollections
    rw [hcollections, hcharges]
    exact h₁.collected feeChargeId

/-- A month that has no charge yet is counted in the new one. -/
theorem Conserved.createPendingCharge (h : Conserved db₀ db) {customerId : Uuid}
    {marketDate : CalendarDate} {r : Option FeeCharge}
    (hrun : (createPendingCharge env customerId (previousMonthBounds marketDate).1
      (previousMonthBounds marketDate).2).run db = .ok (r, db')) : Conserved db₀ db' := by
  obtain ⟨returns, snapshots, hdb' | ⟨charge, charges, jobs, -, hcustomer, hbegin, hend, htotal,
    hstatus, -, -, hfree, hcharges, -, hdb'⟩⟩ := createPendingCharge_ok hrun
  · rw [hdb']
    exact ⟨h.balance, h.counted.imp fun _ hc => ⟨hc.billed, hc.total⟩, h.monthly, h.collected, h.cash⟩
  have hnew := (Table.insert_eq_some.mp hcharges).1
  have hunique := (freeForCharge_ok.mp hfree).1
  have hmem : ∀ c, c ∈ db'.feeCharges ↔ c ∈ db.feeCharges ∨ c = charge := by
    intro c
    rw [hdb']
    exact Table.mem_insert hcharges
  refine ⟨fun payerId => ?_, ?_, fun c hc => ?_, fun feeChargeId => ?_, by rw [hdb']; exact h.cash⟩
  · have hcollected : collectedQuanta db' payerId = collectedQuanta db payerId := by
      unfold collectedQuanta
      rw [hdb', Table.total_insert hcharges, collectedShare, if_neg (by simp [hstatus]), add_zero]
    rw [hcollected, hdb']
    exact h.balance payerId
  · obtain ⟨chargeOf, hcounted⟩ := h.counted
    -- no accrual of the month has been counted before: its charge would have the same month
    have huncounted : ∀ key, Billed charge key → chargeOf key = none := by
      intro key hbilled
      by_contra hsome
      obtain ⟨id, hid⟩ := Option.ne_none_iff_exists'.mp hsome
      obtain ⟨-, c, hc, -, hbilled'⟩ := hcounted.billed key id hid
      obtain ⟨marketDate', hmonth'⟩ := h.monthly c hc
      have hin : (previousMonthBounds marketDate).1 ≤ key.2 ∧
          key.2 ≤ (previousMonthBounds marketDate).2 := by
        rw [← hbegin, ← hend]
        exact hbilled.2
      have hin' : (previousMonthBounds marketDate').1 ≤ key.2 ∧
          key.2 ≤ (previousMonthBounds marketDate').2 := by
        rw [← hmonth']
        exact hbilled'.2
      have hsame := previousMonthBounds_disjoint marketDate marketDate' hin hin'
      refine hunique c hc (fun hid' => hnew (hid' ▸ Table.has_of_mem hc)) ⟨?_, ?_, ?_⟩
      · exact hbilled'.1.symm.trans hbilled.1
      · rw [hbegin, hsame, ← hmonth']
      · rw [hend, hsame, ← hmonth']
    have haccruals : db'.feeAccruals = db.feeAccruals := by rw [hdb']
    refine ⟨fun key => if db.feeAccruals.Has key ∧ Billed charge key then some charge.id
      else chargeOf key, fun key id hkey => ?_, fun c hc => ?_⟩
    · rw [haccruals]
      split_ifs at hkey with hin
      · cases hkey
        exact ⟨hin.1, charge, (hmem charge).mpr (Or.inr rfl), rfl, hin.2⟩
      · obtain ⟨hhas, c, hc, hid, hbilled⟩ := hcounted.billed key id hkey
        exact ⟨hhas, c, (hmem c).mpr (Or.inl hc), hid, hbilled⟩
    · rw [haccruals]
      rcases (hmem c).mp hc with hc | rfl
      · rw [hcounted.total c hc]
        congr 2
        refine List.filter_congr fun accrual haccrual => ?_
        have hne : charge.id ≠ c.id := fun hid => hnew (hid ▸ Table.has_of_mem hc)
        by_cases hin : db.feeAccruals.Has accrual.key ∧ Billed charge accrual.key
        · simp [hin, hne, huncounted _ hin.2]
        · simp [hin]
      · rw [htotal, listForPeriod]
        congr 2
        refine List.filter_congr fun accrual haccrual => ?_
        have hhas : db.feeAccruals.Has accrual.key := Table.has_of_mem haccrual
        have hbilled : Billed c accrual.key ↔ accrual.customerId = customerId ∧
            (previousMonthBounds marketDate).1 ≤ accrual.accrualDate ∧
              accrual.accrualDate ≤ (previousMonthBounds marketDate).2 := by
          rw [Billed, hcustomer, hbegin, hend]
          rfl
        have hnone : chargeOf accrual.key ≠ some c.id := fun hid => by
          obtain ⟨-, c', hc', hid', -⟩ := hcounted.billed _ _ hid
          exact hnew (hid' ▸ Table.has_of_mem hc')
        by_cases hin : Billed c accrual.key
        · simp [hhas, hin, hbilled.mp hin]
        · rw [hbilled] at hin
          simp [hhas, hbilled, hin, hnone]
  · rcases (hmem c).mp hc with hc | rfl
    · exact h.monthly c hc
    · exact ⟨marketDate, by rw [hbegin, hend]⟩
  · have hcollections : collections db' feeChargeId = collections db feeChargeId := by
      rw [hdb']
      rfl
    rw [hcollections]
    refine (h.collected feeChargeId).imp_right fun hsome hpos => ?_
    obtain ⟨c, hc, hid⟩ := hsome hpos
    exact ⟨c, (hmem c).mpr (Or.inl hc), hid⟩

/-- The collection of an open charge takes its total off the liability. -/
theorem Conserved.applyChargeSuccess (h : Conserved db₀ db) {feeChargeId : Uuid}
    {stripeChargeId : String}
    (hrun : (applyChargeSuccess env feeChargeId stripeChargeId).run db = .ok (u, db')) :
    Conserved db₀ db' := by
  obtain ⟨charge, hfind, ⟨-, rfl⟩ | ⟨hopen, db₁, dunnings, hcollect, hdb'⟩⟩ :=
    applyChargeSuccess_ok hrun
  · exact h
  obtain ⟨payable, collected, entry, row, accounts, entries, hpayable, hnone, hrole, hentry,
    hentries, hrow, hdb₁⟩ := collect_ok hcollect
  obtain ⟨hmem, hid⟩ := Table.find_eq_some.mp hfind
  rw [hid, hfind] at hrow
  obtain rfl := Option.some.inj hrow
  have hcharges : db'.feeCharges =
      db.feeCharges.set (succeededCharge charge stripeChargeId entry.id charge) := by
    rw [hdb', hdb₁]
  have hkey : charge.id = (succeededCharge charge stripeChargeId entry.id charge).id := rfl
  have hsucceeded : (succeededCharge charge stripeChargeId entry.id charge).status = .succeeded :=
    flushed_self _ _
  have hpostings : db'.postings = db.postings ++ [⟨entry.id, payable, .money charge.totalAccrued.neg⟩,
      ⟨entry.id, collected, .money charge.totalAccrued⟩] := by
    rw [hdb', hdb₁]
  refine ⟨fun customerId => ?_, ?_, fun c hc => ?_, fun id => ?_, ?_⟩
  · have hbalance : payableQuanta db' customerId = payableQuanta db customerId +
        if charge.customerId = customerId then charge.totalAccrued.neg.quanta else 0 :=
      payableQuanta_append hpayable hnone hpostings
    have haccrued : accruedQuanta db' customerId = accruedQuanta db customerId := by
      rw [hdb', hdb₁]
      rfl
    have hshare : collectedShare customerId charge = 0 := if_neg (fun hand => hopen hand.2)
    have hshare' : collectedShare customerId (succeededCharge charge stripeChargeId entry.id charge) =
        if charge.customerId = customerId then charge.totalAccrued.quanta else 0 := by
      unfold collectedShare
      rw [hsucceeded]
      simp [succeededCharge]
    have hcollected : collectedQuanta db' customerId = collectedQuanta db customerId +
        if charge.customerId = customerId then charge.totalAccrued.quanta else 0 := by
      unfold collectedQuanta
      rw [hcharges, Table.total_set hmem hkey, hshare, hshare', sub_zero]
    have hold := h.balance customerId
    have hneg : charge.totalAccrued.neg.quanta = - charge.totalAccrued.quanta := rfl
    split_ifs at hbalance hcollected <;> omega
  · obtain ⟨chargeOf, hcounted⟩ := h.counted
    exact ⟨chargeOf, hcounted.set hmem hkey.symm rfl (fun _ hb => hb) (by rw [hdb', hdb₁]) hcharges⟩
  · rw [hcharges] at hc
    rcases Table.mem_set.mp hc with ⟨hc, -⟩ | ⟨rfl, -⟩
    · exact h.monthly c hc
    · exact h.monthly charge hmem
  · have hcollections := collections_insert hentries (show db'.journalEntries = _ by rw [hdb', hdb₁]) id
    have hself := Table.mem_set_self hmem hkey
    rw [hcharges]
    by_cases hthis : charge.id = id
    · -- a charge that had an entry would have succeeded before
      have hzero : collections db id = 0 := by
        by_contra hpos
        obtain ⟨c, hc, hcid, hcstatus⟩ := (h.collected id).2 hpos
        exact hopen (Table.eq_of_key_eq hmem hc (hthis.trans hcid.symm) ▸ hcstatus)
      refine ⟨?_, fun _ => ⟨_, hself, hthis, hsucceeded⟩⟩
      split_ifs at hcollections <;> omega
    · have hother : isCollectionOf id entry = false := by simp [hentry, isCollectionOf, collectedCharge, hthis]
      rw [hother, if_neg Bool.false_ne_true, add_zero] at hcollections
      rw [hcollections]
      refine (h.collected id).imp_right fun hsome hpos => ?_
      exact Table.exists_mem_set hmem hkey (fun hP => ⟨hP.1, hsucceeded⟩) (hsome hpos)
  · have hpayable' : payable.role ≠ .cash := by rw [hpayable.role]; decide
    have hcollected' : collected.role ≠ .cash := by rw [hrole]; decide
    exact (cashPostings_append hpayable' hcollected' hpostings).trans h.cash

theorem Conserved.applyChargeFailure (h : Conserved db₀ db) {maxAttempts : ℕ} {feeChargeId : Uuid}
    (hrun : (applyChargeFailure env maxAttempts feeChargeId).run db = .ok (u, db')) :
    Conserved db₀ db' := by
  obtain ⟨charge, hfind, ⟨-, rfl⟩ | ⟨hopen, hrecord⟩⟩ := applyChargeFailure_ok hrun
  · exact h
  obtain ⟨charges, dunnings, hdb', rfl | ⟨row, status, hrow, hstatus, hcharges⟩⟩ :=
    recordFailure_ok hrecord
  · rw [hdb']
    exact ⟨h.balance, h.counted.imp fun _ hc => ⟨hc.billed, hc.total⟩, h.monthly, h.collected, h.cash⟩
  obtain ⟨hmem, hid⟩ := Table.find_eq_some.mp hfind
  rw [hid, hfind] at hrow
  obtain rfl := Option.some.inj hrow
  rw [flushed_self] at hcharges
  have hbefore : charge.status ≠ .succeeded := fun hstatus => by simp [isClosed, hstatus] at hopen
  have hafter : status ≠ .succeeded := by
    rcases hstatus with rfl | rfl <;> decide
  have hdb'charges : db'.feeCharges = db.feeCharges.set { charge with status } := by
    rw [hdb', hcharges]
  have hkey : charge.id = ({ charge with status } : FeeCharge).id := rfl
  refine ⟨fun customerId => ?_, ?_, fun c hc => ?_, fun id => ?_, by rw [hdb']; exact h.cash⟩
  · have hcollected : collectedQuanta db' customerId = collectedQuanta db customerId := by
      unfold collectedQuanta
      rw [hdb'charges, Table.total_set hmem hkey, collectedShare, if_neg (fun hand => hbefore hand.2),
        collectedShare, if_neg (fun hand => hafter hand.2), sub_zero, add_zero]
    rw [hcollected, hdb']
    exact h.balance customerId
  · obtain ⟨chargeOf, hcounted⟩ := h.counted
    exact ⟨chargeOf, hcounted.set hmem hkey.symm rfl (fun _ hb => hb) (by rw [hdb']) hdb'charges⟩
  · rw [hdb'charges] at hc
    rcases Table.mem_set.mp hc with ⟨hc, -⟩ | ⟨rfl, -⟩
    · exact h.monthly c hc
    · exact h.monthly charge hmem
  · have hcollections : collections db' id = collections db id := by
      rw [hdb']
      rfl
    rw [hcollections, hdb'charges]
    refine (h.collected id).imp_right fun hsome hpos => ?_
    exact Table.exists_mem_set hmem hkey (fun hP => absurd hP.2 hbefore) (hsome hpos)

theorem Conserved.feeBody (h : Conserved db₀ db) {op : FeeOp}
    (hrun : (feeBody env op).run db = .ok (u, db')) : Conserved db₀ db' := by
  cases op with
  | accrueForCustomer feeRatePct customerId accrualDate =>
    obtain ⟨r, hrun⟩ := System.discard_ok hrun
    exact h.accrueForCustomer hrun
  | createPendingCharge customerId marketDate =>
    obtain ⟨r, hrun⟩ := System.discard_ok hrun
    exact h.createPendingCharge hrun
  | applyChargeSuccess feeChargeId stripeChargeId => exact h.applyChargeSuccess hrun
  | applyChargeFailure maxAttempts feeChargeId => exact h.applyChargeFailure hrun

theorem Conserved.step (h : Conserved db₀ db) (step : FeeStep) : Conserved db₀ (feeStep db step) := by
  cases step with
  | fee env op =>
    rcases atomically_cases (Fees.feeBody env op) db with ⟨_, db', hrun, heq⟩ | ⟨_, -, heq⟩
    · rw [feeStep, heq]
      exact h.feeBody hrun
    · rw [feeStep, heq]
      exact h
  | offLedger other =>
    show Conserved db₀ (other.change db)
    have hpostings := other.postings db
    have hentries := other.entries db
    have haccruals := other.accruals db
    have hcharges := other.charges db
    refine ⟨fun customerId => ?_, h.counted.imp fun _ hc => ⟨?_, ?_⟩, ?_, fun id => ?_, ?_⟩
    · rw [payableQuanta, accruedQuanta, accrualsOf, collectedQuanta, hpostings, haccruals, hcharges]
      exact h.balance customerId
    · rw [haccruals, hcharges]
      exact hc.billed
    · rw [haccruals, hcharges]
      exact hc.total
    · rw [hcharges]
      exact h.monthly
    · rw [collections, hentries, hcharges]
      exact h.collected id
    · rw [cashPostings, hpostings]
      exact h.cash

theorem Conserved.run : ∀ (steps : List FeeStep) {db : Database}, Conserved db₀ db →
    Conserved db₀ (feeRun steps db)
  | [], _, h => h
  | step :: steps, _, h => Conserved.run steps (h.step step)

end Step

/-- **Conservation of the fee liability.** After any run of accruals, monthly charges and verdicts,
in any order and with repeats, from a database without fees: `fees_accrued_payable` is what was
accrued less what was collected; every accrual is counted in at most one charge's total, which is
the sum of those counted in it; a charge has at most one collection entry; and no posting on a CASH
account was added. -/
theorem fee_liability_conserved {db₀ : Database} (hstart : NoFees db₀) (steps : List FeeStep) :
    (∀ customerId, payableQuanta (feeRun steps db₀) customerId =
      accruedQuanta (feeRun steps db₀) customerId - collectedQuanta (feeRun steps db₀) customerId) ∧
    (∃ chargeOf : Uuid × Date → Option Uuid, CountedBy (feeRun steps db₀) chargeOf) ∧
    (∀ feeChargeId, collections (feeRun steps db₀) feeChargeId ≤ 1) ∧
    cashPostings (feeRun steps db₀) = cashPostings db₀ := by
  have hend := Conserved.run steps hstart.conserved
  exact ⟨hend.balance, hend.counted, fun id => (hend.collected id).1, hend.cash⟩

/-- The closes of the share on the first five days. -/
def fiveCloses : OffLedger where
  change db := { db with dailyCloses := [10, 12, 11, 13, 14].zipIdx.map fun (dollars, day) =>
    ⟨7, day, dollarsPerShare dollars, .confirmed, 86400000000 * day + 3⟩ }
  postings _ := rfl
  entries _ := rfl
  accruals _ := rfl
  charges _ := rfl

/-- The accrual of a day. -/
def accrualOf (day : Date) (id : Uuid) : FeeStep :=
  .fee (envAt (86400000000 * day + 4) id) (.accrueForCustomer (1 / 5) 1 day)

/-- The day on which January 1970 is billed. -/
def firstOfFebruary : CalendarDate := ⟨1970, 2, 1, by decide, by decide⟩

/-- The monthly job of February 1970, which bills January. -/
def chargeOfJanuary (id : Uuid) : FeeStep :=
  .fee (envAt (86400000000 * 31) id) (.createPendingCharge 1 firstOfFebruary)

/-- The customer attaches a payment method. -/
def withMethod (db : Database) : Database :=
  { db with paymentMethods := db.paymentMethods.upsert ⟨1, "cus", "pm"⟩ }

theorem feeCharges_withMethod (db : Database) : (withMethod db).feeCharges = db.feeCharges := rfl

/-- Accruals, one of them twice, the charge of the month, a failure, the success, and a late accrual
of the month; the charge and the success are repeated. -/
def januaryFees : List FeeStep := [
  .offLedger fiveCloses, accrualOf 0 11, accrualOf 1 12, accrualOf 2 13, accrualOf 1 14,
  accrualOf 3 15, chargeOfJanuary 16, .fee (envAt 32 17) (.applyChargeFailure 4 16),
  chargeOfJanuary 18, .fee (envAt 33 19) (.applyChargeSuccess 16 "ch"),
  .fee (envAt 34 20) (.applyChargeSuccess 16 "ch"), accrualOf 4 21]

theorem fee_liability_conserved_january :
    payableQuanta (feeRun januaryFees boughtShare) 1 = 5 ∧
      collectedQuanta (feeRun januaryFees boughtShare) 1 = 16 ∧
      collections (feeRun januaryFees boughtShare) 16 = 1 ∧
      payableQuanta (feeRun januaryFees boughtShare) 1 =
        accruedQuanta (feeRun januaryFees boughtShare) 1 -
          collectedQuanta (feeRun januaryFees boughtShare) 1 := by
  have hstart : NoFees boughtShare :=
    ⟨by decide +kernel, by decide +kernel, by decide +kernel, by decide +kernel⟩
  exact ⟨by decide +kernel, by decide +kernel, by decide +kernel,
    (fee_liability_conserved hstart januaryFees).1 1⟩

end Trueup.Fees

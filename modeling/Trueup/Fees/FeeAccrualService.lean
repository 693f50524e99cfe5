import Trueup.Ledger.Accounts
import Trueup.Valuation.TwrService

/-! # The daily fee accrual

`services/fees/high_water_mark_service.py` and `services/fees/fee_accrual_service.py`: a customer's
shadow value, the value on the day of the first flow grown by the time-weighted return since, is
compared with the highest one so far, and a fee is posted on what it gained. The comparison, the new
peak and the posting are in one savepoint.

`keeps_shadowNav`: the shadow value writes stored sub-periods and nothing else. `accrue_ok`: what
the savepoint wrote. -/

namespace Trueup.Fees

open Trueup.Core Trueup.Models Trueup.Lib Trueup.Lib.Transaction Trueup.Ledger Trueup.Valuation

/-- The days of the external flows of a customer. -/
def externalFlowDays (db : Database) (customerId : Uuid) : List Date :=
  (((db.postings.filter (·.account.customerId = some customerId)).filterMap fun p =>
    db.journalEntries.find p.journalEntryId).filter isExternalFlow).map (·.effectiveDate)

/-- `_first_flow_date`. -/
def firstFlowDate (db : Database) (customerId : Uuid) : Option Date :=
  (externalFlowDays db customerId).min?

/-- The return since the first flow: nothing on its own day. -/
def cumulativeTwr (env : Env) (customerId : Uuid) (firstFlow asOfDate : Date) : Tx ℚ :=
  if firstFlow = asOfDate then return 0
  else do
    let (twr, _) ← computeTwr env customerId firstFlow asOfDate
    return twr

/-- `shadow_nav`. -/
def shadowNav (env : Env) (customerId : Uuid) (asOfDate : Date) : Tx (Option Money) := do
  let found ← read fun db => .ok (firstFlowDate db customerId)
  match found.filter (· ≤ asOfDate) with
  | none => return none
  | some firstFlow =>
    let base ← read fun db => valueBook db customerId firstFlow
    if base.totalValue = 0 then return none
    else do
      let twr ← cumulativeTwr env customerId firstFlow asOfDate
      let shadow ← lift (Money.scale base.totalValue (context (1 + twr)))
      return some shadow

/-- `get_or_create`. -/
def getOrCreateMark (env : Env) (customerId : Uuid) (shadowValue : Money) : Tx HighWaterMark := do
  let existing ← read fun db => .ok (db.highWaterMarks.find customerId)
  match existing with
  | some mark => return mark
  | none =>
    addHighWaterMark ⟨customerId, shadowValue, env.now .updatedAt⟩
    return ⟨customerId, shadowValue, env.now .updatedAt⟩

/-- `ratchet`: the gain above the mark; the mark only rises. -/
def ratchet (env : Env) (mark : HighWaterMark) (shadowValue : Money) : Tx Money := do
  let gain ← lift (shadowValue.sub mark.peakValue)
  if gain ≤ 0 then return 0
  else do
    setHighWaterMark { mark with peakValue := shadowValue, updatedAt := env.now .updatedAt }
    return gain

/-- `_DAYS_PER_YEAR`. -/
def daysPerYear : ℚ := 365

/-- `_post_accrual`. -/
def postAccrual (env : Env) (customerId : Uuid) (accrualDate : Date) (gainAmount feeAmount : Money) :
    Tx FeeAccrual := do
  let payableAccount ← getOrCreateCustomerAccount customerId .feesAccruedPayable none
  let revenueAccount ← getOrCreateHouseAccount .feeRevenueAccrued
  let entry ← post (env.uuid4 .journalEntry) .feeAdjustment accrualDate
    (.feeAccrual customerId accrualDate gainAmount feeAmount)
    [.money payableAccount feeAmount, .money revenueAccount feeAmount.neg]
  let accrual : FeeAccrual := ⟨customerId, accrualDate, gainAmount, feeAmount, entry.id⟩
  addFeeAccrual accrual
  return accrual

/-- The body of the savepoint. -/
def accrue (env : Env) (feeRatePct : ℚ) (customerId : Uuid) (accrualDate : Date)
    (shadowValue : Money) : Tx FeeAccrual := do
  let mark ← getOrCreateMark env customerId shadowValue
  let gain ← ratchet env mark shadowValue
  let feeAmount ← lift (Money.scale gain (context (feeRatePct / daysPerYear)))
  postAccrual env customerId accrualDate gain feeAmount

/-- A constraint was violated. -/
def isIntegrityError : Error → Bool
  | .integrityError _ => true
  | _ => false

/-- `accrue_for_customer`. -/
def accrueForCustomer (env : Env) (feeRatePct : ℚ) (customerId : Uuid) (accrualDate : Date) :
    Tx (Option FeeAccrual) := do
  let shadow ← shadowNav env customerId accrualDate
  match shadow with
  | none => return none
  | some shadowValue =>
    savepoint isIntegrityError (accrue env feeRatePct customerId accrualDate shadowValue)

/-! ### What each wrote -/

theorem keeps_shadowNav {I : Database → Prop} {env : Env} {customerId : Uuid}
    (h : ∀ vBegin vEnd, Keeps I (subPeriodReturn env customerId vBegin vEnd)) (asOfDate : Date) :
    Keeps I (shadowNav env customerId asOfDate) := by
  refine keeps_bind (keeps_read _) fun found => ?_
  split
  · exact keeps_pure _
  · refine keeps_bind (keeps_read _) fun base => keeps_ite (keeps_pure _) (keeps_bind ?_ fun _ =>
      keeps_bind (keeps_lift _) fun _ => keeps_pure _)
    exact keeps_ite (keeps_pure _) (keeps_bind (keeps_computeTwr h _ _) fun _ => keeps_pure _)

theorem frames_shadowNav {γ : Type} {f : Database → γ}
    (hf : ∀ (db : Database) t, f { db with subPeriodReturns := t } = f db) (env : Env)
    (customerId : Uuid) (asOfDate : Date) : Frames f (shadowNav env customerId asOfDate) :=
  fun c => keeps_shadowNav (fun vBegin vEnd => frames_subPeriodReturn hf env customerId vBegin vEnd c)
    asOfDate

theorem shadowNav_writes {env : Env} {customerId : Uuid} {asOfDate : Date} {db db' : Database}
    {shadow : Option Money} (h : (shadowNav env customerId asOfDate).run db = .ok (shadow, db')) :
    db' = { db with subPeriodReturns := db'.subPeriodReturns } := by
  have hview := (frames_shadowNav (f := fun db => { db with subPeriodReturns := ∅ })
    (fun _ _ => rfl) env customerId asOfDate).eq h
  exact congrArg (fun d : Database => { d with subPeriodReturns := db'.subPeriodReturns }) hview

/-- The gain of a shadow value over the recorded mark; there is none over a new one. -/
def gainOver (mark : Option HighWaterMark) (shadowValue : Money) : ℤ :=
  mark.elim 0 fun mark => max 0 (shadowValue.quanta - mark.peakValue.quanta)

theorem getOrCreateMark_ok {env : Env} {customerId : Uuid} {shadowValue : Money}
    {db db' : Database} {mark : HighWaterMark}
    (h : (getOrCreateMark env customerId shadowValue).run db = .ok (mark, db')) :
    (db.highWaterMarks.find customerId = some mark ∨
      (db.highWaterMarks.find customerId = none ∧ mark.peakValue = shadowValue)) ∧
      ∃ marks, db' = { db with highWaterMarks := marks } := by
  simp only [getOrCreateMark, bind_ok, read_ok] at h
  obtain ⟨existing, _, ⟨hexisting, rfl⟩, h⟩ := h
  injection hexisting with hexisting
  cases existing with
  | some found =>
    obtain ⟨rfl, rfl⟩ := pure_ok.mp h
    exact ⟨Or.inl hexisting, _, rfl⟩
  | none =>
    simp only [bind_ok, addHighWaterMark_ok, pure_ok] at h
    obtain ⟨_, _, ⟨t, -, rfl⟩, rfl, rfl⟩ := h
    exact ⟨Or.inr ⟨hexisting, rfl⟩, t, rfl⟩

theorem ratchet_ok {env : Env} {mark : HighWaterMark} {shadowValue gain : Money}
    {db db' : Database} (h : (ratchet env mark shadowValue).run db = .ok (gain, db')) :
    gain.quanta = max 0 (shadowValue.quanta - mark.peakValue.quanta) ∧
      ∃ marks, db' = { db with highWaterMarks := marks } := by
  simp only [ratchet, bind_ok, lift_ok] at h
  obtain ⟨raised, _, ⟨hraised, rfl⟩, h⟩ := h
  have hquanta := Money.sub_ok.mp hraised
  split_ifs at h with hle
  · obtain ⟨rfl, rfl⟩ := pure_ok.mp h
    rw [QuantizedDecimal.le_def, hquanta] at hle
    exact ⟨(max_eq_left hle).symm, _, rfl⟩
  · simp only [bind_ok, setHighWaterMark_ok, pure_ok] at h
    obtain ⟨_, _, rfl, rfl, rfl⟩ := h
    rw [QuantizedDecimal.le_def, hquanta, not_le] at hle
    exact ⟨hquanta.trans (max_eq_right hle.le).symm, _, rfl⟩

/-- **What an accrual wrote**: the mark, the accounts on first use, the entry with its two postings,
and the row, whose gain is the one over the recorded mark. -/
theorem accrue_ok {env : Env} {feeRatePct : ℚ} {customerId : Uuid} {accrualDate : Date}
    {shadowValue : Money} {db db' : Database} {accrual : FeeAccrual}
    (h : (accrue env feeRatePct customerId accrualDate shadowValue).run db = .ok (accrual, db')) :
    ∃ gain feeAmount payable revenue entry marks accounts entries accruals,
      gain.quanta = gainOver (db.highWaterMarks.find customerId) shadowValue ∧
      Money.scale gain (context (feeRatePct / daysPerYear)) = .ok feeAmount ∧
      IsAccountOf payable customerId .feesAccruedPayable none ∧
      revenue.customerId = none ∧
      entry = ⟨env.uuid4 .journalEntry, .feeAdjustment, accrualDate,
        .feeAccrual customerId accrualDate gain feeAmount, none, none⟩ ∧
      accrual = ⟨customerId, accrualDate, gain, feeAmount, entry.id⟩ ∧
      db.journalEntries.insert entry = some entries ∧
      db.feeAccruals.insert accrual = some accruals ∧
      db' = { db with
        highWaterMarks := marks
        accounts := accounts
        journalEntries := entries
        postings := db.postings ++
          [⟨entry.id, payable, .money feeAmount⟩, ⟨entry.id, revenue, .money feeAmount.neg⟩]
        feeAccruals := accruals } := by
  simp only [accrue, postAccrual, bind_ok, lift_ok, addFeeAccrual_ok, pure_ok] at h
  obtain ⟨mark, _, hmark, gain, _, hgain, feeAmount, _, ⟨hfee, rfl⟩, payable, _, hpayable, revenue, _,
    hrevenue, entry, _, hpost, _, _, ⟨accruals, haccruals, rfl⟩, rfl, rfl⟩ := h
  obtain ⟨hpeak, marks, rfl⟩ := getOrCreateMark_ok hmark
  obtain ⟨hquanta, marks', rfl⟩ := ratchet_ok hgain
  obtain ⟨haccount, accounts, rfl⟩ := getOrCreateCustomerAccount_ok hpayable
  obtain ⟨hnone, -, accounts', rfl⟩ := getOrCreateHouseAccount_ok hrevenue
  obtain ⟨-, rfl, entries, hentries, rfl⟩ := post_ok hpost
  refine ⟨gain, feeAmount, payable, revenue, _, marks', accounts', entries, accruals, ?_, hfee,
    haccount, hnone, rfl, rfl, hentries, haccruals, rfl⟩
  rcases hpeak with hfound | ⟨hfound, hnew⟩
  · rw [hfound, hquanta]
    rfl
  · rw [hfound, hquanta, hnew, sub_self, max_self]
    rfl

/-- **What an accrual of a customer did**: nothing but stored sub-periods when there is no shadow
value or a constraint was violated, and the row of the savepoint otherwise. -/
theorem accrueForCustomer_ok {env : Env} {feeRatePct : ℚ} {customerId : Uuid} {accrualDate : Date}
    {db db' : Database} {r : Option FeeAccrual}
    (h : (accrueForCustomer env feeRatePct customerId accrualDate).run db = .ok (r, db')) :
    ∃ shadow db₁, (shadowNav env customerId accrualDate).run db = .ok (shadow, db₁) ∧
      ((r = none ∧ db' = db₁) ∨ ∃ shadowValue accrual, shadow = some shadowValue ∧
        r = some accrual ∧
        (accrue env feeRatePct customerId accrualDate shadowValue).run db₁ = .ok (accrual, db')) := by
  simp only [accrueForCustomer, bind_ok] at h
  obtain ⟨shadow, db₁, hshadow, h⟩ := h
  refine ⟨shadow, db₁, hshadow, ?_⟩
  cases shadow with
  | none =>
    obtain ⟨rfl, rfl⟩ := pure_ok.mp h
    exact Or.inl ⟨rfl, rfl⟩
  | some shadowValue =>
    rcases savepoint_ok.mp h with ⟨accrual, rfl, hrun⟩ | ⟨rfl, rfl, -⟩
    · exact Or.inr ⟨shadowValue, accrual, rfl, rfl, hrun⟩
    · exact Or.inl ⟨rfl, rfl⟩

end Trueup.Fees

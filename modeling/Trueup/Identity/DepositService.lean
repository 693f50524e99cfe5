import Trueup.Identity.Eligibility
import Trueup.Ledger.Accounts
import Trueup.Ledger.CashPolicy

/-! # Deposits

`services/identity/deposit_service.py`, and the confirmation of a settlement obligation. A deposit
posts its cash at once, with a pending obligation; the obligation is confirmed or, when the debit
bounces, failed with a correcting entry.

`initiateDeposit_ok`, `applyAchReturn_ok` and `confirmSettlement_ok` say what each wrote. -/

namespace Trueup.Identity

open Trueup.Core Trueup.Models Trueup.Lib Trueup.Lib.Transaction Trueup.Ledger

/-- `_ACH_SETTLEMENT_CALENDAR_DAYS`. -/
def achSettlementCalendarDays : ℤ := 2

structure DepositResult where
  journalEntryId : Uuid
  settlementObligationId : Uuid
  expectedSettlementDate : Date
  deriving DecidableEq

/-- `check_deposit_caps`. -/
def checkDepositCaps (amount depositedToday capPerTransaction capPerDay : Money) :
    Except Error Unit := do
  check (amount ≤ capPerTransaction) (.depositCapExceeded .perTransaction)
  let total ← depositedToday.add amount
  check (total ≤ capPerDay) (.depositCapExceeded .perDay)

/-- `build_ach_return_correction_legs`. -/
def achReturnCorrectionLegs (cashAccount receivableAccount : Account) (amount : Money) :
    List PostingLeg :=
  [.money cashAccount amount.neg, .money receivableAccount amount]

/-- `deposited_on`: the cash of the deposits of one day. -/
def depositedOn (db : Database) (customerId : Uuid) (effectiveDate : Date) : Except Error Money :=
  QuantizedDecimal.ofSum ((db.postings.filter fun p => isCashOf customerId p &&
    decide (∃ entry ∈ db.journalEntries.find p.journalEntryId,
      entry.entryType = .deposit ∧ entry.effectiveDate = effectiveDate)).map
    (·.amount.moneyQuanta)).sum

/-- `_account_for`: only the receivable account is opened on first use. -/
def accountFor (customerId : Uuid) (role : AccountRole) : Tx Account :=
  if role = .customerReceivable then getOrCreateCustomerAccount customerId role none
  else requireCustomerAccount customerId role

/-- The obligation of a deposit. -/
def depositObligation (env : Env) (customerId : Uuid) (amount : Money) (entryId : Uuid)
    (cashAccount : Account) (today : Date) : SettlementObligation where
  id := env.uuid4 .settlementObligation
  journalEntryId := entryId
  account := cashAccount
  amountMoney := amount
  expectedSettlementDate := today + achSettlementCalendarDays
  status := .pending
  confirmedAt := none
  failedAt := none
  failureReason := none
  sourceEvent := .depositSettlementExpected customerId amount

/-- `initiate`. -/
def initiateDeposit (env : Env) (customerId : Uuid) (amount : Money) : Tx DepositResult := do
  checkFundingEligibility customerId
  let _ ← checkActiveBankLink customerId
  let today := (env.now .effectiveDate).instant.utcDate
  let depositedToday ← read fun db => depositedOn db customerId today
  lift (checkDepositCaps amount depositedToday env.depositCapPerTransaction env.depositCapPerDay)
  let cashAccount ← accountFor customerId .cash
  let equityAccount ← accountFor customerId .customerEquity
  let entry ← post (env.uuid4 .journalEntry) .deposit today (.depositInitiated customerId amount)
    [.money cashAccount amount, .money equityAccount amount.neg]
  let obligation := depositObligation env customerId amount entry.id cashAccount today
  addSettlementObligation obligation
  return ⟨entry.id, obligation.id, obligation.expectedSettlementDate⟩

/-- `SettlementObligationRepository.get_by_id`, of an obligation that must exist. -/
def getObligation (obligationId : Uuid) : Tx SettlementObligation :=
  read fun db => ofOption (db.settlementObligations.find obligationId) .settlementObligationNotFound

/-- `SettlementObligationRepository.confirm`. -/
def confirmSettlement (env : Env) (obligationId : Uuid) : Tx Unit := do
  let obligation ← getObligation obligationId
  require (obligation.status = .pending) .valueError
  setSettlementObligation
    { obligation with status := .confirmed, confirmedAt := some (env.now .confirmedAt) }

/-- `SettlementObligationRepository.fail`. -/
def failSettlement (env : Env) (obligation : SettlementObligation) (reason : String) : Tx Unit := do
  require (obligation.status = .pending) .valueError
  setSettlementObligation
    { obligation with
      status := .failed, failedAt := some (env.now .failedAt), failureReason := some reason }

/-- `apply_ach_return`. -/
def applyAchReturn (env : Env) (obligationId : Uuid) : Tx Unit := do
  let obligation ← getObligation obligationId
  let customerId ← lift (ofOption obligation.account.customerId .settlementObligationNotFound)
  failSettlement env obligation "ach_return"
  let receivableAccount ← accountFor customerId .customerReceivable
  let _ ← post (env.uuid4 .journalEntry) .correction (env.now .effectiveDate).instant.utcDate
    (.depositAchReturn customerId obligation.amountMoney)
    (achReturnCorrectionLegs obligation.account receivableAccount obligation.amountMoney)

/-! ### What each wrote -/

theorem accountFor_ok {customerId : Uuid} {role : AccountRole} {db db' : Database}
    {account : Account} (h : (accountFor customerId role).run db = .ok (account, db')) :
    IsAccountOf account customerId role none ∧ ∃ accounts, db' = { db with accounts } := by
  unfold accountFor at h
  split_ifs at h
  · exact getOrCreateCustomerAccount_ok h
  · obtain ⟨ha, rfl⟩ := requireCustomerAccount_ok h
    exact ⟨ha, db'.accounts, rfl⟩

theorem accountFor_ok_of_ne {customerId : Uuid} {role : AccountRole} {db db' : Database}
    {account : Account} (hr : role ≠ .customerReceivable)
    (h : (accountFor customerId role).run db = .ok (account, db')) :
    IsAccountOf account customerId role none ∧ db' = db := by
  rw [accountFor, if_neg hr] at h
  exact requireCustomerAccount_ok h

/-- **What a deposit wrote**: its entry, its two postings and its pending obligation. -/
theorem initiateDeposit_ok {env : Env} {customerId : Uuid} {amount : Money} {db db' : Database}
    {r : DepositResult} (h : (initiateDeposit env customerId amount).run db = .ok (r, db')) :
    ∃ entry cash equity entries obligations,
      entry = ⟨env.uuid4 .journalEntry, .deposit, (env.now .effectiveDate).instant.utcDate,
        .depositInitiated customerId amount, none, none⟩ ∧
      IsAccountOf cash customerId .cash none ∧ IsAccountOf equity customerId .customerEquity none ∧
      db.journalEntries.insert entry = some entries ∧
      db.settlementObligations.insert (depositObligation env customerId amount entry.id cash
        (env.now .effectiveDate).instant.utcDate) = some obligations ∧
      db' = { db with
        journalEntries := entries
        postings := db.postings ++
          [⟨entry.id, cash, .money amount⟩, ⟨entry.id, equity, .money amount.neg⟩]
        settlementObligations := obligations } ∧
      r.settlementObligationId = env.uuid4 .settlementObligation ∧ r.journalEntryId = entry.id := by
  simp only [initiateDeposit, checkFundingEligibility, checkActiveBankLink, bind_ok, read_ok,
    lift_ok, requireEligible_ok, addSettlementObligation_ok, pure_ok] at h
  obtain ⟨_, _, ⟨-, rfl⟩, _, _, ⟨-, rfl⟩, _, _, ⟨-, rfl⟩, _, _, ⟨-, rfl⟩, cash, _, hrun, equity,
    _, hrun', entry, _, hpost, _, _, ⟨obligations, hobl, rfl⟩, rfl, rfl⟩ := h
  obtain ⟨hcash, rfl⟩ := accountFor_ok_of_ne (by decide) hrun
  obtain ⟨hequity, rfl⟩ := accountFor_ok_of_ne (by decide) hrun'
  obtain ⟨-, rfl, entries, hentries, rfl⟩ := post_ok hpost
  exact ⟨_, cash, equity, entries, obligations, rfl, hcash, hequity, hentries, hobl, rfl, rfl, rfl⟩

theorem getObligation_ok {obligationId : Uuid} {db db' : Database} {o : SettlementObligation} :
    (getObligation obligationId).run db = .ok (o, db') ↔
      db.settlementObligations.find obligationId = some o ∧ db = db' := by
  rw [getObligation, read_ok, ofOption_ok]

theorem confirmSettlement_ok {env : Env} {obligationId : Uuid} {db db' : Database} {u : Unit}
    (h : (confirmSettlement env obligationId).run db = .ok (u, db')) :
    ∃ o, db.settlementObligations.find obligationId = some o ∧ o.status = .pending ∧
      db' = { db with settlementObligations := (db.settlementObligations.set
        { o with status := .confirmed, confirmedAt := some (env.now .confirmedAt) }) } := by
  simp only [confirmSettlement, bind_ok, getObligation_ok, require_ok,
    setSettlementObligation_ok] at h
  obtain ⟨o, _, ⟨ho, rfl⟩, _, _, ⟨hp, rfl⟩, rfl⟩ := h
  exact ⟨o, ho, hp, rfl⟩

/-- **What a return wrote**: the failed obligation, and a correcting entry against the cash. -/
theorem applyAchReturn_ok {env : Env} {obligationId : Uuid} {db db' : Database} {u : Unit}
    (h : (applyAchReturn env obligationId).run db = .ok (u, db')) :
    ∃ o customerId entry receivable accounts entries,
      db.settlementObligations.find obligationId = some o ∧ o.status = .pending ∧
      o.account.customerId = some customerId ∧
      entry = ⟨env.uuid4 .journalEntry, .correction, (env.now .effectiveDate).instant.utcDate,
        .depositAchReturn customerId o.amountMoney, none, none⟩ ∧
      IsAccountOf receivable customerId .customerReceivable none ∧
      db.journalEntries.insert entry = some entries ∧
      db' = { db with
        settlementObligations := (db.settlementObligations.set { o with
          status := .failed, failedAt := some (env.now .failedAt)
          failureReason := some "ach_return" })
        accounts := accounts
        journalEntries := entries
        postings := db.postings ++ [⟨entry.id, o.account, .money o.amountMoney.neg⟩,
          ⟨entry.id, receivable, .money o.amountMoney⟩] } := by
  simp only [applyAchReturn, failSettlement, bind_ok, getObligation_ok, lift_ok, ofOption_ok,
    require_ok, setSettlementObligation_ok, pure_ok] at h
  obtain ⟨o, _, ⟨ho, rfl⟩, customerId, _, ⟨hc, rfl⟩, _, _, ⟨_, _, ⟨hp, rfl⟩, rfl⟩, receivable, _,
    hrun, entry, _, hpost, -, rfl⟩ := h
  obtain ⟨hrec, accounts, rfl⟩ := accountFor_ok hrun
  obtain ⟨-, rfl, entries, hentries, rfl⟩ := post_ok hpost
  exact ⟨o, customerId, _, receivable, accounts, entries, ho, hp, hc, rfl, hrec, hentries, rfl⟩

end Trueup.Identity

import Trueup.Identity.Eligibility
import Trueup.Ledger.Accounts
import Trueup.Ledger.CashPolicy

/-! # Withdrawals

`services/identity/withdrawal_service.py`: an amount up to `withdrawable` leaves the cash account at
once, without a settlement obligation. -/

namespace Trueup.Identity

open Trueup.Core Trueup.Models Trueup.Lib Trueup.Lib.Transaction Trueup.Ledger

structure WithdrawalResult where
  journalEntryId : Uuid
  destinationBankLinkId : Uuid
  deriving DecidableEq

/-- `initiate`. -/
def initiateWithdrawal (env : Env) (customerId : Uuid) (amount : Money) :
    Tx WithdrawalResult := do
  checkFundingEligibility customerId
  let destination ← checkActiveBankLink customerId
  let available ← read fun db => withdrawable db customerId
  require (amount ≤ available) .insufficientWithdrawableCash
  let cashAccount ← requireCustomerAccount customerId .cash
  let equityAccount ← requireCustomerAccount customerId .customerEquity
  let entry ← post (env.uuid4 .journalEntry) .withdrawal (env.now .effectiveDate).instant.utcDate
    (.withdrawalInitiated customerId amount)
    [.money cashAccount amount.neg, .money equityAccount amount]
  return ⟨entry.id, destination.id⟩

/-- **What a withdrawal wrote**: its entry and its two postings; the amount was withdrawable. -/
theorem initiateWithdrawal_ok {env : Env} {customerId : Uuid} {amount : Money} {db db' : Database}
    {r : WithdrawalResult} (h : (initiateWithdrawal env customerId amount).run db = .ok (r, db')) :
    ∃ available entry cash equity entries,
      withdrawable db customerId = .ok available ∧ amount ≤ available ∧
      entry = ⟨env.uuid4 .journalEntry, .withdrawal, (env.now .effectiveDate).instant.utcDate,
        .withdrawalInitiated customerId amount, none, none⟩ ∧
      IsAccountOf cash customerId .cash none ∧ IsAccountOf equity customerId .customerEquity none ∧
      db.journalEntries.insert entry = some entries ∧
      db' = { db with
        journalEntries := entries
        postings := db.postings ++
          [⟨entry.id, cash, .money amount.neg⟩, ⟨entry.id, equity, .money amount⟩] } := by
  simp only [initiateWithdrawal, checkFundingEligibility, checkActiveBankLink, bind_ok, read_ok,
    require_ok, requireEligible_ok, pure_ok] at h
  obtain ⟨_, _, ⟨-, rfl⟩, _, _, ⟨-, rfl⟩, available, _, ⟨hav, rfl⟩, _, _, ⟨hle, rfl⟩, cash, _,
    hrun, equity, _, hrun', entry, _, hpost, rfl, rfl⟩ := h
  obtain ⟨hcash, rfl⟩ := requireCustomerAccount_ok hrun
  obtain ⟨hequity, rfl⟩ := requireCustomerAccount_ok hrun'
  obtain ⟨-, rfl, entries, hentries, rfl⟩ := post_ok hpost
  exact ⟨available, _, cash, equity, entries, hav, hle, rfl, hcash, hequity, hentries, rfl⟩

end Trueup.Identity
